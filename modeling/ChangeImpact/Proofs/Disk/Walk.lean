import ChangeImpact.Disk.Basic
import ChangeImpact.Proofs.Disk.Entries
import ChangeImpact.Proofs.Path.Segments

/-!
# Proofs.Disk.Walk

Paths of the entries of a directory.

* `Disk.walk_append`       — a walk that ends at a directory goes on from there, also on another
  disk of the same shape.
* `Disk.placeOf_sameShape` — the directory is found there as well.
* `Disk.placeOf_child`     — what the path of an entry leads to, if that is not a link.
-/

namespace ChangeImpact

namespace Disk

/-! ## Walks -/

variable {d d' : Disk} {fl : Bool} {location : List String} {es : Entries} {more : List String}

theorem walkFrom_append {P : Except Fault Place → Prop}
    {follow follow' : List String → List String → Except Fault Place}
    (hshape : Entries.SameShape d.top d'.top) (hdir : d.at? location = some (.dir es))
    (hfollow : ∀ here segments, follow here segments = .ok (.taken location) →
      P (follow' here (segments ++ more)))
    (hend : P (walkFrom d' fl follow' location more))
    (hlink : more = [] → fl = false → ∀ l, P (.ok (.taken l))) :
    ∀ {segments here}, walkFrom d true follow here segments = .ok (.taken location) →
      P (walkFrom d' fl follow' here (segments ++ more)) := by
  intro segments
  induction segments with
  | nil =>
    intro here h
    cases h
    exact hend
  | cons segment rest ih =>
    intro here h
    rw [List.cons_append, walkFrom]
    rw [walkFrom] at h
    split at h
    · next hdot =>
      rw [if_pos hdot]
      exact ih h
    · next hdot =>
      rw [if_neg hdot]
      split at h
      · next hup =>
        rw [if_pos hup]
        exact ih h
      · next hup =>
        rw [if_neg hup]
        split at h
        · cases h
        · next hlong =>
          rw [if_neg hlong]
          split at h
          · split at h <;> cases h
          · next sub hsub =>
            obtain ⟨sub', hsub'⟩ := hshape.dir hsub
            have hat : d'.at? (here ++ [segment]) = some (.dir sub') := hsub'
            rw [hat]
            exact ih h
          · next bytes hfile =>
            split at h
            · cases h
              rw [hdir] at hfile
              cases hfile
            · cases h
          · next target htarget =>
            have hat : d'.at? (here ++ [segment]) = some (.link target) := hshape.link htarget
            rw [hat]
            simp only [Bool.not_true, Bool.and_false, Bool.false_eq_true, if_false] at h
            have hfollow := hfollow _ _ h
            dsimp only
            split
            · next hlast =>
              simp only [Bool.and_eq_true, List.isEmpty_iff, List.append_eq_nil_iff,
                Bool.not_eq_true'] at hlast
              exact hlink hlast.1.2 hlast.2 _
            · rwa [List.append_assoc] at hfollow

theorem walk_append (fl : Bool) (more : List String) (P : Except Fault Place → Prop)
    (hshape : Entries.SameShape d.top d'.top) (hdir : d.at? location = some (.dir es))
    (hend : ∀ hops, P (d'.walk fl hops location more))
    (hlink : more = [] → fl = false → ∀ l, P (.ok (.taken l))) :
    ∀ {hops segments here}, d.walk true hops here segments = .ok (.taken location) →
      P (d'.walk fl hops here (segments ++ more)) := by
  intro hops
  induction hops with
  | zero =>
    intro segments here h
    exact walkFrom_append hshape hdir (fun _ _ hf => nomatch hf) (hend 0) hlink h
  | succ hops ih =>
    intro segments here h
    exact walkFrom_append hshape hdir (fun _ _ hf => ih hf) (hend (hops + 1)) hlink h

theorem walk_nil (hops : Nat) {here : List String} : d.walk fl hops here [] = .ok (.taken here) := by
  cases hops <;> rfl

/-- An empty segment on the way makes no difference. -/
theorem walkFrom_skip {follow : List String → List String → Except Fault Place} {name : String}
    (hfollow : ∀ here segments,
      follow here (segments ++ ["", name]) = follow here (segments ++ [name])) :
    ∀ segments here, walkFrom d fl follow here (segments ++ ["", name]) =
      walkFrom d fl follow here (segments ++ [name]) := by
  intro segments
  induction segments with
  | nil =>
    intro here
    have hdot : Path.isDot "" = true := rfl
    rw [List.nil_append, walkFrom, if_pos hdot]
    rfl
  | cons segment rest ih =>
    intro here
    have hmore : (rest ++ ["", name]).isEmpty = false := by simp
    have hmore' : (rest ++ [name]).isEmpty = false := by simp
    have htarget : ∀ here target, follow here (target ++ (rest ++ ["", name])) =
        follow here (target ++ (rest ++ [name])) := by
      intro here target
      rw [← List.append_assoc, ← List.append_assoc, hfollow]
    rw [List.cons_append, List.cons_append, walkFrom, walkFrom, hmore, hmore']
    simp only [ih, htarget]

theorem walk_skip {name : String} : ∀ {hops here} segments,
    d.walk fl hops here (segments ++ ["", name]) = d.walk fl hops here (segments ++ [name]) := by
  intro hops
  induction hops with
  | zero => exact fun segments => walkFrom_skip (fun _ _ => rfl) segments _
  | succ hops ih => exact fun segments => walkFrom_skip (fun _ segments => ih segments) segments _

theorem walk_dot {hops : Nat} {here segments : List String} :
    d.walk fl hops here ("." :: segments) = d.walk fl hops here segments := by
  cases hops <;> simp [walk, walkFrom, Path.isDot]

/-! ## Places -/

section Places

variable {directory : String}

theorem placeOf_eq_walk {path : String} {place : Place} (h : d.placeOf fl path = .ok place) :
    isLongPath path = false ∧ path ≠ "" ∧
      d.walk fl maxHops (if Path.isRooted path then [] else d.here) (Path.segments path)
        = .ok place := by
  rw [placeOf] at h
  split at h
  · cases h
  · next hlong =>
    split at h
    · cases h
    · next hpath => exact ⟨by simpa using hlong, hpath, h⟩

/-- The directory is found again on a disk of the same shape. -/
theorem placeOf_sameShape (hshape : Entries.SameShape d.top d'.top) (hhere : d'.here = d.here)
    (hdir : d.at? location = some (.dir es))
    (h : d.placeOf true directory = .ok (.taken location)) :
    d'.placeOf true directory = .ok (.taken location) := by
  obtain ⟨hlong, hpath, hwalk⟩ := placeOf_eq_walk h
  have hwalk' := walk_append true [] (· = .ok (.taken location)) hshape hdir
    (fun hops => walk_nil hops) (fun _ hfl => nomatch hfl) hwalk
  rw [placeOf, if_neg (by simp [hlong]), if_neg hpath, hhere]
  rwa [List.append_nil] at hwalk'

/-- Something stands at the path of a directory also when a link at its end is not followed. -/
theorem placeOf_unfollowed (hdir : d.at? location = some (.dir es))
    (h : d.placeOf true directory = .ok (.taken location)) :
    ∃ l, d.placeOf false directory = .ok (.taken l) := by
  obtain ⟨hlong, hpath, hwalk⟩ := placeOf_eq_walk h
  have hshape : Entries.SameShape d.top d.top := ⟨fun hat => ⟨_, hat⟩, fun hat => hat⟩
  have hwalk' := walk_append false [] (fun r => ∃ l, r = .ok (.taken l)) hshape hdir
    (fun hops => ⟨location, walk_nil hops⟩) (fun _ _ l => ⟨l, rfl⟩) hwalk
  rw [placeOf, if_neg (by simp [hlong]), if_neg hpath]
  rwa [List.append_nil] at hwalk'

/-- A name that an entry can have. -/
structure IsName (name : String) : Prop where
  noSlash : '/' ∉ name.toList
  noNull : '\x00' ∉ name.toList
  notDot : Path.isDot name = false
  notUp : name ≠ ".."

theorem IsName.not_rooted {name : String} (h : IsName name) : Path.isRooted name = false := by
  cases hn : name.toList with
  | nil => simp [Path.isRooted, hn]
  | cons c cs =>
    have hc : c ≠ '/' := fun hc => h.noSlash (by simp [hn, hc])
    simp [Path.isRooted, hn, hc]

theorem IsName.ne_empty {name : String} (h : IsName name) : name ≠ "" := by
  intro hempty
  have hdot := h.notDot
  simp [hempty, Path.isDot] at hdot

/-- What a name leads to in a directory where it is not that of a link. -/
def entryPlace (location : List String) (es : Entries) (name : String) : Except Fault Place :=
  if isLongName name then .error .nameTooLong
  else
    match es.find? name with
    | none => .ok (.free location name)
    | some _ => .ok (.taken (location ++ [name]))

theorem walkFrom_name (hdir : d.at? location = some (.dir es)) {name : String}
    (hlink : es.NoLink name) (hname : IsName name)
    (follow : List String → List String → Except Fault Place) :
    walkFrom d fl follow location [name] = entryPlace location es name := by
  have hat : d.at? (location ++ [name]) = es.find? name := Entries.at?_append hdir name
  rw [walkFrom, if_neg (by simp [hname.notDot]), if_neg hname.notUp, entryPlace, hat]
  split
  · rfl
  · cases hfind : es.find? name with
    | none => rfl
    | some node =>
      cases node with
      | file bytes => rfl
      | link target => exact absurd hfind (hlink target)
      | dir sub => rfl

theorem walk_name (hdir : d.at? location = some (.dir es)) {name : String}
    (hlink : es.NoLink name) (hname : IsName name) (hops : Nat) :
    d.walk fl hops location [name] = entryPlace location es name := by
  cases hops <;> exact walkFrom_name hdir hlink hname _

/-- The path of an entry goes on from where that of the directory ends. -/
theorem exists_walk_child (hdir : d.at? location = some (.dir es)) {name : String}
    (hname : IsName name) (h : d.placeOf true directory = .ok (.taken location)) (fl : Bool) :
    ∃ hops, d.walk fl maxHops (if Path.isRooted (Path.child directory name) then [] else d.here)
      (Path.segments (Path.child directory name)) = d.walk fl hops location [name] := by
  obtain ⟨_, hpath, hwalk⟩ := placeOf_eq_walk h
  have hshape : Entries.SameShape d.top d.top := ⟨fun hat => ⟨_, hat⟩, fun hat => hat⟩
  obtain ⟨hops, hmore⟩ := walk_append fl [name] (fun r => ∃ hops, r = d.walk fl hops location [name])
    hshape hdir (fun hops => ⟨hops, rfl⟩) (fun hnil => nomatch hnil) hwalk
  refine ⟨hops, ?_⟩
  have hrooted := hname.not_rooted
  by_cases hdot : directory = "."
  · subst hdot
    have hsegments : Path.segments "." = ["."] := by decide
    have hstart : Path.isRooted "." = false := by decide
    rw [hsegments, hstart, List.cons_append, walk_dot] at hmore
    rw [Path.child, if_pos rfl, hrooted, Path.segments_undivided hname.noSlash]
    simpa using hmore
  · by_cases hslash : Path.endsInSlash directory = true
    · have hchild : Path.child directory name = directory ++ name := by
        simp [Path.child, Path.join, hdot, hrooted, hslash]
      obtain ⟨q, hq⟩ := Path.exists_of_endsInSlash hslash
      rw [hchild, Path.isRooted_append hpath, hq, Path.segments_append q name,
        Path.segments_undivided hname.noSlash, ← walk_skip, ← hq]
      rw [hq, Path.segments_slash, List.append_assoc, ← hq] at hmore
      exact hmore
    · have hchild : Path.child directory name = directory ++ "/" ++ name := by
        simp [Path.child, Path.join, hdot, hrooted, hslash, hpath]
      rw [hchild, String.append_assoc, Path.isRooted_append hpath, ← String.append_assoc,
        Path.segments_append directory name, Path.segments_undivided hname.noSlash]
      exact hmore

theorem child_ne_empty {name : String} (hname : IsName name) (directory : String) :
    Path.child directory name ≠ "" := by
  rcases Path.child_cases hname.not_rooted directory with hc | hc | hc <;>
    simp [hc, String.append_eq_empty_iff, hname.ne_empty]

theorem placeOf_child (hdir : d.at? location = some (.dir es)) {name : String}
    (hlink : es.NoLink name) (hname : IsName name)
    (h : d.placeOf true directory = .ok (.taken location)) :
    d.placeOf fl (Path.child directory name) =
      if isLongPath (Path.child directory name) then .error .nameTooLong
      else entryPlace location es name := by
  obtain ⟨hops, hwalk⟩ := exists_walk_child hdir hname h fl
  rw [placeOf, if_neg (child_ne_empty hname directory), hwalk, walk_name hdir hlink hname]

end Places

end Disk

end ChangeImpact
