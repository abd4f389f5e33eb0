import ChangeImpact.Disk.Scan
import ChangeImpact.Proofs.Disk.Listing

/-!
# Proofs.Disk.Hops

Where the entries of a directory lead when no link on the way is one too many.

* `walk_mono`        — a walk that does not end for its links ends the same with more of them.
* `EntryLeads`       — where an entry leads, however many links it takes.
* `ways`             — the paths by which a scan asks for an entry.
* `WithinLimits`     — neither of them is too long or leads through too many links.
* `status_way`       — what the system then says of them.
-/

namespace ChangeImpact

namespace Disk

variable {d : Disk} {fl : Bool}

/-! ## More links -/

theorem walkFrom_mono {follow follow' : List String → List String → Except Fault Place}
    (hfollow : ∀ here segments, follow here segments ≠ .error .linkLoop →
      follow' here segments = follow here segments) :
    ∀ {segments here}, walkFrom d fl follow here segments ≠ .error .linkLoop →
      walkFrom d fl follow' here segments = walkFrom d fl follow here segments := by
  intro segments
  induction segments with
  | nil => exact fun _ => rfl
  | cons segment rest ih =>
    intro here h
    rw [walkFrom] at h ⊢
    rw [walkFrom]
    split at h
    · next hdot =>
      rw [if_pos hdot, if_pos hdot]
      exact ih h
    · next hdot =>
      rw [if_neg hdot, if_neg hdot]
      split at h
      · next hup =>
        rw [if_pos hup, if_pos hup]
        exact ih h
      · next hup =>
        rw [if_neg hup, if_neg hup]
        split at h
        · next hlong => rw [if_pos hlong, if_pos hlong]
        · next hlong =>
          rw [if_neg hlong, if_neg hlong]
          split at h
          · rfl
          · exact ih h
          · rfl
          · split at h
            · next hlast => rw [if_pos hlast, if_pos hlast]
            · next hlast =>
              rw [if_neg hlast, if_neg hlast]
              exact hfollow _ _ h

theorem walk_succ : ∀ {hops segments here}, d.walk fl hops here segments ≠ .error .linkLoop →
    d.walk fl (hops + 1) here segments = d.walk fl hops here segments
  | 0, _, _, h => walkFrom_mono (fun _ _ hloop => absurd rfl hloop) h
  | _ + 1, _, _, h => walkFrom_mono (fun _ _ hloop => walk_succ hloop) h

theorem walk_mono {hops more : Nat} {here segments : List String} (hle : hops ≤ more)
    (h : d.walk fl hops here segments ≠ .error .linkLoop) :
    d.walk fl more here segments = d.walk fl hops here segments := by
  induction hle with
  | refl => rfl
  | step _ ih => rw [walk_succ (by rwa [ih]), ih]

/-- Two walks along the same segments differ only where one of them runs out of links. -/
theorem walk_agree {hops hops' : Nat} {here segments : List String}
    (h : d.walk fl hops here segments ≠ .error .linkLoop)
    (h' : d.walk fl hops' here segments ≠ .error .linkLoop) :
    d.walk fl hops here segments = d.walk fl hops' here segments := by
  rcases Nat.le_total hops hops' with hle | hle
  · exact (walk_mono hle h).symm
  · exact walk_mono hle h'

/-! ## Entries -/

/-- A name in the directory at a location leads to another location, however many links it
takes. -/
def EntryLeads (d : Disk) (location : List String) (name : String) (target : List String) : Prop :=
  ∃ hops, d.walk true hops location [name] = .ok (.taken target)

/-- The paths by which a scan asks for an entry of the directory at a path. -/
def ways (directory name : String) : List String :=
  [entryPath directory name, Path.child directory name]

/-- The system can be asked for an entry: no path to it is too long, and none leads through more
links than are followed. -/
def WithinLimits (d : Disk) (directory name : String) : Prop :=
  ∀ way ∈ ways directory name,
    d.placeOf true way ≠ .error .nameTooLong ∧ d.placeOf true way ≠ .error .linkLoop

section Ways

variable {directory name way : String} {location target : List String} {es : Entries}

theorem entryPath_eq (hname : IsName name) (directory : String) :
    entryPath directory name = Path.child directory name ∨
      directory = "." ∧ Path.child directory name = name ∧
        entryPath directory name = "." ++ "/" ++ name := by
  by_cases hdot : directory = "."
  · subst hdot
    have hslash : Path.endsInSlash "." = false := by decide
    exact .inr ⟨rfl, by rw [Path.child, if_pos rfl],
      by simp [entryPath, Path.join, hname.not_rooted, hslash]⟩
  · exact .inl (by rw [entryPath, Path.child, if_neg hdot])

theorem ways_cases (hname : IsName name) (hway : way ∈ ways directory name) :
    way = Path.child directory name ∨
      directory = "." ∧ Path.child directory name = name ∧ way = "." ++ "/" ++ name := by
  rcases List.mem_pair.mp hway with rfl | rfl
  · exact entryPath_eq hname directory
  · exact .inl rfl

/-- A way to an entry goes on from where the path of the directory ends. -/
theorem exists_walk_way (hdir : d.at? location = some (.dir es)) (hname : IsName name)
    (h : d.placeOf true directory = .ok (.taken location)) (hway : way ∈ ways directory name) :
    way ≠ "" ∧ ∃ hops, d.walk true maxHops (if Path.isRooted way then [] else d.here)
      (Path.segments way) = d.walk true hops location [name] := by
  obtain ⟨hops, hwalk⟩ := exists_walk_child hdir hname h true
  rcases ways_cases hname hway with rfl | ⟨rfl, hchild, rfl⟩
  · exact ⟨child_ne_empty hname directory, hops, hwalk⟩
  · have hrooted : Path.isRooted ("." ++ "/" ++ name) = false := by
      rw [String.append_assoc, Path.isRooted_append (by decide)]
      decide
    have hdot : Path.segments "." = ["."] := by decide
    rw [hchild, hname.not_rooted] at hwalk
    refine ⟨by simp [String.append_eq_empty_iff], hops, ?_⟩
    rw [hrooted, Path.segments_append, hdot, List.singleton_append, walk_dot]
    exact hwalk

theorem hasNull_way (hnull : hasNull directory = false) (hname : IsName name)
    (hway : way ∈ ways directory name) : hasNull way = false := by
  have hdirectory : '\x00' ∉ directory.toList := by simpa [hasNull] using hnull
  have hfree := hname.noNull
  rcases ways_cases hname hway with rfl | ⟨_, _, rfl⟩
  · rcases Path.child_cases hname.not_rooted directory with hc | hc | hc <;>
      simp [hc, hasNull, hdirectory, hfree]
  · simp [hasNull, hfree]

/-- Where the system goes on a way, the entry leads. -/
theorem entryLeads_of_way (hdir : d.at? location = some (.dir es)) (hname : IsName name)
    (h : d.placeOf true directory = .ok (.taken location)) (hway : way ∈ ways directory name)
    (hplace : d.placeOf true way = .ok (.taken target)) : d.EntryLeads location name target := by
  obtain ⟨_, hops, hwalk⟩ := exists_walk_way hdir hname h hway
  exact ⟨hops, hwalk ▸ (placeOf_eq_walk hplace).2.2⟩

/-- Within the limits the system goes where the entry leads. -/
theorem placeOf_way (hdir : d.at? location = some (.dir es)) (hname : IsName name)
    (h : d.placeOf true directory = .ok (.taken location)) (hway : way ∈ ways directory name)
    (hwithin : d.WithinLimits directory name) (hleads : d.EntryLeads location name target) :
    d.placeOf true way = .ok (.taken target) := by
  obtain ⟨hne, hops, hwalk⟩ := exists_walk_way hdir hname h hway
  obtain ⟨hops', htarget⟩ := hleads
  obtain ⟨hlong, hloop⟩ := hwithin way hway
  rw [placeOf] at hlong hloop ⊢
  split at hlong
  · exact absurd rfl hlong
  · next hshort =>
    rw [if_neg hshort, if_neg hne, hwalk] at hloop
    rw [if_neg hshort, if_neg hne, hwalk, ← htarget]
    exact walk_agree hloop (by simp [htarget])

theorem status_eq_ok_iff {path shown : String} {node : Node} :
    d.status path shown = .ok (target, node) ↔
      hasNull path = false ∧ d.placeOf true path = .ok (.taken target) ∧
        d.at? target = some node := by
  rw [status, place]
  cases hnull : hasNull path with
  | true => simp
  | false =>
    cases hplace : d.placeOf true path with
    | error f => simp
    | ok p =>
      cases p with
      | free l name => simp
      | taken l =>
        cases hat : d.at? l with
        | none =>
          have hother : l = target → ¬ d.at? target = some node := by
            rintro rfl
            simp [hat]
          simpa [hat] using hother
        | some found =>
          simp only [hat, Bool.false_eq_true, if_false, Except.ok.injEq, Prod.mk.injEq, true_and,
            Place.taken.injEq]
          constructor
          · rintro ⟨rfl, rfl⟩
            exact ⟨rfl, hat⟩
          · rintro ⟨rfl, hnode⟩
            exact ⟨rfl, Option.some.inj (hat.symm.trans hnode)⟩

variable (hdirectory : d.status directory directory = .ok (location, .dir es))
  (hname : IsName name) (hway : way ∈ ways directory name) {node : Node}

include hdirectory hname hway

theorem entryLeads_of_status (hstatus : d.status way way = .ok (target, node)) :
    d.EntryLeads location name target ∧ d.at? target = some node := by
  obtain ⟨_, hplace, hdir⟩ := status_eq_ok_iff.mp hdirectory
  obtain ⟨_, htarget, hnode⟩ := status_eq_ok_iff.mp hstatus
  exact ⟨entryLeads_of_way hdir hname hplace hway htarget, hnode⟩

theorem status_way (hwithin : d.WithinLimits directory name)
    (hleads : d.EntryLeads location name target) (hnode : d.at? target = some node) :
    d.status way way = .ok (target, node) := by
  obtain ⟨hnull, hplace, hdir⟩ := status_eq_ok_iff.mp hdirectory
  exact status_eq_ok_iff.mpr ⟨hasNull_way hnull hname hway,
    placeOf_way hdir hname hplace hway hwithin hleads, hnode⟩

end Ways

end Disk

end ChangeImpact
