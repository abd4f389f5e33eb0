import ChangeImpact.Proofs.Disk.Listing

/-!
# Proofs.Disk.Writing

What a file that is written changes for all paths of the disk, those through links among them.

* `Disk.Leads`        — what a place says of the disk.
* `Disk.FileWritten`  — the second disk is the first one with a file put in place.
* `Disk.Rerouted`     — how a path can lead elsewhere after that.
* `FileWritten.placeOf` — no path is rerouted in another way.
* `FileWritten.status`, `FileWritten.status_elsewhere` — what the paths that lead to the file show,
  and what all others do.
* `Lists.of_writeChild` — writing to an entry of a directory, even through links, is of this kind.
-/

namespace ChangeImpact

def Place.location : Place → List String
  | .taken location => location
  | .free directory name => directory ++ [name]

namespace Entries

/-- Nothing differs at a location but what is in a directory there. -/
def AlikeAt (es es' : Entries) (location : List String) : Prop :=
  es'.at? location = es.at? location ∨
    ∃ sub sub', es.at? location = some (.dir sub) ∧ es'.at? location = some (.dir sub')

theorem AlikeAt.trans {es es' es'' : Entries} {location : List String}
    (h : AlikeAt es es' location) (h' : AlikeAt es' es'' location) : AlikeAt es es'' location := by
  rcases h with h | ⟨sub, sub', hsub, hsub'⟩
  · rcases h' with h' | ⟨sub, sub', hsub, hsub'⟩
    · exact .inl (h'.trans h)
    · exact .inr ⟨sub, sub', h ▸ hsub, hsub'⟩
  · rcases h' with h' | ⟨_, sub'', _, hsub''⟩
    · exact .inr ⟨sub, sub', hsub, h'.trans hsub'⟩
    · exact .inr ⟨sub, sub'', hsub, hsub''⟩

theorem at?_below_file {es : Entries} {name m : String} (h : es.FileOrFree name)
    (more : List String) : es.at? (name :: m :: more) = none := by
  cases hn : es.find? name with
  | none => simp [at?, hn]
  | some node =>
    have hfile := h node hn
    cases node with
    | file bytes => simp [at?, hn]
    | link target => cases hfile
    | dir sub => cases hfile

theorem fileOrFree_set (es : Entries) (name : String) (bytes : ByteArray) :
    (es.set name (.file bytes)).FileOrFree name := by
  intro node hnode
  rw [find?_set, if_pos rfl, Option.some.injEq] at hnode
  exact hnode ▸ rfl

theorem alikeAt_of_find? {es es' : Entries} {name : String}
    (hother : ∀ n, n ≠ name → es'.find? n = es.find? n)
    (hbelow : ∀ m more, es'.at? (name :: m :: more) = es.at? (name :: m :: more))
    {location : List String} (hne : location ≠ [name]) : AlikeAt es es' location := by
  match location with
  | [] => exact .inr ⟨es, es', rfl, rfl⟩
  | [n] => exact .inl (hother n fun he => hne (by rw [he]))
  | n :: m :: more =>
    left
    by_cases hn : n = name
    · rw [hn]
      exact hbelow m more
    · simp only [at?, hother n hn]

theorem alikeAt_of_fileOrFree {es es' : Entries} {name : String} (h : es.FileOrFree name)
    (h' : es'.FileOrFree name) (hother : ∀ n, n ≠ name → es'.find? n = es.find? n)
    {location : List String} (hne : location ≠ [name]) : AlikeAt es es' location :=
  alikeAt_of_find? hother
    (fun m more => by rw [at?_below_file h, at?_below_file h']) hne

theorem alikeAt_set {es : Entries} {name : String} (h : es.FileOrFree name) (bytes : ByteArray)
    {location : List String} (hne : location ≠ [name]) :
    AlikeAt es (es.set name (.file bytes)) location :=
  alikeAt_of_fileOrFree h (fileOrFree_set es name bytes)
    (fun n hn => by rw [find?_set, if_neg hn.symm]) hne

theorem alikeAt_drop {es : Entries} {name : String} (h : es.FileOrFree name)
    {location : List String} (hne : location ≠ [name]) : AlikeAt es (es.drop name) location := by
  have hdropped : (es.drop name).FileOrFree name := fun node hnode => by simp at hnode
  exact alikeAt_of_fileOrFree h hdropped (fun n hn => by rw [find?_drop, if_neg hn.symm]) hne

/-- A change of one directory is not seen from places outside of it. -/
theorem alikeAt_amend {es : Entries} {f : Entries → Entries} {name : String}
    (hf : ∀ location, location ≠ [name] → AlikeAt es (f es) location) :
    ∀ {directory location : List String} {top : Entries}, top.at? directory = some (.dir es) →
      location ≠ directory ++ [name] → AlikeAt top (top.amend directory f) location := by
  intro directory
  induction directory with
  | nil =>
    intro location top h hne
    cases h
    exact hf location hne
  | cons n rest ih =>
    intro location top h hne
    obtain ⟨sub, hsub⟩ := find?_of_at?_cons h
    rw [at?_cons_dir hsub] at h
    simp only [amend, hsub]
    cases location with
    | nil => exact .inr ⟨top, _, rfl, rfl⟩
    | cons m more =>
      by_cases hm : n = m
      · subst hm
        have hset : (top.set n (.dir (amend rest f sub))).find? n =
            some (.dir (amend rest f sub)) := by simp
        have hmore : more ≠ rest ++ [name] := fun he => hne (by rw [he, List.cons_append])
        have hbelow := ih h hmore
        simpa only [AlikeAt, at?_cons_dir hsub, at?_cons_dir hset] using hbelow
      · left
        cases more <;> simp [at?, hm]

/-- What stands above a directory is one too. -/
theorem at?_dropLast {location : List String} {es : Entries} :
    ∀ {top : Entries}, top.at? location = some (.dir es) →
      ∃ es', top.at? location.dropLast = some (.dir es') := by
  induction location with
  | nil => exact fun _ => ⟨_, rfl⟩
  | cons n rest ih =>
    intro top h
    cases rest with
    | nil => exact ⟨top, rfl⟩
    | cons m more =>
      obtain ⟨sub, hsub⟩ := find?_of_at?_cons h
      rw [at?_cons_dir hsub] at h
      rw [List.dropLast_cons_cons, at?_cons_dir hsub]
      exact ih h

end Entries

namespace Disk

/-! ## Places -/

section Leads

variable {d : Disk} {here : List String} {es : Entries} {place : Place}

/-- What a place says of the disk: a directory, a file or a free name in a directory. -/
inductive Leads (d : Disk) : Place → Prop
  | dir {location : List String} {es : Entries} (h : d.at? location = some (.dir es)) :
      Leads d (.taken location)
  | file {directory : List String} {es : Entries} {name : String} {bytes : ByteArray}
      (h : d.at? directory = some (.dir es)) (hfile : es.find? name = some (.file bytes)) :
      Leads d (.taken (directory ++ [name]))
  | free {directory : List String} {es : Entries} {name : String}
      (h : d.at? directory = some (.dir es)) (hfree : es.find? name = none) :
      Leads d (.free directory name)

/-- What holds wherever a walk can end: at a directory, or in one at a file or a free name. It ends
at a link only if it does not follow links at the end. -/
structure AtEnds (d : Disk) (fl : Bool) (P : Place → Prop) : Prop where
  dir : ∀ {location} {es : Entries}, d.at? location = some (.dir es) → P (.taken location)
  file : ∀ {directory} {es : Entries} {name bytes}, d.at? directory = some (.dir es) →
    es.find? name = some (.file bytes) → P (.taken (directory ++ [name]))
  link : fl = false → ∀ location, P (.taken location)
  free : ∀ {directory} {es : Entries} {name}, d.at? directory = some (.dir es) →
    es.find? name = none → P (.free directory name)

theorem AtEnds.walkFrom {fl : Bool} {P : Place → Prop} (hP : AtEnds d fl P)
    {follow : List String → List String → Except Fault Place}
    (hfollow : ∀ {here : List String} {es : Entries} {segments : List String} {place : Place},
      d.at? here = some (.dir es) → follow here segments = .ok place → P place)
    {segments : List String} (hdir : d.at? here = some (.dir es))
    (h : Disk.walkFrom d fl follow here segments = .ok place) : P place := by
  induction segments generalizing here es with
  | nil =>
    cases h
    exact hP.dir hdir
  | cons segment rest ih =>
    have hat : d.at? (here ++ [segment]) = es.find? segment := Entries.at?_append hdir segment
    rw [Disk.walkFrom] at h
    split at h
    · exact ih hdir h
    · split at h
      · obtain ⟨es', hup⟩ := Entries.at?_dropLast hdir
        exact ih hup h
      · split at h
        · cases h
        · split at h
          · next hnone =>
            split at h
            · cases h
              exact hP.free hdir (hat ▸ hnone)
            · cases h
          · next sub hsub => exact ih hsub h
          · next bytes hbytes =>
            split at h
            · cases h
              exact hP.file hdir (hat ▸ hbytes)
            · cases h
          · next target htarget =>
            split at h
            · next hlast =>
              cases h
              simp only [Bool.and_eq_true, Bool.not_eq_true'] at hlast
              exact hP.link hlast.2 _
            · split at h
              · have htop : d.at? [] = some (.dir d.top) := rfl
                exact hfollow htop h
              · exact hfollow hdir h

theorem AtEnds.walk {fl : Bool} {P : Place → Prop} (hP : AtEnds d fl P) {hops : Nat}
    {segments : List String} (hdir : d.at? here = some (.dir es))
    (h : d.walk fl hops here segments = .ok place) : P place := by
  induction hops generalizing here es segments place with
  | zero => exact hP.walkFrom (fun _ hf => by cases hf) hdir h
  | succ hops ih => exact hP.walkFrom (fun hat hf => ih hat hf) hdir h

theorem leads_walk {hops : Nat} {segments : List String} (hdir : d.at? here = some (.dir es))
    (h : d.walk true hops here segments = .ok place) : Leads d place := by
  have hends : AtEnds d true (Leads d) := {
    dir := .dir
    file := .file
    link := fun hfl => nomatch hfl
    free := .free }
  exact hends.walk hdir h

end Leads

/-- What a path shows whose place is this one. -/
def seen (d : Disk) (shown : String) : Except Fault Place → Except Failure (List String × Node)
  | .error f => .error (.disk f shown)
  | .ok (.free ..) => .error (.disk .noEntry shown)
  | .ok (.taken location) =>
    match d.at? location with
    | some node => .ok (location, node)
    | none => .error (.disk .noEntry shown)

theorem status_eq_seen {d : Disk} {path : String} (hnull : hasNull path = false) (shown : String) :
    d.status path shown = d.seen shown (d.placeOf true path) := by
  rw [status, place, if_neg (by simp [hnull])]
  rcases d.placeOf true path with f | _ | _ <;> rfl

/-- The place of a path is this one, whether a node is there or not. -/
def LeadsTo (d : Disk) (path : String) (location : List String) : Prop :=
  hasNull path = false ∧ ∃ place, d.placeOf true path = .ok place ∧ place.location = location

theorem LeadsTo.unique {d : Disk} {path : String} {location location' : List String}
    (h : d.LeadsTo path location) (h' : d.LeadsTo path location') : location = location' := by
  obtain ⟨-, place, hplace, rfl⟩ := h
  obtain ⟨-, place', hplace', rfl⟩ := h'
  rw [hplace, Except.ok.injEq] at hplace'
  rw [hplace']

/-- Two paths of one file. -/
def SameFile (d : Disk) (path path' : String) : Prop :=
  ∃ location, d.LeadsTo path location ∧ d.LeadsTo path' location

/-! ## A file put in place -/

structure FileWritten (d d' : Disk) (location : List String) (bytes : ByteArray) : Prop where
  parent : ∃ directory name, ∃ es : Entries, location = directory ++ [name] ∧
    d.at? directory = some (.dir es) ∧ es.FileOrFree name
  result : d' = d.put location (.file bytes)

/-- A name that was free is taken now. Whoever wanted to go on from there is told that it is no
directory instead of that it does not exist. -/
inductive Rerouted (location : List String) : Except Fault Place → Except Fault Place → Prop
  | same {r} (h : ∀ place, r = .ok place → place.location = location → place = .taken location) :
      Rerouted location r r
  | made {directory name} (h : directory ++ [name] = location) :
      Rerouted location (.ok (.free directory name)) (.ok (.taken location))
  | blocked : Rerouted location (.error .noEntry) (.error .notDirectory)

namespace Rerouted

variable {location : List String}

theorem error (f : Fault) : Rerouted location (.error f) (.error f) := .same (by simp)

theorem taken (l : List String) : Rerouted location (.ok (.taken l)) (.ok (.taken l)) :=
  .same (by rintro _ ⟨⟩ rfl; rfl)

theorem free {directory : List String} {name : String} (h : directory ++ [name] ≠ location) :
    Rerouted location (.ok (.free directory name)) (.ok (.free directory name)) :=
  .same (by rintro _ ⟨⟩ he; exact absurd he h)

end Rerouted

namespace FileWritten

variable {d d' : Disk} {location : List String} {bytes : ByteArray}

theorem parent_after (h : FileWritten d d' location bytes) :
    ∃ directory name, ∃ es : Entries, location = directory ++ [name] ∧
      d'.at? directory = some (.dir es) ∧ es.FileOrFree name ∧
        es.find? name = some (.file bytes) := by
  obtain ⟨directory, name, es, rfl, hdir, _⟩ := h.parent
  refine ⟨directory, name, es.set name (.file bytes), rfl, ?_, Entries.fileOrFree_set es name bytes,
    by simp⟩
  rw [h.result, put, Entries.put_append]
  exact Entries.at?_amend _ hdir

theorem at?_self (h : FileWritten d d' location bytes) :
    d'.at? location = some (.file bytes) := by
  obtain ⟨directory, name, es, rfl, hdir, _, hnode⟩ := h.parent_after
  exact (Entries.at?_append hdir name).trans hnode

theorem at?_before (h : FileWritten d d' location bytes) :
    d.at? location = none ∨ ∃ before, d.at? location = some (.file before) := by
  obtain ⟨directory, name, es, rfl, hdir, hfile⟩ := h.parent
  have hat : d.at? (directory ++ [name]) = es.find? name := Entries.at?_append hdir name
  cases hnode : es.find? name with
  | none => exact .inl (hat.trans hnode)
  | some node =>
    have hisFile := hfile node hnode
    cases node with
    | file before => exact .inr ⟨before, hat.trans hnode⟩
    | link target => cases hisFile
    | dir sub => cases hisFile

theorem alikeAt (h : FileWritten d d' location bytes) {l : List String} (hne : l ≠ location) :
    Entries.AlikeAt d.top d'.top l := by
  obtain ⟨directory, name, es, rfl, hdir, hfile⟩ := h.parent
  rw [h.result, put, Entries.put_append]
  exact Entries.alikeAt_amend (fun _ hl => Entries.alikeAt_set hfile bytes hl) hdir hne

theorem walkFrom (h : FileWritten d d' location bytes) {fl : Bool}
    {follow follow' : List String → List String → Except Fault Place}
    (hfollow : ∀ here segments, Rerouted location (follow here segments) (follow' here segments)) :
    ∀ segments here, Rerouted location (walkFrom d fl follow here segments)
      (walkFrom d' fl follow' here segments) := by
  intro segments
  induction segments with
  | nil => exact fun here => .taken here
  | cons segment rest ih =>
    intro here
    rw [Disk.walkFrom, Disk.walkFrom]
    split
    · exact ih here
    · split
      · exact ih here.dropLast
      · split
        · exact .error .nameTooLong
        · by_cases hhere : here ++ [segment] = location
          · rw [hhere, h.at?_self]
            obtain hnone | ⟨before, hbefore⟩ := h.at?_before
            · rw [hnone]
              dsimp only
              split
              · exact .made hhere
              · exact .blocked
            · rw [hbefore]
              dsimp only
              split
              · exact .taken location
              · exact .error .notDirectory
          · obtain heq | ⟨sub, sub', hsub, hsub'⟩ := h.alikeAt hhere
            · have hat : d'.at? (here ++ [segment]) = d.at? (here ++ [segment]) := heq
              rw [hat]
              split
              · split
                · exact .free hhere
                · exact .error .noEntry
              · exact ih (here ++ [segment])
              · split
                · exact .taken (here ++ [segment])
                · exact .error .notDirectory
              · split
                · exact .taken (here ++ [segment])
                · exact hfollow _ _
            · have hat : d.at? (here ++ [segment]) = some (.dir sub) := hsub
              have hat' : d'.at? (here ++ [segment]) = some (.dir sub') := hsub'
              rw [hat, hat']
              exact ih (here ++ [segment])

theorem walk (h : FileWritten d d' location bytes) (fl : Bool) :
    ∀ hops here segments, Rerouted location (d.walk fl hops here segments)
      (d'.walk fl hops here segments) := by
  intro hops
  induction hops with
  | zero => exact fun here segments => h.walkFrom (fun _ _ => .error .linkLoop) segments here
  | succ hops ih => exact fun here segments => h.walkFrom ih segments here

/-- No path leads elsewhere, but to the new file. -/
theorem placeOf (h : FileWritten d d' location bytes) (fl : Bool) (path : String) :
    Rerouted location (d.placeOf fl path) (d'.placeOf fl path) := by
  have hhere : d'.here = d.here := by rw [h.result, put]
  rw [Disk.placeOf, Disk.placeOf, hhere]
  split
  · exact .error .nameTooLong
  · split
    · exact .error .noEntry
    · exact h.walk fl maxHops _ _

/-- A path to the file leads to it also when it was not there before. -/
theorem placeOf_of_leadsTo (h : FileWritten d d' location bytes) {path : String}
    (hpath : d.LeadsTo path location) : d'.placeOf true path = .ok (.taken location) := by
  obtain ⟨hnull, place, hplace, hlocation⟩ := hpath
  have hrerouted := h.placeOf true path
  rw [hplace] at hrerouted
  generalize d'.placeOf true path = after at hrerouted ⊢
  cases hrerouted with
  | same hsame => rw [hsame place rfl hlocation]
  | made hmade => rfl

theorem status (h : FileWritten d d' location bytes) {path : String}
    (hpath : d.LeadsTo path location) (shown : String) :
    d'.status path shown = .ok (location, .file bytes) := by
  rw [status_eq_seen hpath.1, h.placeOf_of_leadsTo hpath, seen, h.at?_self]

/-- On a path that leads elsewhere nothing is found, lost or changed. -/
theorem status_elsewhere (h : FileWritten d d' location bytes) {path : String}
    (hpath : ¬ d.LeadsTo path location) (shown : String) :
    d'.status path shown = d.status path shown ∨
      (∃ l sub sub', d.status path shown = .ok (l, .dir sub) ∧
        d'.status path shown = .ok (l, .dir sub')) ∨
      (d.status path shown = .error (.disk .noEntry shown) ∧
        d'.status path shown = .error (.disk .notDirectory shown)) := by
  cases hnull : hasNull path with
  | true =>
    left
    simp [Disk.status, place, hnull]
  | false =>
    have helsewhere : ∀ place, d.placeOf true path = .ok place → place.location ≠ location :=
      fun place hplace he => hpath ⟨hnull, place, hplace, he⟩
    have hrerouted := h.placeOf true path
    rw [status_eq_seen hnull, status_eq_seen hnull]
    generalize d.placeOf true path = before, d'.placeOf true path = after
      at hrerouted helsewhere ⊢
    cases hrerouted with
    | same _ =>
      rcases before with f | l | ⟨directory, name⟩
      · exact .inl rfl
      · obtain heq | ⟨sub, sub', hsub, hsub'⟩ := h.alikeAt (helsewhere _ rfl)
        · have hat : d'.at? l = d.at? l := heq
          exact .inl (by rw [seen, seen, hat])
        · have hat : d.at? l = some (.dir sub) := hsub
          have hat' : d'.at? l = some (.dir sub') := hsub'
          exact .inr (.inl ⟨l, sub, sub', by rw [seen, hat], by rw [seen, hat']⟩)
      · exact .inl rfl
    | made hmade => exact absurd hmade (helsewhere _ rfl)
    | blocked => exact .inr (.inr ⟨rfl, rfl⟩)

theorem of_write {path : String} (hleads : ∀ place, d.placeOf true path = .ok place → Leads d place)
    (h : d.write path bytes = .ok d') :
    ∃ location, d.LeadsTo path location ∧ FileWritten d d' location bytes := by
  rw [Disk.write, place] at h
  by_cases hnull : hasNull path = true
  · simp [hnull] at h
  rw [if_neg hnull] at h
  have hnull : hasNull path = false := by simpa using hnull
  cases hplace : d.placeOf true path with
  | error f => simp [hplace] at h
  | ok place =>
    refine ⟨place.location, ⟨hnull, place, hplace, rfl⟩, ?_⟩
    rw [hplace] at h
    cases hleads place hplace with
    | free hdir hfree =>
      cases h
      exact ⟨⟨_, _, _, rfl, hdir, fun node hnode => by simp [hfree] at hnode⟩, rfl⟩
    | dir hdir => simp [hdir] at h
    | @file directory es name before hdir hfile =>
      have hat : d.at? (directory ++ [name]) = some (.file before) :=
        (Entries.at?_append hdir name).trans hfile
      simp only [hat, Except.ok.injEq] at h
      refine ⟨⟨directory, name, es, rfl, hdir, fun node hnode => ?_⟩, h.symm⟩
      rw [hfile, Option.some.injEq] at hnode
      exact hnode ▸ rfl

/-- The file can be written again. -/
theorem rewritten (h : FileWritten d d' location bytes) {path : String}
    (hpath : d.LeadsTo path location) {bytes' : ByteArray} {d'' : Disk}
    (hwrite : d'.write path bytes' = .ok d'') :
    d'.LeadsTo path location ∧ FileWritten d' d'' location bytes' := by
  have hplace := h.placeOf_of_leadsTo hpath
  refine ⟨⟨hpath.1, _, hplace, rfl⟩, ?_⟩
  have hresult : d'' = d'.put location (.file bytes') := by
    simp only [Disk.write, place, hpath.1, hplace, h.at?_self, Bool.false_eq_true, if_false,
      Except.ok.injEq] at hwrite
    exact hwrite.symm
  obtain ⟨directory, name, es, hlocation, hdir, hfile, _⟩ := h.parent_after
  exact ⟨⟨directory, name, es, hlocation, hdir, hfile⟩, hresult⟩

end FileWritten

namespace Lists

variable {d : Disk} {directory name : String} {es : Entries}

theorem leads_child (h : d.Lists directory es) (hname : IsName name) {place : Place}
    (hplace : d.placeOf true (Path.child directory name) = .ok place) : Leads d place := by
  obtain ⟨location, hdirectory, hat⟩ := h.found
  obtain ⟨hops, hwalk⟩ := exists_walk_child hat hname hdirectory true
  obtain ⟨_, _, hchild⟩ := placeOf_eq_walk hplace
  exact leads_walk hat (hwalk.symm.trans hchild)

/-- An entry that is no link stands where it is looked for. -/
theorem eq_of_leadsTo {here location : List String} (hat : d.at? here = some (.dir es))
    (hdirectory : d.placeOf true directory = .ok (.taken here)) (hlink : es.NoLink name)
    (hname : IsName name) (h : d.LeadsTo (Path.child directory name) location) :
    location = here ++ [name] := by
  obtain ⟨_, place, hplace, rfl⟩ := h
  rw [placeOf_child hat hlink hname hdirectory, entryPlace] at hplace
  split at hplace
  · cases hplace
  · split at hplace
    · cases hplace
    · cases hnode : es.find? name <;> simp only [hnode, Except.ok.injEq] at hplace <;>
        rw [← hplace] <;> rfl

/-- An entry of a directory is written where its path leads. -/
theorem of_writeChild (h : d.Lists directory es) (hname : IsName name) {bytes : ByteArray}
    {d' : Disk} (hwrite : d.write (Path.child directory name) bytes = .ok d') :
    ∃ location, d.LeadsTo (Path.child directory name) location ∧
      FileWritten d d' location bytes :=
  FileWritten.of_write (fun _ hplace => h.leads_child hname hplace) hwrite

end Lists

end Disk

end ChangeImpact
