import ChangeImpact.Proofs.Disk.Writing

/-!
# Proofs.Disk.Making

What directories that are made change for the paths of a disk.

* `Disk.Stands` — the working directory exists.
* `Disk.Grown`  — everything that was there is still there, at the same place.
* `Grown.readText` — a file is read as before.
* `grown_makeDirectories` — the disk grows like this when directories are made, and their path leads
  to one in the end.
* `FileWritten.readText` — what is read again of a text that has been written.
-/

namespace ChangeImpact

namespace Entries

theorem alikeAt_makeDir {es : Entries} {name : String} (h : es.find? name = none)
    {location : List String} (hne : location ≠ [name]) :
    AlikeAt es (es.set name (.dir [])) location := by
  refine alikeAt_of_find? (fun n hn => by rw [find?_set, if_neg hn.symm]) (fun m more => ?_) hne
  have hset : (es.set name (.dir [])).find? name = some (.dir []) := by simp
  have hempty : at? (m :: more) [] = none := by cases more <;> rfl
  rw [at?_cons_dir hset, hempty]
  simp [at?, h]

end Entries

namespace Disk

/-- There is a directory where paths without a slash at the start begin. -/
def Stands (d : Disk) : Prop := ∃ es, d.at? d.here = some (.dir es)

/-- What was there is there, but for what directories hold. -/
structure Grown (d d' : Disk) : Prop where
  kept : ∀ {location node}, d.at? location = some node → Entries.AlikeAt d.top d'.top location
  here : d'.here = d.here
  hereShown : d'.hereShown = d.hereShown

namespace Grown

variable {d d' d'' : Disk}

theorem refl (d : Disk) : Grown d d := ⟨fun _ => .inl rfl, rfl, rfl⟩

theorem dir (h : Grown d d') {location : List String} {es : Entries}
    (hat : d.at? location = some (.dir es)) : ∃ es', d'.at? location = some (.dir es') := by
  rcases h.kept hat with hsame | ⟨_, es', _, hat'⟩
  · exact ⟨es, hsame.trans hat⟩
  · exact ⟨es', hat'⟩

theorem other (h : Grown d d') {location : List String} {node : Node}
    (hat : d.at? location = some node) (hnode : node.isDir = false) :
    d'.at? location = some node := by
  rcases h.kept hat with hsame | ⟨es, _, hdir, _⟩
  · exact hsame.trans hat
  · rw [← Option.some.inj (hdir.symm.trans hat)] at hnode
    cases hnode

theorem exists_node (h : Grown d d') {location : List String} {node : Node}
    (hat : d.at? location = some node) : ∃ node', d'.at? location = some node' := by
  rcases h.kept hat with hsame | ⟨_, es', _, hat'⟩
  · exact ⟨node, hsame.trans hat⟩
  · exact ⟨_, hat'⟩

theorem trans (h : Grown d d') (h' : Grown d' d'') : Grown d d'' where
  kept hat := by
    obtain ⟨_, hat'⟩ := h.exists_node hat
    exact (h.kept hat).trans (h'.kept hat')
  here := h'.here.trans h.here
  hereShown := h'.hereShown.trans h.hereShown

theorem stands (h : Grown d d') (hd : d.Stands) : d'.Stands := by
  obtain ⟨es, hat⟩ := hd
  obtain ⟨es', hat'⟩ := h.dir hat
  exact ⟨es', by rw [h.here, hat']⟩

/-! ## Paths -/

/-- Where a walk ends on the grown disk that ended at a place: at what is there, or at the directory
that has been put there. -/
inductive Reaches (d' : Disk) (fl fl' : Bool) : Place → List String → Prop
  | taken {location : List String} (h : fl = fl') : Reaches d' fl fl' (.taken location) location
  | made {directory : List String} {name : String} {es : Entries} (hfl : fl' = true)
      (hat : d'.at? (directory ++ [name]) = some (.dir es)) :
      Reaches d' fl fl' (.free directory name) (directory ++ [name])

variable {location : List String} {fl fl' : Bool} {place : Place}

/-- A walk goes the same way to what is there. -/
theorem walkFrom (h : Grown d d') (hplace : Reaches d' fl fl' place location)
    {follow follow' : List String → List String → Except Fault Place}
    (hfollow : ∀ here segments, follow here segments = .ok place →
      follow' here segments = .ok (.taken location)) :
    ∀ {segments here}, walkFrom d fl follow here segments = .ok place →
      Disk.walkFrom d' fl' follow' here segments = .ok (.taken location) := by
  intro segments
  induction segments with
  | nil =>
    intro here hwalk
    cases hwalk
    cases hplace
    rfl
  | cons segment rest ih =>
    intro here hwalk
    rw [Disk.walkFrom] at hwalk ⊢
    split at hwalk
    · next hdot => rw [if_pos hdot, ih hwalk]
    · next hdot =>
      rw [if_neg hdot]
      split at hwalk
      · next hup => rw [if_pos hup, ih hwalk]
      · next hup =>
        rw [if_neg hup]
        split at hwalk
        · cases hwalk
        · next hlong =>
          rw [if_neg hlong]
          split at hwalk
          · split at hwalk
            · next hlast =>
              cases hwalk
              cases hplace with
              | made _ hat =>
                rw [List.isEmpty_iff.mp hlast, hat]
                rfl
            · cases hwalk
          · next sub hsub =>
            obtain ⟨sub', hsub'⟩ := h.dir hsub
            rw [hsub']
            exact ih hwalk
          · next bytes hbytes =>
            rw [h.other hbytes rfl]
            split at hwalk
            · next hlast =>
              cases hwalk
              cases hplace
              simp [hlast]
            · cases hwalk
          · next target htarget =>
            rw [h.other htarget rfl]
            split at hwalk
            · next hlast =>
              cases hwalk
              cases hplace with
              | taken hfl => simp only [← hfl, hlast, if_true]
            · next hlast =>
              have hgoesOn : (rest.isEmpty && !fl') = false := by
                cases hplace with
                | taken hfl => simpa [← hfl] using hlast
                | made hfl _ => simp [hfl]
              simp only [hgoesOn, Bool.false_eq_true, if_false]
              exact hfollow _ _ hwalk

theorem walk (h : Grown d d') (hplace : Reaches d' fl fl' place location) :
    ∀ {hops here segments}, d.walk fl hops here segments = .ok place →
      d'.walk fl' hops here segments = .ok (.taken location) := by
  intro hops
  induction hops with
  | zero =>
    intro here segments hwalk
    change Disk.walkFrom d fl (fun _ _ => .error .linkLoop) here segments = .ok place at hwalk
    exact h.walkFrom hplace (fun _ _ hf => by cases hf) hwalk
  | succ hops ih => exact fun hwalk => h.walkFrom hplace (fun _ _ hf => ih hf) hwalk

theorem placeOf (h : Grown d d') (hplace : Reaches d' fl fl' place location) {path : String}
    (hpath : d.placeOf fl path = .ok place) : d'.placeOf fl' path = .ok (.taken location) := by
  obtain ⟨hlong, hne, hwalk⟩ := placeOf_eq_walk hpath
  rw [Disk.placeOf, if_neg (by simp [hlong]), if_neg hne, h.here]
  exact h.walk hplace hwalk

/-- A path to a file shows the same file. -/
theorem readBytes (h : Grown d d') {path shown : String} {bytes : ByteArray}
    (hread : d.readBytes path shown = .ok bytes) : d'.readBytes path shown = .ok bytes := by
  rw [Disk.readBytes, Disk.status, place] at hread
  rw [Disk.readBytes, Disk.status, place]
  by_cases hnull : hasNull path = true
  · simp [hnull] at hread
  · rw [if_neg hnull] at hread ⊢
    cases hplace : d.placeOf true path with
    | error f => simp [hplace] at hread
    | ok place =>
      cases place with
      | free directory name => simp [hplace] at hread
      | taken location =>
        rw [h.placeOf (.taken rfl) hplace]
        cases hat : d.at? location with
        | none => simp [hplace, hat] at hread
        | some node =>
          cases node with
          | file found =>
            simp only [hplace, hat, Except.ok.injEq] at hread
            simp [h.other hat rfl, hread]
          | link target => simp [hplace, hat] at hread
          | dir sub => simp [hplace, hat] at hread

theorem readText (h : Grown d d') {path shown text : String}
    (hread : d.readText path shown = .ok text) : d'.readText path shown = .ok text := by
  rw [Disk.readText] at hread ⊢
  cases hbytes : d.readBytes path shown with
  | error e => simp [hbytes] at hread
  | ok bytes => rwa [h.readBytes hbytes, ← hbytes]

end Grown

/-! ## Directories that are made -/

section Making

variable {d d' : Disk} {here location directory : List String} {name : String} {es : Entries}

/-- A free name is free in a directory that exists. -/
theorem free_placeOf (hd : d.Stands) {fl : Bool} {path : String}
    (h : d.placeOf fl path = .ok (.free directory name)) :
    ∃ es : Entries, d.at? directory = some (.dir es) ∧ es.find? name = none := by
  have hends : AtEnds d fl fun place => ∀ directory name, place = .free directory name →
      ∃ es : Entries, d.at? directory = some (.dir es) ∧ es.find? name = none := {
    dir _ := by rintro _ _ ⟨⟩
    file _ _ := by rintro _ _ ⟨⟩
    link _ _ := by rintro _ _ ⟨⟩
    free hat hname := by
      rintro _ _ ⟨⟩
      exact ⟨_, hat, hname⟩ }
  obtain ⟨_, _, hwalk⟩ := placeOf_eq_walk h
  obtain ⟨es, hhere⟩ := hd
  split at hwalk
  · have htop : d.at? [] = some (.dir d.top) := rfl
    exact hends.walk htop hwalk _ _ rfl
  · exact hends.walk hhere hwalk _ _ rfl

/-- One directory is made where its path leads, and nothing else changes. -/
theorem grown_makeDirectory (hd : d.Stands) {path : String}
    (h : d.makeDirectory path = .ok d') : Grown d d' ∧ ∃ es, d'.Lists path es := by
  rw [makeDirectory, place] at h
  by_cases hnull : hasNull path = true
  · simp [hnull] at h
  rw [if_neg hnull] at h
  cases hplace : d.placeOf false path with
  | error f => simp [hplace] at h
  | ok place =>
    cases place with
    | taken location => simp [hplace] at h
    | free directory name =>
      simp only [hplace, Except.ok.injEq] at h
      subst h
      obtain ⟨es, hdir, hfree⟩ := free_placeOf hd hplace
      have hresult : d.put (directory ++ [name]) (.dir []) =
          { d with top := d.top.amend directory (Entries.set name (.dir [])) } := by
        rw [put, Entries.put_append]
      have hnone : d.at? (directory ++ [name]) = none := (Entries.at?_append hdir name).trans hfree
      have hgrown : Grown d (d.put (directory ++ [name]) (.dir [])) := by
        rw [hresult]
        refine ⟨fun {location node} hat => ?_, rfl, rfl⟩
        have hne : location ≠ directory ++ [name] := by
          rintro rfl
          rw [hnone] at hat
          cases hat
        exact Entries.alikeAt_amend (fun _ hl => Entries.alikeAt_makeDir hfree hl) hdir hne
      have hmade : (d.put (directory ++ [name]) (.dir [])).at? (directory ++ [name]) =
          some (.dir []) := by
        rw [hresult]
        exact (Entries.at?_append (Entries.at?_amend _ hdir) name).trans (by simp)
      exact ⟨hgrown, [], by simpa using hnull, _,
        hgrown.placeOf (.made rfl hmade) hplace, hmade⟩

theorem grown_provideDirectory (hd : d.Stands) {path : String}
    (h : d.provideDirectory path = .ok d') : Grown d d' ∧ ∃ es, d'.Lists path es := by
  rw [provideDirectory] at h
  split at h
  · next hmade =>
    cases h
    exact grown_makeDirectory hd hmade
  · split at h
    · next hdirectory =>
      cases h
      refine ⟨.refl d, ?_⟩
      rw [isDirectory, asks] at hdirectory
      split at hdirectory
      · next location node hstatus =>
        cases node with
        | dir es => exact ⟨es, .of_status hstatus⟩
        | file bytes => cases hdirectory
        | link target => cases hdirectory
      · split at hdirectory <;> cases hdirectory
    · cases h

theorem grown_makeDirectoriesAbove (fuel : Nat) :
    ∀ {d d' : Disk} {path : String}, d.Stands → d.makeDirectoriesAbove fuel path = .ok d' →
      Grown d d' ∧ ∃ es, d'.Lists path es := by
  induction fuel with
  | zero => exact fun hd h => grown_provideDirectory hd h
  | succ fuel ih =>
    intro d d' path hd h
    rw [makeDirectoriesAbove] at h
    split at h
    · next hmade =>
      cases h
      exact grown_makeDirectory hd hmade
    · dsimp only at h
      split at h
      · cases h
      · split at h
        · cases h
        · next habove =>
          obtain ⟨hgrown, _⟩ := ih hd habove
          obtain ⟨hgrown', hlists⟩ := grown_provideDirectory (hgrown.stands hd) h
          exact ⟨hgrown.trans hgrown', hlists⟩
    · exact grown_provideDirectory hd h

theorem grown_makeDirectories (hd : d.Stands) {path : String}
    (h : d.makeDirectories path = .ok d') : Grown d d' ∧ ∃ es, d'.Lists path es :=
  grown_makeDirectoriesAbove path.length hd h

end Making

/-! ## Files that are written -/

theorem FileWritten.stands {d d' : Disk} {location : List String} {bytes : ByteArray}
    (h : FileWritten d d' location bytes) (hd : d.Stands) : d'.Stands := by
  obtain ⟨es, hat⟩ := hd
  have hhere : d'.here = d.here := by rw [h.result, put]
  have hne : d.here ≠ location := by
    rintro he
    rw [he] at hat
    obtain hnone | ⟨before, hbefore⟩ := h.at?_before
    · rw [hnone] at hat
      cases hat
    · rw [hbefore] at hat
      cases hat
  obtain hsame | ⟨_, sub', _, hat'⟩ := h.alikeAt hne
  · exact ⟨es, by rw [hhere]; exact hsame.trans hat⟩
  · exact ⟨sub', by rw [hhere]; exact hat'⟩

/-- A text that has been written is read again, with its line ends normalized. -/
theorem FileWritten.readText {d d' : Disk} {location : List String} {path text : String}
    (h : FileWritten d d' location text.toUTF8) (hpath : d.LeadsTo path location)
    (shown : String) : d'.readText path shown = .ok (normalized text) := by
  rw [Disk.readText, Disk.readBytes, h.status hpath]
  simp only [Text.Utf8.decode?_toUTF8]

theorem isPresent_of_readText {d : Disk} {path text : String}
    (h : d.readText path path = .ok text) : d.isPresent path = .ok true := by
  rw [readText, readBytes] at h
  rw [isPresent, asks]
  cases hstatus : d.status path path with
  | error e => simp [hstatus] at h
  | ok found => rfl

/-- A path without a null fails with a fault of the system. -/
theorem disk_of_write_error {d : Disk} {path : String} {bytes : ByteArray} {e : Failure}
    (hnull : hasNull path = false) (h : d.write path bytes = .error e) :
    ∃ f, e = .disk f path := by
  rw [write, place, if_neg (by simp [hnull])] at h
  cases hplace : d.placeOf true path with
  | error f =>
    simp only [hplace, Except.error.injEq] at h
    exact ⟨f, h.symm⟩
  | ok place =>
    cases place with
    | free directory name => simp [hplace] at h
    | taken location =>
      simp only [hplace] at h
      split at h <;> cases h
      exact ⟨.isDirectory, rfl⟩

end Disk

end ChangeImpact
