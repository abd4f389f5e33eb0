import ChangeImpact.Disk.Files
import ChangeImpact.Proofs.Disk.Walk

/-!
# Proofs.Disk.Listing

A directory on a disk with any entries, and what the operations on one of its files do to it.

* `Disk.Lists`          — the directory at a path has the given entries.
* `Disk.Fits`           — a name that the system can be asked for.
* `Disk.amendAt`        — the disk after a change of the entries of one directory.
* `Lists.isPresent`, `Lists.readBytes_eq_ok_iff` — questions about one file.
* `Lists.write_eq`, `Lists.unlink_eq` — changes of one file as changes of the entries.
* `Lists.write`, `Lists.unlink` — which leave all other entries alone.
* `Lists.of_write`      — what a change that has been made shows.
* `Lists.makeDirectories` — providing the directory once more changes nothing.
-/

namespace ChangeImpact

namespace Disk

structure Lists (d : Disk) (directory : String) (es : Entries) : Prop where
  noNull : hasNull directory = false
  found : ∃ location, d.placeOf true directory = .ok (.taken location) ∧
    d.at? location = some (.dir es)

/-- A name for a file of the directory, short enough for the system. -/
structure Fits (directory name : String) : Prop where
  isName : IsName name
  shortName : isLongName name = false
  shortPath : isLongPath (Path.child directory name) = false

/-- Changes the entries of the directory at a path. -/
def amendAt (d : Disk) (directory : String) (f : Entries → Entries) : Disk :=
  match d.placeOf true directory with
  | .ok (.taken location) => { d with top := d.top.amend location f }
  | _ => d

namespace Lists

variable {d : Disk} {directory name : String} {es : Entries}

theorem of_status {location : List String}
    (h : d.status directory directory = .ok (location, .dir es)) : d.Lists directory es := by
  rw [Disk.status, place] at h
  by_cases hnull : hasNull directory = true
  · simp [hnull] at h
  · rw [if_neg hnull] at h
    cases hplace : d.placeOf true directory with
    | error f => simp [hplace] at h
    | ok p =>
      rw [hplace] at h
      cases p with
      | free directory name => cases h
      | taken l =>
        cases hat : d.at? l with
        | none => simp [hat] at h
        | some node =>
          simp only [hat, Except.ok.injEq, Prod.mk.injEq] at h
          obtain ⟨rfl, rfl⟩ := h
          exact ⟨by simpa using hnull, ⟨l, hplace, hat⟩⟩

theorem status (h : d.Lists directory es) :
    ∃ location, d.status directory directory = .ok (location, .dir es) := by
  obtain ⟨location, hplace, hat⟩ := h.found
  exact ⟨location, by simp [Disk.status, place, h.noNull, hplace, hat]⟩

theorem hasNull_child (h : d.Lists directory es) (hname : IsName name) :
    hasNull (Path.child directory name) = false := by
  have hdirectory : '\x00' ∉ directory.toList := by simpa [hasNull] using h.noNull
  have hnull := hname.noNull
  rcases Path.child_cases hname.not_rooted directory with hc | hc | hc <;>
    simp [hc, hasNull, hdirectory, hnull]

/-! ## One of the names -/

theorem at?_child {location : List String} {node : Node}
    (hat : d.at? location = some (.dir es)) (hnode : es.find? name = some node) :
    d.at? (location ++ [name]) = some node := by
  rw [← hnode]
  exact Entries.at?_append hat name

/-- What the path of a name leads to, whether it is taken or not. -/
theorem place_child (h : d.Lists directory es) (hlink : es.NoLink name)
    (hfits : Fits directory name) (fl : Bool) (shown : String) :
    ∃ location, d.at? location = some (.dir es) ∧
      d.placeOf true directory = .ok (.taken location) ∧
      d.place fl (Path.child directory name) shown =
        .ok (match es.find? name with
          | none => .free location name
          | some _ => .taken (location ++ [name])) := by
  obtain ⟨location, hplace, hat⟩ := h.found
  refine ⟨location, hat, hplace, ?_⟩
  have hnull := h.hasNull_child hfits.isName
  rw [place, placeOf_child hat hlink hfits.isName hplace, hfits.shortPath, entryPlace,
    hfits.shortName, hnull]
  cases es.find? name <;> rfl

theorem place_of_not_fits (h : d.Lists directory es) (hlink : es.NoLink name)
    (hname : IsName name) (hfits : ¬ Fits directory name) (fl : Bool) (shown : String) :
    d.place fl (Path.child directory name) shown = .error (.disk .nameTooLong shown) := by
  obtain ⟨location, hplace, hat⟩ := h.found
  have hnull := h.hasNull_child hname
  rw [place, placeOf_child hat hlink hname hplace, hnull, entryPlace]
  cases hpath : isLongPath (Path.child directory name) with
  | true => rfl
  | false =>
    have hlong : isLongName name = true := by
      by_contra hshort
      exact hfits ⟨hname, by simpa using hshort, hpath⟩
    simp [hlong]

theorem status_child (h : d.Lists directory es) (hlink : es.NoLink name)
    (hfits : Fits directory name) {node : Node} (hnode : es.find? name = some node)
    (shown : String) :
    ∃ location, d.status (Path.child directory name) shown = .ok (location, node) := by
  obtain ⟨location, hat, _, hplace⟩ := h.place_child hlink hfits true shown
  have hchild : d.at? (location ++ [name]) = some node := at?_child hat hnode
  exact ⟨location ++ [name], by simp [Disk.status, hplace, hnode, hchild]⟩

theorem status_child_none (h : d.Lists directory es) (hfits : Fits directory name)
    (hnode : es.find? name = none) (shown : String) :
    d.status (Path.child directory name) shown = .error (.disk .noEntry shown) := by
  have hlink : es.NoLink name := fun target ht => by simp [hnode] at ht
  obtain ⟨location, _, _, hplace⟩ := h.place_child hlink hfits true shown
  simp [Disk.status, hplace, hnode]

theorem isPresent (h : d.Lists directory es) (hlink : es.NoLink name)
    (hfits : Fits directory name) :
    d.isPresent (Path.child directory name) = .ok (es.find? name).isSome := by
  cases hnode : es.find? name with
  | none => simp [Disk.isPresent, asks, h.status_child_none hfits hnode, meansAbsent]
  | some node =>
    obtain ⟨location, hstatus⟩ := h.status_child hlink hfits hnode (Path.child directory name)
    simp [Disk.isPresent, asks, hstatus]

/-- The system does not answer for a name that is too long. -/
theorem isPresent_of_not_fits (h : d.Lists directory es) (hlink : es.NoLink name)
    (hname : IsName name) (hfits : ¬ Fits directory name) :
    d.isPresent (Path.child directory name) =
      .error (.disk .nameTooLong (Path.child directory name)) := by
  have hplace := h.place_of_not_fits hlink hname hfits true (Path.child directory name)
  simp [Disk.isPresent, asks, Disk.status, hplace, meansAbsent]

theorem fits_of_isPresent (h : d.Lists directory es) (hlink : es.NoLink name)
    (hname : IsName name) {b : Bool} (hpresent : d.isPresent (Path.child directory name) = .ok b) :
    Fits directory name := by
  by_contra hfits
  rw [h.isPresent_of_not_fits hlink hname hfits] at hpresent
  cases hpresent

theorem readBytes_eq_ok_iff (h : d.Lists directory es) (hlink : es.NoLink name)
    (hfits : Fits directory name) (shown : String) {bytes : ByteArray} :
    d.readBytes (Path.child directory name) shown = .ok bytes ↔
      es.find? name = some (.file bytes) := by
  cases hnode : es.find? name with
  | none => simp [Disk.readBytes, h.status_child_none hfits hnode]
  | some node =>
    obtain ⟨location, hstatus⟩ := h.status_child hlink hfits hnode shown
    cases node with
    | file found => simp [Disk.readBytes, hstatus]
    | link target => simp [Disk.readBytes, hstatus]
    | dir sub => simp [Disk.readBytes, hstatus]

/-! ## Changes -/

theorem amendAt_eq {location : List String}
    (hplace : d.placeOf true directory = .ok (.taken location)) (f : Entries → Entries) :
    d.amendAt directory f = { d with top := d.top.amend location f } := by
  rw [Disk.amendAt, hplace]

/-- The directory after a change of its entries. -/
theorem amendAt (h : d.Lists directory es) {f : Entries → Entries}
    (hf : Entries.SameShape es (f es)) : (d.amendAt directory f).Lists directory (f es) := by
  obtain ⟨location, hplace, hat⟩ := h.found
  have hshape := Entries.sameShape_amend hf hat
  rw [amendAt_eq hplace]
  refine ⟨h.noNull, ⟨location, ?_, Entries.at?_amend f hat⟩⟩
  exact placeOf_sameShape hshape rfl hat hplace

theorem amendAt_amendAt (h : d.Lists directory es) {f : Entries → Entries}
    (hf : Entries.SameShape es (f es)) (g : Entries → Entries) :
    (d.amendAt directory f).amendAt directory g = d.amendAt directory (g ∘ f) := by
  obtain ⟨location, hplace, hat⟩ := h.found
  have hshape := Entries.sameShape_amend hf hat
  have hplace' : Disk.placeOf { d with top := d.top.amend location f } true directory =
      .ok (.taken location) := placeOf_sameShape hshape rfl hat hplace
  rw [amendAt_eq hplace, amendAt_eq hplace', amendAt_eq hplace, Entries.amend_amend f g hat]

theorem amendAt_congr (h : d.Lists directory es) {f g : Entries → Entries} (hfg : f es = g es) :
    d.amendAt directory f = d.amendAt directory g := by
  obtain ⟨location, hplace, hat⟩ := h.found
  rw [amendAt_eq hplace, amendAt_eq hplace, Entries.amend_congr hfg hat]

theorem write_eq (h : d.Lists directory es) (hfile : es.FileOrFree name)
    (hfits : Fits directory name) (bytes : ByteArray) :
    d.write (Path.child directory name) bytes =
      .ok (d.amendAt directory (Entries.set name (.file bytes))) := by
  obtain ⟨location, hat, hdirectory, hplace⟩ :=
    h.place_child hfile.noLink hfits true (Path.child directory name)
  rw [Disk.write, hplace, amendAt_eq hdirectory]
  cases hnode : es.find? name with
  | none => simp [put, Entries.put_append]
  | some node =>
    have hchild : d.at? (location ++ [name]) = some node := at?_child hat hnode
    have hisFile := hfile node hnode
    cases node with
    | file before => simp [hchild, put, Entries.put_append]
    | link target => cases hisFile
    | dir sub => cases hisFile

theorem write (h : d.Lists directory es) (hfile : es.FileOrFree name)
    (hfits : Fits directory name) (bytes : ByteArray) :
    ∃ d', d.write (Path.child directory name) bytes = .ok d' ∧
      d'.Lists directory (es.set name (.file bytes)) :=
  ⟨_, h.write_eq hfile hfits bytes, h.amendAt (Entries.sameShape_file hfile (.file bytes))⟩

/-- Nothing is written under a name that is too long or that of a directory. -/
theorem of_write (h : d.Lists directory es) (hlink : es.NoLink name) (hname : IsName name)
    {bytes : ByteArray} {d' : Disk}
    (hwrite : d.write (Path.child directory name) bytes = .ok d') :
    Fits directory name ∧ es.FileOrFree name ∧ d'.Lists directory (es.set name (.file bytes)) := by
  have hfits : Fits directory name := by
    by_contra hfits
    rw [Disk.write, h.place_of_not_fits hlink hname hfits] at hwrite
    cases hwrite
  have hfile : es.FileOrFree name := by
    intro node hnode
    obtain ⟨location, hat, _, hplace⟩ :=
      h.place_child hlink hfits true (Path.child directory name)
    have hchild : d.at? (location ++ [name]) = some node := at?_child hat hnode
    rw [Disk.write, hplace, hnode] at hwrite
    cases node with
    | file before => rfl
    | link target => exact absurd hnode (hlink target)
    | dir sub => simp [hchild] at hwrite
  obtain ⟨d'', hwritten, hlists⟩ := h.write hfile hfits bytes
  rw [hwrite, Except.ok.injEq] at hwritten
  exact ⟨hfits, hfile, hwritten ▸ hlists⟩

theorem unlink_eq (h : d.Lists directory es) (hfile : es.FileOrFree name)
    (hfits : Fits directory name) {node : Node} (hnode : es.find? name = some node) :
    d.unlink (Path.child directory name) = .ok (d.amendAt directory (Entries.drop name)) := by
  obtain ⟨location, hat, hdirectory, hplace⟩ :=
    h.place_child hfile.noLink hfits false (Path.child directory name)
  have hchild : d.at? (location ++ [name]) = some node := at?_child hat hnode
  have hisFile := hfile node hnode
  rw [Disk.unlink, hplace, hnode, amendAt_eq hdirectory]
  cases node with
  | file before => simp [hchild, Entries.remove_append]
  | link target => cases hisFile
  | dir sub => cases hisFile

theorem unlink (h : d.Lists directory es) (hfile : es.FileOrFree name)
    (hfits : Fits directory name) {node : Node} (hnode : es.find? name = some node) :
    ∃ d', d.unlink (Path.child directory name) = .ok d' ∧
      d'.Lists directory (es.drop name) :=
  ⟨_, h.unlink_eq hfile hfits hnode, h.amendAt (Entries.sameShape_drop hfile)⟩

/-! ## Providing it once more -/

theorem makeDirectory (h : d.Lists directory es) :
    d.makeDirectory directory = .error (.disk .alreadyExists directory) := by
  obtain ⟨location, hplace, hat⟩ := h.found
  obtain ⟨l, hunfollowed⟩ := placeOf_unfollowed hat hplace
  simp [Disk.makeDirectory, place, h.noNull, hunfollowed]

theorem provideDirectory (h : d.Lists directory es) : d.provideDirectory directory = .ok d := by
  obtain ⟨location, hstatus⟩ := h.status
  simp [Disk.provideDirectory, h.makeDirectory, isDirectory, asks, hstatus, Node.isDir]

theorem makeDirectories (h : d.Lists directory es) : d.makeDirectories directory = .ok d := by
  rw [Disk.makeDirectories]
  cases directory.length with
  | zero => exact h.provideDirectory
  | succ fuel => simp [makeDirectoriesAbove, h.makeDirectory, h.provideDirectory]

end Lists

end Disk

end ChangeImpact
