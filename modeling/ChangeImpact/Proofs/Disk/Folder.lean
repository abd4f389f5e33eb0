import ChangeImpact.Proofs.Disk.Listing

/-!
# Proofs.Disk.Folder

A directory of files on a disk, and what the operations on its files do to it.

* `Disk.Folder`         — the directory at a path holds the given files and nothing else.
* `Folder.isPresent`, `Folder.readBytes` — questions about one of its files.
* `Folder.write`, `Folder.unlink` — changes of one of its files, and of nothing else in it.
* `Folder.makeDirectories` — providing it once more changes nothing.
-/

namespace ChangeImpact

namespace Disk

structure Folder (d : Disk) (directory : String) (es : Entries) : Prop where
  noNull : hasNull directory = false
  found : ∃ location, d.placeOf true directory = .ok (.taken location) ∧
    d.at? location = some (.dir es)
  onlyFiles : es.OnlyFiles
  ascending : es.Ascending

namespace Folder

variable {d : Disk} {directory name : String} {es : Entries}

theorem of_lists (h : d.Lists directory es) (hfiles : es.OnlyFiles) (hasc : es.Ascending) :
    Folder d directory es :=
  ⟨h.noNull, h.found, hfiles, hasc⟩

theorem lists (h : Folder d directory es) : d.Lists directory es := ⟨h.noNull, h.found⟩

theorem fileOrFree (h : Folder d directory es) (name : String) : es.FileOrFree name :=
  h.onlyFiles name

theorem of_status {location : List String}
    (h : d.status directory directory = .ok (location, .dir es)) (hfiles : es.OnlyFiles)
    (hasc : es.Ascending) : Folder d directory es :=
  of_lists (.of_status h) hfiles hasc

theorem status (h : Folder d directory es) :
    ∃ location, d.status directory directory = .ok (location, .dir es) :=
  h.lists.status

theorem isPresent (h : Folder d directory es) (hfits : Fits directory name) :
    d.isPresent (Path.child directory name) = .ok (es.find? name).isSome :=
  h.lists.isPresent (h.fileOrFree name).noLink hfits

/-- Whatever the name is: no file is found where the directory has none. -/
theorem isPresent_ne_true (h : Folder d directory es) (hname : IsName name)
    (hnode : es.find? name = none) :
    d.isPresent (Path.child directory name) ≠ .ok true := by
  intro hpresent
  have hfits := h.lists.fits_of_isPresent (h.fileOrFree name).noLink hname hpresent
  rw [h.isPresent hfits, hnode] at hpresent
  cases hpresent

theorem readBytes (h : Folder d directory es) (hfits : Fits directory name) {bytes : ByteArray}
    (hnode : es.find? name = some (.file bytes)) (shown : String) :
    d.readBytes (Path.child directory name) shown = .ok bytes :=
  (h.lists.readBytes_eq_ok_iff (h.fileOrFree name).noLink hfits shown).mpr hnode

theorem write (h : Folder d directory es) (hfits : Fits directory name) (bytes : ByteArray) :
    ∃ d', d.write (Path.child directory name) bytes = .ok d' ∧
      Folder d' directory (es.set name (.file bytes)) := by
  obtain ⟨d', hwrite, hlists⟩ := h.lists.write (h.fileOrFree name) hfits bytes
  exact ⟨d', hwrite, .of_lists hlists (Entries.onlyFiles_set h.onlyFiles name bytes)
    (Entries.ascending_set h.ascending name _)⟩

/-- A name that is too long is not written to. -/
theorem fits_of_write (h : Folder d directory es) (hname : IsName name) {bytes : ByteArray}
    {d' : Disk} (hwrite : d.write (Path.child directory name) bytes = .ok d') :
    Fits directory name :=
  (h.lists.of_write (h.fileOrFree name).noLink hname hwrite).1

theorem unlink (h : Folder d directory es) (hfits : Fits directory name) {node : Node}
    (hnode : es.find? name = some node) :
    ∃ d', d.unlink (Path.child directory name) = .ok d' ∧ Folder d' directory (es.drop name) := by
  obtain ⟨d', hunlink, hlists⟩ := h.lists.unlink (h.fileOrFree name) hfits hnode
  exact ⟨d', hunlink, .of_lists hlists (Entries.onlyFiles_drop h.onlyFiles name)
    (Entries.ascending_drop h.ascending name)⟩

theorem makeDirectories (h : Folder d directory es) : d.makeDirectories directory = .ok d :=
  h.lists.makeDirectories

end Folder

end Disk

end ChangeImpact
