import ChangeImpact.Proofs.Plan.Names
import ChangeImpact.Proofs.Plan.Reading

/-!
# Proofs.Plan.FileStore

A store of files in a directory that can hold anything.

* `Storage.KeptIn`       — the plan files are in a directory with the given entries.
* `Storage.ReadsAs`      — the bytes of a file hold a plan.
* `KeptIn.get_eq_some_iff` — a plan is found under an id where the file of this name holds it.
* `KeptIn.save`, `KeptIn.of_save`, `KeptIn.delete` — keeping a plan and forgetting one.
-/

namespace ChangeImpact

namespace Storage

/-- The plans are kept in a directory with these entries, whatever they are. -/
structure KeptIn (s : Storage) (directory : String) (es : Entries) : Prop where
  store : s.store = .folder directory
  lists : s.disk.Lists directory es

/-! ## Bytes -/

def ReadsAs (bytes : ByteArray) (p : Plan) : Prop :=
  ∃ text, Text.Utf8.decode? bytes = some text ∧ planOfText (Disk.normalized text) = .ok p

theorem ReadsAs.canonical {bytes : ByteArray} {p : Plan} (h : ReadsAs bytes p) : p.Canonical := by
  obtain ⟨text, _, hplan⟩ := h
  exact canonical_planOfText hplan

theorem readsAs_saved {p : Plan} (h : p.Canonical) : ReadsAs (textOfPlan p).toUTF8 p := by
  refine ⟨textOfPlan p, Text.Utf8.decode?_toUTF8 _, ?_⟩
  rw [normalized_textOfPlan, planOfText_saved h]

/-! ## One plan -/

/-- The file of an id holds a plan. -/
structure Found (directory : String) (es : Entries) (id : String) (p : Plan) : Prop where
  valid : PlanId.isValid id = true
  fits : Disk.Fits directory (fileName id)
  file : ∃ bytes, es.find? (fileName id) = some (.file bytes) ∧ ReadsAs bytes p

/-- The files of other names do not matter. -/
theorem Found.of_find? {directory : String} {es es' : Entries} {id : String} {p : Plan}
    (h : Found directory es id p) (hfile : es'.find? (fileName id) = es.find? (fileName id)) :
    Found directory es' id p :=
  ⟨h.valid, h.fits, hfile ▸ h.file⟩

theorem Found.fileOrFree {directory : String} {es : Entries} {id : String} {p : Plan}
    (h : Found directory es id p) : es.FileOrFree (fileName id) := by
  obtain ⟨bytes, hfile, _⟩ := h.file
  intro node hnode
  rw [hfile, Option.some.injEq] at hnode
  exact hnode ▸ rfl

theorem Found.canonical {directory : String} {es : Entries} {id : String} {p : Plan}
    (h : Found directory es id p) : p.Canonical := by
  obtain ⟨bytes, _, hplan⟩ := h.file
  exact hplan.canonical

section Paths

variable {d : Disk} {path : String} {bytes : ByteArray} {p : Plan}

theorem readPlan_of_readsAs (hpresent : d.isPresent path = .ok true)
    (hbytes : d.readBytes path path = .ok bytes) (h : ReadsAs bytes p) :
    readPlan d path = (.ok (some p), []) := by
  obtain ⟨text, htext, hplan⟩ := h
  simp only [readPlan, hpresent, Disk.readText, hbytes, htext, hplan]

theorem readsAs_of_readPlan (h : (readPlan d path).1 = .ok (some p)) :
    d.isPresent path = .ok true ∧
      ∃ bytes, d.readBytes path path = .ok bytes ∧ ReadsAs bytes p := by
  rw [readPlan] at h
  split at h
  · cases h
  · cases h
  · next hpresent =>
    refine ⟨hpresent, ?_⟩
    cases hbytes : d.readBytes path path with
    | error e => simp [Disk.readText, hbytes] at h
    | ok bytes =>
      cases htext : Text.Utf8.decode? bytes with
      | none => simp [Disk.readText, hbytes, htext] at h
      | some text =>
        cases hplan : planOfText (Disk.normalized text) with
        | error e => simp [Disk.readText, hbytes, htext, hplan] at h
        | ok q =>
          simp only [Disk.readText, hbytes, htext, hplan, Except.ok.injEq, Option.some.injEq] at h
          exact ⟨bytes, rfl, text, htext, h ▸ hplan⟩

end Paths

namespace KeptIn

variable {s s' : Storage} {directory id : String} {es : Entries} {p : Plan}

theorem get_of_found (h : s.KeptIn directory es) (hfound : Found directory es id p) :
    s.get id = (.ok (some p), []) := by
  obtain ⟨bytes, hfile, hplan⟩ := hfound.file
  have hlink := hfound.fileOrFree.noLink
  have hpresent := h.lists.isPresent hlink hfound.fits
  rw [hfile, Option.isSome_some] at hpresent
  have hbytes : s.disk.readBytes (Path.child directory (fileName id))
      (Path.child directory (fileName id)) = .ok bytes :=
    (h.lists.readBytes_eq_ok_iff hlink hfound.fits _).mpr hfile
  simp only [get, h.store, hfound.valid, if_true, planFile_eq]
  exact readPlan_of_readsAs hpresent hbytes hplan

theorem get_eq_some_iff (h : s.KeptIn directory es) (hlink : es.NoLink (fileName id)) :
    (s.get id).1 = .ok (some p) ↔ Found directory es id p := by
  constructor
  · intro hget
    simp only [get, h.store] at hget
    split at hget
    · next hvalid =>
      obtain ⟨hpresent, bytes, hbytes, hplan⟩ := readsAs_of_readPlan hget
      have hfits := h.lists.fits_of_isPresent hlink (isName_fileName hvalid) hpresent
      exact ⟨hvalid, hfits, bytes, (h.lists.readBytes_eq_ok_iff hlink hfits _).mp hbytes, hplan⟩
    · cases hget
  · intro hfound
    rw [h.get_of_found hfound]

theorem save (h : s.KeptIn directory es) (hvalid : PlanId.isValid p.id = true)
    (hfits : Disk.Fits directory (fileName p.id)) (hfile : es.FileOrFree (fileName p.id)) :
    ∃ s', s.save p = .ok s' := by
  obtain ⟨disk, hwrite, _⟩ := h.lists.write hfile hfits (textOfPlan p).toUTF8
  refine ⟨{ s with disk }, ?_⟩
  simp only [Storage.save, h.store, hvalid, if_true, planFile_eq, Disk.writeText, hwrite]

theorem delete (h : s.KeptIn directory es) (hfound : Found directory es id p) :
    ∃ s', s.delete id = .ok (true, s') ∧ s'.KeptIn directory (es.drop (fileName id)) := by
  obtain ⟨bytes, hfile, _⟩ := hfound.file
  have hpresent := h.lists.isPresent hfound.fileOrFree.noLink hfound.fits
  rw [hfile, Option.isSome_some] at hpresent
  obtain ⟨disk, hunlink, hlists⟩ := h.lists.unlink hfound.fileOrFree hfound.fits hfile
  refine ⟨{ s with disk }, ?_, h.store, hlists⟩
  simp [Storage.delete, h.store, hfound.valid, planFile_eq, hpresent, hunlink]

end KeptIn

end Storage

end ChangeImpact
