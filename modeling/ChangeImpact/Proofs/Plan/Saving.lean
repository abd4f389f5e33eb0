import ChangeImpact.Proofs.Disk.Writing
import ChangeImpact.Proofs.Plan.Isolation

/-!
# Proofs.Plan.Saving

Reading a saved plan gives it back, and reading another one gives what it gave before.

* `Storage.HandEdited` — the file of a plan in which the affected files are given any value.
* `Storage.readPlan_written`, `Storage.readPlan_elsewhere` — what is read after a file is written.
* `Storage.Saved`      — what is found once a plan is saved, also where links lead about.
* `Storage.save_reads_back` — so it is after every save.
-/

namespace ChangeImpact

/-! ## Files edited by hand -/

namespace Plan

/-- The affected files are not read. -/
theorem ofFields_congr {fields fields' : List (String × Value)}
    (h : ∀ key, key ≠ "affected_files" → Value.field? key fields = Value.field? key fields') :
    ofFields fields = ofFields fields' := by
  have hrequired {α : Type} (read : Value → Except Failure α) {key : String}
      (hkey : key ≠ "affected_files") :
      Value.required fields key read = Value.required fields' key read := by
    rw [Value.required, Value.required, h key hkey]
  have hoptional {α : Type} (read : Value → Except Failure α) (default : α) {key : String}
      (hkey : key ≠ "affected_files") :
      Value.optional fields key read default = Value.optional fields' key read default := by
    rw [Value.optional, Value.optional, h key hkey]
  simp (disch := decide) only [ofFields, hrequired, hoptional]

end Plan

namespace Storage

open Disk

/-- A text of the plan `p` in which the affected files are anything, or left out. -/
def HandEdited (p : Plan) (bytes : ByteArray) : Prop :=
  ∃ text fields kept, Text.Utf8.decode? bytes = some text ∧
    Json.parse? (Disk.normalized text) = some (.object fields) ∧ p.toValue = .object kept ∧
      ∀ key, key ≠ "affected_files" → Value.field? key fields = Value.field? key kept

theorem HandEdited.readsAs {p : Plan} {bytes : ByteArray} (h : HandEdited p bytes)
    (hp : p.Canonical) : ReadsAs bytes p := by
  obtain ⟨text, fields, kept, htext, hparse, hkept, hfields⟩ := h
  refine ⟨text, htext, ?_⟩
  rw [planOfText, hparse]
  have hback := Plan.ofValue_toValue hp
  rw [hkept] at hback
  exact (Plan.ofFields_congr hfields).trans hback

/-- Every value that can be written down may be put there. -/
theorem handEdited_pretty {p : Plan} {v : Value} (hv : v.Plain) {fields : List (String × Value)}
    (hfields : p.toValue = .object fields) :
    HandEdited p (Json.pretty (.object (Value.setField "affected_files" v fields))).toUTF8 := by
  have hp : Value.Plain (.object fields) := hfields ▸ p.plain_toValue
  have hedited : Value.Plain (.object (Value.setField "affected_files" v fields)) :=
    ⟨Value.nodup_setField hp.1 _ _, Value.plainFields_setField hp.2 _ hv⟩
  refine ⟨_, Value.setField "affected_files" v fields, fields, Text.Utf8.decode?_toUTF8 _, ?_,
    hfields, fun key hkey => ?_⟩
  · rw [normalized_pretty hedited, Json.parse?_pretty hedited]
  · rw [Value.field?_setField, if_neg hkey.symm]

/-! ## What is read after a file is written -/

section Written

variable {d d' : Disk} {location : List String} {path : String} {bytes : ByteArray} {p : Plan}

theorem readPlan_written (h : FileWritten d d' location bytes) (hpath : d.LeadsTo path location)
    (hreads : ReadsAs bytes p) : readPlan d' path = (.ok (some p), []) := by
  have hstatus := h.status hpath path
  have hpresent : d'.isPresent path = .ok true := by
    rw [Disk.isPresent, asks, hstatus]
  have hbytes : d'.readBytes path path = .ok bytes := by
    rw [Disk.readBytes, hstatus]
  exact readPlan_of_readsAs hpresent hbytes hreads

theorem readPlan_of_absent (h : d.status path path = .error (.disk .noEntry path)) :
    readPlan d path = (.ok none, []) := by
  simp only [readPlan, Disk.isPresent, asks, h, meansAbsent, if_true]

theorem readPlan_elsewhere (h : FileWritten d d' location bytes)
    (hpath : ¬ d.LeadsTo path location) : readPlan d' path = readPlan d path := by
  obtain hsame | ⟨l, sub, sub', hbefore, hafter⟩ | ⟨hbefore, hafter⟩ :=
    h.status_elsewhere hpath path
  · simp only [readPlan, Disk.isPresent, asks, Disk.readText, Disk.readBytes, hsame]
  · simp only [readPlan, Disk.isPresent, asks, Disk.readText, Disk.readBytes, hbefore, hafter]
  · simp only [readPlan, Disk.isPresent, asks, hbefore, hafter, meansAbsent, if_true]

end Written

/-! ## After a save -/

/-- The plan is found in every store in which the file of its id is the one that was written, and
also after this file is edited by hand. Whatever another store or another id leads to is as it was,
unless it is this file. -/
structure Saved (s s' : Storage) (directory : String) (es : Entries) (p : Plan) : Prop where
  found : ∀ directory', s.disk.SameFile (planFile directory p.id) (planFile directory' p.id) →
    Storage.get ⟨s'.disk, .folder directory'⟩ p.id = (.ok (some p), [])
  edited : ∀ bytes disk, HandEdited p bytes →
    s'.disk.write (planFile directory p.id) bytes = .ok disk →
      Storage.get ⟨disk, .folder directory⟩ p.id = (.ok (some p), [])
  others : ∀ directory' id,
    ¬ s.disk.SameFile (planFile directory p.id) (planFile directory' id) →
      Storage.get ⟨s'.disk, .folder directory'⟩ id = Storage.get ⟨s.disk, .folder directory'⟩ id
  unlinked : es.NoLink (fileName p.id) → ∀ id, id ≠ p.id → es.NoLink (fileName id) →
    s'.get id = s.get id

variable {s s' : Storage} {directory : String} {es : Entries} {p : Plan}

/-- A save writes the file of the plan's id. -/
theorem KeptIn.written_of_save (h : s.KeptIn directory es) (hsave : s.save p = .ok s') :
    PlanId.isValid p.id = true ∧ s'.store = .folder directory ∧
      ∃ location, s.disk.LeadsTo (planFile directory p.id) location ∧
        FileWritten s.disk s'.disk location (textOfPlan p).toUTF8 := by
  simp only [Storage.save, h.store, planFile_eq, Disk.writeText] at hsave
  split at hsave
  · next hvalid =>
    split at hsave
    · next disk hwrite =>
      cases hsave
      exact ⟨hvalid, rfl, h.lists.of_writeChild (isName_fileName hvalid) hwrite⟩
    · cases hsave
  · cases hsave

/-- Two ids have one file only by way of a link. -/
theorem KeptIn.not_sameFile (h : s.KeptIn directory es) {id id' : String} (hne : id ≠ id')
    (hvalid : PlanId.isValid id = true) (hvalid' : PlanId.isValid id' = true)
    (hlink : es.NoLink (fileName id)) (hlink' : es.NoLink (fileName id')) :
    ¬ s.disk.SameFile (planFile directory id) (planFile directory id') := by
  rintro ⟨location, hleads, hleads'⟩
  obtain ⟨here, hdirectory, hat⟩ := h.lists.found
  have hlocation := Lists.eq_of_leadsTo hat hdirectory hlink (isName_fileName hvalid) hleads
  have hlocation' := Lists.eq_of_leadsTo hat hdirectory hlink' (isName_fileName hvalid') hleads'
  rw [hlocation, List.append_cancel_left_eq, List.singleton_inj] at hlocation'
  exact hne (fileName_inj hlocation')

theorem get_of_written {disk disk' : Disk} {location : List String} {bytes : ByteArray}
    (hwritten : FileWritten disk disk' location bytes) (hvalid : PlanId.isValid p.id = true)
    (hpath : disk.LeadsTo (planFile directory p.id) location) (hreads : ReadsAs bytes p) :
    Storage.get ⟨disk', .folder directory⟩ p.id = (.ok (some p), []) := by
  simp only [Storage.get, hvalid, if_true]
  exact readPlan_written hwritten hpath hreads

theorem get_elsewhere {disk disk' : Disk} {location : List String} {bytes : ByteArray} {id : String}
    (hwritten : FileWritten disk disk' location bytes)
    (hpath : ¬ disk.LeadsTo (planFile directory id) location) :
    Storage.get ⟨disk', .folder directory⟩ id = Storage.get ⟨disk, .folder directory⟩ id := by
  simp only [Storage.get, readPlan_elsewhere hwritten hpath]

/-- Every save is like this, and a plan with a short valid id can be saved wherever its name is that
of a file or free. -/
theorem save_reads_back (h : s.KeptIn directory es) (hp : p.Canonical) :
    (PlanId.isValid p.id = true → p.id.length ≤ 200 → Roomy directory →
      es.FileOrFree (fileName p.id) → ∃ s', s.save p = .ok s') ∧
        ∀ s', s.save p = .ok s' → Saved s s' directory es p := by
  refine ⟨fun hvalid hshort hroom hfile => h.save hvalid (fits_fileName hroom hvalid hshort) hfile,
    fun s' hsave => ?_⟩
  obtain ⟨hvalid, hstore, location, hpath, hwritten⟩ := h.written_of_save hsave
  have hother {directory' id : String}
      (hfile : ¬ s.disk.SameFile (planFile directory p.id) (planFile directory' id)) :
      ¬ s.disk.LeadsTo (planFile directory' id) location :=
    fun hleads => hfile ⟨location, hpath, hleads⟩
  constructor
  case found =>
    rintro directory' ⟨location', hleads, hleads'⟩
    obtain rfl := hpath.unique hleads
    exact get_of_written hwritten hvalid hleads' (readsAs_saved hp)
  case edited =>
    intro bytes disk hedited hwrite
    obtain ⟨hpath', hwritten'⟩ := hwritten.rewritten hpath hwrite
    exact get_of_written hwritten' hvalid hpath' (hedited.readsAs hp)
  case others => exact fun directory' id hfile => get_elsewhere hwritten (hother hfile)
  case unlinked =>
    intro hlink id hne hlink'
    obtain ⟨disk, store⟩ := s
    obtain ⟨disk', store'⟩ := s'
    obtain rfl : store = .folder directory := h.store
    obtain rfl : store' = .folder directory := hstore
    by_cases hvalid' : PlanId.isValid id = true
    · exact get_elsewhere hwritten
        (hother (h.not_sameFile hne.symm hvalid hvalid' hlink hlink'))
    · simp only [Storage.get, hvalid', Bool.false_eq_true, if_false]

theorem save_reads_back_sample : ∃ s', Sample.shelf.storage.save Sample.shelved = .ok s' ∧
    Saved Sample.shelf.storage s' "home/plans" Sample.entries Sample.shelved := by
  obtain ⟨hsaves, hafter⟩ := save_reads_back Sample.keptIn_shelf Sample.canonical_shelved
  obtain ⟨s', hsave⟩ :=
    hsaves Sample.found_y.valid (by decide) Sample.roomy_plans Sample.found_y.fileOrFree
  exact ⟨s', hsave, hafter s' hsave⟩

end Storage

/-! ## A link to a plan file -/

namespace Sample

open Storage

/-- A link to a file that is not there yet. -/
def dangling : Entries := [("b.json", .link "y.json")]

def linked : Storage where
  disk := { top := [("home", .dir [("plans", .dir dangling)])] }
  store := .folder "home/plans"

theorem keptIn_linked : linked.KeptIn "home/plans" dangling :=
  ⟨rfl, by decide, ["home", "plans"], rfl, rfl⟩

theorem planFile_b : planFile "home/plans" "b" = "home/plans/b.json" := by decide

theorem planFile_y : planFile "home/plans" "y" = "home/plans/y.json" := by decide

theorem placeOf_b :
    linked.disk.placeOf true "home/plans/b.json" = .ok (.free ["home", "plans"] "y.json") := by
  have hsegments : Path.segments "home/plans/b.json" = ["home", "plans", "b.json"] := by decide
  have hrooted : Path.isRooted "home/plans/b.json" = false := by decide
  rw [Disk.placeOf, if_neg (by decide), if_neg (by decide), hsegments, hrooted, Disk.maxHops]
  rfl

theorem leadsTo_b :
    linked.disk.LeadsTo (planFile "home/plans" "b") ["home", "plans", "y.json"] := by
  rw [planFile_b]
  exact ⟨by decide, _, placeOf_b, rfl⟩

theorem leadsTo_y :
    linked.disk.LeadsTo (planFile "home/plans" "y") ["home", "plans", "y.json"] := by
  rw [planFile_y]
  exact ⟨by decide, .free ["home", "plans"] "y.json", rfl, rfl⟩

end Sample

namespace Storage

/-- The plan is found under the name of the link, where none was found before. -/
theorem changed_through_link : Sample.linked.KeptIn "home/plans" Sample.dangling ∧
    Sample.shelved.Canonical ∧ ∃ s', Sample.linked.save Sample.shelved = .ok s' ∧
      "b" ≠ Sample.shelved.id ∧ Sample.linked.get "b" = (.ok none, []) ∧
        s'.get "b" = (.ok (some Sample.shelved), []) := by
  refine ⟨Sample.keptIn_linked, Sample.canonical_shelved, ?_⟩
  have hvalid : PlanId.isValid "b" = true := by decide
  have hbefore : Sample.linked.get "b" = (.ok none, []) := by
    have hstatus : Sample.linked.disk.status "home/plans/b.json" "home/plans/b.json" =
        .error (.disk .noEntry "home/plans/b.json") := by
      rw [Disk.status_eq_seen (by decide), Sample.placeOf_b, Disk.seen]
    simp only [Storage.get, Sample.keptIn_linked.store, hvalid, if_true, Sample.planFile_b,
      readPlan_of_absent hstatus]
  have hfree : Sample.dangling.FileOrFree (fileName Sample.shelved.id) := by
    intro node hnode
    cases hnode
  obtain ⟨s', hsave⟩ := Sample.keptIn_linked.save (p := Sample.shelved) Sample.found_y.valid
    Sample.found_y.fits hfree
  obtain ⟨_, hstore, location, hpath, hwritten⟩ := Sample.keptIn_linked.written_of_save hsave
  obtain rfl := hpath.unique Sample.leadsTo_y
  refine ⟨s', hsave, by decide, hbefore, ?_⟩
  simp only [Storage.get, hstore, hvalid, if_true]
  exact readPlan_written hwritten Sample.leadsTo_b (readsAs_saved Sample.canonical_shelved)

end Storage

end ChangeImpact
