import ChangeImpact.Proofs.Json.CutText
import ChangeImpact.Proofs.Plan.BadFiles

/-!
# Proofs.Plan.CutShort

A plan file that was not written to its end.

* `Storage.CutShort`       — the file holds a front of the text of the plan, and not all of it.
* `Storage.CutShort.get_eq` — there is no plan in it, whatever the plan.
* `Storage.list_spares`    — an id without a plan is left out of a list that has all others.
* `Planner.Lost`           — every operation on such a plan finds none and changes nothing.
* `Planner.lost_of_cutShort` — wherever the text was cut.
-/

namespace ChangeImpact

namespace Storage

/-- Writing the file of a plan ended before the end of its text. -/
structure CutShort (s : Storage) (directory : String) (p : Plan) : Prop where
  valid : PlanId.isValid p.id = true
  content : ∃ cut more, more ≠ "" ∧ textOfPlan p = cut ++ more ∧
    s.disk.readBytes (planFile directory p.id) (planFile directory p.id) = .ok cut.toUTF8

variable {s : Storage} {directory : String} {es : Entries} {p : Plan}

/-- A front of the text of a plan is read as it stands, and no plan is found in it. -/
theorem planOfText_cut {cut more : String} (hmore : more ≠ "")
    (hcut : textOfPlan p = cut ++ more) :
    Disk.normalized cut = cut ∧ planOfText cut = .error .badJson := by
  have hcr : '\r' ∉ cut.toList := by
    have htext := Json.cr_notMem_pretty p.plain_toValue
    rw [← textOfPlan, hcut, String.toList_append] at htext
    exact fun hmem => htext (List.mem_append_left _ hmem)
  constructor
  · rw [Disk.normalized, Text.normalizeNewlines_eq_self hcr, String.ofList_toList]
  · rw [planOfText, Json.parse?_cut p.plain_toValue hcut hmore]

theorem isPresent_of_readBytes {d : Disk} {path : String} {bytes : ByteArray}
    (h : d.readBytes path path = .ok bytes) : d.isPresent path = .ok true := by
  rw [Disk.readBytes] at h
  rw [Disk.isPresent, Disk.asks]
  cases hstatus : d.status path path with
  | error e => rw [hstatus] at h; cases h
  | ok found => rfl

theorem CutShort.get_eq (h : s.KeptIn directory es) (hcut : s.CutShort directory p) :
    s.get p.id = (.ok none, [corrupt (planFile directory p.id) .badJson]) := by
  obtain ⟨cut, more, hmore, htext, hbytes⟩ := hcut.content
  obtain ⟨hnormal, hnone⟩ := planOfText_cut hmore htext
  simp only [Storage.get, h.store, hcut.valid, if_true, readPlan, isPresent_of_readBytes hbytes,
    Disk.readText, hbytes, Text.Utf8.decode?_toUTF8, hnormal, hnone]

/-! ## Lists that pass it over -/

/-- The plan that is found under an id. -/
def planFound (s : Storage) (id : String) : Option Plan :=
  match (s.get id).1 with
  | .ok found => found
  | .error _ => none

theorem planFound_eq_some_iff {id : String} {q : Plan} :
    s.planFound id = some q ↔ (s.get id).1 = .ok (some q) := by
  rw [planFound]
  split
  · next hget => simp [hget]
  · next hget => simp [hget]

/-- An id without a plan makes no difference to the plans, nor to a fault on the way. -/
theorem getAll_filter {id : String} {log : Log} (hid : s.get id = (.ok none, log))
    (ids : List String) :
    (s.getAll ids).1 = (s.getAll (ids.filter (· != id))).1 := by
  induction ids with
  | nil => rfl
  | cons first rest ih =>
    by_cases hfirst : first = id
    · subst hfirst
      have hmap : (s.getAll rest).1.map (fun plans => plans) = (s.getAll rest).1 := by
        cases (s.getAll rest).1 <;> rfl
      simpa [Storage.getAll, hid, hmap] using ih
    · rw [List.filter_cons_of_pos (by simpa using hfirst)]
      rcases hget : s.get first with ⟨e | found, before⟩
      · simp only [Storage.getAll, hget]
      · simp only [Storage.getAll, hget, ih]

theorem KeptIn.mem_ids_of_isPresent (h : s.KeptIn directory es) {id : String}
    (hvalid : PlanId.isValid id = true)
    (hpresent : s.disk.isPresent (planFile directory id) = .ok true) {ids : List String}
    (hids : s.ids = .ok ids) : id ∈ ids := by
  obtain ⟨ids', hids', hperm⟩ := h.ids_eq
  obtain rfl : ids' = ids := Except.ok.inj (hids'.symm.trans hids)
  rw [planFile_eq] at hpresent
  obtain ⟨node, hnode⟩ : ∃ node, es.find? (fileName id) = some node := by
    cases hnode : es.find? (fileName id) with
    | some node => exact ⟨node, rfl⟩
    | none =>
      -- a name that is not there is no link, so the path leads nowhere else
      have hlink : es.NoLink (fileName id) := fun target ht => by simp [hnode] at ht
      have hfits := h.lists.fits_of_isPresent hlink (isName_fileName hvalid) hpresent
      rw [h.lists.isPresent hlink hfits, hnode] at hpresent
      cases hpresent
  rw [hperm.mem_iff, listedIds, List.mem_map]
  exact ⟨fileName id, List.mem_filter.mpr ⟨Entries.mem_names_of_find? hnode, endsWith_fileName id⟩,
    stem_fileName (PlanId.ne_empty_of_isValid hvalid)⟩

/-- Whatever plan is found under an id, the id is among those of a list. -/
theorem KeptIn.mem_ids_of_get (h : s.KeptIn directory es) {id : String} {q : Plan}
    (hget : (s.get id).1 = .ok (some q)) {ids : List String} (hids : s.ids = .ok ids) :
    id ∈ ids := by
  simp only [Storage.get, h.store] at hget
  split at hget
  · next hvalid =>
    exact h.mem_ids_of_isPresent hvalid (readsAs_of_readPlan hget).1 hids
  · cases hget

/-- A list is what it would be without the id, and has every plan that is found under another. -/
structure PassesOver (s : Storage) (id : String) (report : LogEntry) : Prop where
  same : ∀ ids, s.ids = .ok ids →
    s.list.1 = (s.getAll (ids.filter (· != id))).1.map fun plans =>
      plans.mergeSort fun p q => decide (p.createdAt ≤ q.createdAt)
  others : ∀ ids, s.ids = .ok ids →
    (∀ other ∈ ids, other ≠ id → ∃ found log, s.get other = (.ok found, log)) →
      ∃ plans log, s.list = (.ok plans, log) ∧ report ∈ log ∧
        plans.Perm ((ids.filter (· != id)).filterMap s.planFound) ∧
        (∀ other q, (s.get other).1 = .ok (some q) → q ∈ plans) ∧
        plans.Pairwise fun p q => p.createdAt ≤ q.createdAt

theorem KeptIn.passesOver (h : s.KeptIn directory es) {id : String} {report : LogEntry}
    (hid : s.get id = (.ok none, [report])) (hvalid : PlanId.isValid id = true)
    (hpresent : s.disk.isPresent (planFile directory id) = .ok true) :
    s.PassesOver id report := by
  constructor
  case same =>
    intro ids hids
    rw [Storage.list, hids]
    simp only [getAll_filter hid ids]
  case others =>
    intro ids hids hothers
    have hget : ∀ other ∈ ids, s.get other = (.ok (s.planFound other), (s.get other).2) := by
      intro other hother
      obtain ⟨found, log, hfound⟩ : ∃ found log, s.get other = (.ok found, log) := by
        by_cases hne : other = id
        · exact ⟨none, [report], hne ▸ hid⟩
        · exact hothers other hother hne
      rw [planFound, hfound]
    obtain ⟨plans, hlist, hperm, hsorted⟩ := list_of_getAll hids (getAll_ok hget)
    refine ⟨plans, _, hlist, ?_, ?_, ?_, hsorted⟩
    · rw [List.mem_flatMap]
      exact ⟨id, h.mem_ids_of_isPresent hvalid hpresent hids, by rw [hid]; exact .head _⟩
    · have hnone : s.planFound id = none := by rw [planFound, hid]
      rw [List.filterMap_filter]
      refine hperm.trans (.of_eq (List.filterMap_congr fun other _ => ?_))
      by_cases hne : other = id
      · simp [hne, hnone]
      · simp [hne]
    · intro other q hq
      rw [hperm.mem_iff, List.mem_filterMap]
      exact ⟨other, h.mem_ids_of_get hq hids, planFound_eq_some_iff.mpr hq⟩

end Storage

namespace Planner

open Storage

/-- No operation finds a plan under the id, and none does anything but report that its file is
bad. -/
structure Lost (pl : Planner) (id : String) (report : LogEntry) : Prop where
  get : pl.storage.get id = (.ok none, [report])
  execute : ∀ service clock, pl.execute service clock id =
    { result := .error (.planNotFound id), planner := pl, calls := [], log := [report] }
  executeAll : ∀ service clock, pl.executeAll service clock id =
    { result := .error (.planNotFound id), planner := pl, calls := [], log := [report] }
  rollBack : ∀ service clock, pl.rollBack service clock id =
    { result := .error (.planNotFound id), planner := pl, calls := [], log := [report] }
  delete : pl.delete id =
    { result := .error (.planNotFound id), planner := pl, calls := [], log := [report] }
  list : pl.storage.PassesOver id report

theorem lost_of_cutShort {pl : Planner} {directory : String} {es : Entries} {p : Plan}
    (h : pl.storage.KeptIn directory es) (hcut : pl.storage.CutShort directory p) :
    pl.Lost p.id (corrupt (planFile directory p.id) .badJson) := by
  have hget := hcut.get_eq h
  have htransact : ∀ move, transact pl p.id move =
      { result := .error (.planNotFound p.id), planner := pl, calls := [],
        log := [corrupt (planFile directory p.id) .badJson] } := by
    intro move
    rw [transact, hget]
  constructor
  case get => exact hget
  case execute => exact fun service clock => htransact _
  case executeAll =>
    intro service clock
    have hsteps : (Vocabulary.all (α := PlanStep)).length = 5 + 1 := rfl
    rw [executeAll, hsteps, executeSteps, execute, htransact]
  case rollBack => exact fun service clock => htransact _
  case delete => rw [delete, hget]
  case list =>
    obtain ⟨cut, more, _, _, hbytes⟩ := hcut.content
    exact h.passesOver hget hcut.valid (isPresent_of_readBytes hbytes)

end Planner

/-! ## Sample -/

namespace Sample

open Storage

/-- The plan of which only the first character was written. -/
def brokenOff : Plan := { shelved with id := "bad" }

theorem keptIn_spoiled : spoiledShelf.storage.KeptIn "home/plans" spoiled :=
  ⟨rfl, by decide, ["home", "plans"], rfl, rfl⟩

theorem cutShort_brokenOff : spoiledShelf.storage.CutShort "home/plans" brokenOff := by
  have hvalid : PlanId.isValid "bad" = true := by decide
  have hfits := fits_fileName roomy_plans hvalid (by decide)
  have hlink : spoiled.NoLink (fileName "bad") := fun target ht => by
    cases onlyFiles_spoiled _ _ ht
  obtain ⟨rest, hrest⟩ : ∃ rest, textOfPlan brokenOff = .ofList ('\x7b' :: '\n' :: rest) := ⟨_, rfl⟩
  refine ⟨hvalid, "\x7b", .ofList ('\n' :: rest), ?_, ?_, ?_⟩
  · intro hempty
    have hlist := congrArg String.toList hempty
    rw [String.toList_ofList] at hlist
    cases hlist
  · rw [hrest]
    exact String.toList_inj.mp (by simp)
  · rw [planFile_eq]
    exact (keptIn_spoiled.lists.readBytes_eq_ok_iff hlink hfits _).mpr rfl

end Sample

namespace Planner

theorem lost_sample : Sample.spoiledShelf.Lost "bad"
    (Storage.corrupt (Storage.planFile "home/plans" "bad") .badJson) :=
  lost_of_cutShort Sample.keptIn_spoiled Sample.cutShort_brokenOff

end Planner

end ChangeImpact
