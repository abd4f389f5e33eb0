import ChangeImpact.Proofs.Plan.Canonical
import ChangeImpact.Proofs.Plan.Moves
import ChangeImpact.Proofs.Plan.StoreLaws

/-!
# Proofs.Plan.Operations

What the operations of a planner come to, whatever kind of storage holds its plans.

* `Planner.Yields`   — result, calls and plans afterwards; all else about the planner stays.
* `Planner.transact_some`, `Planner.transact_none` — a transition of the plan under an id.
* `Planner.delete_some`, `Planner.delete_none`     — forgetting it.
* `Planner.drafted`  — the plan that a planner makes of an analysis.
* `Planner.create_ok`, `Planner.create_cases`      — keeping that plan.
-/

namespace ChangeImpact

/-- The plans after a transition of the one under `id`. -/
def Keyed.settled (plans : Keyed Plan) (id : String) : Option Plan → Keyed Plan
  | none => plans
  | some p => plans.insert id p

namespace Planner

structure Yields {α : Type} (pl : Planner) (o : Outcome α) (result : Except Failure α)
    (calls : List Call) (plans : Keyed Plan) : Prop where
  result : o.result = result
  calls : o.calls = calls
  storage : ∃ s, o.planner = pl.withStorage s ∧ s.Holds plans ∧
    s.directory? = pl.storage.directory?

variable {pl : Planner} {plans : Keyed Plan} {id : String}

theorem Yields.holds {α : Type} {o : Outcome α} {result : Except Failure α} {calls : List Call}
    (h : pl.Yields o result calls plans) : o.planner.storage.Holds plans := by
  obtain ⟨s, hplanner, hholds, _⟩ := h.storage
  rw [hplanner]
  exact hholds

/-- An operation that fails before it has done anything. -/
theorem yields_error {α : Type} (h : pl.storage.Holds plans) {o : Outcome α} {e : Failure}
    (hresult : o.result = .error e) (hcalls : o.calls = []) (hplanner : o.planner = pl) :
    pl.Yields o (.error e) [] plans :=
  ⟨hresult, hcalls, pl.storage, hplanner, h, rfl⟩

/-! ## Transitions -/

section Transact

variable {move : Plan → Transition} {p : Plan}

theorem transact_some (h : pl.storage.Holds plans) (hp : plans.get? id = some p)
    (hmove : p.Moved (move p).calls (move p).stored) :
    pl.Yields (transact pl id move) (.ok (move p).result) (move p).calls
      (plans.settled id (move p).stored) := by
  rw [transact, h.get hp]
  simp only [settle]
  cases hstored : (move p).stored with
  | none => exact ⟨rfl, rfl, pl.storage, rfl, h, rfl⟩
  | some q =>
    rw [hstored] at hmove
    have hid : q.id = id := hmove.sameContent.id.trans (h.named hp)
    have hcanonical := hmove.canonical (h.canonical hp)
    obtain ⟨s, hsave, hholds, hdirectory⟩ := h.save hcanonical (hid ▸ h.admits hp)
    simp only [hsave]
    exact ⟨rfl, rfl, s, rfl, hid ▸ hholds, hdirectory⟩

theorem transact_none (h : pl.storage.Holds plans) (hp : plans.get? id = none) :
    ∃ e, pl.Yields (transact pl id move) (.error e) [] plans := by
  rw [transact]
  rcases h.get_none hp with hget | ⟨e, hget⟩
  · rw [hget]
    exact ⟨_, yields_error h rfl rfl rfl⟩
  · rw [hget]
    exact ⟨e, yields_error h rfl rfl rfl⟩

theorem transact_none_of_reaches (h : pl.storage.Holds plans) (hp : plans.get? id = none)
    (hreach : pl.storage.Reaches id) :
    pl.Yields (transact pl id move) (.error (.planNotFound id)) [] plans := by
  rw [transact, h.get_none_of_reaches hp hreach]
  exact yields_error h rfl rfl rfl

end Transact

/-! ## Deletion -/

theorem delete_some (h : pl.storage.Holds plans) {p : Plan} (hp : plans.get? id = some p) :
    pl.Yields (delete pl id) (.ok ()) [] (plans.erase id) := by
  obtain ⟨s, hdelete, hholds, hdirectory⟩ := h.delete hp
  rw [delete, h.get hp]
  simp only [hdelete]
  exact ⟨rfl, rfl, s, rfl, hholds, hdirectory⟩

theorem delete_none (h : pl.storage.Holds plans) (hp : plans.get? id = none) :
    ∃ e, pl.Yields (delete pl id) (.error e) [] plans := by
  rw [delete]
  rcases h.get_none hp with hget | ⟨e, hget⟩
  · rw [hget]
    exact ⟨_, yields_error h rfl rfl rfl⟩
  · rw [hget]
    exact ⟨e, yields_error h rfl rfl rfl⟩

theorem delete_none_of_reaches (h : pl.storage.Holds plans) (hp : plans.get? id = none)
    (hreach : pl.storage.Reaches id) :
    pl.Yields (delete pl id) (.error (.planNotFound id)) [] plans := by
  rw [delete, h.get_none_of_reaches hp hreach]
  exact yields_error h rfl rfl rfl

/-! ## Creation -/

/-- What the planner finds when it analyzes the project. -/
def analysis (pl : Planner) : Except Failure FileMap :=
  (Project.analyze pl.settings pl.storage.disk pl.root).1

/-- The plan that is made of an analysis, under the `n`-th token. -/
def drafted (files : Except Failure FileMap) (n : Nat) (c : Circumstances)
    (path type description : String) : Except Failure Plan :=
  match (Vocabulary.ofWord? type : Option ChangeType) with
  | none => .error (.unsupportedChangeType type)
  | some type =>
    match files with
    | .error e => .error e
    | .ok files =>
      match files.get? path with
      | none => .error (.targetNotFound path)
      | some record =>
        .ok (draft (PlanId.generate c.millis (c.token n)) c.now.text path description type record
          (Impact.predict files path type.kind))

section Create

variable {c : Circumstances} {path type description : String} {p : Plan}

/-- A plan at its very beginning. -/
structure IsNew (p : Plan) : Prop where
  status : p.status = .known .pending
  step : p.step = .known .analysis

theorem drafted_eq_ok {files : Except Failure FileMap} {n : Nat}
    (h : drafted files n c path type description = .ok p) :
    ∃ found kind record, files = .ok found ∧ found.get? path = some record ∧
      p = draft (PlanId.generate c.millis (c.token n)) c.now.text path description kind record
        (Impact.predict found path kind.kind) := by
  rw [drafted] at h
  split at h
  · cases h
  · next kind _ =>
    split at h
    · cases h
    · next found =>
      split at h
      · cases h
      · next record hrecord =>
        cases h
        exact ⟨found, kind, record, rfl, hrecord, rfl⟩

theorem isNew_drafted {files : Except Failure FileMap} {n : Nat}
    (h : drafted files n c path type description = .ok p) : IsNew p := by
  obtain ⟨found, kind, record, _, _, rfl⟩ := drafted_eq_ok h
  exact ⟨rfl, rfl⟩

theorem id_drafted {files : Except Failure FileMap} {n : Nat}
    (h : drafted files n c path type description = .ok p) :
    p.id = PlanId.generate c.millis (c.token n) := by
  obtain ⟨found, kind, record, _, _, rfl⟩ := drafted_eq_ok h
  rfl

theorem canonical_drafted {n : Nat} (h : drafted pl.analysis n c path type description = .ok p) :
    p.Canonical := by
  obtain ⟨found, kind, record, hfound, hrecord, rfl⟩ := drafted_eq_ok h
  exact canonical_draft (Project.canonical_analyze hfound hrecord) Impact.canonical_predict

/-- The planner whose next token has been used up. -/
def spent (pl : Planner) : Planner := { pl with issued := pl.issued + 1 }

theorem create_eq_of_error {e : Failure}
    (h : drafted pl.analysis (pl.issued + 1) c path type description = .error e) :
    (pl.create c path type description).result = .error e ∧
      (pl.create c path type description).calls = [] ∧
      (pl.create c path type description).planner = pl := by
  rw [drafted, analysis] at h
  rw [create]
  cases htype : (Vocabulary.ofWord? type : Option ChangeType) with
  | none =>
    rw [htype] at h
    cases h
    exact ⟨rfl, rfl, rfl⟩
  | some kind =>
    rw [htype] at h
    rcases hanalyze : Project.analyze pl.settings pl.storage.disk pl.root with ⟨_ | files, log⟩
    · rw [hanalyze] at h
      cases h
      exact ⟨rfl, rfl, rfl⟩
    · rw [hanalyze] at h
      cases hrecord : files.get? path with
      | none =>
        simp only [hrecord, Except.error.injEq] at h
        simp [hrecord, h]
      | some record =>
        simp only [hrecord] at h
        cases h

theorem create_eq_of_ok
    (h : drafted pl.analysis (pl.issued + 1) c path type description = .ok p) :
    (pl.create c path type description).calls = [] ∧
      match pl.storage.save p with
      | .error e =>
        (pl.create c path type description).result = .error e ∧
          (pl.create c path type description).planner = pl.spent
      | .ok s =>
        (pl.create c path type description).result = .ok p ∧
          (pl.create c path type description).planner = pl.spent.withStorage s := by
  rw [drafted, analysis] at h
  rw [create]
  cases htype : (Vocabulary.ofWord? type : Option ChangeType) with
  | none =>
    rw [htype] at h
    cases h
  | some kind =>
    rw [htype] at h
    rcases hanalyze : Project.analyze pl.settings pl.storage.disk pl.root with ⟨_ | files, log⟩
    · rw [hanalyze] at h
      cases h
    · rw [hanalyze] at h
      cases hrecord : files.get? path with
      | none =>
        simp only [hrecord] at h
        cases h
      | some record =>
        simp only [hrecord, Except.ok.injEq] at h
        simp only [hrecord, h]
        cases hsave : pl.storage.save p with
        | error e => exact ⟨rfl, rfl, rfl⟩
        | ok s => exact ⟨rfl, rfl, rfl⟩

/-- The new plan is kept if its id can be the name of a file. -/
theorem create_ok (h : pl.storage.Holds plans)
    (hdraft : drafted pl.analysis (pl.issued + 1) c path type description = .ok p)
    (hadmits : pl.storage.Admits p.id) :
    pl.spent.Yields (pl.create c path type description) (.ok p) [] (plans.insert p.id p) := by
  obtain ⟨s, hsave, hholds, hdirectory⟩ := h.save (canonical_drafted hdraft) hadmits
  obtain ⟨hcalls, hcreate⟩ := create_eq_of_ok hdraft
  rw [hsave] at hcreate
  exact ⟨hcreate.1, hcalls, s, hcreate.2, hholds, hdirectory⟩

/-- Whatever its id: the new plan is kept, or nothing is. -/
theorem create_cases (h : pl.storage.Holds plans) :
    (∃ e, (pl.create c path type description).result = .error e ∧
      (pl.create c path type description).calls = [] ∧
      (pl.create c path type description).planner.storage = pl.storage) ∨
    ∃ p, drafted pl.analysis (pl.issued + 1) c path type description = .ok p ∧
      pl.spent.Yields (pl.create c path type description) (.ok p) [] (plans.insert p.id p) := by
  cases hdraft : drafted pl.analysis (pl.issued + 1) c path type description with
  | error e =>
    obtain ⟨hresult, hcalls, hplanner⟩ := create_eq_of_error hdraft
    exact .inl ⟨e, hresult, hcalls, by rw [hplanner]⟩
  | ok p =>
    cases hsave : pl.storage.save p with
    | error e =>
      obtain ⟨hcalls, hcreate⟩ := create_eq_of_ok hdraft
      rw [hsave] at hcreate
      exact .inl ⟨e, hcreate.1, hcalls, by rw [hcreate.2]; rfl⟩
    | ok s => exact .inr ⟨p, rfl, create_ok h hdraft (h.admits_of_save hsave)⟩

end Create

end Planner

end ChangeImpact
