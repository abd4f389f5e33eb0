import ChangeImpact.Proofs.Plan.Changes
import ChangeImpact.Proofs.Plan.Fate
import ChangeImpact.Proofs.Plan.StateLaw

/-!
# Proofs.Plan.Atomicity

Transitions that fail, and requests for one that are turned down.

* `Plan.StepFails`, `Plan.ActionFails` — the service does not carry out the step of a plan, or one
  of its rollback actions.
* `Planner.Fails`    — the plan is stored with what the failure makes of it, and nothing else
  changes.
* `Planner.Rejects`, `Planner.Refuses` — nothing is stored and nothing is called.
* `Planner.Atomic`   — what becomes of a transition that fails or is turned down, in every case.
* `Planner.atomic_iff_reaches` — so it is after every session, for the ids that the system can be
  asked for.
-/

namespace ChangeImpact

namespace Plan

/-- The step of an open plan is called, and the service says why it was not carried out. -/
structure StepFails (service : MutationService) (clock : Clock) (p : Plan) (cause : Failure) :
    Prop where
  isOpen : p.IsOpen
  failure : (service.performStep (p.started (clock.text 0)) p.step).failure = some cause

/-- The rollback action in the `n`-th place is the first one that is not carried out. -/
structure ActionFails (service : MutationService) (p : Plan) (n : Nat) (action : String)
    (cause : Failure) : Prop where
  isOpen : p.isTerminal = false
  found : p.rollbackPlan[n]? = some action
  failure : (service.performRollback p n action).failure = some cause
  before : ∀ m a, m < n → p.rollbackPlan[m]? = some a →
    (service.performRollback p m a).failure = none

/-- The plan after its step has failed. -/
def stopped (p : Plan) (cause : Failure) (now : String) : Plan :=
  { p with status := .known .failed, lastError := some cause.message, updatedAt := now }

/-- The plan after one of its rollback actions has failed. -/
def noted (p : Plan) (cause : Failure) (now : String) : Plan :=
  { p with lastError := some cause.message, updatedAt := now }

/-- The calls of a rollback whose action in the `n`-th place fails. -/
def undoneTo (p : Plan) (n : Nat) (action : String) : List Call :=
  p.undoing (p.rollbackPlan.take n) ++ [.rollback p.id action false]

variable {service : MutationService} {clock : Clock} {p : Plan} {cause : Failure}

/-! ## Transitions -/

theorem advance_of_stepFails (h : StepFails service clock p cause) :
    (p.advance service clock).result.success = false ∧
      (p.advance service clock).calls = [.step p.id p.step.text false] ∧
      (p.advance service clock).stored = some (p.stopped cause (clock.text 1)) := by
  obtain ⟨⟨hterminal, hfailed⟩, hfailure⟩ := h
  have hreply : (service.performStep (p.started (clock.text 0))
      (p.started (clock.text 0)).step).failure = some cause := hfailure
  simp only [advance, hterminal, hfailed, Bool.false_eq_true, if_false]
  generalize service.performStep (p.started (clock.text 0)) (p.started (clock.text 0)).step = reply
    at hreply ⊢
  simp only [afterReply, stepCall, hreply, Option.isNone_some]
  exact ⟨rfl, rfl, rfl⟩

theorem advance_of_not_open (h : ¬ p.IsOpen) :
    (p.advance service clock).result.success = false ∧ (p.advance service clock).calls = [] ∧
      (p.advance service clock).stored = none := by
  by_cases hterminal : p.isTerminal = true
  · simp [advance, hterminal, alreadyOver]
  · have hfailed : p.status = .known .failed := by
      by_contra hfailed
      exact h ⟨by simpa using hterminal, hfailed⟩
    simp [advance, hterminal, hfailed]

theorem rollBack_of_terminal (h : p.isTerminal = true) :
    (p.rollBack service clock).result.success = false ∧ (p.rollBack service clock).calls = [] ∧
      (p.rollBack service clock).stored = none := by
  simp [rollBack, h, alreadyOver]

/-- The actions from the `start`-th on, of which the one after `n` more is the first to fail. -/
theorem undo_of_fails {action : String} (actions : List String) :
    ∀ start n : Nat, actions[n]? = some action →
      (service.performRollback p (start + n) action).failure = some cause →
      (∀ m a, m < n → actions[m]? = some a →
        (service.performRollback p (start + m) a).failure = none) →
      (undo service p start actions).1 = some cause ∧
        (undo service p start actions).2.1 =
          p.undoing (actions.take n) ++ [.rollback p.id action false] := by
  -- the places of the remaining actions count from `start` on
  induction actions with
  | nil =>
    intro start n haction
    simp at haction
  | cons a rest ih =>
    intro start n haction hfailure hbefore
    cases n with
    | zero =>
      simp only [List.getElem?_cons_zero, Option.some.injEq] at haction
      subst haction
      rw [Nat.add_zero] at hfailure
      simp [undo, hfailure, undoing]
    | succ n =>
      have hfirst : (service.performRollback p start a).failure = none :=
        hbefore 0 a (Nat.succ_pos n) rfl
      have hrest := ih (start + 1) n haction
        (by rwa [Nat.add_assoc, Nat.add_comm 1 n]) fun m a hm ha => by
          rw [Nat.add_assoc, Nat.add_comm 1 m]
          exact hbefore (m + 1) a (Nat.succ_lt_succ hm) ha
      simp [undo, hfirst, hrest.1, hrest.2, undoing]

theorem rollBack_of_actionFails {n : Nat} {action : String}
    (h : ActionFails service p n action cause) :
    (p.rollBack service clock).result.success = false ∧
      (p.rollBack service clock).calls = p.undoneTo n action ∧
      (p.rollBack service clock).stored = some (p.noted cause (clock.text 0)) := by
  have hundo : (undo service p 0 p.rollbackPlan).1 = some cause ∧
      (undo service p 0 p.rollbackPlan).2.1 = p.undoneTo n action :=
    undo_of_fails p.rollbackPlan 0 n h.found (by simpa using h.failure)
      fun m a hm ha => by simpa using h.before m a hm ha
  rcases hresult : undo service p 0 p.rollbackPlan with ⟨failure, calls, log⟩
  rw [hresult] at hundo
  obtain ⟨rfl, rfl⟩ := hundo
  simp only [rollBack, h.isOpen, hresult, Bool.false_eq_true, if_false]
  exact ⟨trivial, trivial, rfl⟩

end Plan

/-! ## The place of the plans -/

namespace Storage

variable {s s' : Storage}

theorem directory?_of_save {p : Plan} (h : s.save p = .ok s') : s'.directory? = s.directory? := by
  rw [save] at h
  split at h
  · next plans hstore =>
    cases h
    simp only [directory?, hstore]
  · split at h
    · split at h
      · cases h
        rfl
      · cases h
    · cases h

theorem directory?_of_delete {id : String} {there : Bool} (h : s.delete id = .ok (there, s')) :
    s'.directory? = s.directory? := by
  rw [delete] at h
  split at h
  · next plans hstore =>
    cases h
    simp only [directory?, hstore]
  · split at h
    · cases h
      rfl
    · dsimp only at h
      split at h
      · cases h
      · cases h
        rfl
      · split at h
        · cases h
          rfl
        · cases h

/-- What is found under an id is the same in two storages of one place that agree on it. -/
theorem Holds.get_eq {plans plans' : Keyed Plan} (h : s.Holds plans) (h' : s'.Holds plans')
    (hplace : s'.directory? = s.directory?) {id : String}
    (hid : plans'.get? id = plans.get? id) : s'.get id = s.get id := by
  cases hp : plans.get? id with
  | some p => rw [h'.get (hid.trans hp), h.get hp]
  | none =>
    obtain ⟨reply, _, hreply⟩ := exists_get_none s.directory? id
    rw [hreply h' hplace (hid.trans hp), hreply h rfl hp]

/-- No file has a name for an id of more than 250 characters. -/
theorem not_reaches_of_length {directory id : String} (hplace : s.directory? = some directory)
    (hvalid : PlanId.isValid id = true) (hlong : 250 < id.length) : ¬ s.Reaches id := by
  intro hreach
  have hshort := (hreach directory hplace hvalid).shortName
  have hending : ".json".utf8ByteSize = 5 := rfl
  rw [Disk.isLongName, decide_eq_false_iff_not, fileName, String.utf8ByteSize_append,
    utf8ByteSize_of_isValid hvalid, hending] at hshort
  omega

/-- An id that the system cannot be asked for. -/
theorem Holds.get_of_not_reaches {plans : Keyed Plan} (h : s.Holds plans) {id : String}
    (hreach : ¬ s.Reaches id) : ∃ path, s.get id = (.error (.disk .nameTooLong path), []) := by
  simp only [Reaches, not_forall] at hreach
  obtain ⟨directory, hdirectory, hvalid, hfits⟩ := hreach
  rcases h.kept with hstore | ⟨directory', es, hstore, hfolder, _⟩
  · simp [directory?, hstore] at hdirectory
  · obtain rfl : directory' = directory := by simpa [directory?, hstore] using hdirectory
    have hpresent := hfolder.lists.isPresent_of_not_fits (hfolder.fileOrFree _).noLink
      (isName_fileName hvalid) hfits
    refine ⟨planFile directory' id, ?_⟩
    simp only [Storage.get, hstore, hvalid, if_true, Storage.readPlan, planFile_eq, hpresent]

end Storage

namespace Planner

variable {pl : Planner} {plans : Keyed Plan} {id : String}

theorem directory?_settle (pl : Planner) (log : Log) (t : Transition) :
    (settle pl log t).planner.storage.directory? = pl.storage.directory? := by
  rw [settle]
  split
  · rfl
  · split
    · rfl
    · next s hsave => exact Storage.directory?_of_save hsave

theorem directory?_transact (pl : Planner) (id : String) (move : Plan → Transition) :
    (transact pl id move).planner.storage.directory? = pl.storage.directory? := by
  rw [transact]
  split
  · rfl
  · rfl
  · exact directory?_settle pl _ _

theorem directory?_executeSteps (service : MutationService) (id : String) (fuel : Nat) :
    ∀ (clock : Clock) (pl : Planner),
      (executeSteps service id fuel clock pl).planner.storage.directory? =
        pl.storage.directory? := by
  induction fuel with
  | zero => exact fun _ _ => rfl
  | succ fuel ih =>
    intro clock pl
    have hfirst : (execute pl service clock id).planner.storage.directory? =
        pl.storage.directory? := directory?_transact pl id _
    rw [executeSteps]
    split
    · exact hfirst
    · split
      · exact (ih _ _).trans hfirst
      · exact hfirst

theorem directory?_create (pl : Planner) (c : Circumstances) (path type description : String) :
    (pl.create c path type description).planner.storage.directory? = pl.storage.directory? := by
  cases hdraft : drafted pl.analysis (pl.issued + 1) c path type description with
  | error e => rw [(create_eq_of_error hdraft).2.2]
  | ok p =>
    have hcreate := (create_eq_of_ok hdraft).2
    cases hsave : pl.storage.save p with
    | error e =>
      rw [hsave] at hcreate
      rw [hcreate.2]
      rfl
    | ok s =>
      rw [hsave] at hcreate
      rw [hcreate.2]
      exact Storage.directory?_of_save hsave

theorem directory?_delete (pl : Planner) (id : String) :
    (pl.delete id).planner.storage.directory? = pl.storage.directory? := by
  rw [delete]
  split
  · rfl
  · rfl
  · split
    · rfl
    · next hdelete => exact Storage.directory?_of_delete hdelete

theorem directory?_reopen (pl : Planner) :
    pl.reopen.planner.storage.directory? = pl.storage.directory? := by
  rw [reopen]
  split
  · rfl
  · next directory hstore =>
    rw [Storage.openFolder]
    cases pl.storage.disk.makeDirectories directory with
    | error e => rfl
    | ok disk => simp only [withStorage, Storage.directory?, hstore]

theorem directory?_handle (pl : Planner) (r : Request) :
    (pl.handle r).planner.storage.directory? = pl.storage.directory? := by
  cases r with
  | create c path type description => exact directory?_create pl c path type description
  | execute service clock id => exact directory?_transact pl id _
  | executeAll service clock id => exact directory?_executeSteps service id _ clock pl
  | rollBack service clock id => exact directory?_transact pl id _
  | delete id => exact directory?_delete pl id
  | reopen => exact directory?_reopen pl
  | get | list | summarize | surroundings => rfl

/-- The plans stay in one place for a whole session. -/
theorem directory?_after (requests : List Request) :
    ∀ pl : Planner, (pl.after requests).storage.directory? = pl.storage.directory? := by
  induction requests with
  | nil => exact fun _ => rfl
  | cons r rest ih => exact fun pl => (ih _).trans (directory?_handle pl r)

/-! ## Operations -/

/-- The operation ends without success; `q` is the plan under `id` now, and whatever is found
under other ids stays. -/
structure Fails (pl : Planner) (o : Outcome StepResult) (calls : List Call) (id : String)
    (q : Plan) : Prop where
  result : ∃ r, o.result = .ok r ∧ r.success = false
  calls : o.calls = calls
  stored : o.planner.Keeps id q
  others : ∀ other, other ≠ id → o.planner.storage.get other = pl.storage.get other

/-- The operation says that it has no success, and does nothing. -/
structure Rejects (pl : Planner) (o : Outcome StepResult) : Prop where
  result : ∃ r, o.result = .ok r ∧ r.success = false
  calls : o.calls = []
  planner : o.planner = pl

/-- The operation gives no result, and does nothing. -/
structure Refuses (pl : Planner) (o : Outcome StepResult) (e : Failure) : Prop where
  result : o.result = .error e
  calls : o.calls = []
  planner : o.planner = pl

/-- Whatever fails or is turned down leaves everything as it was, save for what is noted in the
plan that a call was made for. -/
structure Atomic (pl : Planner) (service : MutationService) (clock : Clock) (id : String) :
    Prop where
  stepFails : ∀ p cause, pl.Keeps id p → p.StepFails service clock cause →
    pl.Fails (pl.execute service clock id) [.step id p.step.text false] id
      (p.stopped cause (clock.text 1))
  actionFails : ∀ p n action cause, pl.Keeps id p → p.ActionFails service n action cause →
    pl.Fails (pl.rollBack service clock id) (p.undoneTo n action) id
      (p.noted cause (clock.text 0))
  executeRejected : ∀ p, pl.Keeps id p → ¬ p.IsOpen → pl.Rejects (pl.execute service clock id)
  rollBackRejected : ∀ p, pl.Keeps id p → p.isTerminal = true →
    pl.Rejects (pl.rollBack service clock id)
  unknown : (∀ p, ¬ pl.Keeps id p) →
    pl.Refuses (pl.execute service clock id) (.planNotFound id) ∧
      pl.Refuses (pl.rollBack service clock id) (.planNotFound id)

section Transact

variable {move : Plan → Transition} {p q : Plan}

theorem fails_transact (h : pl.storage.Holds plans) (hp : plans.get? id = some p)
    (hmove : p.Moved (move p).calls (move p).stored) (hstored : (move p).stored = some q)
    (hsuccess : (move p).result.success = false) :
    pl.Fails (transact pl id move) (move p).calls id q := by
  have hyields := transact_some h hp hmove
  rw [hstored] at hyields
  have hholds : (transact pl id move).planner.storage.Holds (plans.insert id q) := hyields.holds
  refine ⟨⟨_, hyields.result, hsuccess⟩, hyields.calls, ?_, fun other hother => ?_⟩
  · rw [keeps_iff hholds, Keyed.get?_insert, if_pos rfl]
  · refine h.get_eq hholds (directory?_transact pl id move) ?_
    rw [Keyed.get?_insert, if_neg hother.symm]

theorem rejects_transact (h : pl.storage.Holds plans) (hp : plans.get? id = some p)
    (hmove : (move p).result.success = false ∧ (move p).calls = [] ∧ (move p).stored = none) :
    pl.Rejects (transact pl id move) := by
  obtain ⟨hsuccess, hcalls, hstored⟩ := hmove
  simp only [transact, h.get hp, settle, hstored]
  exact ⟨⟨_, rfl, hsuccess⟩, hcalls, rfl⟩

theorem refuses_transact_of_reaches (h : pl.storage.Holds plans) (hp : plans.get? id = none)
    (hreach : pl.storage.Reaches id) : pl.Refuses (transact pl id move) (.planNotFound id) := by
  rw [transact, h.get_none_of_reaches hp hreach]
  exact ⟨rfl, rfl, rfl⟩

theorem refuses_transact_of_error {e : Failure} (h : pl.storage.get id = (.error e, [])) :
    pl.Refuses (transact pl id move) e := by
  rw [transact, h]
  exact ⟨rfl, rfl, rfl⟩

end Transact

/-! ## Sessions -/

variable {service : MutationService} {clock : Clock}

theorem atomic_of_holds (h : pl.storage.Holds plans) (hreach : pl.storage.Reaches id) :
    pl.Atomic service clock id := by
  constructor
  case stepFails =>
    intro p cause hp hfails
    rw [keeps_iff h] at hp
    obtain ⟨hsuccess, hcalls, hstored⟩ := Plan.advance_of_stepFails hfails
    have hfails := fails_transact h hp (Plan.moved_advance service clock p) hstored hsuccess
    rwa [hcalls, h.named hp] at hfails
  case actionFails =>
    intro p n action cause hp hfails
    rw [keeps_iff h] at hp
    obtain ⟨hsuccess, hcalls, hstored⟩ := Plan.rollBack_of_actionFails hfails
    have hfails := fails_transact h hp (Plan.moved_rollBack service clock p) hstored hsuccess
    rwa [hcalls] at hfails
  case executeRejected =>
    intro p hp hopen
    exact rejects_transact h ((keeps_iff h).mp hp) (Plan.advance_of_not_open hopen)
  case rollBackRejected =>
    intro p hp hterminal
    exact rejects_transact h ((keeps_iff h).mp hp) (Plan.rollBack_of_terminal hterminal)
  case unknown =>
    intro hunknown
    have hnone : plans.get? id = none := by
      rw [Option.eq_none_iff_forall_ne_some]
      exact fun p hp => hunknown p ((keeps_iff h).mpr hp)
    exact ⟨refuses_transact_of_reaches h hnone hreach, refuses_transact_of_reaches h hnone hreach⟩

/-- Of an id that the system cannot be asked for it says that the name is too long. -/
theorem refuses_of_not_reaches (h : pl.storage.Holds plans) (hreach : ¬ pl.storage.Reaches id) :
    ∃ path, ∀ move : Plan → Transition,
      pl.Refuses (transact pl id move) (.disk .nameTooLong path) := by
  obtain ⟨path, hget⟩ := h.get_of_not_reaches hreach
  exact ⟨path, fun move => refuses_transact_of_error hget⟩

theorem not_atomic_of_not_reaches (h : pl.storage.Holds plans)
    (hreach : ¬ pl.storage.Reaches id) : ¬ pl.Atomic service clock id := by
  intro hatomic
  have hunknown : ∀ p, ¬ pl.Keeps id p := by
    intro p hp
    obtain ⟨path, hget⟩ := h.get_of_not_reaches hreach
    rw [Keeps, hget] at hp
    cases hp
  obtain ⟨path, hrefuses⟩ := refuses_of_not_reaches h hreach
  have hnotFound := (hatomic.unknown hunknown).1.result
  have htooLong : (pl.execute service clock id).result = .error (.disk .nameTooLong path) :=
    (hrefuses _).result
  rw [htooLong] at hnotFound
  cases hnotFound

/-- After every session, for every id that the system can be asked for; for another one the
failure is a different one, and still nothing happens. -/
theorem atomic_iff_reaches (pl : Planner) (requests : List Request) (hempty : pl.storage.IsEmpty)
    (hspared : pl.Undisturbed requests) (service : MutationService) (clock : Clock) (id : String) :
    ((pl.after requests).Atomic service clock id ↔ pl.storage.Reaches id) ∧
      (¬ pl.storage.Reaches id → ∃ path,
        (pl.after requests).Refuses ((pl.after requests).execute service clock id)
          (.disk .nameTooLong path) ∧
        (pl.after requests).Refuses ((pl.after requests).rollBack service clock id)
          (.disk .nameTooLong path)) := by
  obtain ⟨_, plans, _, hholds, _⟩ :=
    session_follows requests (Storage.holds_empty hempty) hspared
  have hreaches : (pl.after requests).storage.Reaches id ↔ pl.storage.Reaches id := by
    rw [Storage.Reaches, Storage.Reaches, directory?_after]
  rw [← hreaches]
  refine ⟨⟨fun hatomic => ?_, atomic_of_holds hholds⟩, fun hreach => ?_⟩
  · by_contra hreach
    exact not_atomic_of_not_reaches hholds hreach hatomic
  · obtain ⟨path, hrefuses⟩ := refuses_of_not_reaches hholds hreach
    exact ⟨path, hrefuses _, hrefuses _⟩

end Planner

namespace Sample

/-- The second plan of the session has its first step behind it. -/
theorem found_other :
    (((planner (.memory .empty)).after session).storage.get other).1.toOption.join.map
      (fun p => (p.status, p.step)) = some (.known .inProgress, .known .backup) := by
  decide +kernel

theorem stepFails_other : ∃ p, ((planner (.memory .empty)).after session).Keeps other p ∧
    p.step = .known .backup ∧ p.StepFails failing noon .badJson := by
  have hother := found_other
  rw [Option.map_eq_some_iff] at hother
  obtain ⟨p, hp, hstate⟩ := hother
  rw [Prod.mk.injEq] at hstate
  obtain ⟨hstatus, hstep⟩ := hstate
  refine ⟨p, ?_, hstep, ⟨?_, ?_⟩, ?_⟩
  · rw [Planner.Keeps]
    cases hget : (((planner (.memory .empty)).after session).storage.get other).1 with
    | error e => simp [hget, Except.toOption] at hp
    | ok found => simpa [hget, Except.toOption] using hp
  · simp [Plan.isTerminal, hstatus]
  · simp [hstatus]
  · simp [failing, hstep]

theorem isEmpty_folder : (planner (.folder "home/plans")).storage.IsEmpty :=
  ⟨["home", "plans"], rfl⟩

/-- An id of `n` letters. -/
def lettered (n : Nat) : String := .ofList (List.replicate n 'a')

theorem length_lettered (n : Nat) : (lettered n).length = n := by simp [lettered]

theorem isValid_lettered {n : Nat} (h : 0 < n) : PlanId.isValid (lettered n) = true := by
  refine PlanId.isValid_of_forall (fun hempty => ?_) fun c hc => ?_
  · have hlength := length_lettered n
    rw [hempty, String.length_empty] at hlength
    omega
  · rw [lettered, String.toList_ofList] at hc
    rw [List.eq_of_mem_replicate hc]
    decide

theorem not_reaches_lettered {n : Nat} (h : 250 < n) :
    ¬ (planner (.folder "home/plans")).storage.Reaches (lettered n) :=
  Storage.not_reaches_of_length rfl (isValid_lettered (by omega)) (by rwa [length_lettered])

end Sample

namespace Planner

theorem atomic_iff_reaches_sample :
    ∃ q, ((Sample.planner (.memory .empty)).after Sample.session).Fails
      (((Sample.planner (.memory .empty)).after Sample.session).execute Sample.failing Sample.noon
        Sample.other) [.step Sample.other "backup" false] Sample.other q := by
  obtain ⟨p, hp, hstep, hfails⟩ := Sample.stepFails_other
  have hatomic := (atomic_iff_reaches (Sample.planner (.memory .empty)) Sample.session rfl
    Sample.undisturbed Sample.failing Sample.noon Sample.other).1.mpr fun _ hplace => nomatch hplace
  have hstopped := hatomic.stepFails p _ hp hfails
  rw [hstep] at hstopped
  exact ⟨_, hstopped⟩

/-- A long id is not said to be unknown. -/
theorem not_atomic_long : (Sample.planner (.folder "home/plans")).storage.IsEmpty ∧
    ¬ (Sample.planner (.folder "home/plans")).Atomic .reporting Sample.noon (Sample.lettered 255) :=
  ⟨Sample.isEmpty_folder, not_atomic_of_not_reaches (Storage.holds_empty Sample.isEmpty_folder)
    (Sample.not_reaches_lettered (by omega))⟩

end Planner

end ChangeImpact
