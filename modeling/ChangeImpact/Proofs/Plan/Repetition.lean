import ChangeImpact.Proofs.Plan.Atomicity

/-!
# Proofs.Plan.Repetition

Executing a plan to its end is executing one step after another, and it has an end.

* `Plan.Goes`          — the three ways in which a step of an open plan can end.
* `Plan.IsListed`      — status and step are of the known ones, as for every plan of a session.
* `Planner.Repeats`    — an outcome is that of single steps, up to the first one that is no reason
  to go on.
* `Planner.repeats_executeSteps` — the steps of an open plan are such an outcome, if as many may be
  executed as there are left.
* `Planner.runsOut`    — so it is after every session, with what becomes of the plan.
-/

namespace ChangeImpact

/-- There is another step after this one. -/
def StepResult.goesOn (r : StepResult) : Bool := r.success && r.next.isSome

namespace Plan

variable {p : Plan} {s : PlanStep}

/-! ## One step -/

/-- The result of step `s`, and the plan then. -/
inductive Goes (s : PlanStep) (r : StepResult) (q : Plan) : Prop
  | on (next : PlanStep) (hnext : s.next? = some next) (hsuccess : r.success = true)
      (hr : r.next = some next) (hopen : q.IsOpen) (hstep : q.step = .known next)
  | ends (hlast : s.next? = none) (hsuccess : r.success = true) (hr : r.next = none)
      (hstatus : q.status = .known .completed)
  | fails (hsuccess : r.success = false) (hstatus : q.status = .known .failed)

theorem goes_advance (service : MutationService) (clock : Clock) (hopen : p.IsOpen)
    (hs : p.step = .known s) :
    ∃ q, (p.advance service clock).stored = some q ∧ Goes s (p.advance service clock).result q := by
  obtain ⟨hterminal, hfailed⟩ := hopen
  cases hfailure : (service.performStep (p.started (clock.text 0)) p.step).failure with
  | some cause =>
    obtain ⟨hsuccess, _, hstored⟩ := advance_of_stepFails ⟨⟨hterminal, hfailed⟩, hfailure⟩
    exact ⟨_, hstored, .fails hsuccess rfl⟩
  | none =>
    have hstep : (p.started (clock.text 0)).step = p.step := rfl
    simp only [advance, hterminal, hfailed, Bool.false_eq_true, if_false, afterReply, hstep,
      hfailure]
    cases hnext : s.next? with
    | none =>
      simp only [passed, hstep, hs, hnext]
      exact ⟨_, rfl, .ends hnext rfl rfl rfl⟩
    | some next =>
      simp only [passed, hstep, hs, hnext]
      exact ⟨_, rfl, .on next hnext rfl rfl (by simp [IsOpen, isTerminal, started]) rfl⟩

/-! ## Plans of a session -/

structure IsListed (p : Plan) : Prop where
  status : ∃ st, p.status = .known st
  step : ∃ s, p.step = .known s

theorem IsListed.moved {q : Plan} {calls : List Call} (h : p.IsListed)
    (hmoved : p.Moved calls (some q)) : q.IsListed := by
  obtain ⟨hstatus, hstep⟩ := h
  cases hmoved with
  | passed s next => exact ⟨⟨_, rfl⟩, ⟨next, rfl⟩⟩
  | cut => exact ⟨hstatus, hstep⟩
  | completed | broken | unlisted | rolledBack => exact ⟨⟨_, rfl⟩, hstep⟩

theorem IsListed.isOpen_iff (h : p.IsListed) :
    p.IsOpen ↔ p.status = .known .pending ∨ p.status = .known .inProgress := by
  obtain ⟨st, hst⟩ := h.status
  rw [IsOpen, isTerminal, hst]
  cases st <;> decide

end Plan

theorem Changes.isListed {plans after : Keyed Plan} {events : List Event}
    (h : Changes plans events after) (hplans : ∀ id p, plans.get? id = some p → p.IsListed) :
    ∀ id p, after.get? id = some p → p.IsListed :=
  h.forall_stored hplans (fun _ _ hnew => ⟨⟨_, hnew.status⟩, ⟨_, hnew.step⟩⟩)
    fun _ _ _ _ hlisted hmoved => hlisted.moved hmoved

namespace Planner

variable {pl : Planner} {plans : Keyed Plan} {id : String} {service : MutationService}
  {p : Plan} {s : PlanStep}

/-! ## One step after another -/

/-- `n` requests for a single step. -/
def singleSteps (service : MutationService) (id : String) : Clock → Nat → List Request
  | _, 0 => []
  | clock, n + 1 =>
    .execute service clock id :: singleSteps service id (clock.later 2) n

/-- The outcome is that of single steps up to the `last` one, the first that is no reason to go
on. -/
structure Repeats (pl : Planner) (service : MutationService) (clock : Clock) (id : String)
    (o : Outcome (List StepResult)) (results : List StepResult) (last : StepResult) : Prop where
  result : o.result = .ok (results ++ [last])
  single : (pl.outcomes (singleSteps service id clock (results.length + 1))).map (·.result) =
    (results ++ [last]).map fun r => .ok (.step r)
  planner : o.planner = pl.after (singleSteps service id clock (results.length + 1))
  calls : o.calls = pl.calls (singleSteps service id clock (results.length + 1))
  log : o.log = (pl.outcomes (singleSteps service id clock (results.length + 1))).flatMap (·.log)
  goOn : ∀ r ∈ results, r.goesOn = true
  stops : last.goesOn = false

theorem repeats_last {clock : Clock} (fuel : Nat) {r : StepResult}
    (hresult : (pl.execute service clock id).result = .ok r) (hr : r.goesOn = false) :
    pl.Repeats service clock id (executeSteps service id (fuel + 1) clock pl) [] r := by
  have hstop : (r.success && r.next.isSome) = false := hr
  rw [executeSteps]
  simp only [hresult, hstop, Bool.false_eq_true, if_false]
  constructor
  case single => simp [singleSteps, outcomes, handle, hresult, Except.map]
  case calls => simp [singleSteps, calls, outcomes, handle]
  case log => simp [singleSteps, outcomes, handle, Outcome.map]
  case goOn => simp
  case stops => exact hr
  all_goals rfl

theorem Repeats.cons {clock : Clock} {fuel : Nat} {r last : StepResult}
    {results : List StepResult} (hresult : (pl.execute service clock id).result = .ok r)
    (hr : r.goesOn = true)
    (h : (pl.execute service clock id).planner.Repeats service (clock.later 2) id
      (executeSteps service id fuel (clock.later 2) (pl.execute service clock id).planner)
      results last) :
    pl.Repeats service clock id (executeSteps service id (fuel + 1) clock pl) (r :: results)
      last := by
  have hgo : (r.success && r.next.isSome) = true := hr
  rw [executeSteps]
  simp only [hresult, hgo, if_true]
  constructor
  case result => rw [h.result]; rfl
  case single =>
    simp only [List.length_cons, singleSteps, outcomes, List.map_cons, handle,
      Outcome.map_result, Outcome.map_planner, hresult, List.cons_append]
    rw [← h.single, singleSteps]
    rfl
  case planner => exact h.planner
  case calls => rw [h.calls]; rfl
  case log => rw [h.log]; rfl
  case goOn => exact List.forall_mem_cons.mpr ⟨hr, h.goOn⟩
  case stops => exact h.stops

/-- The steps of an open plan: by induction on the number of steps that may be executed, since the
place of the plan among the six is one further each time. -/
theorem repeats_executeSteps (service : MutationService) (id : String) (fuel : Nat) :
    ∀ (clock : Clock) {pl : Planner} {plans : Keyed Plan} {p : Plan} {s : PlanStep},
      pl.storage.Holds plans → plans.get? id = some p → p.IsOpen → p.step = .known s →
      6 ≤ fuel + s.position →
      ∃ results last, pl.Repeats service clock id (executeSteps service id fuel clock pl) results
          last ∧
        results.length + 1 ≤ 6 - s.position ∧
        ∃ q, (executeSteps service id fuel clock pl).planner.Keeps id q ∧
          q.status = .known (if last.success then .completed else .failed) := by
  induction fuel with
  | zero =>
    intro clock pl plans p s _ _ _ _ hfuel
    cases s <;> simp [PlanStep.position] at hfuel
  | succ fuel ih =>
    intro clock pl plans p s hholds hp hopen hs hfuel
    have hposition : s.position < 6 := by cases s <;> decide
    obtain ⟨q, hstored, hgoes⟩ := Plan.goes_advance service clock hopen hs
    have hyields := transact_some hholds hp (Plan.moved_advance service clock p)
    rw [hstored] at hyields
    have hresult : (pl.execute service clock id).result = .ok (p.advance service clock).result :=
      hyields.result
    have hthen : (pl.execute service clock id).planner.storage.Holds (plans.insert id q) :=
      hyields.holds
    have hq : (plans.insert id q).get? id = some q := by simp
    -- after a step that is the last one, the plan is as this step leaves it
    have hlast : (p.advance service clock).result.goesOn = false →
        q.status =
          .known (if (p.advance service clock).result.success then .completed else .failed) →
        ∃ results last, pl.Repeats service clock id (executeSteps service id (fuel + 1) clock pl)
            results last ∧
          results.length + 1 ≤ 6 - s.position ∧
          ∃ q, (executeSteps service id (fuel + 1) clock pl).planner.Keeps id q ∧
            q.status = .known (if last.success then .completed else .failed) := by
      intro hstop hstatus
      have hall := repeats_last fuel hresult hstop
      refine ⟨[], _, hall, by rw [List.length_nil]; omega, q, ?_, hstatus⟩
      rw [hall.planner]
      exact (keeps_iff hthen).mpr hq
    cases hgoes with
    | on next hnext hsuccess hr hopen' hstep =>
      have hgo : (p.advance service clock).result.goesOn = true := by
        simp [StepResult.goesOn, hsuccess, hr]
      rw [PlanStep.next?_eq_some_iff] at hnext
      obtain ⟨results, last, hrepeats, hlength, r, hkeeps, hstatus⟩ :=
        ih (clock.later 2) hthen hq hopen' hstep (by omega)
      have hall := hrepeats.cons hresult hgo
      refine ⟨_, last, hall, by rw [List.length_cons]; omega, r, ?_, hstatus⟩
      rw [hall.planner]
      rw [hrepeats.planner] at hkeeps
      exact hkeeps
    | ends hend hsuccess hr hstatus =>
      refine hlast (by simp [StepResult.goesOn, hr]) ?_
      rw [hsuccess, if_pos rfl, hstatus]
    | fails hsuccess hstatus =>
      refine hlast (by simp [StepResult.goesOn, hsuccess]) ?_
      rw [hsuccess, if_neg Bool.false_ne_true, hstatus]

/-! ## Sessions -/

/-- Executing all steps of the plan `p` under an id: what comes of it, one result after another,
and where the plan is then. -/
structure RunsOut (pl : Planner) (service : MutationService) (clock : Clock) (id : String)
    (p : Plan) (results : List StepResult) (last : StepResult) : Prop where
  repeats : pl.Repeats service clock id (pl.executeAll service clock id) results last
  opened : p.status = .known .pending ∨ p.status = .known .inProgress →
    ∃ s, p.step = .known s ∧ results.length + 1 ≤ 6 - s.position ∧
      (∀ r ∈ results, r.success = true) ∧
      ∃ q, (pl.executeAll service clock id).planner.Keeps id q ∧
        q.status = .known (if last.success then .completed else .failed)
  closed : ¬ (p.status = .known .pending ∨ p.status = .known .inProgress) →
    (p.status = .known .failed ∨ p.isTerminal = true) ∧
      results = [] ∧ last.success = false ∧ (pl.executeAll service clock id).calls = [] ∧
      (pl.executeAll service clock id).planner = pl

theorem runsOut_of_holds (hholds : pl.storage.Holds plans) (hp : plans.get? id = some p)
    (hlisted : p.IsListed) (service : MutationService) (clock : Clock) :
    ∃ results last, pl.RunsOut service clock id p results last := by
  by_cases hopen : p.IsOpen
  · obtain ⟨s, hs⟩ := hlisted.step
    obtain ⟨results, last, hrepeats, hlength, hthen⟩ :=
      repeats_executeSteps service id 6 clock hholds hp hopen hs
        (Nat.le_add_right _ _)
    refine ⟨results, last, hrepeats, fun _ => ⟨s, hs, hlength, fun r hr => ?_, hthen⟩, ?_⟩
    · have hgo := hrepeats.goOn r hr
      rw [StepResult.goesOn, Bool.and_eq_true] at hgo
      exact hgo.1
    · exact fun hclosed => absurd (hlisted.isOpen_iff.mp hopen) hclosed
  · have hrejects : pl.Rejects (pl.execute service clock id) :=
      rejects_transact hholds hp (Plan.advance_of_not_open hopen)
    obtain ⟨r, hresult, hsuccess⟩ := hrejects.result
    have hstop : r.goesOn = false := by simp [StepResult.goesOn, hsuccess]
    have hrepeats : pl.Repeats service clock id (pl.executeAll service clock id) [] r :=
      repeats_last 5 hresult hstop
    refine ⟨[], r, hrepeats, ?_, fun _ => ⟨?_, rfl, hsuccess, ?_, ?_⟩⟩
    · exact fun hpending => absurd (hlisted.isOpen_iff.mpr hpending) hopen
    · by_contra hneither
      rw [not_or, Bool.not_eq_true] at hneither
      exact hopen ⟨hneither.2, hneither.1⟩
    · rw [hrepeats.calls]
      simp [singleSteps, calls, outcomes, handle, hrejects.calls]
    · rw [hrepeats.planner]
      exact hrejects.planner

/-- After every session, for every plan that is stored then. -/
theorem runsOut (pl : Planner) (requests : List Request) (hempty : pl.storage.IsEmpty)
    (hspared : pl.Undisturbed requests) (service : MutationService) (clock : Clock) (id : String)
    (p : Plan) (hp : (pl.after requests).Keeps id p) :
    ∃ results last, (pl.after requests).RunsOut service clock id p results last := by
  obtain ⟨_, plans, hchanges, hholds, _⟩ :=
    session_follows requests (Storage.holds_empty hempty) hspared
  rw [keeps_iff hholds] at hp
  have hlisted := hchanges.isListed (fun id p hp => by simp at hp) id p hp
  exact runsOut_of_holds hholds hp hlisted service clock

/-- A plan whose next step fails. -/
theorem runsOut_sample :
    ∃ p results last, p.step = .known .backup ∧
      ((Sample.planner (.memory .empty)).after Sample.session).RunsOut Sample.failing Sample.noon
        Sample.other p results last := by
  obtain ⟨p, hp, hstep, _⟩ := Sample.stepFails_other
  obtain ⟨results, last, hruns⟩ := runsOut (Sample.planner (.memory .empty)) Sample.session rfl
    Sample.undisturbed Sample.failing Sample.noon Sample.other p hp
  exact ⟨p, results, last, hstep, hruns⟩

end Planner

end ChangeImpact
