import ChangeImpact.Proofs.CommandLine.Histories
import ChangeImpact.Proofs.Plan.Isolation

/-!
# Proofs.CommandLine.Gate

The question that stands before the execution of a plan.

* `Plan.IsRisky` — a plan that somebody has to agree to.
* `taken`        — the steps that an execution takes.
* `Course`       — the ways that an execution can go; `takes_of_opened` finds one of them.
* `Gated`        — what one execution changes and how it ends.
* `executions_gated` — so it is for every execution, whatever command lines on plans came before.
-/

namespace ChangeImpact

/-- A plan for a file of high or critical risk, or one that breaks something. -/
def Plan.IsRisky (p : Plan) : Prop :=
  (∃ r, p.analysis = some r ∧ (r.risk = .known .high ∨ r.risk = .known .critical)) ∨
    ∃ i ∈ p.impacts, i.type = .known .breaking

theorem Plan.needsConfirmation_iff {p : Plan} : p.needsConfirmation = true ↔ p.IsRisky := by
  rw [needsConfirmation, Bool.or_eq_true, List.any_eq_true]
  refine or_congr ?_ ?_
  · cases p.analysis with
    | none => simp
    | some r => simp [isRisky]
  · simp [isBreaking]

namespace Planner

variable {id : String}

theorem executeSteps_ne_nil {pl : Planner} {service : MutationService} {fuel : Nat}
    {clock : Clock} {results : List StepResult}
    (h : (executeSteps service id (fuel + 1) clock pl).result = .ok results) : results ≠ [] := by
  rw [executeSteps] at h
  split at h
  · cases h
  · split at h
    · rintro rfl
      cases hrest : (executeSteps service id fuel (clock.later 2)
        (execute pl service clock id).planner).result with
      | error e => simp [hrest, Except.map] at h
      | ok rest => simp [hrest, Except.map] at h
    · cases h
      simp

end Planner

namespace CommandLine

open ChangeImpact.CommandLine.Action ChangeImpact.CommandLine.Console

/-! ## Execution -/

/-- The steps that an execution takes. -/
def taken (pl : Planner) (now : Moment) (id : String) (all : Bool) : Outcome (List StepResult) :=
  if all then pl.executeAll .reporting now id
  else (pl.execute .reporting now id).map fun r => [r]

/-- A plan that is asked about before it is executed. -/
def isHeldBack (p : Plan) (yes : Bool) : Bool := p.needsConfirmation && !p.isTerminal && !yes

/-- Success of the last step decides how an execution ends. -/
def endingOf (results : List StepResult) : Except Ending Unit :=
  if (results.getLast?.map (·.success)).getD true then .ok () else .error (.exit 1)

/-- What is done with a plan that may be executed. -/
def carriedOut (pl : Planner) (now : Moment) (id : String) (all : Bool) : Action Unit := do
  let results ← performed pl now id all
  showEach results resultText
  showProgress pl id
  unless (results.getLast?.map (·.success)).getD true do Action.exit 1

theorem executePlan_eq (c : Circumstances) (answer : Option Bool) (id : String) (all yes : Bool) :
    executePlan c answer id all yes = (do
      let pl ← openPlanner none
      let p ← demandPlan pl id
      if isHeldBack p yes then
        askToProceed p answer
        carriedOut pl c.now id all
      else carriedOut pl c.now id all) := rfl

section Taken

variable {pl : Planner} {plans : Keyed Plan} {id : String} {all : Bool} {now : Moment} {p : Plan}

theorem on_performed (pl : Planner) (now : Moment) (id : String) (all : Bool) (c : Console) :
    (performed pl now id all).on c = (settled (taken pl now id all) >>= orTell).on c := by
  cases all with
  | true => rfl
  | false =>
    have htaken : taken pl now id false = (pl.execute .reporting now id).map fun r => [r] := rfl
    rw [performed, htaken, on_bind_ok (on_settled _ c)]
    simp only [Bool.false_eq_true, if_false, Outcome.map_result]
    rw [on_bind_ok (on_settled (pl.execute .reporting now id) c)]
    cases (pl.execute .reporting now id).result with
    | ok r => rfl
    | error e =>
      by_cases htold : isTold e = true
      · simp only [orTell, htold, if_true, Except.map]
        rfl
      · simp only [orTell, htold, Bool.false_eq_true, if_false, Except.map]
        rfl

theorem taken_follows (h : pl.storage.Holds plans) (now : Moment) (id : String) (all : Bool) :
    ∃ events after, Planner.Follows plans (taken pl now id all) events after ∧
      Planner.OnlyMoves id events := by
  cases all with
  | true => exact Planner.executeSteps_follows .reporting id _ now h
  | false =>
    obtain ⟨events, after, hfollows, hmoves⟩ :=
      Planner.transact_follows h id (Plan.moved_advance .reporting now)
    exact ⟨events, after, hfollows.map fun r => [r], hmoves⟩

theorem directory?_taken (pl : Planner) (now : Moment) (id : String) (all : Bool) :
    (taken pl now id all).planner.storage.directory? = pl.storage.directory? := by
  cases all with
  | true => exact Planner.directory?_executeSteps .reporting id _ now pl
  | false => exact Planner.directory?_transact pl id _

theorem taken_ne_nil {results : List StepResult}
    (h : (taken pl now id all).result = .ok results) : results ≠ [] := by
  cases all with
  | true => exact Planner.executeSteps_ne_nil h
  | false =>
    change ((pl.execute .reporting now id).result.map fun r => [r]) = .ok results at h
    cases hresult : (pl.execute .reporting now id).result with
    | error e => simp [hresult, Except.map] at h
    | ok r =>
      simp only [hresult, Except.map, Except.ok.injEq] at h
      simp [← h]

/-- Without a plan there are no steps to take. -/
theorem taken_of_not_get (now : Moment) (all : Bool) (h : ∀ p, (pl.storage.get id).1 ≠ .ok (some p)) :
    (taken pl now id all).planner = pl ∧ ∃ e, (taken pl now id all).result = .error e := by
  obtain ⟨hplanner, e, hresult⟩ : (pl.execute .reporting now id).planner = pl ∧
      ∃ e, (pl.execute .reporting now id).result = .error e :=
    Planner.transact_of_not_found fun ⟨p, hp⟩ => h p hp
  cases all with
  | true =>
    have htaken : taken pl now id true = Planner.executeSteps .reporting id 6 now pl := rfl
    rw [htaken, Planner.executeSteps]
    simp only [hresult]
    exact ⟨hplanner, e, rfl⟩
  | false => exact ⟨hplanner, e, by simp [taken, hresult, Except.map]⟩

/-- A plan that is over stays as it is. -/
theorem taken_of_terminal (h : pl.storage.Holds plans) (hp : plans.get? id = some p)
    (hterminal : p.isTerminal = true) : (taken pl now id all).planner = pl := by
  have hover : ¬ p.IsOpen := by
    rintro ⟨hopen, _⟩
    rw [hterminal] at hopen
    cases hopen
  have hrejects : pl.Rejects (pl.execute .reporting now id) :=
    Planner.rejects_transact h hp (Plan.advance_of_not_open hover)
  obtain ⟨r, hresult, hsuccess⟩ := hrejects.result
  cases all with
  | true =>
    have htaken : taken pl now id true = Planner.executeSteps .reporting id 6 now pl := rfl
    rw [htaken, Planner.executeSteps]
    simp only [hresult, hsuccess, Bool.false_and, Bool.false_eq_true, if_false]
    exact hrejects.planner
  | false => exact hrejects.planner

end Taken

/-- The ways that an execution can go once the storage is open: its result, the storage that it
leaves behind, and whether it has asked. -/
inductive Course (answer : Option Bool) (yes all : Bool) (now : Moment) (id : String)
    (pl : Planner) : Except Ending Unit → Storage → Bool → Prop
  | missing (ending : Ending) (hcode : ending.code = 1)
      (hget : ∀ p, (pl.storage.get id).1 ≠ .ok (some p)) :
      Course answer yes all now id pl (.error ending) pl.storage false
  | declined (p : Plan) (hget : (pl.storage.get id).1 = .ok (some p))
      (hheld : isHeldBack p yes = true) (hanswer : answer = some false) :
      Course answer yes all now id pl (.error (.exit 0)) pl.storage true
  | unanswered (p : Plan) (hget : (pl.storage.get id).1 = .ok (some p))
      (hheld : isHeldBack p yes = true) (hanswer : answer = none) :
      Course answer yes all now id pl (.error .unanswered) pl.storage true
  | failed (p : Plan) (ending : Ending) (e : Failure)
      (hget : (pl.storage.get id).1 = .ok (some p))
      (hanswer : isHeldBack p yes = true → answer = some true)
      (htaken : (taken pl now id all).result = .error e) (hcode : ending.code = 1) :
      Course answer yes all now id pl (.error ending) (taken pl now id all).planner.storage
        (isHeldBack p yes)
  | done (p : Plan) (results : List StepResult) (hget : (pl.storage.get id).1 = .ok (some p))
      (hanswer : isHeldBack p yes = true → answer = some true)
      (htaken : (taken pl now id all).result = .ok results) :
      Course answer yes all now id pl (endingOf results) (taken pl now id all).planner.storage
        (isHeldBack p yes)

/-- On a console the action takes one of these courses. -/
def Takes (answer : Option Bool) (yes all : Bool) (now : Moment) (id : String) (pl : Planner)
    (a : Action Unit) (c : Console) : Prop :=
  ∃ r s c', a.on c = (r, c') ∧ c'.disk = s.disk ∧ c'.locations = c.locations ∧
    Course answer yes all now id pl r s c'.asked

section Courses

variable {pl : Planner} {plans : Keyed Plan} {id : String} {yes : Bool}
  {p : Plan} {c : Console}

/-- What the planner does decides how the execution of a plan ends. -/
theorem takes_carriedOut (answer : Option Bool) (all : Bool) (now : Moment)
    (h : pl.storage.Holds plans) (hopen : c.opened = .ok pl.storage)
    (hget : (pl.storage.get id).1 = .ok (some p))
    (hanswer : isHeldBack p yes = true → answer = some true)
    (hasked : c.asked = isHeldBack p yes) :
    Takes answer yes all now id pl (carriedOut pl now id all) c := by
  obtain ⟨c₁, hsettled, hdisk, hlocations, hasked₁⟩ : ∃ c₁,
      (settled (taken pl now id all)).on c = (.ok (taken pl now id all).result, c₁) ∧
        c₁.disk = (taken pl now id all).planner.storage.disk ∧ c₁.locations = c.locations ∧
          c₁.asked = c.asked := ⟨_, on_settled _ c, rfl, rfl, rfl⟩
  have hperformed := on_performed pl now id all c
  rw [on_bind_ok hsettled] at hperformed
  cases hresult : (taken pl now id all).result with
  | error e =>
    rw [hresult] at hperformed
    obtain ⟨ending, c₂, htold, hcode, hshows⟩ := orTell_error (α := List StepResult) e c₁
    have hon : (carriedOut pl now id all).on c = (.error ending, c₂) := by
      rw [carriedOut, on_bind_error (hperformed.trans htold)]
    refine ⟨_, _, c₂, hon, hshows.disk.trans hdisk, hshows.locations.trans hlocations, ?_⟩
    rw [hshows.asked, hasked₁, hasked]
    exact .failed p ending e hget hanswer hresult hcode
  | ok results =>
    rw [hresult] at hperformed
    obtain ⟨c₂, hshown, hshows⟩ := on_showEach results resultText c₁
    -- the plan is still there, so that its progress can be shown
    obtain ⟨events, after, hfollows, hmoves⟩ := taken_follows h now id all
    have hthere : (after.get? id).isSome = true :=
      (hmoves.others hfollows.changes).2 (by simp [h.get_eq_some_iff.mp hget])
    obtain ⟨q, hq⟩ := Option.isSome_iff_exists.mp hthere
    have hplace : pl.storage.directory? = some c.locations.plans := directory?_of_opened hopen
    have hfound : (({ pl.storage with disk := c₂.disk } : Storage).get id).1 = .ok (some q) := by
      rw [eq_of_place hplace ((directory?_taken pl now id all).trans hplace)
        (hshows.disk.trans hdisk), hfollows.holds.get hq]
    obtain ⟨c₃, hprogress, hshows'⟩ := on_showProgress hfound
    have hafter := hshows.trans hshows'
    have hon : (carriedOut pl now id all).on c = (endingOf results, c₃) := by
      rw [carriedOut, on_bind_ok (hperformed.trans rfl), on_bind_ok hshown, on_bind_ok hprogress,
        endingOf]
      split
      · rfl
      · rfl
    refine ⟨_, _, c₃, hon, hafter.disk.trans hdisk, hafter.locations.trans hlocations, ?_⟩
    rw [hafter.asked, hasked₁, hasked]
    exact .done p results hget hanswer hresult

theorem takes_of_opened (answer : Option Bool) (yes all : Bool) (now : Moment)
    (h : pl.storage.Holds plans) (hopen : c.opened = .ok pl.storage)
    (hdisk : c.disk = pl.storage.disk) (hasked : c.asked = false) :
    Takes answer yes all now id pl (do
      let p ← demandPlan pl id
      if isHeldBack p yes then
        askToProceed p answer
        carriedOut pl now id all
      else carriedOut pl now id all) c := by
  by_cases hget : ∃ p, (pl.storage.get id).1 = .ok (some p)
  case neg =>
    rw [not_exists] at hget
    obtain ⟨ending, c₁, hdemand, hcode, hshows⟩ := demandPlan_of_not_get hget c
    refine ⟨_, pl.storage, c₁, on_bind_error hdemand, hshows.disk.trans hdisk, hshows.locations, ?_⟩
    rw [hshows.asked, hasked]
    exact .missing ending hcode hget
  obtain ⟨p, hget⟩ := hget
  obtain ⟨c₁, hdemand, hshows⟩ := demandPlan_of_get hget c
  have hopen₁ : c₁.opened = .ok pl.storage := by
    rw [opened_congr hshows.disk hshows.locations, hopen]
  rw [Takes, on_bind_ok hdemand]
  by_cases hheld : isHeldBack p yes = true
  case neg =>
    rw [if_neg hheld]
    obtain ⟨r, s, c', hon, hdisk', hlocations', hcourse⟩ :=
      takes_carriedOut answer all now h hopen₁ hget
        (fun hheld' => absurd hheld' hheld) (by rw [hshows.asked, hasked]; simpa using hheld)
    exact ⟨r, s, c', hon, hdisk', hlocations'.trans hshows.locations, hcourse⟩
  rw [if_pos hheld]
  obtain ⟨c₂, hdisk₂, hlocations₂, hasked₂, hask⟩ := askToProceed_cases p answer c₁
  have hlocations := hlocations₂.trans hshows.locations
  have hsame : c₂.disk = pl.storage.disk := hdisk₂.trans (hshows.disk.trans hdisk)
  match answer with
  | none =>
    refine ⟨_, pl.storage, c₂, on_bind_error hask, hsame, hlocations, ?_⟩
    rw [hasked₂]
    exact .unanswered p hget hheld rfl
  | some false =>
    refine ⟨_, pl.storage, c₂, on_bind_error hask, hsame, hlocations, ?_⟩
    rw [hasked₂]
    exact .declined p hget hheld rfl
  | some true =>
    rw [on_bind_ok hask]
    have hopen₂ : c₂.opened = .ok pl.storage := by
      rw [opened_congr hdisk₂ hlocations₂, hopen₁]
    obtain ⟨r, s, c', hon, hdisk', hlocations', hcourse⟩ :=
      takes_carriedOut (some true) all now h hopen₂ hget
        (fun _ => rfl) (hasked₂.trans hheld.symm)
    exact ⟨r, s, c', hon, hdisk', hlocations'.trans hlocations, hcourse⟩

end Courses

/-! ## The gate -/

/-- How a command ends that came to its last line, or to an end before. -/
def endingFrom : Except Ending Unit → Ending
  | .ok () => .exit 0
  | .error e => e

/-- The planner that an execution works with, if it gets that far. -/
def Console.planner? (c : Console) : Option Planner :=
  ((openPlanner none).on { c with events := [], log := [] }).1.toOption

/-- An execution asks for consent to a risky plan before it changes its file, and touches no other
one. What it leaves is what the steps leave that it takes, unless it stops at the question; its code
tells whether the user said no or the last step was a success. -/
structure Gated (answer : Option Bool) (now : Moment) (id : String) (all yes : Bool)
    (before : Console) (ending : Ending) (after : Console) : Prop where
  consent : ∀ other p, before.Finds other p → p.IsRisky →
    after.planFile other ≠ before.planFile other →
      yes = true ∨ (after.asked = true ∧ answer = some true)
  others : ∀ other, other ≠ id → after.planFile other = before.planFile other
  carried : (after.asked = true → answer = some true) → ∀ pl, before.planner? = some pl →
    after.disk = (taken pl now id all).planner.storage.disk
  code : ending.code = 0 ↔
    (after.asked = true ∧ answer = some false) ∨
      ((after.asked = true → answer = some true) ∧
        ∃ pl results r, before.planner? = some pl ∧ (taken pl now id all).result = .ok results ∧
          results.getLast? = some r ∧ r.success = true)

section Gated

variable {answer : Option Bool} {now : Moment} {id : String} {all yes asked : Bool}
  {pl : Planner} {plans : Keyed Plan} {r : Except Ending Unit} {s : Storage} {p : Plan}

theorem code_endingOf {results : List StepResult} (h : results ≠ []) :
    (endingFrom (endingOf results)).code = 0 ↔
      ∃ r, results.getLast? = some r ∧ r.success = true := by
  rw [endingOf, List.getLast?_eq_some_getLast h]
  cases hlast : (results.getLast h).success with
  | true => simp [endingFrom, Ending.code, hlast]
  | false => simp [endingFrom, Ending.code, hlast]

/-- Whichever course it takes, only the plan under `id` can change. -/
theorem Course.others (h : Course answer yes all now id pl r s asked)
    (hholds : pl.storage.Holds plans) :
    ∃ after, s.Holds after ∧ s.directory? = pl.storage.directory? ∧
      ∀ other, other ≠ id → after.get? other = plans.get? other := by
  cases h with
  | missing | declined | unanswered => exact ⟨plans, hholds, rfl, fun _ _ => rfl⟩
  | failed | done =>
    obtain ⟨events, after, hfollows, hmoves⟩ := taken_follows hholds now id all
    exact ⟨after, hfollows.holds, directory?_taken pl now id all,
      (hmoves.others hfollows.changes).1⟩

/-- Without consent a risky plan stays, and so does the whole storage. -/
theorem Course.consent (h : Course answer yes all now id pl r s asked)
    (hholds : pl.storage.Holds plans) (hp : plans.get? id = some p) (hrisky : p.IsRisky) :
    s = pl.storage ∨ yes = true ∨ (asked = true ∧ answer = some true) := by
  have hsame : ∀ q, (pl.storage.get id).1 = .ok (some q) → q = p := by
    intro q hq
    rw [hholds.get hp] at hq
    cases hq
    rfl
  -- a risky plan that is not held back is over, or the answer has been given in advance
  have hpassed : ∀ q, (pl.storage.get id).1 = .ok (some q) →
      (isHeldBack q yes = true → answer = some true) →
      (taken pl now id all).planner.storage = pl.storage ∨ yes = true ∨
        (isHeldBack q yes = true ∧ answer = some true) := by
    intro q hq hanswer
    cases hsame q hq
    by_cases hheld : isHeldBack p yes = true
    · exact .inr (.inr ⟨hheld, hanswer hheld⟩)
    · cases hyes : yes with
      | true => exact .inr (.inl rfl)
      | false =>
        left
        have hterminal : p.isTerminal = true := by
          simpa [isHeldBack, hyes, Plan.needsConfirmation_iff.mpr hrisky] using hheld
        rw [taken_of_terminal hholds hp hterminal]
  cases h with
  | missing | declined | unanswered => exact .inl rfl
  | failed q ending e hget hanswer => exact hpassed q hget hanswer
  | done q results hget hanswer => exact hpassed q hget hanswer

/-- What stops at the question takes no steps. -/
theorem Course.carried (h : Course answer yes all now id pl r s asked)
    (hanswer : asked = true → answer = some true) : s = (taken pl now id all).planner.storage := by
  cases h with
  | missing ending hcode hget => rw [(taken_of_not_get now all hget).1]
  | declined p hget hheld hno =>
    rw [hanswer rfl] at hno
    cases hno
  | unanswered p hget hheld hnone =>
    rw [hanswer rfl] at hnone
    cases hnone
  | failed | done => rfl

theorem Course.code (h : Course answer yes all now id pl r s asked) :
    (endingFrom r).code = 0 ↔
      (asked = true ∧ answer = some false) ∨
        ((asked = true → answer = some true) ∧
          ∃ results r, (taken pl now id all).result = .ok results ∧
            results.getLast? = some r ∧ r.success = true) := by
  have hconsented : ∀ q, (isHeldBack q yes = true → answer = some true) →
      ¬ (isHeldBack q yes = true ∧ answer = some false) := by
    rintro q hanswer ⟨hheld, hno⟩
    rw [hanswer hheld] at hno
    cases hno
  cases h with
  | missing ending hcode hget =>
    obtain ⟨_, e, htaken⟩ := taken_of_not_get now all hget
    simp [endingFrom, hcode, htaken]
  | declined p hget hheld hanswer => simp [endingFrom, Ending.code, hanswer]
  | unanswered p hget hheld hanswer => simp [endingFrom, Ending.code, hanswer]
  | failed p ending e hget hanswer htaken hcode =>
    simp only [endingFrom, hcode, htaken, hconsented p hanswer]
    simp
  | done p results hget hanswer htaken =>
    rw [code_endingOf (taken_ne_nil htaken)]
    simp only [hconsented p hanswer, false_or, htaken, Except.ok.injEq, exists_and_left,
      exists_eq_left']
    exact (and_iff_right hanswer).symm

end Gated

section Executions

variable {answer : Option Bool} {id : String} {all yes : Bool} {circumstances : Circumstances}
  {plans : Keyed Plan} {c : Console}

theorem planner?_of_openPlanner {r : Except Ending Planner} {c' : Console}
    (h : (openPlanner none).on { c with events := [], log := [] } = (r, c')) :
    c.planner? = r.toOption := by
  rw [planner?, h]

/-- An execution that fails before the storage is open. -/
theorem gated_of_not_opened {e : Failure} {c' : Console} (hplanner : c.planner? = none)
    (hdisk : c'.disk = c.disk) (hlocations : c'.locations = c.locations)
    (hasked : c'.asked = false) :
    Gated answer circumstances.now id all yes c (.failed e) c' := by
  have hfile : ∀ other, c'.planFile other = c.planFile other := by
    intro other
    rw [planFile, planFile, opened_congr hdisk hlocations, hlocations]
  refine ⟨fun other p _ _ hne => absurd (hfile other) hne, fun other _ => hfile other, ?_, ?_⟩
  · simp [hplanner]
  · simp [Ending.code, hasked, hplanner]

theorem gated_of_course {pl : Planner} {s : Storage} {r : Except Ending Unit} {c' : Console}
    (hplans : c.Has plans) (hplanner : c.planner? = some pl) (hopen : c.opened = .ok pl.storage)
    (hdisk : c'.disk = s.disk) (hlocations : c'.locations = c.locations)
    (hcourse : Course answer yes all circumstances.now id pl r s c'.asked) :
    Gated answer circumstances.now id all yes c (endingFrom r) c' := by
  have hholds : pl.storage.Holds plans := hplans _ hopen
  obtain ⟨after, hafter, hplace, hothers⟩ := hcourse.others hholds
  have hplace' : s.directory? = some c'.locations.plans := by
    rw [hplace, directory?_of_opened hopen, hlocations]
  have hfile : ∀ other, c'.planFile other =
      (after.get? other).map fun p => .file (Storage.textOfPlan p).toUTF8 := fun other =>
    planFile_eq (has_of_holds hafter hplace' hdisk) (opened_of_holds hafter hplace' hdisk) other
  have hfile' : ∀ other, c.planFile other =
      (plans.get? other).map fun p => .file (Storage.textOfPlan p).toUTF8 :=
    planFile_eq hplans hopen
  constructor
  case others =>
    intro other hother
    rw [hfile, hfile', hothers other hother]
  case consent =>
    rintro other p ⟨s', hs', hget⟩ hrisky hne
    rw [hfile, hfile'] at hne
    have hid : other = id := by
      by_contra hother
      rw [hothers other hother] at hne
      exact hne rfl
    subst hid
    cases hopen.symm.trans hs'
    rcases hcourse.consent hholds (hholds.get_eq_some_iff.mp hget) hrisky with rfl | hconsent
    · -- nothing has been stored
      have hkept : ∀ {q}, after.get? other = some q ↔ plans.get? other = some q := by
        intro q
        rw [← hafter.get_eq_some_iff, hholds.get_eq_some_iff]
      rw [Option.ext fun q => hkept] at hne
      exact absurd rfl hne
    · exact hconsent
  case carried =>
    intro hanswer pl' hpl'
    rw [hplanner, Option.some.injEq] at hpl'
    rw [hdisk, hcourse.carried hanswer, hpl']
  case code =>
    rw [hcourse.code, hplanner]
    simp

theorem gated_executePlan (circumstances : Circumstances) (answer : Option Bool) (id : String)
    (all yes : Bool) (hplans : c.Has plans) :
    ∃ r c', (executePlan circumstances answer id all yes).on { c with events := [], log := [] } =
        (r, c') ∧
      Gated answer circumstances.now id all yes c (endingFrom r) c' := by
  rw [executePlan_eq]
  rcases openPlanner_cases none { c with events := [], log := [] } with
    ⟨e, c', herror, hshows⟩ | ⟨pl, c₁, hok, hopen, hdisk, hlocations, hasked⟩
  · refine ⟨_, c', on_bind_error herror, ?_⟩
    exact gated_of_not_opened (planner?_of_openPlanner herror) hshows.disk hshows.locations
      hshows.asked
  · have hopen₀ : c.opened = .ok pl.storage := hopen
    have hholds := hplans _ hopen₀
    have hplace : pl.storage.directory? = some c₁.locations.plans := by
      rw [directory?_of_opened hopen₀, hlocations]
    obtain ⟨r, s, c', hon, hdisk', hlocations', hcourse⟩ :=
      takes_of_opened answer yes all circumstances.now hholds
        (opened_of_holds hholds hplace hdisk) hdisk hasked
    refine ⟨r, c', (on_bind_ok hok).trans hon, ?_⟩
    exact gated_of_course hplans (planner?_of_openPlanner hok) hopen₀ hdisk'
      (hlocations'.trans hlocations) hcourse

theorem Gated.of_log {c' : Console} {log : Log} {now : Moment} {ending : Ending}
    (h : Gated answer now id all yes c ending c') :
    Gated answer now id all yes c ending { c' with log } :=
  ⟨h.consent, h.others, h.carried, h.code⟩

/-- An execution takes one of the courses, if the storage can be opened. -/
theorem has_executePlan (hplans : c.Has plans) (hasked : c.asked = false) :
    ∃ plans', ((executePlan circumstances answer id all yes).on c).2.Has plans' := by
  rw [executePlan_eq]
  rcases openPlanner_cases none c with ⟨e, c', herror, hshows⟩ |
    ⟨pl, c₁, hok, hopen, hdisk, hlocations, hasked₁⟩
  · rw [on_bind_error herror]
    exact ⟨plans, hplans.of_shows hshows⟩
  · have hholds := hplans _ hopen
    have hplace : pl.storage.directory? = some c₁.locations.plans := by
      rw [directory?_of_opened hopen, hlocations]
    obtain ⟨r, s, c', hon, hdisk', hlocations', hcourse⟩ :=
      takes_of_opened answer yes all circumstances.now hholds
        (opened_of_holds hholds hplace hdisk) hdisk (hasked₁.trans hasked)
    obtain ⟨after, hafter, hplace', _⟩ := hcourse.others hholds
    rw [on_bind_ok hok, hon]
    exact ⟨after, has_of_holds hafter (by rw [hplace', hplace, hlocations']) hdisk'⟩

end Executions

/-! ## Histories -/

section Histories

variable {plans : Keyed Plan} {c : Console}

theorem has_perform (s : Surroundings) {command : Command} (h : command.isOnPlans = true)
    (hplans : c.Has plans) (hasked : c.asked = false) :
    ∃ plans', ((perform s command).on c).2.Has plans' := by
  cases command with
  | help => exact ⟨plans, hplans⟩
  | createPlan path changeType description root asJson =>
    exact keepsPlans_createPlan _ path changeType description root asJson c plans hplans
  | showPlan id asJson => exact keepsPlans_showPlan id asJson c plans hplans
  | listPlans asJson => exact keepsPlans_listPlans asJson c plans hplans
  | executePlan id all yes => exact has_executePlan hplans hasked
  | deletePlan id => exact keepsPlans_deletePlan id c plans hplans
  | rollbackPlan id => exact keepsPlans_rollbackPlan _ id c plans hplans
  | _ => cases h

theorem has_run (s : Surroundings) {words : List String}
    (h : ∀ r, Request.parse? words = some r → r.command.isOnPlans = true)
    (hplans : c.Has plans) : ∃ plans', (run s words c).2.Has plans' := by
  have hfresh : ({ c with events := [], log := [] } : Console).Has plans := hplans
  rw [run]
  cases hwords : Request.parse? words with
  | none => exact ⟨plans, hfresh⟩
  | some r =>
    obtain ⟨plans', hplans'⟩ := has_perform s (h r hwords) hfresh rfl
    exact ⟨plans', hplans'⟩

theorem has_after (turns : List Turn) :
    ∀ {c : Console} {plans : Keyed Plan}, c.Has plans → c.Undisturbed turns →
      ∃ plans', (c.after turns).Has plans' := by
  induction turns with
  | nil => exact fun h _ => ⟨_, h⟩
  | cons turn rest ih =>
    intro c plans h hturns
    cases turn with
    | run s words =>
      obtain ⟨plans', h'⟩ := has_run s hturns.1 h
      exact ih h' hturns.2
    | change change => exact ih (h.spared hturns.1) hturns.2

theorem runRequest_eq (s : Surroundings) (r : Request) (c : Console) :
    runRequest s r c =
      (endingFrom ((perform s r.command).on { c with events := [], log := [] }).1,
        { ((perform s r.command).on { c with events := [], log := [] }).2 with
          log := ((perform s r.command).on { c with events := [], log := [] }).2.log.filter
            (isReported r.verbose) }) := rfl

/-- Whatever command lines on plans came before, from the first one on. -/
theorem executions_gated (c : Console) (turns : List Turn) (hstart : c.HasNoPlans)
    (hturns : c.Undisturbed turns) (s : Surroundings) (words : List String)
    (verbose : Bool) (id : String) (all yes : Bool)
    (hwords : Request.parse? words = some ⟨verbose, .executePlan id all yes⟩) :
    Gated s.answer s.circumstances.now id all yes (c.after turns)
      (run s words (c.after turns)).1 (run s words (c.after turns)).2 := by
  obtain ⟨plans, hplans⟩ := has_after turns (has_of_hasNoPlans hstart) hturns
  obtain ⟨r, c', hon, hgated⟩ :=
    gated_executePlan s.circumstances s.answer id all yes hplans
  have hrun : run s words (c.after turns) =
      (endingFrom r, { c' with log := c'.log.filter (isReported verbose) }) := by
    have hperform : (perform s (.executePlan id all yes)).on
        { c.after turns with events := [], log := [] } = (r, c') := hon
    simp only [run, hwords, runRequest_eq, hperform]
  rw [hrun]
  exact hgated.of_log

end Histories

namespace Sample

/-- A project of one file, and no directory for plans yet. -/
def console : Console where
  disk := { top := [("src", .dir [("a.ts", .file .empty)])] }

def surroundings : Surroundings where
  circumstances := ChangeImpact.Sample.circumstances

theorem hasNoPlans_console : console.HasNoPlans := by
  have hopened : console.opened =
    .ok (ChangeImpact.Sample.planner (.folder "home/plans")).storage := rfl
  intro s hs
  rw [hopened, Except.ok.injEq] at hs
  exact hs ▸ ChangeImpact.Sample.isEmpty_folder

def creation : List String := ["plan", "create", "src/a.ts", "delete", "no longer needed"]

theorem parse?_creation : Request.parse? creation =
    some ⟨false, .createPlan "src/a.ts" "delete" "no longer needed" none false⟩ := by decide

def execution : List String := ["plan", "execute", ChangeImpact.Sample.id, "--all"]

theorem parse?_execution : Request.parse? execution =
    some ⟨false, .executePlan ChangeImpact.Sample.id true false⟩ := by decide

/-- A plan is created and executed without anybody to agree to it. -/
def turns : List Turn := [.run surroundings creation, .run surroundings execution]

theorem undisturbed_turns : console.Undisturbed turns := by
  refine ⟨?_, ?_, trivial⟩
  · rw [parse?_creation]
    rintro r ⟨⟩
    rfl
  · rw [parse?_execution]
    rintro r ⟨⟩
    rfl

end Sample

theorem executions_gated_sample :
    Gated none ChangeImpact.Sample.noon ChangeImpact.Sample.id true false
      (Sample.console.after Sample.turns)
      (run Sample.surroundings Sample.execution (Sample.console.after Sample.turns)).1
      (run Sample.surroundings Sample.execution (Sample.console.after Sample.turns)).2 :=
  executions_gated Sample.console Sample.turns Sample.hasNoPlans_console Sample.undisturbed_turns
    Sample.surroundings Sample.execution false ChangeImpact.Sample.id true false
    Sample.parse?_execution

end CommandLine

end ChangeImpact
