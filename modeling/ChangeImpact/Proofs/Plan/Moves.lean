import ChangeImpact.Plan.Transition
import ChangeImpact.Proofs.Plan.FileForm

/-!
# Proofs.Plan.Moves

Everything that a transition can make of a plan.

* `Plan.Batch`       — the calls of one rollback: all actions, or those up to one that fails.
* `Plan.Moved`       — the calls of a transition and the plan that it leaves behind, if any.
* `Plan.moved_advance`, `Plan.moved_rollBack` — the two transitions do one of these things.
* `Plan.SameContent` — the fields that no transition touches.
-/

namespace ChangeImpact

namespace Call

/-- The id of the plan that a call is made for. -/
def plan : Call → String
  | .step id _ _ => id
  | .rollback id _ _ => id

def isStep : Call → Bool
  | .step .. => true
  | .rollback .. => false

/-- A step that the service did not carry out. -/
def isFailedStep : Call → Bool
  | .step _ _ returned => !returned
  | .rollback .. => false

/-- The step that a call carried out. -/
def performed? : Call → Option String
  | .step _ word true => some word
  | _ => none

end Call

namespace Plan

/-- The calls for actions that are carried out. -/
def undoing (p : Plan) (actions : List String) : List Call :=
  actions.map fun action => .rollback p.id action true

inductive Batch (p : Plan) : List Call → Prop
  | full : Batch p (p.undoing p.rollbackPlan)
  | cut (done : List String) (action : String) (rest : List String)
      (h : p.rollbackPlan = done ++ action :: rest) :
      Batch p (p.undoing done ++ [.rollback p.id action false])

/-- A step of the plan can be carried out. -/
def IsOpen (p : Plan) : Prop := p.isTerminal = false ∧ p.status ≠ .known .failed

inductive Moved (p : Plan) : List Call → Option Plan → Prop
  | refused : Moved p [] none
  | passed (s next : PlanStep) (now : String) (hopen : p.IsOpen) (hs : p.step = .known s)
      (hnext : s.next? = some next) :
      Moved p [.step p.id (Vocabulary.word s) true]
        (some { p with status := .known .inProgress, step := .known next, updatedAt := now })
  | completed (s : PlanStep) (now : String) (hopen : p.IsOpen) (hs : p.step = .known s)
      (hlast : s.next? = none) :
      Moved p [.step p.id (Vocabulary.word s) true]
        (some { p with status := .known .completed, updatedAt := now })
  | broken (s : PlanStep) (cause now : String) (hopen : p.IsOpen) (hs : p.step = .known s) :
      Moved p [.step p.id (Vocabulary.word s) false]
        (some { p with status := .known .failed, lastError := some cause, updatedAt := now })
  /-- A step that is none of the six is called and then cannot be left. -/
  | unlisted (word cause now : String) (returned : Bool) (hopen : p.IsOpen)
      (hs : p.step = .other word) :
      Moved p [.step p.id word returned]
        (some { p with status := .known .failed, lastError := some cause, updatedAt := now })
  | rolledBack (now : String) (hterminal : p.isTerminal = false) :
      Moved p (p.undoing p.rollbackPlan)
        (some { p with status := .known .rolledBack, updatedAt := now })
  | cut (done : List String) (action : String) (rest : List String) (cause now : String)
      (hterminal : p.isTerminal = false) (h : p.rollbackPlan = done ++ action :: rest) :
      Moved p (p.undoing done ++ [.rollback p.id action false])
        (some { p with lastError := some cause, updatedAt := now })

/-! ## Transitions -/

theorem moved_advance (service : MutationService) (clock : Clock) (p : Plan) :
    Moved p (p.advance service clock).calls (p.advance service clock).stored := by
  by_cases hterminal : p.isTerminal = true
  · simp only [advance, hterminal, if_true, alreadyOver]
    exact .refused
  by_cases hfailed : p.status = .known .failed
  · simp only [advance, hterminal, hfailed, if_true]
    exact .refused
  have hopen : p.IsOpen := ⟨by simpa using hterminal, hfailed⟩
  -- what the service answers is taken as it comes
  simp only [advance, hterminal, hfailed, Bool.false_eq_true, if_false]
  generalize service.performStep (p.started (clock.text 0)) (p.started (clock.text 0)).step = reply
  obtain ⟨failure, log⟩ := reply
  cases hstep : p.step with
  | other word =>
    cases failure with
    | some cause =>
      simp only [afterReply, stepCall, started, broken, hstep, Label.text, Option.isNone_some]
      have hmoved := Moved.unlisted word cause.message ((clock.later 1).text 0) false hopen hstep
      rwa [hstep] at hmoved
    | none =>
      simp only [afterReply, passed, stepCall, started, broken, hstep, Label.text,
        Option.isNone_none]
      have hmoved := Moved.unlisted word (Failure.message (.unlisted word))
        ((clock.later 1).text 1) true hopen hstep
      rwa [hstep] at hmoved
  | known s =>
    cases failure with
    | some cause =>
      simp only [afterReply, stepCall, started, broken, hstep, Label.text, Option.isNone_some]
      have hmoved := Moved.broken s cause.message ((clock.later 1).text 0) hopen hstep
      rwa [hstep] at hmoved
    | none =>
      cases hnext : s.next? with
      | none =>
        simp only [afterReply, passed, stepCall, started, hstep, hnext, Label.text,
          Option.isNone_none]
        have hmoved := Moved.completed s ((clock.later 1).text 0) hopen hstep hnext
        rwa [hstep] at hmoved
      | some next =>
        simp only [afterReply, passed, stepCall, started, hstep, hnext, Label.text,
          Option.isNone_none]
        exact .passed s next ((clock.later 1).text 0) hopen hstep hnext

/-- The calls of a rollback from some action on. -/
theorem undo_cases (service : MutationService) (p : Plan) (actions : List String) (n : Nat) :
    ((undo service p n actions).1 = none ∧ (undo service p n actions).2.1 = p.undoing actions) ∨
      ∃ cause done action rest, actions = done ++ action :: rest ∧
        (undo service p n actions).1 = some cause ∧
        (undo service p n actions).2.1 = p.undoing done ++ [.rollback p.id action false] := by
  induction actions generalizing n with
  | nil => exact .inl ⟨rfl, rfl⟩
  | cons action rest ih =>
    rw [undo]
    cases hfailure : (service.performRollback p n action).failure with
    | some cause => exact .inr ⟨cause, [], action, rest, rfl, rfl, rfl⟩
    | none =>
      rcases ih (n + 1) with ⟨hnone, hcalls⟩ | ⟨cause, done, failed, more, hrest, hsome, hcalls⟩
      · left
        simp [hnone, hcalls, undoing]
      · right
        refine ⟨cause, action :: done, failed, more, by rw [hrest]; rfl, ?_, ?_⟩
        · simp [hsome]
        · simp [hcalls, undoing]

theorem moved_rollBack (service : MutationService) (clock : Clock) (p : Plan) :
    Moved p (p.rollBack service clock).calls (p.rollBack service clock).stored := by
  by_cases hterminal : p.isTerminal = true
  · simp only [rollBack, hterminal, if_true, alreadyOver]
    exact .refused
  have hterminal : p.isTerminal = false := by simpa using hterminal
  have hcases := undo_cases service p p.rollbackPlan 0
  rcases hundo : undo service p 0 p.rollbackPlan with ⟨failure, calls, log⟩
  rw [hundo] at hcases
  simp only [rollBack, hterminal, hundo, Bool.false_eq_true, if_false]
  rcases hcases with ⟨rfl, rfl⟩ | ⟨cause, done, action, rest, hplan, rfl, rfl⟩
  · exact .rolledBack _ hterminal
  · exact .cut done action rest cause.message _ hterminal hplan

/-! ## What stays -/

/-- The fields that a plan is created with and that no transition touches. -/
structure SameContent (p q : Plan) : Prop where
  id : q.id = p.id
  filePath : q.filePath = p.filePath
  changeType : q.changeType = p.changeType
  description : q.description = p.description
  createdAt : q.createdAt = p.createdAt
  analysis : q.analysis = p.analysis
  impacts : q.impacts = p.impacts
  procedure : q.procedure = p.procedure
  risks : q.risks = p.risks
  recommendations : q.recommendations = p.recommendations
  rollbackPlan : q.rollbackPlan = p.rollbackPlan
  validationChecks : q.validationChecks = p.validationChecks

theorem SameContent.refl (p : Plan) : SameContent p p := by
  constructor <;> rfl

theorem SameContent.trans {p q r : Plan} (h : SameContent p q) (h' : SameContent q r) :
    SameContent p r where
  id := h'.id.trans h.id
  filePath := h'.filePath.trans h.filePath
  changeType := h'.changeType.trans h.changeType
  description := h'.description.trans h.description
  createdAt := h'.createdAt.trans h.createdAt
  analysis := h'.analysis.trans h.analysis
  impacts := h'.impacts.trans h.impacts
  procedure := h'.procedure.trans h.procedure
  risks := h'.risks.trans h.risks
  recommendations := h'.recommendations.trans h.recommendations
  rollbackPlan := h'.rollbackPlan.trans h.rollbackPlan
  validationChecks := h'.validationChecks.trans h.validationChecks

namespace Moved

variable {p q : Plan} {calls : List Call}

theorem sameContent (h : Moved p calls (some q)) : SameContent p q := by
  cases h <;> constructor <;> rfl

theorem canonical (h : Moved p calls (some q)) (hp : p.Canonical) : q.Canonical := by
  obtain ⟨hchangeType, hstatus, hstep, hanalysis, himpacts⟩ := hp
  cases h with
  | cut => exact ⟨hchangeType, hstatus, hstep, hanalysis, himpacts⟩
  | passed =>
    exact ⟨hchangeType, Label.canonical_known _, Label.canonical_known _, hanalysis, himpacts⟩
  | completed | broken | unlisted | rolledBack =>
    exact ⟨hchangeType, Label.canonical_known _, hstep, hanalysis, himpacts⟩

theorem calls_eq_nil (h : Moved p calls none) : calls = [] := by
  cases h
  rfl

/-- A transition calls the service for its own plan only. -/
theorem plan_of_mem {stored : Option Plan} (h : Moved p calls stored) {c : Call}
    (hc : c ∈ calls) : c.plan = p.id := by
  have hundoing : ∀ actions, c ∈ p.undoing actions → c.plan = p.id := by
    intro actions hc
    obtain ⟨action, _, rfl⟩ := List.mem_map.mp hc
    rfl
  cases h with
  | refused => cases hc
  | passed | completed | broken | unlisted =>
    rw [List.mem_singleton.mp hc]
    rfl
  | rolledBack => exact hundoing _ hc
  | cut =>
    rcases List.mem_append.mp hc with hc | hc
    · exact hundoing _ hc
    · rw [List.mem_singleton.mp hc]
      rfl

end Moved

end Plan

end ChangeImpact
