import ChangeImpact.Proofs.Plan.Changes

/-!
# Proofs.Plan.History

What the calls that were made for a plan tell of where it stands.

* `Plan.Parts`, `Plan.StepOrder` — the order in which calls are made for one plan.
* `Plan.InState`   — status, step and last error of a plan whose calls these are.
* `Plan.Evolves`   — what an operation can make of a plan.
* `Plan.Tracks`    — all of it, for the plan as it was created and as it is now; every transition
  preserves it.
-/

namespace ChangeImpact

namespace Call

/-- The calls that are made for one plan. -/
def ofPlan (id : String) (calls : List Call) : List Call := calls.filter fun c => c.plan = id

/-- The steps that were carried out. -/
def performed (calls : List Call) : List String := calls.filterMap performed?

theorem performed_append (calls more : List Call) :
    performed (calls ++ more) = performed calls ++ performed more := List.filterMap_append

theorem performed_step (id word : String) : performed [.step id word true] = [word] := rfl

theorem performed_failed (id word : String) : performed [.step id word false] = [] := rfl

theorem performed_rollback (id action : String) (returned : Bool) :
    performed [.rollback id action returned] = [] := rfl

end Call

open Call

namespace Plan

/-! ## The order of calls -/

/-- One step, or one rollback. -/
inductive Stretch (p : Plan) : List Call → Prop
  | step (s : PlanStep) (returned : Bool) : Stretch p [.step p.id (Vocabulary.word s) returned]
  | batch {calls : List Call} (h : p.Batch calls) : Stretch p calls

/-- A rollback that goes through to its end, or the last step carried out. -/
def Closes (p : Plan) (calls : List Call) : Prop :=
  calls = p.undoing p.rollbackPlan ∨
    calls = [.step p.id (Vocabulary.word PlanStep.cleanup) true]

/-- The calls are steps and whole rollbacks, one after another. -/
structure Parts (p : Plan) (calls : List Call) (stretches : List (List Call)) : Prop where
  flatten : calls = stretches.flatten
  each : ∀ x ∈ stretches, p.Stretch x

theorem Parts.snoc {p : Plan} {calls new : List Call} {stretches : List (List Call)}
    (h : p.Parts calls stretches) (hnew : p.Stretch new) :
    p.Parts (calls ++ new) (stretches ++ [new]) := by
  refine ⟨by simp [h.flatten], fun x hx => ?_⟩
  rcases List.mem_append.mp hx with hx | hx
  · exact h.each x hx
  · rw [List.mem_singleton.mp hx]
    exact hnew

structure StepOrder (p : Plan) (calls : List Call) : Prop where
  /-- Steps are carried out in the order of the six, each once at most. -/
  steps : performed calls <+: Vocabulary.words PlanStep
  /-- After a step that fails, no step is begun. -/
  failed : calls.Pairwise fun c later => c.isFailedStep = true → later.isStep = false
  /-- What closes the plan is the last of all. -/
  stretches : ∃ stretches, p.Parts calls stretches ∧ stretches.Pairwise fun x _ => ¬ p.Closes x

/-! ## Where a plan stands -/

/-- The plan stands at step `s` with status `st`, after `calls`. -/
structure InState (p : Plan) (s : PlanStep) (st : PlanStatus) (calls : List Call) : Prop where
  step : p.step = .known s
  status : p.status = .known st
  pending : st = .pending → s = .analysis
  inProgress : st = .inProgress → s ≠ .analysis
  /-- The plan stands at the one step that failed. -/
  failed : st = .failed → p.lastError ≠ none ∧
    calls.filter isFailedStep = [.step p.id (Vocabulary.word s) false]
  unfailed : st ≠ .failed → st ≠ .rolledBack → calls.filter isFailedStep = []
  completed : st = .completed → s = .cleanup
  /-- All six steps have been carried out, or those before the step that the plan stands at. -/
  performed : performed calls =
    (Vocabulary.words PlanStep).take (if st = .completed then 6 else s.position)

/-- What an operation can make of a plan. -/
structure Evolves (p q : Plan) : Prop where
  content : SameContent p q
  step : ∃ s t, p.step = .known s ∧ q.step = .known t ∧ s.position ≤ t.position
  closed : p.isTerminal = true → q = p

theorem Evolves.refl {p : Plan} {s : PlanStep} (h : p.step = .known s) : Evolves p p :=
  ⟨.refl p, ⟨s, s, h, h, le_refl _⟩, fun _ => rfl⟩

theorem Evolves.trans {p q r : Plan} (h : Evolves p q) (h' : Evolves q r) : Evolves p r := by
  obtain ⟨s, t, hs, ht, hst⟩ := h.step
  obtain ⟨t', u, ht', hu, htu⟩ := h'.step
  rw [ht] at ht'
  cases ht'
  refine ⟨h.content.trans h'.content, ⟨s, u, hs, hu, le_trans hst htu⟩, ?_⟩
  intro hp
  have hq := h.closed hp
  rw [h'.closed (hq ▸ hp), hq]

/-- Everything that is known of a plan: `p` is how it was created and `q` how it stands. -/
structure Tracks (p q : Plan) (calls : List Call) : Prop where
  content : SameContent p q
  state : ∃ s st, q.InState s st calls
  order : p.StepOrder calls
  running : q.isTerminal = false →
    ∃ stretches, p.Parts calls stretches ∧ ∀ x ∈ stretches, ¬ p.Closes x

/-! ## One transition of a plan in a known state -/

section Moved

variable {p q : Plan} {s : PlanStep} {st : PlanStatus} {calls new : List Call}

theorem undoing_no_steps (p : Plan) (actions : List String) :
    ∀ c ∈ p.undoing actions, c.isStep = false ∧ c.isFailedStep = false ∧ c.performed? = none := by
  intro c hc
  obtain ⟨action, _, rfl⟩ := List.mem_map.mp hc
  exact ⟨rfl, rfl, rfl⟩

theorem filter_undoing (p : Plan) (actions : List String) :
    (p.undoing actions).filter isFailedStep = [] := by
  rw [List.filter_eq_nil_iff]
  intro c hc
  simp [(undoing_no_steps p actions c hc).2.1]

theorem performed_undoing (p : Plan) (actions : List String) :
    Call.performed (p.undoing actions) = [] := by
  rw [Call.performed, List.filterMap_eq_nil_iff]
  exact fun c hc => (undoing_no_steps p actions c hc).2.2

theorem InState.isTerminal_eq (h : p.InState s st calls) :
    p.isTerminal = decide (st = .completed ∨ st = .rolledBack) := by
  rw [isTerminal, h.status]
  cases st <;> rfl

theorem InState.not_terminal (h : p.InState s st calls) (hterminal : p.isTerminal = false) :
    st ≠ .completed ∧ st ≠ .rolledBack := by
  simpa [h.isTerminal_eq] using hterminal

theorem InState.unfailed_of_isOpen (h : p.InState s st calls) (hopen : p.IsOpen) :
    calls.filter isFailedStep = [] := by
  have hfailed : st ≠ .failed := fun hst => hopen.2 (hst ▸ h.status)
  exact h.unfailed hfailed (h.not_terminal hopen.1).2

/-- The steps before the next one are those before this one, and this one. -/
theorem take_position_succ (s : PlanStep) : (Vocabulary.words PlanStep).take (s.position + 1) =
    (Vocabulary.words PlanStep).take s.position ++ [Vocabulary.word s] := by
  cases s <;> rfl

theorem eq_cleanup_of_next?_eq_none {s : PlanStep} (h : s.next? = none) : s = .cleanup := by
  cases s <;> first | rfl | cases h

theorem ne_analysis_of_next?_eq_some {s next : PlanStep} (h : s.next? = some next) :
    next ≠ .analysis := by
  cases s <;> cases h <;> decide

theorem inState_moved (h : p.InState s st calls) (hmoved : p.Moved new (some q)) :
    ∃ s' st', q.InState s' st' (calls ++ new) := by
  have hperformed := h.performed
  cases hmoved with
  | passed s' next now hopen hs hnext =>
    have hs : s' = s := Label.known.inj (hs.symm.trans h.step)
    subst hs
    refine ⟨next, .inProgress, rfl, rfl, by simp, ?_, by simp, ?_, by simp, ?_⟩
    · exact fun _ => ne_analysis_of_next?_eq_some hnext
    · intro _ _
      simp [h.unfailed_of_isOpen hopen, isFailedStep]
    · rw [if_neg (h.not_terminal hopen.1).1] at hperformed
      have hposition := PlanStep.next?_eq_some_iff.mp hnext
      rw [performed_append, performed_step, hperformed, if_neg (by simp), hposition,
        take_position_succ]
  | completed s' now hopen hs hlast =>
    have hs : s' = s := Label.known.inj (hs.symm.trans h.step)
    subst hs
    have hcleanup := eq_cleanup_of_next?_eq_none hlast
    subst hcleanup
    refine ⟨.cleanup, .completed, h.step, rfl, by simp, by simp, by simp, ?_, by simp, ?_⟩
    · intro _ _
      simp [h.unfailed_of_isOpen hopen, isFailedStep]
    · rw [if_neg (h.not_terminal hopen.1).1] at hperformed
      rw [performed_append, hperformed]
      rfl
  | broken s' cause now hopen hs =>
    have hs : s' = s := Label.known.inj (hs.symm.trans h.step)
    subst hs
    refine ⟨s', .failed, h.step, rfl, by simp, by simp, ?_, by simp, by simp, ?_⟩
    · intro _
      simp [h.unfailed_of_isOpen hopen, isFailedStep]
    · rw [if_neg (h.not_terminal hopen.1).1] at hperformed
      simp [performed_append, performed_failed, hperformed]
  | unlisted word cause now returned hopen hs =>
    rw [h.step] at hs
    cases hs
  | rolledBack now hterminal =>
    refine ⟨s, .rolledBack, h.step, rfl, by simp, by simp, by simp, by simp, by simp, ?_⟩
    rw [if_neg (h.not_terminal hterminal).1] at hperformed
    simp [performed_append, hperformed, performed_undoing]
  | cut done action rest cause now hterminal hplan =>
    have hfilter : (calls ++ (p.undoing done ++ [Call.rollback p.id action false])).filter
        isFailedStep = calls.filter isFailedStep := by
      simp [filter_undoing, isFailedStep]
    refine ⟨s, st, h.step, h.status, h.pending, h.inProgress, ?_, ?_, h.completed, ?_⟩
    · rw [hfilter]
      exact fun hst => ⟨by simp, (h.failed hst).2⟩
    · rw [hfilter]
      exact h.unfailed
    · simp [performed_append, hperformed, performed_undoing, performed_rollback]

theorem stretch_moved (hs : p.step = .known s) (hmoved : p.Moved new (some q)) :
    p.Stretch new := by
  cases hmoved with
  | passed s' | completed s' | broken s' => exact .step s' _
  | unlisted word cause now returned hopen hword =>
    rw [hs] at hword
    cases hword
  | rolledBack => exact .batch .full
  | cut done action rest cause now hterminal hplan => exact .batch (.cut done action rest hplan)

theorem Moved.not_terminal (hmoved : p.Moved new (some q)) : p.isTerminal = false := by
  cases hmoved with
  | passed _ _ _ hopen | completed _ _ hopen | broken _ _ _ hopen | unlisted _ _ _ _ hopen =>
    exact hopen.1
  | rolledBack _ hterminal | cut _ _ _ _ _ hterminal => exact hterminal

/-- What a transition leaves open is not closed by its calls. -/
theorem not_closes_moved (hs : p.step = .known s) (hmoved : p.Moved new (some q))
    (hq : q.isTerminal = false) : ¬ p.Closes new := by
  have hundoing : ∀ {c actions}, [c] = p.undoing actions → c.isStep = false := by
    intro c actions hc
    exact (undoing_no_steps p actions c (hc ▸ List.mem_singleton.mpr rfl)).1
  cases hmoved with
  | passed s' next now hopen hs hnext =>
    rintro (h | h)
    · cases hundoing h
    · simp only [List.cons.injEq, Call.step.injEq] at h
      have hword : Vocabulary.word s' = Vocabulary.word PlanStep.cleanup := h.1.2.1
      have hlast : s' = .cleanup := by
        revert hword
        cases s' <;> decide
      rw [hlast] at hnext
      cases hnext
  | completed => cases hq
  | broken s' cause now hopen hs =>
    rintro (h | h)
    · cases hundoing h
    · simp at h
  | unlisted word cause now returned hopen hword =>
    rw [hs] at hword
    cases hword
  | rolledBack => cases hq
  | cut done action rest cause now hterminal hplan =>
    rintro (h | h)
    · have hlast : Call.rollback p.id action false ∈ p.undoing p.rollbackPlan := by
        rw [← h]
        simp
      obtain ⟨a, _, ha⟩ := List.mem_map.mp hlast
      cases ha
    · have hlast : Call.rollback p.id action false ∈
          [Call.step p.id (Vocabulary.word PlanStep.cleanup) true] := by
        rw [← h]
        simp
      cases List.mem_singleton.mp hlast

theorem evolves_moved (hs : p.step = .known s) (hmoved : p.Moved new (some q)) :
    Evolves p q := by
  have hterminal := hmoved.not_terminal
  refine ⟨hmoved.sameContent, ?_, fun hp => by rw [hterminal] at hp; cases hp⟩
  cases hmoved with
  | passed s' next now hopen hs' hnext =>
    have hposition := PlanStep.next?_eq_some_iff.mp hnext
    exact ⟨s', next, hs', rfl, by omega⟩
  | completed | broken | unlisted | rolledBack | cut => exact ⟨s, s, hs, hs, le_refl _⟩

end Moved

/-! ## The plan as it was created -/

section Tracks

variable {p q r : Plan} {calls new : List Call}

theorem SameContent.undoing (h : SameContent p q) (actions : List String) :
    q.undoing actions = p.undoing actions := by
  rw [Plan.undoing, Plan.undoing, h.id]

theorem SameContent.stretch (h : SameContent p q) {x : List Call} (hx : q.Stretch x) :
    p.Stretch x := by
  cases hx with
  | step s returned =>
    rw [h.id]
    exact .step s returned
  | batch hbatch =>
    cases hbatch with
    | full =>
      rw [h.undoing, h.rollbackPlan]
      exact .batch .full
    | cut done action rest hplan =>
      rw [h.undoing, h.id]
      exact .batch (.cut done action rest (h.rollbackPlan ▸ hplan))

theorem SameContent.closes (h : SameContent p q) {x : List Call} (hx : p.Closes x) :
    q.Closes x := by
  rw [Closes, h.undoing, h.rollbackPlan, h.id]
  exact hx

/-- A new plan has no calls. -/
theorem tracks_new (h : Planner.IsNew p) : Tracks p p [] := by
  have hparts : p.Parts [] [] := ⟨rfl, fun _ hx => nomatch hx⟩
  refine ⟨.refl p, ⟨.analysis, .pending, ?_⟩, ⟨by simp [Call.performed], .nil, [], hparts, .nil⟩,
    fun _ => ⟨[], hparts, fun _ hx => nomatch hx⟩⟩
  refine ⟨h.step, h.status, by simp, by simp, by simp, by simp, by simp, ?_⟩
  rfl

/-- The calls of a transition keep the order. -/
theorem stepOrder_moved (h : Tracks p q calls) (hmoved : q.Moved new (some r)) :
    p.StepOrder (calls ++ new) := by
  obtain ⟨s, st, hstate⟩ := h.state
  obtain ⟨s', st', hstate'⟩ := inState_moved hstate hmoved
  obtain ⟨stretches, hparts, hopen⟩ := h.running hmoved.not_terminal
  have hnew := h.content.stretch (stretch_moved hstate.step hmoved)
  refine ⟨?_, ?_, stretches ++ [new], hparts.snoc hnew, ?_⟩
  · rw [hstate'.performed]
    exact List.take_prefix _ _
  · -- a transition that begins a step starts from a plan without a failed one
    have hquiet : (∀ c ∈ new, c.isStep = false) ∨
        (calls.filter isFailedStep = [] ∧ ∃ c, new = [c]) := by
      cases hmoved with
      | passed _ _ _ hopen | completed _ _ hopen | broken _ _ _ hopen | unlisted _ _ _ _ hopen =>
        exact .inr ⟨hstate.unfailed_of_isOpen hopen, _, rfl⟩
      | rolledBack => exact .inl fun c hc => (undoing_no_steps q _ c hc).1
      | cut done action =>
        left
        intro c hc
        rcases List.mem_append.mp hc with hc | hc
        · exact (undoing_no_steps q _ c hc).1
        · rw [List.mem_singleton.mp hc]
          rfl
    rw [List.pairwise_append]
    rcases hquiet with hquiet | ⟨hunfailed, c, hc⟩
    · refine ⟨h.order.failed, ?_, fun _ _ c hc _ => hquiet c hc⟩
      exact List.pairwise_of_forall_mem_list fun _ _ c hc _ => hquiet c hc
    · refine ⟨h.order.failed, by simp [hc], fun c hc _ _ hfailed => ?_⟩
      have hmem : c ∈ calls.filter isFailedStep := List.mem_filter.mpr ⟨hc, hfailed⟩
      rw [hunfailed] at hmem
      cases hmem
  · rw [List.pairwise_append]
    refine ⟨?_, List.pairwise_singleton _ _, fun x hx _ _ => hopen x hx⟩
    exact List.pairwise_of_forall_mem_list fun x hx _ _ => hopen x hx

theorem Tracks.moved (h : Tracks p q calls) (hmoved : q.Moved new (some r)) :
    Tracks p r (calls ++ new) := by
  obtain ⟨s, st, hstate⟩ := h.state
  refine ⟨h.content.trans hmoved.sameContent, inState_moved hstate hmoved,
    stepOrder_moved h hmoved, ?_⟩
  intro hr
  obtain ⟨stretches, hparts, hopen⟩ := h.running hmoved.not_terminal
  have hnew := h.content.stretch (stretch_moved hstate.step hmoved)
  refine ⟨stretches ++ [new], hparts.snoc hnew, fun x hx => ?_⟩
  rcases List.mem_append.mp hx with hx | hx
  · exact hopen x hx
  · rw [List.mem_singleton.mp hx]
    exact fun hcloses => not_closes_moved hstate.step hmoved hr (h.content.closes hcloses)

end Tracks

end Plan

end ChangeImpact
