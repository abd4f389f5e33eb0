import ChangeImpact.Proofs.Plan.Operations
import ChangeImpact.Proofs.Plan.Session

/-!
# Proofs.Plan.Changes

A session as a run of changes of the plans that are held.

* `Event`, `Effect`, `Changes` — one change, what it does to the plans, and a run of changes.
* `Changes.forall_stored` — a property of plans that a run preserves.
* `Planner.Follows`        — events that account for an operation.
* `Planner.handle_follows` — every request has such events, of a kind that fits the request.
* `Planner.session_follows` — and so has every session.
-/

namespace ChangeImpact

inductive Event where
  | created (p : Plan)
  | moved (id : String) (calls : List Call)
  | deleted (id : String)

namespace Event

def calls : Event → List Call
  | moved _ calls => calls
  | _ => []

def created? : Event → Option Plan
  | created p => some p
  | _ => none

end Event

inductive Effect (plans : Keyed Plan) : Event → Keyed Plan → Prop
  | created (p : Plan) (hp : Planner.IsNew p) : Effect plans (.created p) (plans.insert p.id p)
  | moved (id : String) (calls : List Call) (p q : Plan) (hp : plans.get? id = some p)
      (hid : p.id = id) (hmoved : p.Moved calls (some q)) :
      Effect plans (.moved id calls) (plans.insert id q)
  | deleted (id : String) (p : Plan) (hp : plans.get? id = some p) :
      Effect plans (.deleted id) (plans.erase id)

/-- Changes one after another, the last one at the end. -/
inductive Changes (plans : Keyed Plan) : List Event → Keyed Plan → Prop
  | nil : Changes plans [] plans
  | snoc {events : List Event} {e : Event} {before after : Keyed Plan}
      (h : Changes plans events before) (hchange : Effect before e after) :
      Changes plans (events ++ [e]) after

namespace Changes

theorem single {plans after : Keyed Plan} {e : Event} (h : Effect plans e after) :
    Changes plans [e] after := snoc nil h

theorem of_nil {plans after : Keyed Plan} (h : Changes plans [] after) : after = plans := by
  generalize hevents : [] = events at h
  cases h with
  | nil => rfl
  | snoc => simp at hevents

theorem of_single {plans after : Keyed Plan} {e : Event} (h : Changes plans [e] after) :
    Effect plans e after := by
  generalize hevents : [e] = events at h
  cases h with
  | nil => cases hevents
  | @snoc events e' before _ h hchange =>
    have happend : [] ++ [e] = events ++ [e'] := hevents
    obtain ⟨hnil, he⟩ := List.append_inj' happend rfl
    cases he
    subst hnil
    exact h.of_nil ▸ hchange

theorem of_deleted {plans after : Keyed Plan} {id : String}
    (h : Changes plans [.deleted id] after) :
    (∃ p, plans.get? id = some p) ∧ after.get? id = none := by
  cases h.of_single with
  | deleted _ p hp => exact ⟨⟨p, hp⟩, by simp⟩

theorem trans {plans before after : Keyed Plan} {events more : List Event}
    (h : Changes plans events before) (h' : Changes before more after) :
    Changes plans (events ++ more) after := by
  induction h' with
  | nil => simpa using h
  | snoc _ hchange ih =>
    rw [← List.append_assoc]
    exact snoc ih hchange

/-- What holds of new plans and survives every transition holds of all that are kept then. -/
theorem forall_stored {plans after : Keyed Plan} {events : List Event} {P : String → Plan → Prop}
    (h : Changes plans events after) (hplans : ∀ id p, plans.get? id = some p → P id p)
    (hcreated : ∀ p, .created p ∈ events → Planner.IsNew p → P p.id p)
    (hmoved : ∀ id p q calls, P id p → p.Moved calls (some q) → P id q) :
    ∀ id p, after.get? id = some p → P id p := by
  induction h with
  | nil => exact hplans
  | snoc _ hchange ih =>
    have ih := ih fun p hp => hcreated p (List.mem_append_left _ hp)
    intro id p hp
    cases hchange with
    | created q hq =>
      rw [Keyed.get?_insert] at hp
      split at hp
      · next hid =>
        cases hp
        exact hid ▸ hcreated p (by simp) hq
      · exact ih id p hp
    | moved other calls q q' hq _ hmove =>
      rw [Keyed.get?_insert] at hp
      split at hp
      · next hid =>
        cases hp
        exact hid ▸ hmoved other q p calls (ih other q hq) hmove
      · exact ih id p hp
    | deleted other q _ =>
      rw [Keyed.get?_erase] at hp
      split at hp
      · cases hp
      · exact ih id p hp

end Changes

namespace Planner

variable {pl : Planner} {plans : Keyed Plan} {id : String}

/-- The events account for the calls of an operation and for the plans that are held after it. -/
structure Follows {α : Type} (plans : Keyed Plan) (o : Outcome α) (events : List Event)
    (after : Keyed Plan) : Prop where
  changes : Changes plans events after
  holds : o.planner.storage.Holds after
  calls : o.calls = events.flatMap Event.calls

theorem follows_nil {α : Type} {o : Outcome α} (hholds : o.planner.storage.Holds plans)
    (hcalls : o.calls = []) : Follows plans o [] plans :=
  ⟨.nil, hholds, hcalls⟩

/-- Events of the plan under `id` that only move it. -/
def OnlyMoves (id : String) (events : List Event) : Prop :=
  ∀ e ∈ events, ∃ calls, e = .moved id calls

/-! ## Transitions -/

theorem transact_follows (h : pl.storage.Holds plans) (id : String) {move : Plan → Transition}
    (hmove : ∀ p : Plan, p.Moved (move p).calls (move p).stored) :
    ∃ events after, Follows plans (transact pl id move) events after ∧ OnlyMoves id events := by
  cases hp : plans.get? id with
  | none =>
    obtain ⟨e, hyields⟩ : ∃ e, pl.Yields (transact pl id move) (.error e) [] plans :=
      transact_none h hp
    exact ⟨[], plans, follows_nil hyields.holds hyields.calls, fun _ he => nomatch he⟩
  | some p =>
    have hyields := transact_some h hp (hmove p)
    have hmoved := hmove p
    cases hstored : (move p).stored with
    | none =>
      rw [hstored] at hyields hmoved
      have hcalls : (transact pl id move).calls = [] :=
        hyields.calls.trans hmoved.calls_eq_nil
      exact ⟨[], plans, follows_nil hyields.holds hcalls, fun _ he => nomatch he⟩
    | some q =>
      rw [hstored] at hyields hmoved
      refine ⟨[.moved id (move p).calls], plans.insert id q, ⟨?_, hyields.holds, ?_⟩, ?_⟩
      · exact .single (.moved id _ p q hp (h.named hp) hmoved)
      · simp [hyields.calls, Event.calls]
      · intro e he
        exact ⟨_, List.mem_singleton.mp he⟩

theorem executeSteps_follows (service : MutationService) (id : String) (fuel : Nat) :
    ∀ (clock : Clock) {pl : Planner} {plans : Keyed Plan}, pl.storage.Holds plans →
      ∃ events after, Follows plans (executeSteps service id fuel clock pl) events after ∧
        OnlyMoves id events := by
  induction fuel with
  | zero =>
    intro clock pl plans h
    exact ⟨[], plans, follows_nil h rfl, fun _ he => nomatch he⟩
  | succ fuel ih =>
    intro clock pl plans h
    obtain ⟨events, between, hfirst, hmoves⟩ :=
      transact_follows h id (Plan.moved_advance service clock)
    have hfirst : Follows plans (execute pl service clock id) events between := hfirst
    rw [executeSteps]
    cases hresult : (execute pl service clock id).result with
    | error e =>
      simp only
      exact ⟨events, between, ⟨hfirst.changes, hfirst.holds, hfirst.calls⟩, hmoves⟩
    | ok r =>
      simp only
      split
      · obtain ⟨more, after, hrest, hmoves'⟩ := ih (clock.later 2) hfirst.holds
        refine ⟨events ++ more, after, ⟨hfirst.changes.trans hrest.changes, hrest.holds, ?_⟩, ?_⟩
        · simp [hfirst.calls, hrest.calls]
        · intro e he
          exact (List.mem_append.mp he).elim (hmoves e) (hmoves' e)
      · exact ⟨events, between, ⟨hfirst.changes, hfirst.holds, hfirst.calls⟩, hmoves⟩

/-- Events of one plan leave all others as they are, and that one is still there. -/
theorem OnlyMoves.others {events : List Event} {after : Keyed Plan} (hmoves : OnlyMoves id events)
    (h : Changes plans events after) :
    (∀ other, other ≠ id → after.get? other = plans.get? other) ∧
      ((plans.get? id).isSome = true → (after.get? id).isSome = true) := by
  induction h with
  | nil => exact ⟨fun _ _ => rfl, fun h => h⟩
  | @snoc events e before after _ hchange ih =>
    obtain ⟨hothers, hthere⟩ := ih fun e he => hmoves e (List.mem_append_left _ he)
    obtain ⟨calls, rfl⟩ := hmoves e (List.mem_append_right _ (List.mem_singleton.mpr rfl))
    cases hchange with
    | moved _ _ p q hp hid hmoved =>
      refine ⟨fun other hother => ?_, fun _ => by simp⟩
      rw [Keyed.get?_insert, if_neg hother.symm]
      exact hothers other hother

/-! ## Requests -/

/-- The events are of a kind that fits the request and its answer. -/
structure Explains (r : Request) (o : Outcome Answer) (events : List Event) : Prop where
  created : events.filterMap Event.created? = o.created?.toList
  deleted : ∀ {id}, .deleted id ∈ events → r = .delete id ∧ events = [.deleted id]
  done : ∀ {id}, r = .delete id → o.result = .ok .done → events = [.deleted id]

theorem explains_nil {r : Request} {o : Outcome Answer} (hcreated : o.created? = none)
    (hdelete : ∀ {id}, r = .delete id → o.result ≠ .ok .done) : Explains r o [] :=
  ⟨by simp [hcreated], fun he => (nomatch he), fun hr hdone => absurd hdone (hdelete hr)⟩

theorem explains_moves {r : Request} {o : Outcome Answer} {events : List Event}
    (hmoves : OnlyMoves id events) (hcreated : o.created? = none)
    (hdelete : ∀ {id}, r ≠ .delete id) : Explains r o events := by
  refine ⟨?_, ?_, fun hr => absurd hr hdelete⟩
  · rw [hcreated, Option.toList_none, List.filterMap_eq_nil_iff]
    intro e he
    obtain ⟨calls, rfl⟩ := hmoves e he
    rfl
  · intro id he
    obtain ⟨calls, he⟩ := hmoves _ he
    cases he

theorem Follows.map {α β : Type} {o : Outcome α} {events : List Event} {after : Keyed Plan}
    (h : Follows plans o events after) (f : α → β) : Follows plans (o.map f) events after :=
  ⟨h.changes, h.holds, h.calls⟩

theorem create_follows (h : pl.storage.Holds plans) (c : Circumstances)
    (path type description : String) :
    ∃ events after, Follows plans (pl.create c path type description) events after ∧
      Explains (.create c path type description)
        ((pl.create c path type description).map .plan) events := by
  rcases create_cases h with ⟨e, hresult, hcalls, hstorage⟩ | ⟨p, hp, hyields⟩
  · refine ⟨[], plans, follows_nil (hstorage ▸ h) hcalls, explains_nil ?_ fun hr => nomatch hr⟩
    simp [Outcome.created?, hresult, Except.map]
  · have hnew := isNew_drafted hp
    refine ⟨[.created p], plans.insert p.id p, ⟨.single (.created p hnew), hyields.holds, ?_⟩, ?_⟩
    · simp [hyields.calls, Event.calls]
    · refine ⟨?_, ?_, fun hr => nomatch hr⟩
      · simp [Outcome.created?, hyields.result, Except.map, Event.created?]
      · intro id he
        cases List.mem_singleton.mp he

theorem delete_follows (h : pl.storage.Holds plans) (id : String) :
    ∃ events after, Follows plans (pl.delete id) events after ∧
      Explains (.delete id) ((pl.delete id).map fun _ => .done) events := by
  cases hp : plans.get? id with
  | none =>
    obtain ⟨e, hyields⟩ := delete_none h hp
    refine ⟨[], plans, follows_nil hyields.holds hyields.calls, explains_nil ?_ ?_⟩
    · simp [Outcome.created?, hyields.result, Except.map]
    · intro id _
      simp [hyields.result, Except.map]
  | some p =>
    have hyields := delete_some h hp
    refine ⟨[.deleted id], plans.erase id, ⟨.single (.deleted id p hp), hyields.holds, ?_⟩, ?_⟩
    · simp [hyields.calls, Event.calls]
    · refine ⟨?_, ?_, ?_⟩
      · simp [Outcome.created?, hyields.result, Except.map, Event.created?]
      · intro id' he
        cases List.mem_singleton.mp he
        exact ⟨rfl, rfl⟩
      · intro id' hr _
        cases hr
        rfl

theorem created?_map {α : Type} {f : α → Answer} (hf : ∀ a p, f a ≠ .plan p) (o : Outcome α) :
    (o.map f).created? = none := by
  rw [Outcome.created?, Outcome.map_result]
  cases o.result with
  | error e => rfl
  | ok a =>
    simp only [Except.map]
    split
    · next p hp => exact absurd (Except.ok.inj hp) (hf a p)
    · rfl

/-- A request that only moves plans. -/
theorem moves_follow {α : Type} {o : Outcome α} {f : α → Answer} {r : Request}
    (hf : ∀ a p, f a ≠ .plan p) (hr : ∀ {id}, r ≠ .delete id)
    (h : ∃ events after, Follows plans o events after ∧ OnlyMoves id events) :
    ∃ events after, Follows plans (o.map f) events after ∧ Explains r (o.map f) events := by
  obtain ⟨events, after, hfollows, hmoves⟩ := h
  exact ⟨events, after, hfollows.map f, explains_moves hmoves (created?_map hf o) hr⟩

/-- A request that only looks. -/
theorem answer_follows {α : Type} (h : pl.storage.Holds plans) {f : α → Answer} {r : Request}
    (hf : ∀ a p, f a ≠ .plan p) (hr : ∀ {id}, r ≠ .delete id) (found : Except Failure α)
    (log : Log) :
    ∃ events after, Follows plans (pl.answer (found.map f, log)) events after ∧
      Explains r (pl.answer (found.map f, log)) events := by
  have hcreated := created?_map hf { result := found, planner := pl, log }
  exact ⟨[], plans, follows_nil h rfl, explains_nil hcreated fun hdelete => absurd hdelete hr⟩

theorem handle_follows (h : pl.storage.Holds plans) (r : Request)
    (hspared : ∀ change settings root, r = .surroundings change settings root →
      pl.storage.SparedBy change) :
    ∃ events after, Follows plans (pl.handle r) events after ∧
      Explains r (pl.handle r) events := by
  cases r with
  | create c path type description =>
    obtain ⟨events, after, hfollows, hexplains⟩ := create_follows h c path type description
    exact ⟨events, after, hfollows.map Answer.plan, hexplains⟩
  | execute service clock id =>
    have hmoves := transact_follows h id (Plan.moved_advance service clock)
    exact moves_follow (by simp) (by simp) hmoves
  | executeAll service clock id =>
    have hmoves := executeSteps_follows service id (Vocabulary.all (α := PlanStep)).length clock h
    exact moves_follow (by simp) (by simp) hmoves
  | rollBack service clock id =>
    have hmoves := transact_follows h id (Plan.moved_rollBack service clock)
    exact moves_follow (by simp) (by simp) hmoves
  | delete id =>
    obtain ⟨events, after, hfollows, hexplains⟩ := delete_follows h id
    exact ⟨events, after, hfollows.map _, hexplains⟩
  | get id => exact answer_follows h (by simp) (by simp) _ _
  | list => exact answer_follows h (by simp) (by simp) _ _
  | summarize => exact answer_follows h (by simp) (by simp) _ _
  | reopen =>
    rw [handle, reopen_eq h]
    exact ⟨[], plans, follows_nil h rfl, explains_nil rfl fun hr => nomatch hr⟩
  | surroundings change settings root =>
    have hholds := h.spared (hspared change settings root rfl)
    exact ⟨[], plans, follows_nil hholds rfl, explains_nil rfl fun hr => nomatch hr⟩

/-! ## Sessions -/

theorem session_follows (requests : List Request) :
    ∀ {pl : Planner} {plans : Keyed Plan}, pl.storage.Holds plans → pl.Undisturbed requests →
      ∃ events after, Changes plans events after ∧ (pl.after requests).storage.Holds after ∧
        pl.calls requests = events.flatMap Event.calls ∧
        pl.created requests = events.filterMap Event.created? := by
  induction requests with
  | nil => exact fun h _ => ⟨[], _, .nil, h, rfl, rfl⟩
  | cons r rest ih =>
    intro pl plans h hspared
    obtain ⟨events, between, hfollows, hexplains⟩ := handle_follows h r hspared.1
    obtain ⟨more, after, hchanges, hholds, hcalls, hcreated⟩ := ih hfollows.holds hspared.2
    refine ⟨events ++ more, after, hfollows.changes.trans hchanges, hholds, ?_, ?_⟩
    · rw [List.flatMap_append, ← hfollows.calls, ← hcalls, calls_cons]
    · rw [List.filterMap_append, hexplains.created, ← hcreated, created_cons]

end Planner

end ChangeImpact
