import ChangeImpact.Proofs.Plan.History

/-!
# Proofs.Plan.Ledger

The history of every plan in the course of a run of changes from no plans at all.

* `Ledger`            — every plan that is held is tracked from its creation on, and every plan
  that was ever created has its calls in order.
* `ledger_of_changes` — a run of changes keeps such a ledger, if no id is used twice.
* `Changes.evolves`, `Changes.silent` — a plan in a run that neither creates nor deletes it, and
  the calls for an id that no plan has.
* `Planner.session_ledger` — sessions have such a ledger as well.
-/

namespace ChangeImpact

open Call

/-- The plans that a run of changes creates have ids of their own. -/
def Fresh (events : List Event) : Prop :=
  ((events.filterMap Event.created?).map (·.id)).Nodup

/-- The calls that a run of changes makes for one plan. -/
def callsFor (id : String) (events : List Event) : List Call :=
  ofPlan id (events.flatMap Event.calls)

theorem callsFor_append (id : String) (events more : List Event) :
    callsFor id (events ++ more) = callsFor id events ++ callsFor id more := by
  simp [callsFor, ofPlan]

theorem callsFor_created (id : String) (p : Plan) : callsFor id [.created p] = [] := rfl

theorem callsFor_deleted (id id' : String) : callsFor id [.deleted id'] = [] := rfl

section Moved

variable {p : Plan} {calls : List Call} {stored : Option Plan}

theorem callsFor_moved (h : p.Moved calls stored) : callsFor p.id [.moved p.id calls] = calls := by
  simp only [callsFor, ofPlan, List.flatMap_singleton, Event.calls, List.filter_eq_self]
  intro c hc
  simpa using h.plan_of_mem hc

theorem callsFor_moved_ne (h : p.Moved calls stored) {id : String} (hid : p.id ≠ id) :
    callsFor id [.moved p.id calls] = [] := by
  simp only [callsFor, ofPlan, List.flatMap_singleton, Event.calls, List.filter_eq_nil_iff]
  intro c hc
  simpa [h.plan_of_mem hc] using hid

end Moved

theorem mem_created_iff {events : List Event} {p : Plan} :
    p ∈ events.filterMap Event.created? ↔ .created p ∈ events := by
  rw [List.mem_filterMap]
  constructor
  · rintro ⟨e, he, hp⟩
    cases e with
    | created p' => cases hp; exact he
    | moved id calls => cases hp
    | deleted id => cases hp
  · exact fun h => ⟨_, h, rfl⟩

theorem Fresh.unique {events : List Event} (h : Fresh events) {p q : Plan}
    (hp : .created p ∈ events) (hq : .created q ∈ events) (hid : p.id = q.id) : p = q :=
  List.inj_on_of_nodup_map h (mem_created_iff.mpr hp) (mem_created_iff.mpr hq) hid

/-- `plans` are held after `events`. -/
structure Ledger (plans : Keyed Plan) (events : List Event) : Prop where
  stored : ∀ {id q}, plans.get? id = some q →
    ∃ p, .created p ∈ events ∧ p.id = id ∧ p.Tracks q (callsFor id events)
  ordered : ∀ {p}, .created p ∈ events → p.StepOrder (callsFor p.id events)
  known : ∀ {c}, c ∈ events.flatMap Event.calls → ∃ p, .created p ∈ events ∧ p.id = c.plan

namespace Ledger

variable {plans : Keyed Plan} {events : List Event}

theorem empty : Ledger .empty [] :=
  ⟨fun h => by simp at h, fun h => (nomatch h), fun h => (nomatch h)⟩

/-- No calls are made for an id before its plan is created. -/
theorem callsFor_eq_nil (h : Ledger plans events) {id : String}
    (hid : ∀ p, .created p ∈ events → p.id ≠ id) : callsFor id events = [] := by
  rw [callsFor, ofPlan, List.filter_eq_nil_iff]
  intro c hc
  obtain ⟨p, hp, hplan⟩ := h.known hc
  simpa [← hplan] using hid p hp

theorem created (h : Ledger plans events) {p : Plan} (hp : Planner.IsNew p)
    (hfresh : ∀ q, .created q ∈ events → q.id ≠ p.id) :
    Ledger (plans.insert p.id p) (events ++ [.created p]) := by
  have hcalls : ∀ id, callsFor id (events ++ [.created p]) = callsFor id events := by
    intro id
    rw [callsFor_append, callsFor_created, List.append_nil]
  have hnone := h.callsFor_eq_nil hfresh
  refine ⟨?_, ?_, ?_⟩
  · intro id q hq
    rw [hcalls]
    rw [Keyed.get?_insert] at hq
    split at hq
    · next hid =>
      cases hq
      subst hid
      exact ⟨p, by simp, rfl, hnone ▸ Plan.tracks_new hp⟩
    · obtain ⟨p', hp', hid, htracks⟩ := h.stored hq
      exact ⟨p', List.mem_append_left _ hp', hid, htracks⟩
  · intro q hq
    rw [hcalls]
    rcases List.mem_append.mp hq with hq | hq
    · exact h.ordered hq
    · cases List.mem_singleton.mp hq
      exact hnone ▸ (Plan.tracks_new hp).order
  · intro c hc
    rw [List.flatMap_append, List.mem_append] at hc
    rcases hc with hc | hc
    · obtain ⟨q, hq, hplan⟩ := h.known hc
      exact ⟨q, List.mem_append_left _ hq, hplan⟩
    · cases hc

theorem moved (h : Ledger plans events) (hfresh : Fresh events) {p q : Plan} {calls : List Call}
    (hp : plans.get? p.id = some p) (hmoved : p.Moved calls (some q)) :
    Ledger (plans.insert p.id q) (events ++ [.moved p.id calls]) := by
  obtain ⟨p₀, hp₀, hid₀, htracks⟩ := h.stored hp
  have hown : callsFor p.id (events ++ [.moved p.id calls]) = callsFor p.id events ++ calls := by
    rw [callsFor_append, callsFor_moved hmoved]
  have hother : ∀ {id}, p.id ≠ id →
      callsFor id (events ++ [.moved p.id calls]) = callsFor id events := by
    intro id hid
    rw [callsFor_append, callsFor_moved_ne hmoved hid, List.append_nil]
  refine ⟨?_, ?_, ?_⟩
  · intro id r hr
    rw [Keyed.get?_insert] at hr
    split at hr
    · next hid =>
      cases hr
      subst hid
      exact ⟨p₀, List.mem_append_left _ hp₀, hid₀, hown ▸ htracks.moved hmoved⟩
    · next hid =>
      obtain ⟨p', hp', hid', htracks'⟩ := h.stored hr
      exact ⟨p', List.mem_append_left _ hp', hid', hother hid ▸ htracks'⟩
  · intro p' hp'
    have hp' : .created p' ∈ events := by simpa using hp'
    by_cases hid : p.id = p'.id
    · have hsame := hfresh.unique hp₀ hp' (hid₀.trans hid)
      subst hsame
      rw [← hid, hown]
      exact (htracks.moved hmoved).order
    · rw [hother hid]
      exact h.ordered hp'
  · intro c hc
    rw [List.flatMap_append, List.mem_append] at hc
    rcases hc with hc | hc
    · obtain ⟨p', hp', hplan⟩ := h.known hc
      exact ⟨p', List.mem_append_left _ hp', hplan⟩
    · have hplan : c.plan = p.id := hmoved.plan_of_mem (by simpa [Event.calls] using hc)
      exact ⟨p₀, List.mem_append_left _ hp₀, hid₀.trans hplan.symm⟩

theorem deleted (h : Ledger plans events) (id : String) :
    Ledger (plans.erase id) (events ++ [.deleted id]) := by
  have hcalls : ∀ id', callsFor id' (events ++ [.deleted id]) = callsFor id' events := by
    intro id'
    rw [callsFor_append, callsFor_deleted, List.append_nil]
  refine ⟨?_, ?_, ?_⟩
  · intro id' q hq
    rw [Keyed.get?_erase] at hq
    split at hq
    · cases hq
    · obtain ⟨p, hp, hid, htracks⟩ := h.stored hq
      exact ⟨p, List.mem_append_left _ hp, hid, hcalls id' ▸ htracks⟩
  · intro p hp
    rw [hcalls]
    exact h.ordered (by simpa using hp)
  · intro c hc
    obtain ⟨p, hp, hplan⟩ := h.known (c := c) (by simpa [Event.calls] using hc)
    exact ⟨p, List.mem_append_left _ hp, hplan⟩

end Ledger

theorem ledger_of_changes {plans : Keyed Plan} {events : List Event}
    (h : Changes .empty events plans) (hfresh : Fresh events) : Ledger plans events := by
  induction h with
  | nil => exact .empty
  | @snoc events e before after h hchange ih =>
    rw [Fresh, List.filterMap_append, List.map_append, List.nodup_append] at hfresh
    obtain ⟨hbefore, _, hnew⟩ := hfresh
    have hledger := ih hbefore
    cases hchange with
    | created p hp =>
      refine hledger.created hp fun q hq hid => ?_
      have hq : q.id ∈ (events.filterMap Event.created?).map (·.id) :=
        List.mem_map_of_mem (mem_created_iff.mpr hq)
      exact hnew q.id hq p.id (by simp [Event.created?]) hid
    | moved id calls p q hp hid hmoved =>
      subst hid
      exact hledger.moved hbefore hp hmoved
    | deleted id p hp => exact hledger.deleted id

namespace Changes

variable {plans after : Keyed Plan} {events : List Event} {id : String}

/-- A plan in a run of changes that neither creates one in its place nor deletes it. -/
theorem evolves (h : Changes plans events after) {p : Plan} {s : PlanStep}
    (hp : plans.get? id = some p) (hs : p.step = .known s)
    (hcreated : ∀ q, .created q ∈ events → q.id ≠ id) (hdeleted : .deleted id ∉ events) :
    ∃ q, after.get? id = some q ∧ p.Evolves q := by
  induction h with
  | nil => exact ⟨p, hp, .refl hs⟩
  | snoc h hchange ih =>
    obtain ⟨q, hq, hevolves⟩ :=
      ih (fun q hq => hcreated q (List.mem_append_left _ hq))
        (fun hd => hdeleted (List.mem_append_left _ hd))
    cases hchange with
    | created p' _ =>
      have hid := hcreated p' (by simp)
      exact ⟨q, by simp [hid, hq], hevolves⟩
    | moved id' calls p' q' hp' _ hmoved =>
      by_cases hid : id' = id
      · subst hid
        rw [hq] at hp'
        cases hp'
        obtain ⟨s, t, _, ht, _⟩ := hevolves.step
        exact ⟨q', by simp, hevolves.trans (Plan.evolves_moved ht hmoved)⟩
      · exact ⟨q, by simp [hid, hq], hevolves⟩
    | deleted id' p' _ =>
      have hid : id' ≠ id := fun hid => hdeleted (by simp [hid])
      exact ⟨q, by simp [hid, hq], hevolves⟩

/-- While no plan has an id, no calls are made for it. -/
theorem silent (h : Changes plans events after) (hp : plans.get? id = none)
    (hcreated : ∀ q, .created q ∈ events → q.id ≠ id) :
    after.get? id = none ∧ callsFor id events = [] := by
  induction h with
  | nil => exact ⟨hp, rfl⟩
  | snoc h hchange ih =>
    obtain ⟨hnone, hcalls⟩ := ih fun q hq => hcreated q (List.mem_append_left _ hq)
    rw [callsFor_append, hcalls, List.nil_append]
    cases hchange with
    | created p' _ =>
      have hid := hcreated p' (by simp)
      exact ⟨by simp [hid, hnone], callsFor_created id p'⟩
    | moved id' calls p' q' hp' hid' hmoved =>
      have hid : id' ≠ id := fun hid => by rw [hid, hnone] at hp'; cases hp'
      subst hid'
      exact ⟨by simp [hid, hnone], callsFor_moved_ne hmoved hid⟩
    | deleted id' p' _ => exact ⟨by simp [hnone], callsFor_deleted id id'⟩

end Changes

/-! ## Sessions -/

namespace Planner

variable {pl : Planner} {requests : List Request}

theorem session_ledger (hempty : pl.storage.IsEmpty) (hspared : pl.Undisturbed requests)
    (hfresh : ((pl.created requests).map (·.id)).Nodup) :
    ∃ events plans, Ledger plans events ∧ (pl.after requests).storage.Holds plans ∧
      pl.calls requests = events.flatMap Event.calls ∧
      ∀ p, .created p ∈ events ↔ p ∈ pl.created requests := by
  have hstart := Storage.holds_empty hempty
  obtain ⟨events, plans, hchanges, hholds, hcalls, hcreated⟩ :=
    session_follows requests hstart hspared
  have hledger := ledger_of_changes hchanges (by rwa [Fresh, ← hcreated])
  refine ⟨events, plans, hledger, hholds, hcalls, fun p => ?_⟩
  rw [hcreated, mem_created_iff]

/-- What is created later has ids of its own. -/
theorem fresh_append {before rest : List Request} {r : Request}
    (h : ((pl.created (before ++ r :: rest)).map (·.id)).Nodup) :
    ((pl.created before).map (·.id)).Nodup ∧
      ∀ p ∈ pl.created before, ∀ q,
        (q ∈ ((pl.after before).handle r).created? ∨
          q ∈ ((pl.after before).handle r).planner.created rest) → q.id ≠ p.id := by
  rw [created_append, created_cons, List.map_append, List.nodup_append] at h
  obtain ⟨hbefore, _, hdistinct⟩ := h
  refine ⟨hbefore, fun p hp q hq hid => ?_⟩
  have hq : q ∈ ((pl.after before).handle r).created?.toList ++
      ((pl.after before).handle r).planner.created rest := by
    rwa [List.mem_append, Option.mem_toList]
  exact hdistinct p.id (List.mem_map_of_mem hp) q.id (List.mem_map_of_mem hq) hid.symm

end Planner

end ChangeImpact
