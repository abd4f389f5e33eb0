import ChangeImpact.Proofs.Plan.Ledger
import Mathlib.Algebra.GroupWithZero.Nat

/-!
# Proofs.Plan.StateLaw

The state of every plan that a planner keeps, over whole sessions.

* `Planner.Keeps`      — the planner finds a plan under an id.
* `Planner.LawfulStates` — status, step and last error of each plan fit the calls made for it;
  operations move plans forward only; and the summary counts each plan once.
* `Planner.lawfulStates` — every session from an empty store is like this.
-/

namespace ChangeImpact

namespace Planner

def Keeps (pl : Planner) (id : String) (p : Plan) : Prop :=
  (pl.storage.get id).1 = .ok (some p)

structure LawfulStates (pl : Planner) (requests : List Request) : Prop where
  state : ∀ id p, (pl.after requests).Keeps id p →
    ∃ s st, p.InState s st (Call.ofPlan id (pl.calls requests))
  evolves : ∀ before r rest, requests = before ++ r :: rest →
    ∀ id p, (pl.after before).Keeps id p →
      (r = .delete id ∧ ∀ q, ¬ ((pl.after before).handle r).planner.Keeps id q) ∨
        ∃ q, ((pl.after before).handle r).planner.Keeps id q ∧ p.Evolves q
  summary : ∃ (found : List Plan) (counts : List (String × Nat)),
    (found.map (·.id)).Nodup ∧
    (∀ id p, (pl.after requests).Keeps id p ↔ p ∈ found ∧ p.id = id) ∧
    (pl.after requests).summarize.1 = .ok (("total", found.length) :: counts) ∧
    counts.map (·.1) = Vocabulary.words PlanStatus ∧ (counts.map (·.2)).sum = found.length

/-! ## Counting -/

/-- A plan whose status is one of the five is counted once. -/
theorem sum_counts {found : List Plan} (h : ∀ p ∈ found, ∃ st, p.status = .known st) :
    ((Vocabulary.all (α := PlanStatus)).map fun st =>
      found.countP fun p => p.status = .known st).sum = found.length := by
  induction found with
  | nil => rfl
  | cons p rest ih =>
    rw [List.forall_mem_cons] at h
    obtain ⟨st, hst⟩ := h.1
    have hrest := ih h.2
    simp only [Vocabulary.all, List.map_cons, List.map_nil, List.sum_cons, List.sum_nil,
      List.countP_cons, List.length_cons, hst] at hrest ⊢
    cases st <;> simp <;> omega

variable {pl : Planner} {plans : Keyed Plan}

theorem keeps_iff (h : pl.storage.Holds plans) {id : String} {p : Plan} :
    pl.Keeps id p ↔ plans.get? id = some p := h.get_eq_some_iff

/-- A list has each plan that is kept once. -/
theorem list_of_holds (h : pl.storage.Holds plans) :
    ∃ found : List Plan, pl.storage.list = (.ok found, []) ∧ (found.map (·.id)).Nodup ∧
      (∀ id p, pl.Keeps id p ↔ p ∈ found ∧ p.id = id) ∧
      found.Pairwise fun p q => p.createdAt ≤ q.createdAt := by
  obtain ⟨found, hlist, hperm, hsorted⟩ := h.list
  have hmem : ∀ p, p ∈ found ↔ plans.get? p.id = some p := by
    intro p
    rw [hperm.mem_iff, Keyed.mem_values]
    constructor
    · rintro ⟨id, hp⟩
      rwa [h.named hp]
    · exact fun hp => ⟨p.id, hp⟩
  have hids : plans.values.map (·.id) = plans.keys := by
    rw [Keyed.values, Keyed.keys, List.map_map]
    refine List.map_congr_left fun e he => ?_
    exact h.named (plans.get?_eq_some_iff.mpr he)
  refine ⟨found, hlist, ?_, ?_, hsorted⟩
  · rw [(hperm.map _).nodup_iff, hids]
    exact plans.nodup
  · intro id p
    rw [keeps_iff h, hmem]
    constructor
    · intro hp
      rw [h.named hp]
      exact ⟨hp, rfl⟩
    · rintro ⟨hp, rfl⟩
      exact hp

theorem summary_of_holds (h : pl.storage.Holds plans)
    (hstatus : ∀ {id p}, plans.get? id = some p → ∃ st, p.status = .known st) :
    ∃ (found : List Plan) (counts : List (String × Nat)),
      (found.map (·.id)).Nodup ∧ (∀ id p, pl.Keeps id p ↔ p ∈ found ∧ p.id = id) ∧
      pl.summarize.1 = .ok (("total", found.length) :: counts) ∧
      counts.map (·.1) = Vocabulary.words PlanStatus ∧ (counts.map (·.2)).sum = found.length := by
  obtain ⟨found, hlist, hnodup, hkeeps, _⟩ := list_of_holds h
  refine ⟨found, (Vocabulary.all (α := PlanStatus)).map fun st =>
    (Vocabulary.word st, found.countP fun p => p.status = .known st), hnodup, hkeeps, ?_, ?_, ?_⟩
  · simp only [summarize, hlist, Except.map, tally]
  · simp [Vocabulary.words]
  · rw [List.map_map]
    exact sum_counts fun p hp => hstatus ((keeps_iff h).mp ((hkeeps p.id p).mpr ⟨hp, rfl⟩))

/-! ## Sessions -/

/-- One request to a planner whose plans have a ledger. -/
theorem evolves_of_handle {events : List Event} (hholds : pl.storage.Holds plans)
    (hledger : Ledger plans events) (r : Request)
    (hspared : ∀ change settings root, r = .surroundings change settings root →
      pl.storage.SparedBy change)
    (hfresh : ∀ p, .created p ∈ events → ∀ q ∈ (pl.handle r).created?, q.id ≠ p.id)
    {id : String} {p : Plan} (hp : pl.Keeps id p) :
    (r = .delete id ∧ ∀ q, ¬ (pl.handle r).planner.Keeps id q) ∨
      ∃ q, (pl.handle r).planner.Keeps id q ∧ p.Evolves q := by
  obtain ⟨more, after, hfollows, hexplains⟩ := handle_follows hholds r hspared
  rw [keeps_iff hholds] at hp
  simp only [keeps_iff hfollows.holds]
  obtain ⟨p₀, hp₀, hid₀, htracks⟩ := hledger.stored hp
  obtain ⟨s, st, hstate⟩ := htracks.state
  have hcreated : ∀ q, .created q ∈ more → q.id ≠ id := by
    intro q hq
    rw [← mem_created_iff, hexplains.created, Option.mem_toList] at hq
    exact hid₀ ▸ hfresh p₀ hp₀ q hq
  by_cases hdeleted : .deleted id ∈ more
  · left
    obtain ⟨hr, hmore⟩ := hexplains.deleted hdeleted
    have hgone := (hmore ▸ hfollows.changes).of_deleted.2
    exact ⟨hr, fun q hq => by rw [hgone] at hq; cases hq⟩
  · exact .inr (hfollows.changes.evolves hp hstate.step hcreated hdeleted)

theorem lawfulStates (pl : Planner) (requests : List Request) (hempty : pl.storage.IsEmpty)
    (hspared : pl.Undisturbed requests)
    (hfresh : ((pl.created requests).map (·.id)).Nodup) : pl.LawfulStates requests := by
  obtain ⟨events, plans, hledger, hholds, hcalls, _⟩ := session_ledger hempty hspared hfresh
  refine ⟨?_, ?_, summary_of_holds hholds ?_⟩
  · intro id p hp
    obtain ⟨p₀, _, _, htracks⟩ := hledger.stored ((keeps_iff hholds).mp hp)
    rw [hcalls]
    exact htracks.state
  · rintro before r rest rfl id p hp
    obtain ⟨hbefore, hr⟩ := undisturbed_append.mp hspared
    obtain ⟨hfresh, hdistinct⟩ := fresh_append hfresh
    obtain ⟨events, plans, hledger, hholds, _, hcreated⟩ := session_ledger hempty hbefore hfresh
    refine evolves_of_handle hholds hledger r hr.1 ?_ hp
    exact fun p hp q hq => hdistinct p ((hcreated p).mp hp) q (.inl hq)
  · intro id p hp
    obtain ⟨p₀, _, _, htracks⟩ := hledger.stored hp
    obtain ⟨s, st, hstate⟩ := htracks.state
    exact ⟨st, hstate.status⟩

theorem lawfulStates_sample : (Sample.planner (.memory .empty)).LawfulStates Sample.session := by
  refine lawfulStates _ _ rfl Sample.undisturbed ?_
  rw [Sample.created_ids]
  decide

end Planner

end ChangeImpact
