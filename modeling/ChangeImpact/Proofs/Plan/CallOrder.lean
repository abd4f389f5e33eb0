import ChangeImpact.Proofs.Plan.Ledger

/-!
# Proofs.Plan.CallOrder

The order in which a planner calls the service, over whole sessions.

* `Planner.CallsInOrder` — for every plan that a session creates: steps are carried out in their
  order, none after one that failed; rollbacks are whole; nothing comes after what closes the plan,
  nor after its deletion.
* `Planner.callsInOrder` — every session from an empty store is like this.
-/

namespace ChangeImpact

namespace Planner

structure CallsInOrder (pl : Planner) (requests : List Request) : Prop where
  known : ∀ c ∈ pl.calls requests, ∃ p ∈ pl.created requests, p.id = c.plan
  ordered : ∀ p ∈ pl.created requests, p.StepOrder (Call.ofPlan p.id (pl.calls requests))
  deleted : ∀ before id rest, requests = before ++ .delete id :: rest →
    ((pl.after before).handle (.delete id)).result = .ok .done →
    Call.ofPlan id (((pl.after before).handle (.delete id)).planner.calls rest) = []

/-- A deletion, and the rest of a session. -/
theorem silent_of_delete {pl : Planner} {plans : Keyed Plan} {events : List Event} {id : String}
    {rest : List Request} (hholds : pl.storage.Holds plans) (hledger : Ledger plans events)
    (hspared : (pl.handle (.delete id)).planner.Undisturbed rest)
    (hdone : (pl.handle (.delete id)).result = .ok .done)
    (hfresh : ∀ p, .created p ∈ events →
      ∀ q ∈ (pl.handle (.delete id)).planner.created rest, q.id ≠ p.id) :
    Call.ofPlan id ((pl.handle (.delete id)).planner.calls rest) = [] := by
  obtain ⟨deletion, between, hfollows, hexplains⟩ :=
    handle_follows hholds (.delete id) fun _ _ _ hr => nomatch hr
  obtain ⟨more, after, hchanges, _, hcalls, hcreated⟩ := session_follows rest hfollows.holds hspared
  obtain ⟨⟨q, hq⟩, hgone⟩ := (hexplains.done rfl hdone ▸ hfollows.changes).of_deleted
  obtain ⟨p, hp, hid, _⟩ := hledger.stored hq
  have hnew : ∀ q, .created q ∈ more → q.id ≠ id := fun q hq =>
    hid ▸ hfresh p hp q (hcreated ▸ mem_created_iff.mpr hq)
  rw [hcalls]
  exact (hchanges.silent hgone hnew).2

theorem callsInOrder (pl : Planner) (requests : List Request) (hempty : pl.storage.IsEmpty)
    (hspared : pl.Undisturbed requests)
    (hfresh : ((pl.created requests).map (·.id)).Nodup) : pl.CallsInOrder requests := by
  obtain ⟨events, plans, hledger, _, hcalls, hcreated⟩ := session_ledger hempty hspared hfresh
  refine ⟨?_, ?_, ?_⟩
  · intro c hc
    rw [hcalls] at hc
    obtain ⟨p, hp, hplan⟩ := hledger.known hc
    exact ⟨p, (hcreated p).mp hp, hplan⟩
  · intro p hp
    rw [hcalls]
    exact hledger.ordered ((hcreated p).mpr hp)
  · rintro before id rest rfl hdone
    obtain ⟨hbefore, hdeletion⟩ := undisturbed_append.mp hspared
    obtain ⟨hfresh, hdistinct⟩ := fresh_append hfresh
    obtain ⟨events, plans, hledger, hholds, _, hcreated⟩ := session_ledger hempty hbefore hfresh
    refine silent_of_delete hholds hledger hdeletion.2 hdone ?_
    exact fun p hp q hq => hdistinct p ((hcreated p).mp hp) q (.inr hq)

theorem callsInOrder_sample : (Sample.planner (.memory .empty)).CallsInOrder Sample.session := by
  refine callsInOrder _ _ rfl Sample.undisturbed ?_
  rw [Sample.created_ids]
  decide

end Planner

end ChangeImpact
