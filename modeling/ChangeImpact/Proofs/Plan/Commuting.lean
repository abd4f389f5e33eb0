import ChangeImpact.Proofs.Plan.Changes
import ChangeImpact.Proofs.Plan.Fate

/-!
# Proofs.Plan.Commuting

Operations on two plans, in either order.

* `Operation`          — what can be done with a plan that has been created.
* `Planner.Does`, `Planner.LocalTo` — result, calls and the fate of a plan, and that nothing but
  the plan itself decides them.
* `localTo_transact`, `localTo_executeSteps`, `localTo_delete` — every operation is such.
* `Planner.Commute`    — two requests come to the same in either order.
* `Planner.operations_commute` — operations on distinct plans do, after any session.
-/

namespace ChangeImpact

/-- Each operation has a service and a clock of its own. -/
inductive Operation where
  | execute (service : MutationService) (clock : Clock)
  | executeAll (service : MutationService) (clock : Clock)
  | rollBack (service : MutationService) (clock : Clock)
  | delete

/-- The operation asked for on a plan. -/
def Operation.on (id : String) : Operation → Request
  | execute service clock => .execute service clock id
  | executeAll service clock => .executeAll service clock id
  | rollBack service clock => .rollBack service clock id
  | delete => .delete id

/-- A plan that is stored takes the place of the one that was there. -/
def Transition.fate (t : Transition) : Fate :=
  match t.stored with
  | none => .stays
  | some p => .becomes p

namespace Planner

/-- Nothing but the plan under `id` has changed, which has met its fate. -/
structure Does {α : Type} (pl : Planner) (o : Outcome α) (id : String) (result : Except Failure α)
    (calls : List Call) (fate : Fate) : Prop where
  result : o.result = result
  calls : o.calls = calls
  planner : o.planner = pl.withStorage (pl.storage.after id fate)

/-- So does the operation in every storage of one place where `found` is the plan under `id`. -/
def DoesWith {α : Type} (operation : Planner → Outcome α) (directory : Option String)
    (id : String) (found : Option Plan) (result : Except Failure α) (calls : List Call)
    (fate : Fate) : Prop :=
  ∀ {pl : Planner} {plans : Keyed Plan}, pl.storage.Holds plans →
    pl.storage.directory? = directory → plans.get? id = found →
    fate.Suits id found ∧ pl.Does (operation pl) id result calls fate

/-- What is found under `id` decides what the operation does, whatever other plans there are. -/
def LocalTo {α : Type} (id : String) (operation : Planner → Outcome α) : Prop :=
  ∀ directory found, ∃ result calls fate,
    DoesWith operation directory id found result calls fate

section Local

variable {id : String}

theorem LocalTo.map {α β : Type} {operation : Planner → Outcome α} (h : LocalTo id operation)
    (f : α → β) : LocalTo id fun pl => (operation pl).map f := by
  intro directory found
  obtain ⟨result, calls, fate, hdoes⟩ := h directory found
  refine ⟨result.map f, calls, fate, fun hholds hdirectory hfound => ?_⟩
  obtain ⟨hsuits, hdoes⟩ := hdoes hholds hdirectory hfound
  exact ⟨hsuits, by rw [Outcome.map_result, hdoes.result], hdoes.calls, hdoes.planner⟩

/-- An operation that fails before it has done anything. -/
theorem does_error {α : Type} {pl : Planner} {o : Outcome α} {e : Failure}
    (hresult : o.result = .error e) (hcalls : o.calls = []) (hplanner : o.planner = pl) :
    pl.Does o id (.error e) [] .stays := by
  refine ⟨hresult, hcalls, ?_⟩
  rw [hplanner, Storage.after_stays]
  rfl

/-- An operation that fails where it finds no plan does so in the same way in all storages of one
place. -/
theorem doesWith_none {α : Type} {operation : Planner → Outcome α} (directory : Option String)
    (hfault : ∀ {pl : Planner} {e : Failure} {log : Log}, pl.storage.get id = (.error e, log) →
      pl.Does (operation pl) id (.error e) [] .stays)
    (hmissing : ∀ {pl : Planner} {log : Log}, pl.storage.get id = (.ok none, log) →
      pl.Does (operation pl) id (.error (.planNotFound id)) [] .stays) :
    ∃ result calls fate, DoesWith operation directory id none result calls fate := by
  obtain ⟨reply, hnone, hreply⟩ := Storage.exists_get_none directory id
  cases reply with
  | error e =>
    refine ⟨.error e, [], .stays, fun hholds hdirectory hfound => ⟨.stays, ?_⟩⟩
    exact hfault (hreply hholds hdirectory hfound)
  | ok found =>
    cases found with
    | some p => exact absurd rfl (hnone p)
    | none =>
      refine ⟨.error (.planNotFound id), [], .stays, fun hholds hdirectory hfound => ⟨.stays, ?_⟩⟩
      exact hmissing (hreply hholds hdirectory hfound)

theorem localTo_transact {move : Plan → Transition}
    (hmove : ∀ p : Plan, p.Moved (move p).calls (move p).stored) :
    LocalTo id fun pl => transact pl id move := by
  intro directory found
  cases found with
  | none =>
    refine doesWith_none directory (fun {pl e log} hget => ?_) fun {pl log} hget => ?_
    · simp only [transact, hget]
      exact does_error rfl rfl rfl
    · simp only [transact, hget]
      exact does_error rfl rfl rfl
  | some p =>
    refine ⟨.ok (move p).result, (move p).calls, (move p).fate, fun {pl plans} hholds _ hp => ?_⟩
    have hmoved := hmove p
    simp only [transact, hholds.get hp, settle, Transition.fate]
    cases hstored : (move p).stored with
    | none => exact ⟨.stays, rfl, rfl, by rw [Storage.after_stays]; rfl⟩
    | some q =>
      rw [hstored] at hmoved
      have hid : q.id = id := hmoved.sameContent.id.trans (hholds.named hp)
      have hsave : pl.storage.save q = .ok (pl.storage.after id (.becomes q)) := by
        subst hid
        exact Storage.save_eq hholds hp
      simp only [hsave]
      exact ⟨.becomes rfl hid (hmoved.canonical (hholds.canonical hp)), rfl, rfl, rfl⟩

theorem localTo_delete : LocalTo id fun pl => delete pl id := by
  intro directory found
  cases found with
  | none =>
    refine doesWith_none directory (fun {pl e log} hget => ?_) fun {pl log} hget => ?_
    · simp only [delete, hget]
      exact does_error rfl rfl rfl
    · simp only [delete, hget]
      exact does_error rfl rfl rfl
  | some p =>
    refine ⟨.ok (), [], .goes, fun {pl plans} hholds _ hp => ⟨.goes rfl, ?_⟩⟩
    simp only [delete, hholds.get hp, Storage.delete_eq hholds hp]
    exact ⟨rfl, rfl, rfl⟩

/-- The planner after an operation, and what it holds. -/
theorem Does.holds {α : Type} {pl : Planner} {plans : Keyed Plan} {o : Outcome α}
    {result : Except Failure α} {calls : List Call} {fate : Fate}
    (h : pl.Does o id result calls fate) (hholds : pl.storage.Holds plans)
    (hsuits : fate.Suits id (plans.get? id)) :
    o.planner.storage.Holds (plans.after id fate) ∧
      o.planner.storage.directory? = pl.storage.directory? := by
  rw [h.planner]
  exact Storage.holds_after hholds hsuits

/-- Each step finds what the one before has left. -/
theorem localTo_executeSteps (service : MutationService) (fuel : Nat) :
    ∀ clock, LocalTo id (executeSteps service id fuel clock) := by
  induction fuel with
  | zero =>
    intro clock directory found
    refine ⟨.ok [], [], .stays, fun {pl plans} _ _ _ => ⟨.stays, rfl, rfl, ?_⟩⟩
    rw [Storage.after_stays]
    rfl
  | succ fuel ih =>
    intro clock directory found
    have hexecute : LocalTo id fun pl => execute pl service clock id :=
      localTo_transact (Plan.moved_advance service clock)
    obtain ⟨result, calls, fate, hfirst⟩ := hexecute directory found
    cases result with
    | error e =>
      refine ⟨.error e, calls, fate, fun {pl plans} hholds hdirectory hfound => ?_⟩
      obtain ⟨hsuits, hresult, hcalls, hplanner⟩ := hfirst hholds hdirectory hfound
      refine ⟨hsuits, ?_⟩
      rw [executeSteps]
      simp only [hresult]
      exact ⟨rfl, hcalls, hplanner⟩
    | ok r =>
      by_cases hmore : (r.success && r.next.isSome) = true
      · obtain ⟨results, more, later, hrest⟩ := ih (clock.later 2) directory (fate.leaves found)
        refine ⟨results.map (r :: ·), calls ++ more, fate.andThen later,
          fun {pl plans} hholds hdirectory hfound => ?_⟩
        subst hfound
        obtain ⟨hsuits, hdoes⟩ := hfirst hholds hdirectory rfl
        obtain ⟨hresult, hcalls, hplanner⟩ := hdoes
        obtain ⟨hholds', hdirectory'⟩ := Storage.holds_after hholds hsuits
        obtain ⟨hlater, hothers⟩ := @hrest (pl.withStorage (pl.storage.after id fate)) _
          hholds' (hdirectory'.trans hdirectory) (plans.get?_after_self id fate)
        refine ⟨hsuits.andThen hlater, ?_⟩
        rw [executeSteps]
        simp only [hresult, hcalls, hplanner, hmore, if_true]
        refine ⟨congrArg (Except.map (r :: ·)) hothers.result, congrArg (calls ++ ·) hothers.calls,
          hothers.planner.trans ?_⟩
        exact congrArg pl.withStorage (Storage.after_after hholds hsuits hlater)
      · refine ⟨.ok [r], calls, fate, fun {pl plans} hholds hdirectory hfound => ?_⟩
        obtain ⟨hsuits, hresult, hcalls, hplanner⟩ := hfirst hholds hdirectory hfound
        refine ⟨hsuits, ?_⟩
        rw [executeSteps]
        simp only [hresult, hmore]
        exact ⟨rfl, hcalls, hplanner⟩

theorem localTo_handle (o : Operation) : LocalTo id fun pl => pl.handle (o.on id) := by
  cases o with
  | execute service clock => exact (localTo_transact (Plan.moved_advance service clock)).map _
  | executeAll service clock => exact (localTo_executeSteps service _ clock).map _
  | rollBack service clock => exact (localTo_transact (Plan.moved_rollBack service clock)).map _
  | delete => exact localTo_delete.map _

end Local

/-! ## Two operations -/

/-- Each of the requests has the same result and makes the same calls before the other one and
after it, and both leave the same planner behind: every plan, and all that is on the disk. -/
structure Commute (pl : Planner) (r s : Request) : Prop where
  result : ((pl.handle s).planner.handle r).result = (pl.handle r).result
  calls : ((pl.handle s).planner.handle r).calls = (pl.handle r).calls
  result' : ((pl.handle r).planner.handle s).result = (pl.handle s).result
  calls' : ((pl.handle r).planner.handle s).calls = (pl.handle s).calls
  planner : ((pl.handle r).planner.handle s).planner = ((pl.handle s).planner.handle r).planner

/-- After an operation on `x`, one on `y` finds its plan as it was. -/
theorem does_after {pl : Planner} {plans : Keyed Plan} {x y : String} {r s : Request}
    {result result' : Except Failure Answer} {calls calls' : List Call} {f g : Fate}
    (hholds : pl.storage.Holds plans) (hne : x ≠ y) (hsuits : f.Suits x (plans.get? x))
    (hfirst : pl.Does (pl.handle r) x result calls f)
    (hsecond : DoesWith (fun pl => pl.handle s) pl.storage.directory? y (plans.get? y) result'
      calls' g) :
    (pl.handle r).planner.Does ((pl.handle r).planner.handle s) y result' calls' g := by
  obtain ⟨hholds', hdirectory⟩ := hfirst.holds hholds hsuits
  refine (hsecond hholds' hdirectory ?_).2
  rw [Keyed.get?_after, if_neg hne]

theorem commute_of_holds {pl : Planner} {plans : Keyed Plan} (h : pl.storage.Holds plans)
    {x y : String} (hne : x ≠ y) (o o' : Operation) : pl.Commute (o.on x) (o'.on y) := by
  obtain ⟨result, calls, f, hlocal⟩ :=
    localTo_handle o pl.storage.directory? (plans.get? x)
  obtain ⟨result', calls', g, hlocal'⟩ :=
    localTo_handle o' pl.storage.directory? (plans.get? y)
  obtain ⟨hf, hdoes⟩ := hlocal h rfl rfl
  obtain ⟨hg, hdoes'⟩ := hlocal' h rfl rfl
  have hlater := does_after h hne hf hdoes hlocal'
  have hearlier := does_after h hne.symm hg hdoes' hlocal
  constructor
  case result => rw [hearlier.result, hdoes.result]
  case calls => rw [hearlier.calls, hdoes.calls]
  case result' => rw [hlater.result, hdoes'.result]
  case calls' => rw [hlater.calls, hdoes'.calls]
  case planner =>
    rw [hlater.planner, hearlier.planner, hdoes.planner, hdoes'.planner]
    exact congrArg pl.withStorage (Storage.after_comm h hne hf hg)

/-- In every state that a session leads to, whatever it did: operations on two plans, which may
fail and need not even exist, come to the same in either order. -/
theorem operations_commute (pl : Planner) (requests : List Request) (hempty : pl.storage.IsEmpty)
    (hspared : pl.Undisturbed requests) {x y : String} (hne : x ≠ y) (o o' : Operation) :
    (pl.after requests).Commute (o.on x) (o'.on y) := by
  obtain ⟨_, plans, _, hholds, _⟩ :=
    session_follows requests (Storage.holds_empty hempty) hspared
  exact commute_of_holds hholds hne o o'

/-- The two plans of a session, in files: all steps of the one, which fail at the backup, and the
deletion of the other. -/
theorem operations_commute_sample : (Sample.planner (.folder "home/plans")).storage.IsEmpty ∧
    (Sample.planner (.folder "home/plans")).Undisturbed (Sample.session.take 2) ∧
      Sample.id ≠ Sample.other ∧
      ((Sample.planner (.folder "home/plans")).after (Sample.session.take 2)).Commute
        (.executeAll Sample.failing Sample.noon Sample.id) (.delete Sample.other) := by
  have hempty : (Sample.planner (.folder "home/plans")).storage.IsEmpty := ⟨_, rfl⟩
  have hspared : (Sample.planner (.folder "home/plans")).Undisturbed (Sample.session.take 2) :=
    undisturbed_of_forall (by simp [Sample.session, Sample.first])
  have hne : Sample.id ≠ Sample.other := by decide
  exact ⟨hempty, hspared, hne, operations_commute _ _ hempty hspared hne
    (.executeAll Sample.failing Sample.noon) .delete⟩

end Planner

end ChangeImpact
