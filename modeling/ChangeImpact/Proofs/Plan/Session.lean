import ChangeImpact.Plan.Planner
import ChangeImpact.Proofs.Plan.StoreLaws

/-!
# Proofs.Plan.Session

Sessions: requests to a planner, one whole call after another. What several callers ask for is
one session, in the order in which their calls get hold of the plans.

* `Request`, `Answer`    — everything that a planner is asked, and what it says.
* `Planner.handle`       — one request.
* `Planner.outcomes`, `Planner.after`, `Planner.calls`, `Planner.created` — a whole session.
* `Planner.Undisturbed`  — nothing but the planner touches the plan files.
* `Sample`               — a small session.
-/

namespace ChangeImpact

/-- Each call has a service and a clock of its own, so that the service may fail at any time. -/
inductive Request where
  | create (c : Circumstances) (path type description : String)
  | execute (service : MutationService) (clock : Clock) (id : String)
  | executeAll (service : MutationService) (clock : Clock) (id : String)
  | rollBack (service : MutationService) (clock : Clock) (id : String)
  | delete (id : String)
  | get (id : String)
  | list
  | summarize
  /-- The program starts afresh on the same directory. -/
  | reopen
  /-- Something else changes files, or the settings. -/
  | surroundings (change : Disk → Disk) (settings : ScanSettings) (root : Option String)

inductive Answer where
  | plan (p : Plan)
  | step (r : StepResult)
  | steps (rs : List StepResult)
  | found (p : Option Plan)
  | plans (ps : List Plan)
  | counts (cs : List (String × Nat))
  | done
  deriving DecidableEq, Repr

namespace Outcome

def map {α β : Type} (f : α → β) (o : Outcome α) : Outcome β :=
  { result := o.result.map f, planner := o.planner, calls := o.calls, log := o.log }

@[simp] theorem map_result {α β : Type} (f : α → β) (o : Outcome α) :
    (o.map f).result = o.result.map f := rfl

@[simp] theorem map_planner {α β : Type} (f : α → β) (o : Outcome α) :
    (o.map f).planner = o.planner := rfl

@[simp] theorem map_calls {α β : Type} (f : α → β) (o : Outcome α) :
    (o.map f).calls = o.calls := rfl

/-- The plan that a request has created. -/
def created? (o : Outcome Answer) : Option Plan :=
  match o.result with
  | .ok (.plan p) => some p
  | _ => none

end Outcome

namespace Planner

/-- An answer that leaves the planner as it is. -/
def answer (pl : Planner) (reply : Except Failure Answer × Log) : Outcome Answer :=
  { result := reply.1, planner := pl, log := reply.2 }

/-- A store in memory lasts as long as the program does. -/
def reopen (pl : Planner) : Outcome Answer :=
  match pl.storage.store with
  | .memory _ => { result := .ok .done, planner := pl }
  | .folder directory =>
    match Storage.openFolder pl.storage.disk directory with
    | .ok s => { result := .ok .done, planner := pl.withStorage s }
    | .error e => { result := .error e, planner := pl }

/-- A new program finds the same plan files. -/
theorem reopen_eq {pl : Planner} {plans : Keyed Plan} (h : pl.storage.Holds plans) :
    pl.reopen = { result := .ok .done, planner := pl } := by
  rw [reopen]
  cases hstore : pl.storage.store with
  | memory found => rfl
  | folder directory =>
    have hopen := h.openFolder (by rw [Storage.directory?, hstore])
    simp only [hopen]
    rfl

def surround (pl : Planner) (change : Disk → Disk) (settings : ScanSettings)
    (root : Option String) : Planner :=
  { pl with storage := { pl.storage with disk := change pl.storage.disk }, settings, root }

def handle (pl : Planner) : Request → Outcome Answer
  | .create c path type description => (pl.create c path type description).map .plan
  | .execute service clock id => (pl.execute service clock id).map .step
  | .executeAll service clock id => (pl.executeAll service clock id).map .steps
  | .rollBack service clock id => (pl.rollBack service clock id).map .step
  | .delete id => (pl.delete id).map fun _ => .done
  | .get id => pl.answer ((pl.storage.get id).1.map .found, (pl.storage.get id).2)
  | .list => pl.answer (pl.storage.list.1.map .plans, pl.storage.list.2)
  | .summarize => pl.answer (pl.summarize.1.map .counts, pl.summarize.2)
  | .reopen => pl.reopen
  | .surroundings change settings root =>
    { result := .ok .done, planner := pl.surround change settings root }

/-- The planner after a session. -/
def after (pl : Planner) : List Request → Planner
  | [] => pl
  | r :: rest => after (pl.handle r).planner rest

def outcomes (pl : Planner) : List Request → List (Outcome Answer)
  | [] => []
  | r :: rest => pl.handle r :: outcomes (pl.handle r).planner rest

/-- All calls to the service, in order. -/
def calls (pl : Planner) (requests : List Request) : List Call :=
  (pl.outcomes requests).flatMap (·.calls)

/-- All plans that have been created, as they were then. -/
def created (pl : Planner) (requests : List Request) : List Plan :=
  (pl.outcomes requests).filterMap Outcome.created?

theorem calls_cons (pl : Planner) (r : Request) (rest : List Request) :
    pl.calls (r :: rest) = (pl.handle r).calls ++ (pl.handle r).planner.calls rest := rfl

theorem created_cons (pl : Planner) (r : Request) (rest : List Request) :
    pl.created (r :: rest) =
      (pl.handle r).created?.toList ++ (pl.handle r).planner.created rest := by
  rw [created, outcomes]
  cases hc : (pl.handle r).created? <;> simp [hc, created]

theorem outcomes_append (requests more : List Request) :
    ∀ pl : Planner, pl.outcomes (requests ++ more) =
      pl.outcomes requests ++ (pl.after requests).outcomes more := by
  induction requests with
  | nil => exact fun _ => rfl
  | cons r rest ih => exact fun pl => congrArg (pl.handle r :: ·) (ih (pl.handle r).planner)

theorem after_append (requests more : List Request) :
    ∀ pl : Planner, pl.after (requests ++ more) = (pl.after requests).after more := by
  induction requests with
  | nil => exact fun _ => rfl
  | cons r rest ih => exact fun pl => ih (pl.handle r).planner

theorem created_append (pl : Planner) (requests more : List Request) :
    pl.created (requests ++ more) = pl.created requests ++ (pl.after requests).created more := by
  rw [created, outcomes_append, List.filterMap_append]
  rfl

end Planner

/-- In the course of a session, other changes spare the plan files. -/
def Planner.Undisturbed (pl : Planner) : List Request → Prop
  | [] => True
  | r :: rest =>
    (∀ change settings root, r = .surroundings change settings root →
      pl.storage.SparedBy change) ∧ Undisturbed (pl.handle r).planner rest

theorem Planner.undisturbed_append {requests more : List Request} :
    ∀ {pl : Planner}, pl.Undisturbed (requests ++ more) ↔
      pl.Undisturbed requests ∧ (pl.after requests).Undisturbed more := by
  induction requests with
  | nil => simp [Undisturbed, after]
  | cons r rest ih =>
    intro pl
    rw [List.cons_append, Undisturbed, Undisturbed, ih, after, and_assoc]

theorem Planner.undisturbed_of_forall {requests : List Request}
    (h : ∀ change settings root, .surroundings change settings root ∉ requests) :
    ∀ {pl : Planner}, pl.Undisturbed requests := by
  induction requests with
  | nil => exact trivial
  | cons r rest ih =>
    intro pl
    refine ⟨?_, ih fun change settings root hr => h change settings root (.tail r hr)⟩
    rintro change settings root rfl
    exact absurd List.mem_cons_self (h change settings root)

/-! ## A small session -/

namespace Sample

/-- A project of one file, and a directory for plans. -/
def planner (store : PlanStore) : Planner where
  storage :=
    { disk := { top := [("home", .dir [("plans", .dir [])]),
                        ("src", .dir [("a.ts", .file .empty)])] }
      store }

def noon : Moment := ⟨2026, 1, 1, 12, 0, 0, 0⟩

def circumstances : Circumstances where
  now := noon
  millis := 1767225600000
  token n := if n = 1 then "000000001" else "000000002"

/-- The ids of the two plans. -/
def id : String := "plan_1767225600000_000000001"

def other : String := "plan_1767225600000_000000002"

/-- The service that fails at the backup and at the second rollback action. -/
def failing : MutationService where
  performStep _ step := { failure := if step = .known .backup then some .badJson else none }
  performRollback _ place _ := { failure := if place = 1 then some .badJson else none }

def first : Request := .create circumstances "src/a.ts" "modify" ""

def session : List Request :=
  [first, .create circumstances "src/a.ts" "delete" "", .executeAll failing noon id,
    .execute .reporting noon other, .rollBack failing noon id, .rollBack .reporting noon id,
    .execute .reporting noon id, .reopen, .delete id, .get id, .list]

theorem isHex_token (n : Nat) : PlanId.IsHex (circumstances.token n) := by
  have hhex : PlanId.IsHex "000000001" ∧ PlanId.IsHex "000000002" := by
    simp [PlanId.IsHex]
  rw [circumstances]
  dsimp only
  split
  · exact hhex.1
  · exact hhex.2

theorem undisturbed {pl : Planner} : pl.Undisturbed session :=
  Planner.undisturbed_of_forall (by simp [session, first])

theorem created_ids : ((planner (.memory .empty)).created session).map (·.id) =
    [id, other] := by
  decide +kernel

end Sample

end ChangeImpact
