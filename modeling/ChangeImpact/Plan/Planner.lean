import ChangeImpact.Plan.Moment
import ChangeImpact.Plan.Store
import ChangeImpact.Plan.Texts
import ChangeImpact.Plan.Transition
import ChangeImpact.Project

/-!
# Plan.Planner

Plans created from an analysis, and driven through a store.

* `Planner`             — the storage, what is analyzed, and how many ids have been issued.
* `Outcome`             — result, planner afterwards, calls made and lines reported.
* `Planner.create`      — analyzes the project and keeps a new plan.
* `Planner.execute`, `Planner.executeAll`, `Planner.rollBack`, `Planner.delete`.
* `Planner.summarize`   — how many plans there are in each status.
-/

namespace ChangeImpact

structure Planner where
  storage : Storage
  settings : ScanSettings := {}
  /-- The directory to analyze in place of the configured one. -/
  root : Option String := none
  issued : Nat := 0

/-- What the surroundings contribute: the time and the tokens of new ids. -/
structure Circumstances where
  now : Moment
  millis : Int
  token : Nat → String

structure Outcome (α : Type) where
  result : Except Failure α
  planner : Planner
  calls : List Call := []
  log : Log := []

namespace Planner

def withStorage (pl : Planner) (s : Storage) : Planner := { pl with storage := s }

/-- The plan for a change of a file, from its record and the impacts of the change. -/
def draft (id now path description : String) (type : ChangeType) (record : FileRecord)
    (impacts : List Impact) : Plan :=
  { id
    filePath := path
    changeType := .known type
    description
    createdAt := now
    updatedAt := now
    analysis := some record
    impacts
    procedure := Plan.procedureTexts (.known type) impacts
    risks := Plan.riskTexts record impacts
    recommendations := Plan.recommendationTexts (.known type) record
    rollbackPlan := Plan.rollbackTexts (.known type) impacts
    validationChecks := Plan.checkTexts path record }

/-- The warning for a plan that somebody should look at. -/
def riskNotice (p : Plan) (record : FileRecord) : Log :=
  if p.needsConfirmation then
    [Plan.report .warning (p.filePath ++ " is " ++ record.risk.text ++ " risk; "
      ++ Text.count p.affected.length ++ " file(s) affected, "
      ++ Text.count (Plan.breakingCount p.impacts) ++ " breaking")]
  else []

def create (pl : Planner) (c : Circumstances) (path type description : String) : Outcome Plan :=
  match (Vocabulary.ofWord? type : Option ChangeType) with
  | none => { result := .error (.unsupportedChangeType type), planner := pl }
  | some type =>
    let opening := Plan.report .info
      ("Creating change plan (" ++ Vocabulary.word type ++ "): " ++ path)
    match Project.analyze pl.settings pl.storage.disk pl.root with
    | (.error e, log) => { result := .error e, planner := pl, log := opening :: log }
    | (.ok files, log) =>
      match files.get? path with
      | none => { result := .error (.targetNotFound path), planner := pl, log := opening :: log }
      | some record =>
        let impacts := Impact.predict files path type.kind
        let id := PlanId.generate c.millis (c.token (pl.issued + 1))
        let plan := draft id c.now.text path description type record impacts
        let pl := { pl with issued := pl.issued + 1 }
        match pl.storage.save plan with
        | .error e => { result := .error e, planner := pl, log := opening :: log }
        | .ok s =>
          { result := .ok plan
            planner := pl.withStorage s
            log := opening :: log ++ riskNotice plan record
              ++ [Plan.report .info ("Change plan created: " ++ plan.id)] }

/-- Stores what a transition leaves behind. -/
def settle (pl : Planner) (log : Log) (t : Transition) : Outcome StepResult :=
  match t.stored with
  | none =>
    { result := .ok t.result, planner := pl, calls := t.calls, log := log ++ t.log ++ t.logAfter }
  | some p =>
    match pl.storage.save p with
    | .error e => { result := .error e, planner := pl, calls := t.calls, log := log ++ t.log }
    | .ok s =>
      { result := .ok t.result, planner := pl.withStorage s, calls := t.calls
        log := log ++ t.log ++ t.logAfter }

/-- Applies a transition to the plan under an id. -/
def transact (pl : Planner) (id : String) (move : Plan → Transition) : Outcome StepResult :=
  match pl.storage.get id with
  | (.error e, log) => { result := .error e, planner := pl, log }
  | (.ok none, log) => { result := .error (.planNotFound id), planner := pl, log }
  | (.ok (some p), log) => settle pl log (move p)

def execute (pl : Planner) (service : MutationService) (clock : Clock) (id : String) :
    Outcome StepResult :=
  transact pl id (Plan.advance service clock)

def rollBack (pl : Planner) (service : MutationService) (clock : Clock) (id : String) :
    Outcome StepResult :=
  transact pl id (Plan.rollBack service clock)

/-- Executes up to `fuel` steps, and no more after one that fails or is the last. A step after
which there is another one has read the clock twice. -/
def executeSteps (service : MutationService) (id : String) :
    Nat → Clock → Planner → Outcome (List StepResult)
  | 0, _, pl => { result := .ok [], planner := pl }
  | fuel + 1, clock, pl =>
    let first := execute pl service clock id
    match first.result with
    | .error e =>
      { result := .error e, planner := first.planner, calls := first.calls, log := first.log }
    | .ok r =>
      if r.success && r.next.isSome then
        let others := executeSteps service id fuel (clock.later 2) first.planner
        { result := others.result.map (r :: ·)
          planner := others.planner
          calls := first.calls ++ others.calls
          log := first.log ++ others.log }
      else
        { result := .ok [r], planner := first.planner, calls := first.calls, log := first.log }

/-- A plan has six steps. -/
def executeAll (pl : Planner) (service : MutationService) (clock : Clock) (id : String) :
    Outcome (List StepResult) :=
  executeSteps service id (Vocabulary.all (α := PlanStep)).length clock pl

/-- Forgets a plan. -/
def delete (pl : Planner) (id : String) : Outcome Unit :=
  match pl.storage.get id with
  | (.error e, log) => { result := .error e, planner := pl, log }
  | (.ok none, log) => { result := .error (.planNotFound id), planner := pl, log }
  | (.ok (some _), log) =>
    match pl.storage.delete id with
    | .error e => { result := .error e, planner := pl, log }
    | .ok (_, s) =>
      { result := .ok (), planner := pl.withStorage s
        log := log ++ [Plan.report .info ("Deleted change plan " ++ id)] }

/-- The number of plans, and of those in each status under its word. -/
def tally (plans : List Plan) : List (String × Nat) :=
  ("total", plans.length) ::
    (Vocabulary.all (α := PlanStatus)).map fun st =>
      (Vocabulary.word st, plans.countP fun p => p.status = .known st)

def summarize (pl : Planner) : Except Failure (List (String × Nat)) × Log :=
  let (result, log) := pl.storage.list
  (result.map tally, log)

end Planner

end ChangeImpact
