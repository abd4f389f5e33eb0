import ChangeImpact.CommandLine.Action
import ChangeImpact.Plan.Planner

/-!
# CommandLine.Plans

The commands on plans, which are kept as files. Trouble with the project or a plan is told in a
line and ends a command with one.

* `createPlan`, `showPlan`, `listPlans`, `deletePlan`, `rollbackPlan`.
* `executePlan` — asks before it touches a plan that needs confirmation.
-/

namespace ChangeImpact.CommandLine

open ChangeImpact.CommandLine.Action

def openPlanner (root : Option String) : Action Planner := do
  let settings ← loadSettings
  let c ← get
  let storage ← demand (Storage.openFolder c.disk c.locations.plans)
  setDisk storage.disk
  return { storage, settings, root, issued := c.issued }

/-- Takes over what a call to the planner left behind. -/
def settled {α : Type} (o : Outcome α) : Action (Except Failure α) := do
  report o.log
  modify fun c => { c with disk := o.planner.storage.disk, issued := o.planner.issued }
  return o.result

/-- Trouble that the project or a plan is in, which is told in a line. -/
def isTold : Failure → Bool
  | .targetNotFound _ => true
  | .planNotFound _ => true
  | .stepFailed .. => true
  | .unreadable .. => true
  | _ => false

def orTell {α : Type} : Except Failure α → Action α
  | .ok a => pure a
  | .error e =>
    if isTold e then do
      print (styled "red" ("❌ Error: " ++ e.message))
      exit 1
    else throw (.failed e)

def statusStyle : Label PlanStatus → Except Failure String
  | .known .pending => .ok "white"
  | .known .inProgress => .ok "cyan"
  | .known .completed => .ok "green"
  | .known .failed => .ok "red"
  | .known .rolledBack => .ok "yellow"
  | .other word => .error (.missingKey word)

/-- The place of a step, counted from one. -/
def stepPlace : Label PlanStep → Except Failure Nat
  | .known s => .ok (s.position + 1)
  | .other word => .error (.unlisted word)

def planBody (p : Plan) (style : String) (place : Nat) : String :=
  styled "bold" p.changeType.text ++ " " ++ p.filePath ++ "\n" ++ p.description ++ "\n\nStatus: "
    ++ styled style p.status.text ++ "  |  Step: " ++ p.step.text ++ " (" ++ Text.count place ++ "/"
    ++ Text.count (Vocabulary.all (α := PlanStep)).length ++ ")  |  Risk: "
    ++ (p.analysis.map fun r => r.risk.text).getD "unknown"

/-- A heading and what stands under it, nothing when there is nothing to be put there. -/
def showSection (title style : String) (items : List String) : Action Unit := do
  unless items.isEmpty do
    print ("\n" ++ styled "bold" title)
    showEach items fun item => "  " ++ styled style item

def displayPlan (p : Plan) : Action Unit := do
  let style ← demand (statusStyle p.status)
  let place ← demand (stepPlace p.step)
  emit (.panel ("📋 " ++ p.id) (planBody p style place) style)
  match p.lastError with
  | some message => unless message.isEmpty do print (styled "red" ("Last error: " ++ message))
  | none => pure ()
  showSection "Risks" "red" p.risks
  showSection "Affected files" "cyan" p.affected
  showSection "Procedure" "white" p.procedure
  showSection "Rollback plan" "yellow" p.rollbackPlan
  showSection "Validation checks" "green" p.validationChecks
  showSection "Recommendations" "dim" p.recommendations

def createPlan (c : Circumstances) (path changeType description : String) (root : Option String)
    (asJson : Bool) : Action Unit := do
  unless (Vocabulary.words ChangeType).contains changeType do
    reject (oneOf "Change type" (Vocabulary.words ChangeType))
  let planner ← openPlanner (root.map Path.tidy)
  let result ← settled (planner.create c (Path.tidy path) changeType description)
  let p ← orTell result
  if asJson then echo (Json.pretty p.toValue)
  else
    displayPlan p
    if p.needsConfirmation then
      print "\n[bold red]⚠ Review the risks above before executing this plan.[/bold red]"
    print ("\nExecute with: sc plan execute " ++ p.id)

/-- The plan under an id, which has to be there. -/
def demandPlan (planner : Planner) (id : String) : Action Plan := do
  match ← attempt (planner.storage.get id) with
  | some p => pure p
  | none =>
    print (styled "red" ("❌ " ++ (Failure.planNotFound id).message))
    exit 1

def showPlan (id : String) (asJson : Bool) : Action Unit := do
  let planner ← openPlanner none
  let p ← demandPlan planner id
  if asJson then echo (Json.pretty p.toValue) else displayPlan p

def planCells (p : Plan) : Except Failure (List String) :=
  (statusStyle p.status).map fun style =>
    [p.id, p.changeType.text, p.filePath, styled style p.status.text, p.step.text,
      .ofList (p.updatedAt.toList.take 19)]

def countsValue (counts : List (String × Nat)) : Value :=
  .object (counts.map fun (word, n) => (word, .int n))

def countsText (counts : List (String × Nat)) : String :=
  String.intercalate " | " (counts.map fun (word, n) => word ++ ": " ++ Text.count n)

def listPlans (asJson : Bool) : Action Unit := do
  let planner ← openPlanner none
  let plans ← attempt planner.storage.list
  let counts ← attempt planner.summarize
  if asJson then
    echo (Json.pretty (.object
      [("summary", countsValue counts), ("plans", .list (plans.map Plan.toValue))]))
  else if plans.isEmpty then print "No change plans yet."
  else
    let rows ← demand (collect planCells plans)
    emit (.table "Change Plans" ["ID", "Type", "File", "Status", "Step", "Updated"] rows)
    print (countsText counts)

/-- A question needs an answer. -/
def askToProceed (p : Plan) (answer : Option Bool) : Action Unit := do
  showEach p.risks fun risk => styled "red" ("⚠ " ++ risk)
  print (styled "yellow" (Text.count p.affected.length ++ " file(s) affected."))
  emit (.confirm "❓ Proceed with this plan?" false)
  match answer with
  | some true => pure ()
  | some false =>
    print "❌ Execution cancelled"
    exit 0
  | none => throw .unanswered

def resultText (r : StepResult) : String := styled (if r.success then "green" else "red") r.text

/-- The next step of a plan, or all that are left. -/
def performed (planner : Planner) (now : Moment) (id : String) (all : Bool) :
    Action (List StepResult) := do
  if all then
    orTell (← settled (planner.executeAll .reporting now id))
  else
    let r ← orTell (← settled (planner.execute .reporting now id))
    pure [r]

def showProgress (planner : Planner) (id : String) : Action Unit := do
  let storage := { planner.storage with disk := ← disk }
  match ← attempt (storage.get id) with
  | none => pure ()
  | some p =>
    print ("Status: " ++ p.status.text ++ " | Step: " ++ p.step.text)
    if p.status = .known .failed then print ("   Roll back with: sc plan rollback " ++ id)

def executePlan (c : Circumstances) (answer : Option Bool) (id : String) (all yes : Bool) :
    Action Unit := do
  let planner ← openPlanner none
  let p ← demandPlan planner id
  if p.needsConfirmation && !p.isTerminal && !yes then askToProceed p answer
  let results ← performed planner c.now id all
  showEach results resultText
  showProgress planner id
  unless (results.getLast?.map (·.success)).getD true do exit 1

def deletePlan (id : String) : Action Unit := do
  let planner ← openPlanner none
  orTell (← settled (planner.delete id))
  echo ("Deleted change plan '" ++ id ++ "'.")

def rollbackPlan (c : Circumstances) (id : String) : Action Unit := do
  let planner ← openPlanner none
  let r ← orTell (← settled (planner.rollBack .reporting c.now id))
  print (resultText r)
  unless r.success do exit 1

end ChangeImpact.CommandLine
