import ChangeImpact.Log
import ChangeImpact.Plan.Basic
import ChangeImpact.Plan.Moment

/-!
# Plan.Transition

How a plan moves on.

* `MutationService`  — what carries out steps and rollback actions, or fails to.
* `Plan.advance`     — one step of a plan that is neither failed nor over.
* `Plan.rollBack`    — every rollback action in order, up to one that fails.
* `Transition`       — the result, the calls that were made, and the plan to be stored, if any.
-/

namespace ChangeImpact

/-- A call to the service; `returned` tells whether it did what it was asked to. -/
inductive Call where
  | step (plan step : String) (returned : Bool)
  | rollback (plan action : String) (returned : Bool)
  deriving DecidableEq, Repr

/-- What the service answers to a call: a failure, if it failed, and what it reports. -/
structure Reply where
  failure : Option Failure := none
  log : Log := []

/-- A rollback action is called with its place in the list. -/
structure MutationService where
  performStep : Plan → Label PlanStep → Reply
  performRollback : Plan → Nat → String → Reply

/-- The service that reports what would happen and does nothing. -/
def MutationService.reporting : MutationService where
  performStep p step :=
    let message :=
      match step with
      | .known s => s.message
      | .other t => t
    { log := [{ level := .info, source := "mutation"
                text := "[" ++ p.id ++ "] " ++ step.text ++ ": " ++ message }] }
  performRollback p _ action :=
    { log := [{ level := .info, source := "mutation"
                text := "[" ++ p.id ++ "] rollback: " ++ action }] }

structure Transition where
  result : StepResult
  stored : Option Plan := none
  calls : List Call := []
  /-- What is reported before the plan is stored, and after. -/
  log : Log := []
  logAfter : Log := []

namespace Plan

def report (level : LogLevel) (text : String) : LogEntry := { level, source := "planner", text }

def alreadyOver (p : Plan) : Transition :=
  { result := { success := false, message := "Plan is already " ++ p.status.text } }

def notices (p : Plan) : Log :=
  if p.step = .known .analysis && !p.risks.isEmpty then
    p.risks.map fun r => report .warning ("[" ++ p.id ++ "] " ++ r)
  else if p.step = .known .validation then
    p.validationChecks.map fun c => report .info ("[" ++ p.id ++ "] check: " ++ c)
  else []

/-- The plan after its step was carried out, and the result; a step that is none of the six cannot
be left. -/
def passed (p : Plan) (now : String) : Except Failure (Plan × StepResult) :=
  match p.step with
  | .other word => .error (.unlisted word)
  | .known s =>
    match s.next? with
    | none =>
      .ok ({ p with status := .known .completed, updatedAt := now },
        { success := true, message := "All steps completed" })
    | some next =>
      .ok ({ p with step := .known next, updatedAt := now },
        { success := true, message := s.message, next := some next })

/-- The plan whose step failed. -/
def broken (p : Plan) (now : String) (cause : Failure) : Plan :=
  { p with status := .known .failed, lastError := some cause.message, updatedAt := now }

def brokenResult (p : Plan) (cause : Failure) : StepResult :=
  { success := false, message := "Step '" ++ p.step.text ++ "' failed: " ++ cause.message }

def started (p : Plan) (now : String) : Plan :=
  { p with status := .known .inProgress, updatedAt := now }

def stepCall (p : Plan) (reply : Reply) : Call :=
  .step p.id p.step.text reply.failure.isNone

/-- What the service's reply to the current step makes of a plan that has been started. The clock
is read once when the step returns, and once more when the plan breaks. -/
def afterReply (p : Plan) (reply : Reply) (clock : Clock) :
    Except (Failure × String) (Plan × StepResult) :=
  match reply.failure with
  | some cause => .error (cause, clock.text 0)
  | none =>
    match p.passed (clock.text 0) with
    | .ok passed => .ok passed
    | .error cause => .error (cause, clock.text 1)

/-- The clock is read when the plan is started and when the step is over. -/
def advance (service : MutationService) (clock : Clock) (p : Plan) : Transition :=
  if p.isTerminal then p.alreadyOver
  else if p.status = .known .failed then
    { result :=
        { success := false
          message := "Plan failed at step '" ++ p.step.text
            ++ "'; roll back before continuing" } }
  else
    let p := p.started (clock.text 0)
    let opening := report .info
      ("Executing " ++ p.id ++ " (" ++ p.filePath ++ ") step " ++ p.step.text) :: p.notices
    let reply := service.performStep p p.step
    let calls := [p.stepCall reply]
    match p.afterReply reply (clock.later 1) with
    | .ok (next, result) =>
      { result, stored := some next, calls, log := opening ++ reply.log }
    | .error (cause, now) =>
      { result := p.brokenResult cause
        stored := some (p.broken now cause)
        calls
        log := opening ++ reply.log ++
          [report .error ("Plan " ++ p.id ++ " failed at step " ++ p.step.text ++ ": "
            ++ cause.message)] }

/-- Calls the actions from the `n`-th on, up to one that fails. -/
def undo (service : MutationService) (p : Plan) :
    Nat → List String → Option Failure × List Call × Log
  | _, [] => (none, [], [])
  | n, action :: rest =>
    let reply := service.performRollback p n action
    match reply.failure with
    | some cause => (some cause, [.rollback p.id action false], reply.log)
    | none =>
      let (failure, calls, log) := undo service p (n + 1) rest
      (failure, .rollback p.id action true :: calls, reply.log ++ log)

/-- The clock is read when the rollback is over. -/
def rollBack (service : MutationService) (clock : Clock) (p : Plan) : Transition :=
  if p.isTerminal then p.alreadyOver
  else
    let opening := report .info ("Rolling back " ++ p.id ++ " (" ++ p.filePath ++ ")")
    match undo service p 0 p.rollbackPlan with
    | (some cause, calls, log) =>
      { result := { success := false, message := "Rollback failed: " ++ cause.message }
        stored := some { p with lastError := some cause.message, updatedAt := clock.text 0 }
        calls
        log := opening :: log
        logAfter :=
          [report .error ("Rollback of " ++ p.id ++ " failed: " ++ cause.message)] }
    | (none, calls, log) =>
      { result := { success := true, message := "Rollback completed" }
        stored := some { p with status := .known .rolledBack, updatedAt := clock.text 0 }
        calls
        log := opening :: log }

end Plan

end ChangeImpact
