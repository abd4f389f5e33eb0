import ChangeImpact.Proofs.Plan.Session

/-!
# Proofs.Plan.Script

The operations of a planner as scripts, which reach the disk by what they ask of it and in no
other way.

* `Ask`               — what can be asked of a disk, with the answer and the disk after it.
* `Script`            — a program that asks and goes on with the answer.
* `Script.Always`     — all questions of a script are of a kind, whatever is answered.
* `Script.run`, `Script.asked` — the result of a script on a disk, and the questions it comes to.
* `Desk`              — a planner without the disk.
* `Desk.handle`       — each operation as a script.
* `Desk.run_handle`   — the operations do what their scripts do.
-/

namespace ChangeImpact

/-- What is asked of a disk. An analysis reads the sources of the project and is one question. -/
inductive Ask where
  | present (path : String)
  | read (path : String)
  | write (path text : String)
  | unlink (path : String)
  | names (directory : String)
  | analysis (settings : ScanSettings) (root : Option String)

namespace Ask

@[reducible] def Answer : Ask → Type
  | present _ => Except Failure Bool
  | read _ => Except Failure String
  | write _ _ => Except Failure Unit
  | unlink _ => Except Failure Unit
  | names _ => Except Failure (List String)
  | analysis _ _ => Except Failure FileMap × Log

/-- The path of the file that a question is about. -/
def path? : Ask → Option String
  | present path => some path
  | read path => some path
  | write path _ => some path
  | unlink path => some path
  | names _ => none
  | analysis _ _ => none

/-- The disk after a change that may fail. -/
def changed (d : Disk) : Except Failure Disk → Except Failure Unit × Disk
  | .ok d => (.ok (), d)
  | .error e => (.error e, d)

def perform (d : Disk) : (a : Ask) → a.Answer × Disk
  | present path => (d.isPresent path, d)
  | read path => (d.readText path path, d)
  | write path text => changed d (d.writeText path text)
  | unlink path => changed d (d.unlink path)
  | names directory => ((Storage.entriesAt d directory).map fun es => es.map (·.1), d)
  | analysis settings root => (Project.analyze settings d root, d)

end Ask

inductive Script (α : Type) where
  | done (x : α)
  | ask (a : Ask) (next : a.Answer → Script α)

namespace Script

variable {α β : Type}

def bind : Script α → (α → Script β) → Script β
  | done x, f => f x
  | ask a next, f => ask a fun answer => bind (next answer) f

def map (f : α → β) (x : Script α) : Script β := x.bind fun y => done (f y)

/-- All questions are of a kind and so is the result, whatever the answers are. -/
def Always (P : Ask → Prop) (Q : α → Prop) : Script α → Prop
  | done x => Q x
  | ask a next => P a ∧ ∀ answer, Always P Q (next answer)

def run (d : Disk) : Script α → α × Disk
  | done x => (x, d)
  | ask a next => run (a.perform d).2 (next (a.perform d).1)

/-- The questions in order, each with the disk that it is asked of. -/
def asked (d : Disk) : Script α → List (Disk × Ask)
  | done _ => []
  | ask a next => (d, a) :: asked (a.perform d).2 (next (a.perform d).1)

variable {P : Ask → Prop} {Q : α → Prop} {R : β → Prop} {x : Script α} {f : α → Script β}
  {d : Disk}

@[simp] theorem run_done (y : α) : run d (done y) = (y, d) := rfl

@[simp] theorem run_ask (a : Ask) (next : a.Answer → Script α) :
    run d (ask a next) = run (a.perform d).2 (next (a.perform d).1) := rfl

@[simp] theorem run_bind : run d (x.bind f) = run (run d x).2 (f (run d x).1) := by
  induction x generalizing d with
  | done y => rfl
  | ask a next ih => exact ih (a.perform d).1

@[simp] theorem run_map (g : α → β) : run d (x.map g) = (g (run d x).1, (run d x).2) := by
  rw [map, run_bind, run_done]

theorem Always.bind (hx : Always P Q x) (hf : ∀ y, Q y → Always P R (f y)) :
    Always P R (x.bind f) := by
  induction x with
  | done y => exact hf y hx
  | ask a next ih => exact ⟨hx.1, fun answer => ih answer (hx.2 answer)⟩

theorem Always.map {g : α → β} (hx : Always P Q x) (hg : ∀ y, Q y → R (g y)) :
    Always P R (x.map g) :=
  hx.bind hg

/-- What each question of the kind leaves true of the disk is true at every question and in the
end. -/
theorem Always.run_asked {I : Disk → Prop} (hstep : ∀ d a, I d → P a → I (a.perform d).2) :
    ∀ {x : Script α} {d : Disk}, Always P Q x → I d →
      Q (run d x).1 ∧ I (run d x).2 ∧ ∀ call ∈ asked d x, I call.1 ∧ P call.2 := by
  intro x
  induction x with
  | done y => exact fun hx hd => ⟨hx, hd, fun _ hcall => (List.not_mem_nil hcall).elim⟩
  | ask a next ih =>
    intro d hx hd
    obtain ⟨hresult, hend, hasked⟩ := ih _ (hx.2 _) (hstep d a hd hx.1)
    exact ⟨hresult, hend, List.forall_mem_cons.mpr ⟨⟨hd, hx.1⟩, hasked⟩⟩

/-! ## The store of plans -/

def readPlan (path : String) : Script (Except Failure (Option Plan) × Log) :=
  ask (.present path) fun
    | .error e => done (.error e, [])
    | .ok false => done (.ok none, [])
    | .ok true => ask (.read path) fun
      | .error e => done (.error e, [])
      | .ok text =>
        match Storage.planOfText text with
        | .ok p => done (.ok (some p), [])
        | .error e => done (.ok none, [Storage.corrupt path e])

def get (id : String) : PlanStore → Script (Except Failure (Option Plan) × Log)
  | .memory plans => done (.ok (plans.get? id), [])
  | .folder directory =>
    if PlanId.isValid id then readPlan (Storage.planFile directory id) else done (.ok none, [])

def save (p : Plan) : PlanStore → Script (Except Failure PlanStore)
  | .memory plans => done (.ok (.memory (plans.insert p.id p)))
  | .folder directory =>
    if PlanId.isValid p.id then
      ask (.write (Storage.planFile directory p.id) (Storage.textOfPlan p)) fun answer =>
        done (answer.map fun _ => .folder directory)
    else done (.error (.invalidPlanId p.id))

def delete (id : String) : PlanStore → Script (Except Failure (Bool × PlanStore))
  | .memory plans => done (.ok (plans.contains id, .memory (plans.erase id)))
  | .folder directory =>
    if !PlanId.isValid id then done (.ok (false, .folder directory))
    else ask (.present (Storage.planFile directory id)) fun
      | .error e => done (.error e)
      | .ok false => done (.ok (false, .folder directory))
      | .ok true => ask (.unlink (Storage.planFile directory id)) fun answer =>
        done (answer.map fun _ => (true, .folder directory))

def ids : PlanStore → Script (Except Failure (List String))
  | .memory plans => done (.ok plans.keys)
  | .folder directory => ask (.names directory) fun answer =>
    done (answer.map fun names =>
      ((names.filter (Storage.endsWith ".json")).map Storage.stem).mergeSort
        fun a b => decide (a ≤ b))

def getAll (store : PlanStore) : List String → Script (Except Failure (List Plan) × Log)
  | [] => done (.ok [], [])
  | id :: rest => (get id store).bind fun
    | (.error e, log) => done (.error e, log)
    | (.ok found, log) => (getAll store rest).map fun others =>
      (others.1.map (found.toList ++ ·), log ++ others.2)

def list (store : PlanStore) : Script (Except Failure (List Plan) × Log) :=
  (ids store).bind fun
    | .error e => done (.error e, [])
    | .ok ids => (getAll store ids).map fun found =>
      (found.1.map fun plans => plans.mergeSort fun p q => decide (p.createdAt ≤ q.createdAt),
        found.2)

section Run

variable (s : Storage)

theorem run_readPlan (path : String) :
    run d (readPlan path) = (Storage.readPlan d path, d) := by
  rw [readPlan, run_ask, Storage.readPlan]
  dsimp only [Ask.perform]
  cases d.isPresent path with
  | error e => rfl
  | ok found =>
    cases found with
    | false => rfl
    | true =>
      rw [run_ask]
      dsimp only [Ask.perform]
      cases d.readText path path with
      | error e => rfl
      | ok text =>
        dsimp only
        cases Storage.planOfText text <;> rfl

theorem run_get (id : String) : run s.disk (get id s.store) = (s.get id, s.disk) := by
  rw [Storage.get]
  cases s.store with
  | memory plans => rfl
  | folder directory =>
    dsimp only [get]
    split
    · rw [run_readPlan]
    · rfl

theorem run_save (p : Plan) : run s.disk (save p s.store) =
    match s.save p with
    | .ok s' => (.ok s'.store, s'.disk)
    | .error e => (.error e, s.disk) := by
  rw [Storage.save]
  cases hstore : s.store with
  | memory plans => rfl
  | folder directory =>
    dsimp only [save]
    split
    · rw [run_ask]
      dsimp only [Ask.perform]
      cases s.disk.writeText (Storage.planFile directory p.id) (Storage.textOfPlan p) with
      | error e => rfl
      | ok d =>
        rw [← hstore]
        rfl
    · rfl

theorem run_delete (id : String) : run s.disk (delete id s.store) =
    match s.delete id with
    | .ok (found, s') => (.ok (found, s'.store), s'.disk)
    | .error e => (.error e, s.disk) := by
  rw [Storage.delete]
  cases hstore : s.store with
  | memory plans => rfl
  | folder directory =>
    dsimp only [delete]
    split
    · rw [← hstore]
      rfl
    · rw [run_ask]
      dsimp only [Ask.perform]
      cases s.disk.isPresent (Storage.planFile directory id) with
      | error e => rfl
      | ok found =>
        cases found with
        | false =>
          rw [← hstore]
          rfl
        | true =>
          rw [run_ask]
          dsimp only [Ask.perform]
          cases s.disk.unlink (Storage.planFile directory id) with
          | error e => rfl
          | ok d =>
            rw [← hstore]
            rfl

theorem run_ids : run s.disk (ids s.store) = (s.ids, s.disk) := by
  rw [Storage.ids]
  cases s.store with
  | memory plans => rfl
  | folder directory =>
    rw [ids, run_ask]
    dsimp only [Ask.perform]
    cases Storage.entriesAt s.disk directory <;> rfl

theorem run_getAll (found : List String) :
    run s.disk (getAll s.store found) = (s.getAll found, s.disk) := by
  induction found with
  | nil => rfl
  | cons id rest ih =>
    rw [getAll, run_bind, run_get, Storage.getAll]
    rcases s.get id with ⟨_ | found, log⟩
    · rfl
    · dsimp only
      rw [run_map, ih]

theorem run_list : run s.disk (list s.store) = (s.list, s.disk) := by
  rw [list, run_bind, run_ids, Storage.list]
  cases s.ids with
  | error e => rfl
  | ok ids =>
    dsimp only
    rw [run_map, run_getAll]

end Run

end Script

/-! ## The planner -/

/-- A planner without the disk. -/
structure Desk where
  store : PlanStore
  settings : ScanSettings
  root : Option String
  issued : Nat

structure Response (α : Type) where
  result : Except Failure α
  desk : Desk
  calls : List Call := []
  log : Log := []

def Planner.desk (pl : Planner) : Desk := ⟨pl.storage.store, pl.settings, pl.root, pl.issued⟩

namespace Desk

def on (k : Desk) (d : Disk) : Planner := ⟨⟨d, k.store⟩, k.settings, k.root, k.issued⟩

end Desk

namespace Response

variable {α β : Type}

def on (r : Response α) (d : Disk) : Outcome α := ⟨r.result, r.desk.on d, r.calls, r.log⟩

def map (f : α → β) (r : Response α) : Response β := ⟨r.result.map f, r.desk, r.calls, r.log⟩

end Response

namespace Desk

variable (k : Desk)

def create (c : Circumstances) (path type description : String) : Script (Response Plan) :=
  match (Vocabulary.ofWord? type : Option ChangeType) with
  | none => .done { result := .error (.unsupportedChangeType type), desk := k }
  | some type =>
    let opening := Plan.report .info
      ("Creating change plan (" ++ Vocabulary.word type ++ "): " ++ path)
    .ask (.analysis k.settings k.root) fun
      | (.error e, log) => .done { result := .error e, desk := k, log := opening :: log }
      | (.ok files, log) =>
        match files.get? path with
        | none =>
          .done { result := .error (.targetNotFound path), desk := k, log := opening :: log }
        | some record =>
          let impacts := Impact.predict files path type.kind
          let id := PlanId.generate c.millis (c.token (k.issued + 1))
          let plan := Planner.draft id c.now.text path description type record impacts
          let k := { k with issued := k.issued + 1 }
          (Script.save plan k.store).map fun
            | .error e => { result := .error e, desk := k, log := opening :: log }
            | .ok store =>
              { result := .ok plan
                desk := { k with store }
                log := opening :: log ++ Planner.riskNotice plan record
                  ++ [Plan.report .info ("Change plan created: " ++ plan.id)] }

def settle (log : Log) (t : Transition) : Script (Response StepResult) :=
  match t.stored with
  | none => .done { result := .ok t.result, desk := k, calls := t.calls
                    log := log ++ t.log ++ t.logAfter }
  | some p => (Script.save p k.store).map fun
    | .error e => { result := .error e, desk := k, calls := t.calls, log := log ++ t.log }
    | .ok store =>
      { result := .ok t.result, desk := { k with store }, calls := t.calls
        log := log ++ t.log ++ t.logAfter }

def transact (id : String) (move : Plan → Transition) : Script (Response StepResult) :=
  (Script.get id k.store).bind fun
    | (.error e, log) => .done { result := .error e, desk := k, log }
    | (.ok none, log) => .done { result := .error (.planNotFound id), desk := k, log }
    | (.ok (some p), log) => k.settle log (move p)

def executeSteps (service : MutationService) (id : String) :
    Nat → Clock → Desk → Script (Response (List StepResult))
  | 0, _, k => .done { result := .ok [], desk := k }
  | fuel + 1, clock, k => (k.transact id (Plan.advance service clock)).bind fun first =>
    match first.result with
    | .error e => .done { result := .error e, desk := first.desk, calls := first.calls
                          log := first.log }
    | .ok r =>
      if r.success && r.next.isSome then
        (executeSteps service id fuel (clock.later 2) first.desk).map fun others =>
          { result := others.result.map (r :: ·)
            desk := others.desk
            calls := first.calls ++ others.calls
            log := first.log ++ others.log }
      else .done { result := .ok [r], desk := first.desk, calls := first.calls, log := first.log }

def delete (id : String) : Script (Response Unit) :=
  (Script.get id k.store).bind fun
    | (.error e, log) => .done { result := .error e, desk := k, log }
    | (.ok none, log) => .done { result := .error (.planNotFound id), desk := k, log }
    | (.ok (some _), log) => (Script.delete id k.store).map fun
      | .error e => { result := .error e, desk := k, log }
      | .ok (_, store) =>
        { result := .ok (), desk := { k with store }
          log := log ++ [Plan.report .info ("Deleted change plan " ++ id)] }

/-- An answer that leaves the planner as it is. -/
def answer (reply : Except Failure Answer × Log) : Response Answer :=
  { result := reply.1, desk := k, log := reply.2 }

/-- The operations. What else a session is made of is done to the planner, not by it. -/
def handle : Request → Script (Response Answer)
  | .create c path type description => (k.create c path type description).map (.map .plan)
  | .execute service clock id =>
    (k.transact id (Plan.advance service clock)).map (.map .step)
  | .executeAll service clock id =>
    (executeSteps service id (Vocabulary.all (α := PlanStep)).length clock k).map (.map .steps)
  | .rollBack service clock id =>
    (k.transact id (Plan.rollBack service clock)).map (.map .step)
  | .delete id => (k.delete id).map (.map fun _ => .done)
  | .get id => (Script.get id k.store).map fun r => k.answer (r.1.map .found, r.2)
  | .list => (Script.list k.store).map fun r => k.answer (r.1.map .plans, r.2)
  | .summarize => (Script.list k.store).map fun r =>
    k.answer ((r.1.map Planner.tally).map .counts, r.2)
  | .reopen | .surroundings _ _ _ => .done (k.answer (.ok .done, []))

end Desk

def Request.IsOperation : Request → Prop
  | .reopen | .surroundings _ _ _ => False
  | _ => True

namespace Desk

/-- A script comes to an outcome. -/
def Runs {α : Type} (d : Disk) (x : Script (Response α)) (o : Outcome α) : Prop :=
  (x.run d).1.on (x.run d).2 = o

section Runs

variable {α β : Type} {d : Disk} {k : Desk}

theorem Runs.map {x : Script (Response α)} {o : Outcome α} (h : Runs d x o) (f : α → β) :
    Runs d (x.map (.map f)) (o.map f) := by
  rw [Runs] at h ⊢
  rw [Script.run_map, ← h]
  rfl

theorem run_get (id : String) :
    Script.run d (Script.get id k.store) = ((k.on d).storage.get id, d) :=
  Script.run_get (k.on d).storage id

theorem run_save (p : Plan) : Script.run d (Script.save p k.store) =
    match (k.on d).storage.save p with
    | .ok s => (.ok s.store, s.disk)
    | .error e => (.error e, d) :=
  Script.run_save (k.on d).storage p

theorem run_list : Script.run d (Script.list k.store) = ((k.on d).storage.list, d) :=
  Script.run_list (k.on d).storage

theorem runs_create (c : Circumstances) (path type description : String) :
    Runs d (k.create c path type description) ((k.on d).create c path type description) := by
  rw [Runs, create, Planner.create]
  cases (Vocabulary.ofWord? type : Option ChangeType) with
  | none => rfl
  | some type =>
    dsimp only
    rw [Script.run_ask]
    dsimp only [Ask.perform]
    have hsettings : (k.on d).settings = k.settings := rfl
    have hdisk : (k.on d).storage.disk = d := rfl
    have hroot : (k.on d).root = k.root := rfl
    rw [hsettings, hdisk, hroot]
    rcases Project.analyze k.settings d k.root with ⟨_ | files, log⟩
    · rfl
    · dsimp only
      cases files.get? path with
      | none => rfl
      | some record =>
        dsimp only
        rw [Script.run_map, run_save]
        have hstorage : Planner.storage { k.on d with issued := (k.on d).issued + 1 } =
          (k.on d).storage := rfl
        rw [hstorage]
        dsimp only [Desk.on]
        generalize Planner.draft (PlanId.generate c.millis (c.token (k.issued + 1))) c.now.text path
          description type record (Impact.predict files path type.kind) = plan
        cases Storage.save ⟨d, k.store⟩ plan <;> rfl

theorem runs_settle (log : Log) (t : Transition) :
    Runs d (k.settle log t) ((k.on d).settle log t) := by
  rw [Runs, settle, Planner.settle]
  cases t.stored with
  | none => rfl
  | some p =>
    dsimp only
    rw [Script.run_map, run_save]
    cases (k.on d).storage.save p <;> rfl

theorem runs_transact (id : String) (move : Plan → Transition) :
    Runs d (k.transact id move) ((k.on d).transact id move) := by
  rw [Runs, transact, Planner.transact, Script.run_bind, run_get]
  rcases (k.on d).storage.get id with ⟨_ | _ | p, log⟩
  · rfl
  · rfl
  · exact runs_settle log (move p)

theorem runs_executeSteps (service : MutationService) (id : String) :
    ∀ (fuel : Nat) {clock : Clock} {k : Desk} {d : Disk},
      Runs d (executeSteps service id fuel clock k)
        (Planner.executeSteps service id fuel clock (k.on d)) := by
  intro fuel
  induction fuel with
  | zero => exact rfl
  | succ fuel ih =>
    intro clock k d
    have hfirst : Runs d (k.transact id (Plan.advance service clock))
        ((k.on d).execute service clock id) := runs_transact id _
    rw [Runs] at hfirst
    rw [Runs, executeSteps, Planner.executeSteps, Script.run_bind, ← hfirst]
    rcases Script.run d (k.transact id (Plan.advance service clock)) with
      ⟨⟨result, k', calls, log⟩, d'⟩
    cases result with
    | error e => rfl
    | ok r =>
      dsimp only [Response.on]
      split
      · have hothers : Runs d' (executeSteps service id fuel (clock.later 2) k')
            (Planner.executeSteps service id fuel (clock.later 2) (k'.on d')) := ih
        rw [Runs] at hothers
        rw [Script.run_map, ← hothers]
        rfl
      · rfl

theorem runs_delete (id : String) : Runs d (k.delete id) ((k.on d).delete id) := by
  rw [Runs, delete, Planner.delete, Script.run_bind, run_get]
  rcases (k.on d).storage.get id with ⟨_ | _ | p, log⟩
  · rfl
  · rfl
  · have hdelete : Script.run d (Script.delete id k.store) =
        match (k.on d).storage.delete id with
        | .ok (found, s) => (.ok (found, s.store), s.disk)
        | .error e => (.error e, d) := Script.run_delete (k.on d).storage id
    dsimp only
    rw [Script.run_map, hdelete]
    cases (k.on d).storage.delete id <;> rfl

/-- The operations do what their scripts do. -/
theorem runs_handle {r : Request} (h : r.IsOperation) :
    Runs d (k.handle r) ((k.on d).handle r) := by
  cases r with
  | create c path type description => exact (runs_create c path type description).map Answer.plan
  | execute service clock id => exact (runs_transact id _).map Answer.step
  | executeAll service clock id => exact (runs_executeSteps service id _).map Answer.steps
  | rollBack service clock id => exact (runs_transact id _).map Answer.step
  | delete id => exact (runs_delete id).map fun _ => Answer.done
  | get id =>
    rw [Runs, handle, Script.run_map, run_get]
    rfl
  | list =>
    rw [Runs, handle, Script.run_map, run_list]
    rfl
  | summarize =>
    rw [Runs, handle, Script.run_map, run_list]
    rfl
  | reopen => exact h.elim
  | surroundings change settings root => exact h.elim

end Runs

end Desk

end ChangeImpact
