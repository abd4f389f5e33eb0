import ChangeImpact.Source.Extract
import Mathlib.Data.List.Perm.Basic
import Mathlib.Logic.Relation

/-!
# Proofs.Source.Workers

Texts worked on by several workers at a time, and the results in the order of the texts.

* `Pool`            — what waits in line, what is being worked on, and what came of the rest.
* `Pool.Step`       — a worker takes up a text or comes to an end with one. Which worker is next is
  left open.
* `step_outcomes`   — a step loses no text and makes up no result.
* `collect_of_run`  — at the end, each text has the result of its own work, whatever the number of
  workers and the order in which they came to an end.
* `exists_run`      — one worker is enough for there to be an end.
-/

namespace ChangeImpact.Source

/-- Texts under their paths in the hands of a pool of workers. -/
structure Pool (α : Type) where
  waiting : List (String × String)
  running : List (String × String) := []
  finished : List (String × α) := []

namespace Pool

variable {α : Type}

def submit (sources : Keyed String) : Pool α := { waiting := sources.entries }

/-- The texts are taken up in their order; they may be finished in any other. -/
inductive Step (workers : Nat) (work : String → String → α) : Pool α → Pool α → Prop
  | start {t : String × String} {waiting running : List (String × String)}
      {finished : List (String × α)} (free : running.length < workers) :
      Step workers work ⟨t :: waiting, running, finished⟩ ⟨waiting, t :: running, finished⟩
  | finish {t : String × String} {waiting before after : List (String × String)}
      {finished : List (String × α)} :
      Step workers work ⟨waiting, before ++ t :: after, finished⟩
        ⟨waiting, before ++ after, (t.1, work t.1 t.2) :: finished⟩

def Run (workers : Nat) (work : String → String → α) : Pool α → Pool α → Prop :=
  Relation.ReflTransGen (Step workers work)

def IsDone (p : Pool α) : Prop := p.waiting = [] ∧ p.running = []

/-- The results of finished work, asked for in the order in which the texts were handed over. -/
def collect (p : Pool α) (sources : Keyed String) : Keyed α :=
  sources.filterMap fun path _ => Keyed.getIn path p.finished

variable {workers : Nat} {work : String → String → α} {p q : Pool α} {sources : Keyed String}

/-! ## What is worked out -/

def outcome (work : String → String → α) (t : String × String) : String × α := (t.1, work t.1 t.2)

/-- What there is and what there will be. -/
def outcomes (work : String → String → α) (p : Pool α) : List (String × α) :=
  (p.waiting ++ p.running).map (outcome work) ++ p.finished

theorem step_outcomes (h : Step workers work p q) :
    (q.outcomes work).Perm (p.outcomes work) := by
  cases h with
  | start free =>
    refine (List.Perm.map _ ?_).append_right _
    exact List.perm_middle
  | @finish t waiting before after finished =>
    simp only [outcomes, List.map_append, List.map_cons, List.append_assoc, List.cons_append]
    exact ((List.perm_middle.append_left _).append_left _)

theorem run_outcomes (h : Run workers work p q) : (q.outcomes work).Perm (p.outcomes work) := by
  induction h with
  | refl => exact .refl _
  | tail _ hstep ih => exact (step_outcomes hstep).trans ih

/-- At the end of a run each text has its own result, and they are in the order of the texts. -/
theorem collect_of_run (h : Run workers work (submit sources) p) (hdone : p.IsDone) :
    p.collect sources = sources.mapValues work := by
  have hperm : p.finished.Perm (sources.entries.map (outcome work)) := by
    simpa [outcomes, submit, hdone.1, hdone.2] using run_outcomes h
  have hnodup : (p.finished.map Prod.fst).Nodup := by
    have hkeys := hperm.map Prod.fst
    rw [hkeys.nodup_iff, List.map_map]
    exact sources.nodup
  have hget : ∀ e ∈ sources.entries, Keyed.getIn e.1 p.finished = some (work e.1 e.2) := by
    intro e he
    rw [Keyed.getIn_eq_some_iff hnodup, hperm.mem_iff]
    exact List.mem_map_of_mem he
  apply Keyed.ext_entries
  simp only [collect, Keyed.filterMap, Keyed.mapValues]
  rw [← List.filterMap_eq_map]
  refine List.filterMap_congr fun e he => ?_
  rw [hget e he]
  rfl

/-! ## Coming to an end -/

/-- A text takes two steps, one to be taken up and one to be finished. -/
def left (p : Pool α) : Nat := 2 * p.waiting.length + p.running.length

theorem left_lt (h : Step workers work p q) : q.left < p.left := by
  cases h with
  | start free =>
    simp only [left, List.length_cons]
    omega
  | finish =>
    simp only [left, List.length_append, List.length_cons]
    omega

theorem exists_step (work : String → String → α) (hworkers : 0 < workers) (h : ¬ p.IsDone) :
    ∃ q, Step workers work p q := by
  obtain ⟨waiting, running, finished⟩ := p
  cases running with
  | cons t running => exact ⟨_, @Step.finish _ _ _ t waiting [] running finished⟩
  | nil =>
    cases waiting with
    | nil => exact absurd ⟨rfl, rfl⟩ h
    | cons t waiting => exact ⟨_, .start hworkers⟩

theorem exists_run (hworkers : 0 < workers) (work : String → String → α) (p : Pool α) :
    ∃ q, Run workers work p q ∧ q.IsDone := by
  by_cases hdone : p.IsDone
  · exact ⟨p, .refl, hdone⟩
  · obtain ⟨next, hstep⟩ := exists_step work hworkers hdone
    obtain ⟨q, hrun, hq⟩ := exists_run hworkers work next
    exact ⟨q, .head hstep hrun, hq⟩
termination_by p.left
decreasing_by exact left_lt hstep

end Pool

end ChangeImpact.Source
