import ChangeImpact.Source.Extract

/-!
# Proofs.Source.Textual

What the textual extractor makes of a map of sources.

* `textRecord`           — the record of one text.
* `analyzeFiles_textual` — every source has one, in the order of the sources.
* `resolved_importsOf`   — no import in it has been resolved.
-/

namespace ChangeImpact.Source

def textRecord (path text : String) : FileRecord :=
  { path, imports := importsOf path text, exports := exportsOf text }

theorem analyzeFiles_textual (sources : Keyed String) :
    (analyzeFiles .textual sources).1 = sources.mapValues textRecord := by
  apply Keyed.ext_entries
  simp only [analyzeFiles, Keyed.filterMap, Keyed.mapValues, List.filterMap_map]
  rw [← List.filterMap_eq_map]
  rfl

theorem resolved_lineImports {path : String} {number : Nat} {line : List Char} :
    ∀ e ∈ lineImports path number line, e.resolved = none := by
  intro e he
  rw [lineImports, List.mem_append] at he
  rcases he with he | he
  · split at he
    · rw [List.mem_singleton.mp he]
    · contradiction
  · split at he
    · rw [List.mem_singleton.mp he]
    · contradiction

theorem resolved_importsOf {path text : String} :
    ∀ e ∈ importsOf path text, e.resolved = none := by
  intro e he
  obtain ⟨line, _, he⟩ := List.mem_flatMap.mp he
  exact resolved_lineImports e he

end ChangeImpact.Source
