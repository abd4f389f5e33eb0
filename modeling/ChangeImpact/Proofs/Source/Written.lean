import ChangeImpact.Proofs.Source.ExportForms
import Mathlib.Data.List.Basic

/-!
# Proofs.Source.Written

Extraction undoes writing.

* `splitOn_written`     — the lines of written declarations come apart again.
* `numberedLines_written` — without their margins and with their numbers.
* `textual_written`     — the extractor finds the declarations that were written down.
-/

namespace ChangeImpact

namespace Source

open Text

theorem Line.noBreak (l : Line) : '\n' ∉ l.text.toList := by
  simp [Line.text, l.before.noBreak, l.declaration.noBreak, l.after.noBreak]

theorem Line.strip_text (l : Line) : strip l.text.toList = l.declaration.text.toList := by
  rw [Line.text, String.toList_append, String.toList_append]
  exact strip_append l.before.isBlank l.declaration.trimmed l.after.isBlank

/-- Nothing but empty lines can come after the written ones. -/
theorem splitOn_written (lines : List Line) (ended : Bool) :
    ∃ tail, splitOn '\n' (written lines ended).toList =
      lines.map (fun l => l.text.toList) ++ tail ∧ ∀ t ∈ tail, t = [] := by
  induction lines with
  | nil =>
    cases ended with
    | false => exact ⟨[[]], rfl, by simp⟩
    | true => exact ⟨[[], []], rfl, by simp⟩
  | cons l lines ih =>
    cases lines with
    | nil =>
      cases ended with
      | false =>
        have hline : (written [l] false).toList = l.text.toList := by simp [written]
        refine ⟨[], ?_, by simp⟩
        rw [hline, splitOn_eq_singleton l.noBreak]
        rfl
      | true =>
        have hline : (written [l] true).toList = l.text.toList ++ '\n' :: [] := by
          simp [written]
        refine ⟨[[]], ?_, by simp⟩
        rw [hline, splitOn_append, splitOn_eq_singleton l.noBreak]
        rfl
    | cons m lines =>
      obtain ⟨tail, htail, hempty⟩ := ih
      have hline : (written (l :: m :: lines) ended).toList =
          l.text.toList ++ '\n' :: (written (m :: lines) ended).toList := by
        simp [written, String.toList_intercalate]
      refine ⟨tail, ?_, hempty⟩
      rw [hline, splitOn_append, splitOn_eq_singleton l.noBreak, htail]
      rfl

/-- What is read from each line on its own is read from the declarations. -/
theorem flatMap_numberedLines_written {α : Type} {read : Nat → List Char → List α}
    (hread : ∀ n, read n [] = []) (lines : List Line) (ended : Bool) :
    (numberedLines (written lines ended)).flatMap (fun (n, line) => read n line) =
      (lines.zipIdx 1).flatMap fun (l, n) => read n l.declaration.text.toList := by
  obtain ⟨tail, htail, hempty⟩ := splitOn_written lines ended
  have hlines : (lines.map fun l => l.text.toList).map strip =
      lines.map fun l => l.declaration.text.toList := by
    rw [List.map_map]
    exact List.map_congr_left fun l _ => l.strip_text
  have hrest : ((tail.map strip).zipIdx (1 + lines.length)).flatMap
      (fun e => read e.2 e.1) = [] := by
    rw [List.flatMap_eq_nil_iff]
    intro e he
    obtain ⟨t, ht, hline⟩ := List.mem_map.mp (List.fst_mem_of_mem_zipIdx he)
    rw [← hline, hempty t ht]
    exact hread e.2
  rw [numberedLines, htail, List.map_append, hlines, List.zipIdx_append, List.length_map,
    List.flatMap_map, List.flatMap_append, hrest, List.append_nil, List.zipIdx_map,
    List.flatMap_map]
  rfl

/-- Extraction undoes writing. -/
theorem textual_written (path : String) (lines : List Line) (ended : Bool) :
    Extractor.textual path (written lines ended) = .ok
      { imports := (lines.zipIdx 1).filterMap fun (l, n) => l.declaration.edge? path n
        exports := (lines.zipIdx 1).filterMap fun (l, n) => l.declaration.symbol? n } := by
  have himports : importsOf path (written lines ended) =
      (lines.zipIdx 1).filterMap fun (l, n) => l.declaration.edge? path n := by
    rw [importsOf, flatMap_numberedLines_written (fun _ => rfl), List.filterMap_eq_flatMap_toList]
    simp only [Declaration.lineImports_text]
  have hexports : exportsOf (written lines ended) =
      (lines.zipIdx 1).filterMap fun (l, n) => l.declaration.symbol? n := by
    rw [exportsOf, flatMap_numberedLines_written (fun _ => rfl), List.filterMap_eq_flatMap_toList]
    simp only [Declaration.lineExports_text]
  rw [Extractor.textual, himports, hexports]

end Source

end ChangeImpact
