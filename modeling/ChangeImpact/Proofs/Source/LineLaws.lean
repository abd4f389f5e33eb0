import ChangeImpact.Proofs.Path.Segments
import ChangeImpact.Proofs.Source.Grammar

/-!
# Proofs.Source.LineLaws

What the textual extractor finds on one line does not depend on the other lines.

* `Extraction.below`, `Extraction.append` — what is found further down, and in one text after
  another.
* `numberedLines_join`   — the lines of two joined texts.
* `Remargined`           — a text with blanks added at the ends of its lines.
* `withReturns`          — a text with a carriage return in front of every line end.
* `ascending_importsOf`, `ascending_exportsOf` — imports and exports in the order of their lines.
* `textual_extractsByLine` — the laws of the extractor.
-/

namespace ChangeImpact

/-! ## Lines of joined texts -/

def ImportEdge.below (n : Nat) (e : ImportEdge) : ImportEdge := { e with line := e.line + n }

def ExportSymbol.below (n : Nat) (x : ExportSymbol) : ExportSymbol := { x with line := x.line + n }

namespace Extraction

/-- The same, found `n` lines further down. -/
def below (n : Nat) (found : Extraction) : Extraction where
  imports := found.imports.map (ImportEdge.below n)
  exports := found.exports.map (ExportSymbol.below n)

/-- What is found in one text and then in another. -/
def append (found more : Extraction) : Extraction where
  imports := found.imports ++ more.imports
  exports := found.exports ++ more.exports

end Extraction

namespace Source

open Text

def lineEnds (text : String) : Nat := text.toList.count '\n'

theorem length_splitOn (sep : Char) (s : List Char) :
    (splitOn sep s).length = 1 + s.count sep := by
  induction s with
  | nil => rfl
  | cons c s ih =>
    obtain ⟨piece, pieces, hpieces⟩ := List.exists_cons_of_ne_nil (splitOn_ne_nil sep s)
    rw [hpieces] at ih
    by_cases hc : c = sep
    · simp only [splitOn, hc, if_true, hpieces, List.length_cons, List.count_cons_self] at ih ⊢
      omega
    · simpa [splitOn, hc, hpieces] using ih

/-- The lines of the text behind are numbered on. -/
theorem numberedLines_join (a b : String) : numberedLines (a ++ "\n" ++ b) =
    numberedLines a ++ (numberedLines b).map fun line => (line.1 + (1 + lineEnds a), line.2) := by
  have htext : (a ++ "\n" ++ b).toList = a.toList ++ '\n' :: b.toList := by simp
  rw [numberedLines_eq_map, numberedLines_eq_map, numberedLines_eq_map, htext, splitOn_append,
    List.zipIdx_append, length_splitOn, List.map_append, Nat.add_comm 1 (1 + _),
    ← List.map_snd_add_zipIdx_eq_zipIdx, List.map_map, List.map_map]
  rfl

/-- What is read from each line on its own is read from both texts. -/
theorem flatMap_numberedLines_join {α : Type} {read : Nat → List Char → List α}
    {below : Nat → α → α} (hread : ∀ n k line, read (n + k) line = (read n line).map (below k))
    (a b : String) : (numberedLines (a ++ "\n" ++ b)).flatMap (fun (n, line) => read n line) =
      (numberedLines a).flatMap (fun (n, line) => read n line) ++
        ((numberedLines b).flatMap fun (n, line) => read n line).map (below (1 + lineEnds a)) := by
  simp only [numberedLines_join, List.flatMap_append, List.flatMap_map, List.map_flatMap, hread]

theorem lineImports_below (path : String) (n k : Nat) (line : List Char) :
    lineImports path (n + k) line = (lineImports path n line).map (ImportEdge.below k) := by
  rw [lineImports, lineImports]
  cases importLine? line <;> cases requireCall? line <;> simp [ImportEdge.below]

theorem lineExports_below (n k : Nat) (line : List Char) :
    lineExports (n + k) line = (lineExports n line).map (ExportSymbol.below k) := by
  rw [lineExports, lineExports]
  cases namedExport? line <;> cases defaultExport? line <;> simp [ExportSymbol.below]

theorem textual_join (path a b : String) : ∃ found more,
    Extractor.textual path a = .ok found ∧ Extractor.textual path b = .ok more ∧
      Extractor.textual path (a ++ "\n" ++ b) =
        .ok (found.append (more.below (1 + lineEnds a))) := by
  refine ⟨_, _, rfl, rfl, ?_⟩
  rw [Extractor.textual, importsOf, exportsOf,
    flatMap_numberedLines_join (lineImports_below path),
    flatMap_numberedLines_join lineExports_below]
  rfl

/-! ## Margins of lines -/

/-- The second line is the first one between blanks. -/
def Widened (line line' : List Char) : Prop :=
  ∃ before after : Margin, line' = before.text.toList ++ (line ++ after.text.toList)

/-- The second text is made of the lines of the first one, each between blanks of its own. -/
def Remargined (text text' : String) : Prop :=
  ∃ lines, List.Forall₂ Widened (splitOn '\n' text.toList) lines ∧
    text'.toList = List.intercalate ['\n'] lines

theorem Widened.strip_eq {line line' : List Char} (h : Widened line line') :
    strip line = strip line' := by
  obtain ⟨before, after, rfl⟩ := h
  rw [← List.append_assoc, strip_margins before.isBlank after.isBlank]

theorem Widened.noBreak {line line' : List Char} (h : Widened line line') (hline : '\n' ∉ line) :
    '\n' ∉ line' := by
  obtain ⟨before, after, rfl⟩ := h
  simp [before.noBreak, hline, after.noBreak]

theorem Remargined.numberedLines {text text' : String} (h : Remargined text text') :
    numberedLines text' = numberedLines text := by
  obtain ⟨lines, hlines, htext⟩ := h
  have hstripped : (splitOn '\n' text.toList).map strip = lines.map strip := by
    rw [← List.forall₂_eq_eq_eq, List.forall₂_map_left_iff, List.forall₂_map_right_iff]
    exact hlines.imp fun _ _ => Widened.strip_eq
  have hsplit : splitOn '\n' text'.toList = lines := by
    rw [htext]
    refine splitOn_intercalate ?_ ?_
    · rintro rfl
      exact splitOn_ne_nil '\n' text.toList (List.forall₂_nil_right_iff.mp hlines)
    · intro line hline
      obtain ⟨i, hi, rfl⟩ := List.mem_iff_getElem.mp hline
      have hi' : i < (splitOn '\n' text.toList).length := hlines.length_eq ▸ hi
      exact (hlines.get hi' hi).noBreak (not_mem_of_mem_splitOn (List.getElem_mem hi'))
  rw [Source.numberedLines, Source.numberedLines, hsplit, hstripped]

def withReturn (c : Char) : List Char := if c = '\n' then ['\r', '\n'] else [c]

/-- A carriage return in front of every line end. -/
def withReturns (text : String) : String := .ofList (text.toList.flatMap withReturn)

/-- Nothing else comes to the lines than a carriage return at their ends. -/
theorem splitOn_withReturns (s : List Char) :
    List.Forall₂ (fun line line' => line' = line ∨ line' = line ++ ['\r']) (splitOn '\n' s)
      (splitOn '\n' (s.flatMap withReturn)) := by
  induction s with
  | nil => exact .cons (.inl rfl) .nil
  | cons c s ih =>
    by_cases hc : c = '\n'
    · subst hc
      exact .cons (.inr rfl) ih
    · obtain ⟨line, lines, hs⟩ := List.exists_cons_of_ne_nil (splitOn_ne_nil '\n' s)
      obtain ⟨line', lines', hs'⟩ :=
        List.exists_cons_of_ne_nil (splitOn_ne_nil '\n' (s.flatMap withReturn))
      rw [hs, hs', List.forall₂_cons] at ih
      simp only [List.flatMap_cons, withReturn, if_neg hc, List.singleton_append, splitOn, hs, hs']
      exact .cons (ih.1.imp (congrArg _) (congrArg _)) ih.2

theorem remargined_withReturns (text : String) : Remargined text (withReturns text) := by
  let none : Margin := ⟨"", by decide, by decide⟩
  refine ⟨splitOn '\n' (withReturns text).toList, ?_, (intercalate_splitOn _ _).symm⟩
  rw [withReturns, String.toList_ofList]
  refine (splitOn_withReturns text.toList).imp ?_
  rintro line _ (rfl | rfl)
  · exact ⟨none, none, by simp [none]⟩
  · exact ⟨none, ⟨"\r", by decide, by decide⟩, by simp [none]⟩

/-! ## Numbers of lines -/

theorem ascending_numberedLines (text : String) :
    (numberedLines text).Pairwise fun line line' => line.1 < line'.1 := by
  rw [numberedLines_eq_map, List.pairwise_map, ← List.pairwise_map, List.zipIdx_map_snd]
  exact List.pairwise_lt_range'

theorem ascending_importsOf (path text : String) :
    (importsOf path text).Pairwise fun e e' => e.line ≤ e'.line := by
  have hline {n line e} (he : e ∈ lineImports path n line) : e.line = n :=
    ((importsOnLine_lineImports path n line).origin e he).2.1
  rw [importsOf, List.pairwise_flatMap]
  constructor
  · rintro ⟨n, line⟩ _
    refine List.pairwise_of_forall_mem_list fun e he e' he' => ?_
    exact Int.le_of_eq ((hline he).trans (hline he').symm)
  · refine (ascending_numberedLines text).imp fun {line line'} hlt e he e' he' => ?_
    rw [hline he, hline he']
    omega

theorem ascending_exportsOf (text : String) :
    (exportsOf text).Pairwise fun x x' => x.line < x'.line := by
  have hline {n line x} (hx : x ∈ lineExports n line) : x.line = n :=
    ((exportsOnLine_lineExports n line).origin x hx).1
  rw [exportsOf, List.pairwise_flatMap]
  constructor
  · rintro ⟨n, line⟩ _
    have hlength := (exportsOnLine_lineExports n line).length_le
    dsimp only
    rcases hfound : lineExports n line with _ | ⟨x, _ | ⟨y, more⟩⟩
    · exact .nil
    · exact List.pairwise_singleton _ _
    · simp [hfound] at hlength
  · refine (ascending_numberedLines text).imp fun {line line'} hlt x hx x' hx' => ?_
    rw [hline hx, hline hx']
    omega

/-! ## The laws of the extractor -/

/-- The extractor looks at each line on its own. -/
structure ExtractsByLine (path : String) : Prop where
  join : ∀ a b, ∃ found more, Extractor.textual path a = .ok found ∧
    Extractor.textual path b = .ok more ∧
      Extractor.textual path (a ++ "\n" ++ b) = .ok (found.append (more.below (1 + lineEnds a)))
  margins : ∀ text text', Remargined text text' →
    Extractor.textual path text' = Extractor.textual path text
  returns : ∀ text, Extractor.textual path (withReturns text) = Extractor.textual path text
  ascending : ∀ text, ∃ found, Extractor.textual path text = .ok found ∧
    found.imports.Pairwise (fun e e' => e.line ≤ e'.line) ∧
      found.exports.Pairwise fun x x' => x.line < x'.line

theorem textual_remargined {text text' : String} (h : Remargined text text') (path : String) :
    Extractor.textual path text' = Extractor.textual path text := by
  rw [Extractor.textual, Extractor.textual, importsOf, importsOf, exportsOf, exportsOf,
    h.numberedLines]

theorem textual_extractsByLine (path : String) : ExtractsByLine path where
  join := textual_join path
  margins _ _ h := textual_remargined h path
  returns text := textual_remargined (remargined_withReturns text) path
  ascending text :=
    ⟨_, rfl, ascending_importsOf path text, ascending_exportsOf text⟩

end Source

end ChangeImpact
