import ChangeImpact.Proofs.Source.Pieces
import ChangeImpact.Source.Extract

/-!
# Proofs.Source.ImportLine

A line that imports a single name.

* `importLine?_bound`    — how an import of any kind is read.
* `importLine?_single`   — how that of a single name is.
* `HasImport`            — a text has such a line.
* `exists_mem_importsOf` — then the import is among those of the text.
-/

namespace ChangeImpact.Source

open Text

/-! ## The pieces of the line -/

theorem keyword?_append {word : String} {c : Char} (h : isBlank c = false) (rest : List Char) :
    keyword? word (word.toList ++ ' ' :: c :: rest) = some (c :: rest) :=
  blanks_space.read_keyword word (by simpa using h)

theorem from?_append (rest : List Char) : from? (" from".toList ++ rest) = some rest :=
  blanks_space.read_from rest

theorem blanks?_space {c : Char} (h : isBlank c = false) (rest : List Char) :
    blanks? (' ' :: c :: rest) = some (c :: rest) := blanks_space.read (by simpa using h)

theorem quoted?_append {s : List Char} {q : Char} (hq : isQuote q = true) (hne : s ≠ [])
    (hs : ∀ c ∈ s, isQuote c = false) (rest : List Char) :
    quoted? (q :: (s ++ q :: rest)) = some (s, rest) := by
  simpa using (Quoted.intro q q hq hq hne hs).read rest

/-- An import of whatever is read between `import` and `from`. -/
theorem importLine?_bound {b : Binding} {t s : List Char} {q : Char} (hne : t ≠ [])
    (hfirst : ∀ c ∈ t.head?, isBlank c = false)
    (hbinding : ∀ rest, binding? (t ++ ' ' :: rest) = some (b, ' ' :: rest))
    (hq : isQuote q = true) (hsne : s ≠ []) (hs : ∀ c ∈ s, isQuote c = false)
    (rest : List Char) :
    importLine? ("import ".toList ++ t ++ " from ".toList ++ q :: (s ++ q :: rest)) =
      some (b, s) := by
  obtain ⟨first, more, rfl⟩ := List.exists_cons_of_ne_nil hne
  have hline : "import ".toList ++ (first :: more) ++ " from ".toList ++ q :: (s ++ q :: rest) =
      "import".toList ++ ' ' :: first :: (more ++ " from ".toList ++ q :: (s ++ q :: rest)) := by
    simp
  have hback : first :: (more ++ " from ".toList ++ q :: (s ++ q :: rest)) =
      (first :: more) ++ ' ' :: ("from ".toList ++ q :: (s ++ q :: rest)) := by
    simp
  have hfrom : ' ' :: ("from ".toList ++ q :: (s ++ q :: rest)) =
      " from".toList ++ ' ' :: q :: (s ++ q :: rest) := by
    simp
  rw [importLine?, hline, keyword?_append (hfirst first rfl), hback]
  simp only [hbinding]
  rw [hfrom, from?_append]
  simp only [blanks?_space (isBlank_of_isQuote hq), quoted?_append hq hsne hs]

theorem importLine?_single {w s : List Char} (hwne : w ≠ [])
    (hw : ∀ c ∈ w, isWordChar c = true) (hsne : s ≠ []) (hs : ∀ c ∈ s, isQuote c = false)
    (rest : List Char) :
    importLine? ("import ".toList ++ w ++ " from '".toList ++ s ++ '\'' :: rest) =
      some (.single w, s) := by
  have hfirst : ∀ c ∈ w.head?, isBlank c = false := fun c hc =>
    isBlank_of_isWordChar (hw c (List.mem_of_mem_head? hc))
  have hword : IsWord w := ⟨hwne, hw⟩
  have hbound := importLine?_bound (q := '\'') hwne hfirst
    (fun rest => hword.read_binding (wordEnds_space rest)) (by decide) hsne hs rest
  simpa using hbound

/-! ## The imports of a text -/

/-- A line of the text starts, apart from blanks, with an import of a single name. -/
def HasImport (text specifier : String) : Prop :=
  ∃ line ∈ splitOn '\n' text.toList, ∃ name : String, name ≠ "" ∧
    (∀ c ∈ name.toList, isWordChar c = true) ∧
      ("import " ++ name ++ " from '" ++ specifier ++ "'").toList <+: strip line

theorem exists_mem_numberedLines {text : String} {line : List Char}
    (h : line ∈ splitOn '\n' text.toList) : ∃ n, (n, strip line) ∈ numberedLines text := by
  have hstripped : strip line ∈ (splitOn '\n' text.toList).map strip := List.mem_map_of_mem h
  rw [← List.zipIdx_map_fst 1 ((splitOn '\n' text.toList).map strip)] at hstripped
  obtain ⟨⟨_, n⟩, hn, rfl⟩ := List.mem_map.mp hstripped
  exact ⟨n, List.mem_map_of_mem hn⟩

theorem exists_mem_lineImports {line s : List Char} {b : Binding}
    (h : importLine? line = some (b, s)) (path : String) (n : Nat) :
    ∃ edge ∈ lineImports path n line, edge.specifier = .ofList s ∧
      edge.kind = specifierKind (.ofList s) := by
  rw [lineImports, h]
  exact ⟨_, List.mem_append_left _ (List.mem_singleton.mpr rfl), rfl, rfl⟩

/-- Wherever it stands among the lines, the import is found. -/
theorem exists_mem_importsOf {text s : String} (h : HasImport text s) (hne : s ≠ "")
    (hs : ∀ c ∈ s.toList, isQuote c = false) (path : String) :
    ∃ edge ∈ importsOf path text, edge.specifier = s ∧ edge.kind = specifierKind s := by
  obtain ⟨line, hline, name, hname, hword, rest, hrest⟩ := h
  obtain ⟨n, hn⟩ := exists_mem_numberedLines hline
  have hread := importLine?_single (by simpa using hname) hword (by simpa using hne) hs rest
  have hstart : ("import " ++ name ++ " from '" ++ s ++ "'").toList ++ rest =
      "import ".toList ++ name.toList ++ " from '".toList ++ s.toList ++ '\'' :: rest := by
    simp
  rw [← hstart, hrest] at hread
  obtain ⟨edge, hedge, hspecifier, hkind⟩ := exists_mem_lineImports hread path n
  rw [String.ofList_toList] at hspecifier hkind
  exact ⟨edge, List.mem_flatMap.mpr ⟨_, hn, hedge⟩, hspecifier, hkind⟩

end ChangeImpact.Source
