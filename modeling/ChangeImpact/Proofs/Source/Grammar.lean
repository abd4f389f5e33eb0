import ChangeImpact.Proofs.Record.FileForm
import ChangeImpact.Proofs.Source.ExportForms
import ChangeImpact.Proofs.Source.Pieces
import Mathlib.Data.List.Forall2

/-!
# Proofs.Source.Grammar

The lines that the textual extractor takes for declarations are those of a grammar.

* `ImportForm`, `RequireForm`   — an import at the start of a line, and a call somewhere on it.
* `NamedForm`, `DefaultForm`    — the two kinds of exports.
* `IsKindOf`                    — the kind of what a line exports.
* `importLine?_iff`, `requireCall?_iff`, `namedExport?_iff`, `isSome_defaultExport?_iff` — what is
  read from a line is what its form says.
* `not_namedForm_of_defaultForm` — no line exports in both ways.
* `ImportsOnLine`, `ExportsOnLine` — everything that one line contributes.
* `textual_grammar`             — so it is for each line of every text.
-/

namespace ChangeImpact

namespace Source

open Text

/-! ## The forms -/

/-- An import from `s` at the start of a line, and anything after it. -/
inductive ImportForm (s : List Char) : List Char → Prop
  | intro {a t b c u : List Char} (ha : Blanks a) (ht : IsBinding t) (hb : Blanks b)
      (hc : Blanks c) (hu : Quoted s u) (rest : List Char) :
      ImportForm s
        ("import".toList ++ (a ++ (t ++ (b ++ ("from".toList ++ (c ++ (u ++ rest)))))))

/-- An import that binds `found`. -/
inductive ImportFormOf (found : Binding) (s : List Char) : List Char → Prop
  | intro {a t b c u : List Char} (ha : Blanks a) (ht : Binds found t) (hb : Blanks b)
      (hc : Blanks c) (hu : Quoted s u) (rest : List Char) :
      ImportFormOf found s
        ("import".toList ++ (a ++ (t ++ (b ++ ("from".toList ++ (c ++ (u ++ rest)))))))

/-- A call for `s` at the front of a text. -/
inductive CallForm (s : List Char) : List Char → Prop
  | intro {u : List Char} (hu : Quoted s u) (rest : List Char) :
      CallForm s ("require(".toList ++ (u ++ ')' :: rest))

def RequireForm (s line : List Char) : Prop := ∃ a b, line = a ++ b ∧ CallForm s b

/-- No call on the line starts before the one for `s`. -/
def FirstRequire (s line : List Char) : Prop :=
  ∃ a b, line = a ++ b ∧ CallForm s b ∧
    ∀ a' b' s', line = a' ++ b' → CallForm s' b' → a.length ≤ a'.length

inductive AsyncMark : List Char → Prop
  | absent : AsyncMark []
  | present {a : List Char} (ha : Blanks a) : AsyncMark ("async".toList ++ a)

/-- An export of the name `x`, which is a whole word. -/
inductive NamedForm (x : List Char) : List Char → Prop
  | intro {a m b rest : List Char} (k : ExportKind) (ha : Blanks a) (hm : AsyncMark m)
      (hb : Blanks b) (hx : IsWord x) (hrest : wordEnds rest = true) :
      NamedForm x
        ("export".toList ++ (a ++ (m ++ ((Vocabulary.word k).toList ++ (b ++ (x ++ rest))))))

inductive DefaultForm : List Char → Prop
  | intro {a b : List Char} (ha : Blanks a) (hb : Blanks b) (rest : List Char) :
      DefaultForm ("export".toList ++ (a ++ ("default".toList ++ (b ++ rest))))

/-- The first of the declaring keywords that stands on the line; a variable where there is none. -/
def IsKindOf (line : List Char) (k : ExportKind) : Prop :=
  (∃ before after, Vocabulary.all = before ++ k :: after ∧
    StandsIn (Vocabulary.word k).toList line ∧
    ∀ k' ∈ before, ¬ StandsIn (Vocabulary.word k').toList line) ∨
  (k = .varDecl ∧ ∀ k' : ExportKind, ¬ StandsIn (Vocabulary.word k').toList line)

/-! ## Imports -/

section Imports

variable {line s r : List Char}

theorem importForm_iff : ImportForm s line ↔ ∃ found, ImportFormOf found s line := by
  constructor
  · rintro ⟨ha, ht, hb, hc, hu, rest⟩
    obtain ⟨found, ht⟩ := isBinding_iff.mp ht
    exact ⟨found, .intro ha ht hb hc hu rest⟩
  · rintro ⟨found, ha, ht, hb, hc, hu, rest⟩
    exact .intro ha (isBinding_iff.mpr ⟨found, ht⟩) hb hc hu rest

theorem importLine?_eq_some_iff {found : Binding} :
    importLine? line = some (found, s) ↔ ImportFormOf found s line := by
  constructor
  · intro h
    rw [importLine?] at h
    split at h
    · cases h
    · next r hkeyword =>
      split at h
      · cases h
      · next found' r hbinding =>
        split at h
        · cases h
        · next r hfrom =>
          split at h
          · cases h
          · next r hblanks =>
            split at h
            · cases h
            · next s' r hquoted =>
              obtain ⟨a, ha, rfl, _⟩ := keyword?_eq_some_iff.mp hkeyword
              obtain ⟨t, ht, rfl⟩ := binding?_sound hbinding
              obtain ⟨b, hb, rfl⟩ := from?_eq_some_iff.mp hfrom
              obtain ⟨c, hc, rfl, _⟩ := blanks?_eq_some_iff.mp hblanks
              obtain ⟨u, hu, rfl⟩ := quoted?_eq_some_iff.mp hquoted
              cases h
              exact .intro ha ht hb hc hu r
  · rintro @⟨a, t, b, c, u, ha, ht, hb, hc, hu, rest⟩
    have hbinding := ht.read (hb.wordEnds ("from".toList ++ (c ++ (u ++ rest))))
    have hkeyword := ha.read_keyword "import"
      (ht.head?_not_blank (b ++ ("from".toList ++ (c ++ (u ++ rest)))))
    rw [importLine?, hkeyword]
    simp only [hbinding, hb.read_from, hc.read (hu.head?_not_blank rest), hu.read]

theorem importLine?_iff : (∃ found, importLine? line = some (found, s)) ↔ ImportForm s line := by
  rw [importForm_iff]
  exact exists_congr fun _ => importLine?_eq_some_iff

theorem requireHere?_iff : requireHere? r = some s ↔ CallForm s r := by
  constructor
  · intro h
    rw [requireHere?] at h
    split at h
    · cases h
    · next after hafter =>
      split at h
      · next s' rest hquoted =>
        cases h
        obtain ⟨u, hu, rfl⟩ := quoted?_eq_some_iff.mp hquoted
        rw [after?_eq_some_iff.mp hafter]
        exact .intro hu rest
      · cases h
  · rintro ⟨hu, rest⟩
    rw [requireHere?, after?_append]
    simp only [hu.read]

theorem requireCall?_iff : requireCall? line = some s ↔ FirstRequire s line := by
  rw [requireCall?, firstMatch_eq_some_iff]
  simp only [requireHere?_iff]
  rfl

/-- One call at any place is enough. -/
theorem isSome_requireCall?_iff : (requireCall? line).isSome = true ↔ ∃ s, RequireForm s line := by
  constructor
  · intro h
    obtain ⟨s, hs⟩ := Option.isSome_iff_exists.mp h
    obtain ⟨a, b, hline, hcall, _⟩ := requireCall?_iff.mp hs
    exact ⟨s, a, b, hline, hcall⟩
  · rintro ⟨s, a, b, rfl, hcall⟩
    exact isSome_firstMatch (List.suffix_append a b) (requireHere?_iff.mpr hcall)

end Imports

/-! ## Exports -/

section Exports

variable {line s r x : List Char}

theorem isWord_word (k : ExportKind) : IsWord (Vocabulary.word k).toList where
  ne_nil := by cases k <;> decide
  word := isWord_exportKind k

theorem AsyncMark.head?_not_blank {m u : List Char} (h : AsyncMark m)
    (hu : ∀ c ∈ u.head?, isBlank c = false) : ∀ c ∈ (m ++ u).head?, isBlank c = false := by
  cases h with
  | absent => exact hu
  | present =>
    rintro _ ⟨⟩
    decide

theorem findSome?_declaringKeywords :
    (declaringKeywords.findSome? fun k => keyword? k s) = some r ↔
      ∃ k : ExportKind, keyword? (Vocabulary.word k) s = some r := by
  have hsound {r : List Char} (h : (declaringKeywords.findSome? fun k => keyword? k s) = some r) :
      ∃ k : ExportKind, keyword? (Vocabulary.word k) s = some r := by
    obtain ⟨w, hw, hread⟩ := List.exists_of_findSome?_eq_some h
    obtain ⟨k, _, rfl⟩ := List.mem_map.mp hw
    exact ⟨k, hread⟩
  refine ⟨hsound, ?_⟩
  rintro ⟨k, hread⟩
  cases hfound : declaringKeywords.findSome? fun k => keyword? k s with
  | none =>
    have hnone := List.findSome?_eq_none_iff.mp hfound (Vocabulary.word k)
      (LawfulVocabulary.word_mem_words k)
    rw [hread] at hnone
    cases hnone
  | some r' =>
    obtain ⟨k', hread'⟩ := hsound hfound
    rw [(keyword?_inj (noBlank_exportKind k') (noBlank_exportKind k) hread' hread).2]

/-- The mark is read past, and the keyword behind it is read. -/
theorem keyword?_skipKeyword_iff {k : ExportKind} :
    keyword? (Vocabulary.word k) (skipKeyword "async" s) = some r ↔
      ∃ m u, AsyncMark m ∧ s = m ++ u ∧ keyword? (Vocabulary.word k) u = some r := by
  have hasync : ∀ c ∈ "async".toList, isBlank c = false := by decide
  have hne : "async" ≠ Vocabulary.word k := by cases k <;> decide
  constructor
  · intro h
    cases hmark : keyword? "async" s with
    | none =>
      rw [skipKeyword_eq_self hmark] at h
      exact ⟨[], s, .absent, rfl, h⟩
    | some u =>
      obtain ⟨a, ha, rfl, _⟩ := keyword?_eq_some_iff.mp hmark
      rw [skipKeyword, hmark] at h
      exact ⟨_, u, .present ha, by simp, h⟩
  · rintro ⟨m, u, hm, rfl, hread⟩
    cases hm with
    | absent =>
      have hmark : keyword? "async" u = none := by
        rw [Option.eq_none_iff_forall_ne_some]
        exact fun r' hread' => hne (keyword?_inj hasync (noBlank_exportKind k) hread' hread).1
      rw [List.nil_append, skipKeyword_eq_self hmark, hread]
    | @present a ha =>
      have hfirst : ∀ c ∈ u.head?, isBlank c = false := by
        obtain ⟨_, _, rfl, _⟩ := keyword?_eq_some_iff.mp hread
        exact (isWord_word k).head?_not_blank _
      rw [List.append_assoc, skipKeyword, ha.read_keyword "async" hfirst]
      exact hread

theorem namedExport?_iff : namedExport? line = some x ↔ NamedForm x line := by
  constructor
  · intro h
    rw [namedExport?] at h
    split at h
    · cases h
    · next u hexport =>
      dsimp only at h
      split at h
      · cases h
      · next r hfound =>
        obtain ⟨k, hread⟩ := findSome?_declaringKeywords.mp hfound
        obtain ⟨a, ha, rfl, _⟩ := keyword?_eq_some_iff.mp hexport
        obtain ⟨m, v, hm, rfl, hbehind⟩ := keyword?_skipKeyword_iff.mp hread
        obtain ⟨b, hb, rfl, _⟩ := keyword?_eq_some_iff.mp hbehind
        obtain ⟨⟨_, rest⟩, hword, rfl⟩ := Option.map_eq_some_iff.mp h
        obtain ⟨hx, rfl, hrest⟩ := word?_eq_some_iff.mp hword
        exact .intro k ha hm hb hx hrest
  · intro h
    cases h with
    | @intro a m b rest k ha hm hb hx hrest =>
      have hread := hb.read_keyword (Vocabulary.word k) (hx.head?_not_blank rest)
      have hfound := findSome?_declaringKeywords.mpr
        ⟨k, keyword?_skipKeyword_iff.mpr ⟨m, _, hm, rfl, hread⟩⟩
      have hfirst := hm.head?_not_blank ((isWord_word k).head?_not_blank (b ++ (x ++ rest)))
      rw [namedExport?, ha.read_keyword "export" hfirst]
      simp only [hfound, hx.read hrest, Option.map_some]

theorem head?_default_not_blank (s : List Char) :
    ∀ c ∈ ("default".toList ++ s).head?, isBlank c = false := by
  rintro _ ⟨⟩
  decide

theorem isSome_defaultExport?_iff :
    (defaultExport? line).isSome = true ↔ DefaultForm line := by
  have hread : (defaultExport? line).isSome = true ↔
      ∃ u r, keyword? "export" line = some u ∧ keyword? "default" u = some r := by
    rw [defaultExport?]
    cases hexport : keyword? "export" line with
    | none => simp
    | some u =>
      cases hdefault : keyword? "default" u with
      | none => simp [hdefault]
      | some r =>
        cases hword : word? (declarationName r) <;> simp [hdefault, hword]
  rw [hread]
  constructor
  · rintro ⟨u, r, hexport, hdefault⟩
    obtain ⟨a, ha, rfl, _⟩ := keyword?_eq_some_iff.mp hexport
    obtain ⟨b, hb, rfl, _⟩ := keyword?_eq_some_iff.mp hdefault
    exact .intro ha hb r
  · intro h
    cases h with
    | @intro a b ha hb rest =>
      obtain ⟨r, hdefault⟩ := hb.exists_read_keyword "default" rest
      exact ⟨_, r, ha.read_keyword "export" (head?_default_not_blank _), hdefault⟩

/-- A keyword, or the mark in front of it, stands where `default` would. -/
theorem not_namedForm_of_defaultForm (h : DefaultForm line) : ¬ NamedForm x line := by
  have hdefault : ∀ c ∈ "default".toList, isBlank c = false := by decide
  have hasync : ∀ c ∈ "async".toList, isBlank c = false := by decide
  have hne (k : ExportKind) : "default" ≠ Vocabulary.word k := by cases k <;> decide
  cases h with
  | @intro a b ha hb rest =>
    intro hnamed
    obtain ⟨r, hread⟩ := hb.exists_read_keyword "default" rest
    have hmark : keyword? "async" ("default".toList ++ (b ++ rest)) = none := by
      rw [Option.eq_none_iff_forall_ne_some]
      intro r' hread'
      exact absurd (keyword?_inj hdefault hasync hread hread').1 (by decide)
    have hname := namedExport?_iff.mpr hnamed
    rw [namedExport?, ha.read_keyword "export" (head?_default_not_blank _)] at hname
    dsimp only at hname
    rw [skipKeyword_eq_self hmark] at hname
    split at hname
    · cases hname
    · next r' hfound =>
      obtain ⟨k, hread'⟩ := findSome?_declaringKeywords.mp hfound
      exact hne k (keyword?_inj hdefault (noBlank_exportKind k) hread hread').1

end Exports

/-! ## Kinds -/

section Kinds

variable {line : List Char}

theorem hasWord_exportKind_iff {k : ExportKind} : hasWord (Vocabulary.word k) line = true ↔
    StandsIn (Vocabulary.word k).toList line :=
  hasWord_iff (by cases k <;> decide) (isWord_exportKind k)

theorem isKindOf_exportKind : IsKindOf line (exportKind line) := by
  rw [exportKind]
  cases hfound : Vocabulary.all.find? fun k : ExportKind => hasWord (Vocabulary.word k) line with
  | none =>
    refine .inr ⟨rfl, fun k hk => ?_⟩
    have hk' := List.find?_eq_none.mp hfound k
      (List.mem_of_find?_eq_some (LawfulVocabulary.ofWord?_word k))
    exact hk' (hasWord_exportKind_iff.mpr hk)
  | some k =>
    obtain ⟨hk, before, after, hall, hbefore⟩ := List.find?_eq_some_iff_append.mp hfound
    refine .inl ⟨before, after, hall, hasWord_exportKind_iff.mp hk, fun k' hk' hstands => ?_⟩
    have hnot := hbefore k' hk'
    rw [hasWord_exportKind_iff.mpr hstands] at hnot
    cases hnot

end Kinds

/-! ## Lines -/

/-- The edges of a line are those of the import and of the first call on it. -/
structure ImportsOnLine (path : String) (number : Nat) (line : List Char)
    (edges : List ImportEdge) : Prop where
  parts : ∃ declared required : Option ImportEdge, edges = declared.toList ++ required.toList ∧
    (∀ s, (∃ e ∈ declared, e.specifier.toList = s) ↔ ImportForm s line) ∧
    (∀ s, (∃ e ∈ required, e.specifier.toList = s) ↔ FirstRequire s line) ∧
    (required.isSome = true ↔ ∃ s, RequireForm s line)
  origin : ∀ e ∈ edges, e.fromPath = path ∧ e.line = number ∧
    e.kind = specifierKind e.specifier ∧ e.resolved = none

/-- A line has at most one symbol, which is named or a default. -/
structure ExportsOnLine (number : Nat) (line : List Char) (symbols : List ExportSymbol) :
    Prop where
  named_iff : ∀ x, (∃ y ∈ symbols, y.isDefault = false ∧ y.name.toList = x) ↔ NamedForm x line
  default_iff : (∃ y ∈ symbols, y.isDefault = true) ↔ DefaultForm line
  length_le : symbols.length ≤ 1
  apart : ¬ ((∃ x, NamedForm x line) ∧ DefaultForm line)
  origin : ∀ y ∈ symbols, y.line = number ∧ ∃ k, y.kind = .known k ∧ IsKindOf line k

theorem importsOnLine_lineImports (path : String) (number : Nat) (line : List Char) :
    ImportsOnLine path number line (lineImports path number line) where
  parts := by
    let edge (specifier : String) (symbols : List String) : ImportEdge :=
      { fromPath := path, specifier, kind := specifierKind specifier, line := number, symbols }
    refine ⟨(importLine? line).map fun found => edge (.ofList found.2) (symbolsOf line),
      (requireCall? line).map fun s => edge (.ofList s) [], ?_, fun s => ?_, fun s => ?_, ?_⟩
    · rw [lineImports]
      cases importLine? line <;> cases requireCall? line <;> rfl
    · rw [← importLine?_iff]
      cases importLine? line <;> simp [edge, Prod.ext_iff]
    · rw [← requireCall?_iff]
      cases requireCall? line <;> simp [edge]
    · rw [← isSome_requireCall?_iff, Option.isSome_map]
  origin e he := by
    rw [lineImports] at he
    rcases List.mem_append.mp he with he | he
    all_goals
      split at he
      · rw [List.mem_singleton.mp he]
        exact ⟨rfl, rfl, rfl, rfl⟩
      · cases he

theorem exportsOnLine_lineExports (number : Nat) (line : List Char) :
    ExportsOnLine number line (lineExports number line) := by
  have hapart : ¬ ((∃ x, NamedForm x line) ∧ DefaultForm line) :=
    fun ⟨⟨_, hnamed⟩, hdefault⟩ => not_namedForm_of_defaultForm hdefault hnamed
  rw [lineExports]
  cases hnamed : namedExport? line with
  | some name =>
    have hform := namedExport?_iff.mp hnamed
    constructor
    case named_iff => intro x; simp [← namedExport?_iff, hnamed]
    case default_iff => simpa using fun hdefault => hapart ⟨⟨name, hform⟩, hdefault⟩
    case length_le => simp
    case apart => exact hapart
    case origin => simpa using isKindOf_exportKind
  | none =>
    have hform (x : List Char) : ¬ NamedForm x line := by simp [← namedExport?_iff, hnamed]
    cases hdefault : defaultExport? line with
    | some name =>
      constructor
      case named_iff => intro x; simp [hform x]
      case default_iff => simp [← isSome_defaultExport?_iff, hdefault]
      case length_le => simp
      case apart => exact hapart
      case origin => simpa using isKindOf_exportKind
    | none =>
      constructor
      case named_iff => intro x; simp [hform x]
      case default_iff => simp [← isSome_defaultExport?_iff, hdefault]
      case length_le => simp
      case apart => exact hapart
      case origin => simp

/-! ## Texts -/

theorem numberedLines_eq_map (text : String) : numberedLines text =
    ((splitOn '\n' text.toList).zipIdx 1).map fun line => (line.2, strip line.1) := by
  rw [numberedLines, List.zipIdx_map, List.map_map]
  rfl

/-- What is found in a text is, line by line and in their order, what the forms say of each. -/
theorem textual_grammar (path text : String) : ∃ imports exports,
    Extractor.textual path text = .ok ⟨imports.flatten, exports.flatten⟩ ∧
      List.Forall₂ (fun line edges => ImportsOnLine path line.2 (strip line.1) edges)
        ((splitOn '\n' text.toList).zipIdx 1) imports ∧
      List.Forall₂ (fun line symbols => ExportsOnLine line.2 (strip line.1) symbols)
        ((splitOn '\n' text.toList).zipIdx 1) exports := by
  refine ⟨((splitOn '\n' text.toList).zipIdx 1).map fun l => lineImports path l.2 (strip l.1),
    ((splitOn '\n' text.toList).zipIdx 1).map fun l => lineExports l.2 (strip l.1), ?_, ?_, ?_⟩
  · simp only [Extractor.textual, importsOf, exportsOf, numberedLines_eq_map,
      List.flatMap_def, List.map_map, Function.comp_def]
  · rw [List.forall₂_map_right_iff, List.forall₂_same]
    exact fun l _ => importsOnLine_lineImports path l.2 (strip l.1)
  · rw [List.forall₂_map_right_iff, List.forall₂_same]
    exact fun l _ => exportsOnLine_lineExports l.2 (strip l.1)

end Source

end ChangeImpact
