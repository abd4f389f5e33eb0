import ChangeImpact.Proofs.Source.ImportForms

/-!
# Proofs.Source.ExportForms

The supported export forms as lines of their own.

* `exportKind_of_hasWord`  — the kind of a line is that of the only keyword on it.
* `namedExport?_exported`  — the name of a named export is read.
* `defaultExport?_default` — the name of a default export is read off what follows it.
* `Declaration.lineExports_text` — the line of any declaration holds its own symbol only.
-/

namespace ChangeImpact

namespace Source

open Text

/-! ## Keywords -/

theorem word_exportKind_inj {k k' : ExportKind} :
    Vocabulary.word k = Vocabulary.word k' ↔ k = k' := by
  cases k <;> cases k' <;> decide

theorem isWord_exportKind (k : ExportKind) :
    ∀ c ∈ (Vocabulary.word k).toList, isWordChar c = true := by
  cases k <;> decide

theorem noBlank_exportKind (k : ExportKind) :
    ∀ c ∈ (Vocabulary.word k).toList, isBlank c = false :=
  fun c hc => isBlank_of_isWordChar (isWord_exportKind k c hc)

theorem exportKind_of_hasWord {line : List Char} {found : Option ExportKind}
    (h : ∀ k, hasWord (Vocabulary.word k) line = decide (found = some k)) :
    exportKind line = found.getD .varDecl := by
  simp only [exportKind, h]
  cases found with
  | none => rfl
  | some k => cases k <;> rfl

/-- A word on a line is a keyword or stands in front of those that come later. -/
theorem hasWord_exportKind {w : String} {rest : List Char} (k : ExportKind) (hne : w ≠ "")
    (hw : ∀ c ∈ w.toList, isWordChar c = true) (hrest : wordEnds rest = true) :
    hasWord (Vocabulary.word k) (w.toList ++ rest) =
      (decide (w = Vocabulary.word k) || hasWord (Vocabulary.word k) rest) := by
  rw [hasWord_append (isWord_exportKind k) (by simpa using hne) hw hrest]
  simp only [String.toList_inj]

theorem word?_self (x : Word) : word? x.text.toList = some (x.text.toList, []) :=
  word?_eq_some_iff.mpr ⟨x.isWord_text, by simp, rfl⟩

theorem keyword?_trimmed {k : String} {s : List Char} (hs : Trimmed s) :
    keyword? k (k.toList ++ ' ' :: s) = some s := by
  obtain ⟨c, s, rfl⟩ := List.exists_cons_of_ne_nil hs.ne_nil
  exact keyword?_append (hs.first c rfl) s

theorem skipKeyword_eq_self {k : String} {s : List Char} (h : keyword? k s = none) :
    skipKeyword k s = s := by
  rw [skipKeyword, h]
  rfl

/-- An optional keyword in front of what does not start with it. -/
theorem skipKeyword_async {s : List Char} (hs : Trimmed s) (h : keyword? "async" s = none)
    (isAsync : Bool) :
    skipKeyword "async" ((Declaration.asyncText isAsync).toList ++ s) = s := by
  cases isAsync with
  | false => exact skipKeyword_eq_self h
  | true =>
    have hline : (Declaration.asyncText true).toList ++ s = "async".toList ++ ' ' :: s := rfl
    rw [skipKeyword, hline, keyword?_trimmed hs]
    rfl

theorem trimmed_async {s : List Char} (hs : Trimmed s) (isAsync : Bool) :
    Trimmed ((Declaration.asyncText isAsync).toList ++ s) := by
  cases isAsync with
  | false => exact hs
  | true => exact Trimmed.append (a := "async".toList) ⟨by decide, by decide, by decide⟩ hs [' ']

/-! ## Named exports -/

section Named

variable (k : ExportKind) (x : Word)

theorem trimmed_keyword : Trimmed ((Vocabulary.word k).toList ++ ' ' :: x.text.toList) := by
  have hk : Trimmed (Vocabulary.word k).toList := by
    cases k <;> exact ⟨by decide, by decide, by decide⟩
  simpa using hk.append x.trimmed [' ']

theorem keyword?_exportKind (k' : ExportKind) :
    keyword? (Vocabulary.word k') ((Vocabulary.word k).toList ++ ' ' :: x.text.toList) =
      if k' = k then some x.text.toList else none := by
  split
  · next h =>
    rw [h]
    exact keyword?_trimmed x.trimmed
  · next h =>
    refine keyword?_spaced (noBlank_exportKind k') (noBlank_exportKind k) fun he => h ?_
    exact (word_exportKind_inj.mp (String.toList_inj.mp he)).symm

theorem namedExport?_exported (isAsync : Bool) :
    namedExport? ("export ".toList ++ (Declaration.asyncText isAsync).toList ++
      (Vocabulary.word k).toList ++ ' ' :: x.text.toList) = some x.text.toList := by
  have hasync : keyword? "async" ((Vocabulary.word k).toList ++ ' ' :: x.text.toList) = none :=
    keyword?_spaced (by decide) (noBlank_exportKind k) (by cases k <;> decide)
  have hline : "export ".toList ++ (Declaration.asyncText isAsync).toList ++
      (Vocabulary.word k).toList ++ ' ' :: x.text.toList =
        "export".toList ++ ' ' :: ((Declaration.asyncText isAsync).toList ++
          ((Vocabulary.word k).toList ++ ' ' :: x.text.toList)) := by
    simp
  have hfound : (declaringKeywords.findSome? fun k' =>
      keyword? k' ((Vocabulary.word k).toList ++ ' ' :: x.text.toList)) =
        some x.text.toList := by
    simp only [declaringKeywords, Vocabulary.words, List.findSome?_map, Function.comp_def,
      keyword?_exportKind]
    cases k <;> rfl
  rw [namedExport?, hline, keyword?_trimmed (trimmed_async (trimmed_keyword k x) isAsync)]
  simp only [skipKeyword_async (trimmed_keyword k x) hasync, hfound, word?_self, Option.map_some]

end Named

/-! ## Default exports -/

section Default

variable {t : List Char}

theorem trimmed_default (ht : Trimmed t) : Trimmed ("default".toList ++ ' ' :: t) :=
  Trimmed.append (a := "default".toList) ⟨by decide, by decide, by decide⟩ ht [' ']

theorem namedExport?_default (ht : Trimmed t) :
    namedExport? ("export default ".toList ++ t) = none := by
  have hdefault : ∀ k ∈ declaringKeywords,
      (∀ c ∈ k.toList, isBlank c = false) ∧ "default".toList ≠ k.toList := by decide
  have hasync : keyword? "async" ("default".toList ++ ' ' :: t) = none :=
    keyword?_spaced (by decide) (by decide) (by decide)
  have hnone : (declaringKeywords.findSome? fun k =>
      keyword? k ("default".toList ++ ' ' :: t)) = none :=
    List.findSome?_eq_none_iff.mpr fun k hk =>
      keyword?_spaced (hdefault k hk).1 (by decide) (hdefault k hk).2
  have hline : "export default ".toList ++ t =
      "export".toList ++ ' ' :: ("default".toList ++ ' ' :: t) := rfl
  rw [namedExport?, hline, keyword?_trimmed (trimmed_default ht)]
  simp only [skipKeyword_eq_self hasync, hnone]

theorem defaultExport?_default (ht : Trimmed t) :
    defaultExport? ("export default ".toList ++ t) =
      some (((word? (declarationName t)).map (·.1)).getD "default".toList) := by
  have hline : "export default ".toList ++ t =
      "export".toList ++ ' ' :: ("default".toList ++ ' ' :: t) := rfl
  rw [defaultExport?, hline, keyword?_trimmed (trimmed_default ht)]
  dsimp only
  rw [keyword?_trimmed ht]
  dsimp only
  cases word? (declarationName t) <;> rfl

/-- A name alone is not taken for a declaration, even if it starts like one. -/
theorem declarationName_word (x : Word) : declarationName x.text.toList = x.text.toList := by
  have hasync : skipKeyword "async" x.text.toList = x.text.toList :=
    skipKeyword_eq_self (keyword?_unspaced x.noBlank)
  have hclass : skipKeyword "class" x.text.toList = x.text.toList :=
    skipKeyword_eq_self (keyword?_unspaced x.noBlank)
  have hfunction : afterFunction? x.text.toList = none := by
    rw [afterFunction?, hasync]
    cases hafter : after? "function".toList x.text.toList with
    | none => rfl
    | some rest =>
      have hrest := after?_eq_some_iff.mp hafter
      cases rest with
      | nil => rfl
      | cons c rest =>
        have hc : isWordChar c = true := x.isWord c (by simp [hrest])
        have hblank : isBlank c = false := isBlank_of_isWordChar hc
        have hstar : c ≠ '*' := by
          rintro rfl
          exact absurd hc (by decide)
        have hparenthesis : c ≠ '(' := by
          rintro rfl
          exact absurd hc (by decide)
        simp [callFollows, hblank, hstar, hparenthesis]
  rw [declarationName, hfunction]
  exact hclass

theorem trimmed_function (x : Word) :
    Trimmed ("function ".toList ++ x.text.toList ++ "()".toList) := by
  have hends := Trimmed.append (a := "function".toList) (b := "()".toList)
    ⟨by decide, by decide, by decide⟩ ⟨by decide, by decide, by decide⟩ (' ' :: x.text.toList)
  simpa using hends

theorem declarationName_function (isAsync : Bool) (x : Word) :
    declarationName ((Declaration.asyncText isAsync).toList ++
      ("function ".toList ++ x.text.toList ++ "()".toList)) = x.text.toList ++ "()".toList := by
  have hline : "function ".toList ++ x.text.toList ++ "()".toList =
      "function".toList ++ ' ' :: (x.text.toList ++ "()".toList) := by
    simp
  have hasync : keyword? "async" ("function ".toList ++ x.text.toList ++ "()".toList) = none := by
    rw [hline]
    exact keyword?_spaced (by decide) (by decide) (by decide)
  have hspace : ∀ c ∈ [' '], isBlank c = true := by decide
  have hfirst : ∀ c ∈ (x.text.toList ++ "()".toList).head?, isBlank c = false := by
    obtain ⟨c, cs, hcs⟩ := List.exists_cons_of_ne_nil x.ne_nil
    have hc := x.trimmed.first
    rw [hcs] at hc ⊢
    exact hc
  have hdrop : (' ' :: (x.text.toList ++ "()".toList)).dropWhile isBlank =
      x.text.toList ++ "()".toList :=
    dropWhile_blanks hspace hfirst
  have hfunction : afterFunction? ((Declaration.asyncText isAsync).toList ++
      ("function ".toList ++ x.text.toList ++ "()".toList)) =
        some ((' ' :: (x.text.toList ++ "()".toList)).dropWhile isBlank) := by
    rw [afterFunction?, skipKeyword_async (trimmed_function x) hasync, hline, after?_append]
    rfl
  rw [declarationName, hfunction]
  exact hdrop

theorem trimmed_class (x : Word) :
    Trimmed ("class ".toList ++ x.text.toList ++ " \x7b".toList) := by
  have hends := Trimmed.append (a := "class".toList) (b := "\x7b".toList)
    ⟨by decide, by decide, by decide⟩ ⟨by decide, by decide, by decide⟩
    (' ' :: x.text.toList ++ [' '])
  simpa using hends

theorem declarationName_class (x : Word) :
    declarationName ("class ".toList ++ x.text.toList ++ " \x7b".toList) =
      x.text.toList ++ " \x7b".toList := by
  have hline : "class ".toList ++ x.text.toList ++ " \x7b".toList =
      "class".toList ++ ' ' :: (x.text.toList ++ " \x7b".toList) := by
    simp
  have hasync : keyword? "async"
      ("class".toList ++ ' ' :: (x.text.toList ++ " \x7b".toList)) = none :=
    keyword?_spaced (by decide) (by decide) (by decide)
  have hfunction : after? "function".toList
      ("class".toList ++ ' ' :: (x.text.toList ++ " \x7b".toList)) = none := rfl
  have hrest : Trimmed (x.text.toList ++ " \x7b".toList) := by
    simpa using x.trimmed.append (b := "\x7b".toList) ⟨by decide, by decide, by decide⟩ [' ']
  rw [hline, declarationName, afterFunction?, skipKeyword_eq_self hasync, hfunction]
  dsimp only
  rw [skipKeyword, keyword?_trimmed hrest]
  rfl

end Default

/-! ## Kinds -/

section Kinds

/-- A name is passed over. -/
theorem hasWord_name (x : Word) (k : ExportKind) {rest : List Char} (hrest : wordEnds rest = true) :
    hasWord (Vocabulary.word k) (x.text.toList ++ rest) = hasWord (Vocabulary.word k) rest := by
  rw [hasWord_exportKind k x.ne_empty x.isWord hrest, decide_eq_false (x.notDeclaring k),
    Bool.false_or]

theorem hasWord_nameEnd (x : Word) (k : ExportKind) :
    hasWord (Vocabulary.word k) x.text.toList = false := by
  have hends : wordEnds [] = true := rfl
  have hend := hasWord_name x k hends
  rw [List.append_nil] at hend
  rw [hend]
  rfl

theorem hasWord_keyword (k k' : ExportKind) {rest : List Char} (hrest : wordEnds rest = true) :
    hasWord (Vocabulary.word k') ((Vocabulary.word k).toList ++ rest) =
      (decide (k = k') || hasWord (Vocabulary.word k') rest) := by
  have hne : Vocabulary.word k ≠ "" := by cases k <;> decide
  rw [hasWord_exportKind k' hne (isWord_exportKind k) hrest]
  simp only [word_exportKind_inj]

/-- The fixed words of an export are none of the keywords. -/
def Word.opening (w : String) (h : w = "export" ∨ w = "default" ∨ w = "async") : Word where
  text := w
  ne_empty := by rcases h with rfl | rfl | rfl <;> decide
  isWord := by rcases h with rfl | rfl | rfl <;> decide
  notDeclaring k := by rcases h with rfl | rfl | rfl <;> cases k <;> decide

theorem hasWord_space (k : ExportKind) (rest : List Char) :
    hasWord (Vocabulary.word k) (' ' :: rest) = hasWord (Vocabulary.word k) rest :=
  hasWord_cons (by decide)

theorem hasWord_export (k : ExportKind) (rest : List Char) :
    hasWord (Vocabulary.word k) ("export ".toList ++ rest) = hasWord (Vocabulary.word k) rest := by
  have hword := hasWord_name (Word.opening "export" (by simp)) k (wordEnds_space rest)
  exact hword.trans (hasWord_space k rest)

theorem hasWord_default (k : ExportKind) (rest : List Char) :
    hasWord (Vocabulary.word k) ("export default ".toList ++ rest) =
      hasWord (Vocabulary.word k) rest := by
  have hword := hasWord_name (Word.opening "default" (by simp)) k (wordEnds_space rest)
  exact (hasWord_export k ("default ".toList ++ rest)).trans (hword.trans (hasWord_space k rest))

theorem hasWord_async (isAsync : Bool) (k : ExportKind) (rest : List Char) :
    hasWord (Vocabulary.word k) ((Declaration.asyncText isAsync).toList ++ rest) =
      hasWord (Vocabulary.word k) rest := by
  cases isAsync with
  | false => rfl
  | true =>
    have hword := hasWord_name (Word.opening "async" (by simp)) k (wordEnds_space rest)
    exact hword.trans (hasWord_space k rest)

end Kinds

/-! ## All declarations -/

namespace Declaration

/-- The keyword on the line of an export. -/
def keyword? : Declaration → Option ExportKind
  | exported _ k _ => some k
  | exportedFunction _ _ => some .functionDecl
  | exportedNameless => some .functionDecl
  | exportedClass _ => some .classDecl
  | _ => none

/-- No other keyword stands on it. -/
theorem hasWord_text {d : Declaration} (h : d.imports? = none) (k : ExportKind) :
    hasWord (Vocabulary.word k) d.text.toList = decide (d.keyword? = some k) := by
  cases d with
  | exported isAsync k' x =>
    have hline : (exported isAsync k' x).text.toList = "export ".toList ++
        ((asyncText isAsync).toList ++ ((Vocabulary.word k').toList ++ ' ' :: x.text.toList)) := by
      dsimp only [text]
      simp
    rw [hline, hasWord_export, hasWord_async, hasWord_keyword k' k rfl, hasWord_space,
      hasWord_nameEnd]
    simp [keyword?]
  | exportedDefault x =>
    have hline : (exportedDefault x).text.toList = "export default ".toList ++ x.text.toList := by
      dsimp only [text]
      simp
    rw [hline, hasWord_default, hasWord_nameEnd]
    rfl
  | exportedFunction isAsync x =>
    have hline : (exportedFunction isAsync x).text.toList = "export default ".toList ++
        ((asyncText isAsync).toList ++ ((Vocabulary.word ExportKind.functionDecl).toList ++
          ' ' :: (x.text.toList ++ "()".toList))) := by
      dsimp only [text]
      simp [Vocabulary.word]
    rw [hline, hasWord_default, hasWord_async, hasWord_keyword .functionDecl k rfl, hasWord_space,
      hasWord_name x k rfl]
    cases k <;> rfl
  | exportedNameless => cases k <;> rfl
  | exportedClass x =>
    have hline : (exportedClass x).text.toList = "export default ".toList ++
        ((Vocabulary.word ExportKind.classDecl).toList ++
          ' ' :: (x.text.toList ++ " \x7b".toList)) := by
      dsimp only [text]
      simp [Vocabulary.word]
    rw [hline, hasWord_default, hasWord_keyword .classDecl k rfl, hasWord_space,
      hasWord_name x k rfl]
    cases k <;> rfl
  | _ => cases h

theorem exportKind_text {d : Declaration} (h : d.imports? = none) :
    exportKind d.text.toList = d.keyword?.getD .varDecl :=
  exportKind_of_hasWord (hasWord_text h)

theorem lineExports_exported (isAsync : Bool) (k : ExportKind) (x : Word) (number : Nat) :
    lineExports number (exported isAsync k x).text.toList =
      ((exported isAsync k x).symbol? number).toList := by
  have hline : (exported isAsync k x).text.toList = "export ".toList ++
      (asyncText isAsync).toList ++ (Vocabulary.word k).toList ++ ' ' :: x.text.toList := by
    dsimp only [text]
    simp
  have hname : namedExport? (exported isAsync k x).text.toList = some x.text.toList := by
    rw [hline, namedExport?_exported]
  have hkind : exportKind (exported isAsync k x).text.toList = k := exportKind_text rfl
  simp only [lineExports, hname, hkind, String.ofList_toList]
  rfl

/-- What is written after `export default` gives the name. -/
theorem lineExports_default {d : Declaration} {t : List Char} {name : String}
    (hd : d.imports? = none) (hline : d.text.toList = "export default ".toList ++ t)
    (ht : Trimmed t)
    (hname : ((word? (declarationName t)).map (·.1)).getD "default".toList = name.toList)
    (number : Nat) :
    lineExports number d.text.toList =
      [{ name, kind := d.keyword?.getD .varDecl, line := number, isDefault := true }] := by
  have hnamed : namedExport? d.text.toList = none := by rw [hline, namedExport?_default ht]
  have hdefault : defaultExport? d.text.toList = some name.toList := by
    rw [hline, defaultExport?_default ht, hname]
  simp only [lineExports, hnamed, hdefault, exportKind_text hd, String.ofList_toList]

theorem lineExports_import {d : Declaration} (h : d.imports?.isSome) (number : Nat) :
    lineExports number d.text.toList = [] := by
  have hkeyword : Source.keyword? "export" d.text.toList = none := by
    cases d <;> cases h <;> dsimp only [text] <;> simp [Source.keyword?, after?]
  rw [lineExports, namedExport?, defaultExport?, hkeyword]

/-- The line of a declaration holds the symbol that it gives out, and no other one. -/
theorem lineExports_text (d : Declaration) (number : Nat) :
    lineExports number d.text.toList = (d.symbol? number).toList := by
  cases d with
  | exported isAsync k x => exact lineExports_exported isAsync k x number
  | exportedDefault x =>
    have hline : (exportedDefault x).text.toList = "export default ".toList ++ x.text.toList := by
      dsimp only [text]
      simp
    refine lineExports_default rfl hline x.trimmed ?_ number
    rw [declarationName_word, word?_self]
    rfl
  | exportedFunction isAsync x =>
    have hline : (exportedFunction isAsync x).text.toList = "export default ".toList ++
        ((asyncText isAsync).toList ++ ("function ".toList ++ x.text.toList ++ "()".toList)) := by
      dsimp only [text]
      simp
    refine lineExports_default rfl hline (trimmed_async (trimmed_function x) isAsync) ?_ number
    have hword : word? (x.text.toList ++ "()".toList) = some (x.text.toList, "()".toList) :=
      x.isWord_text.read rfl
    rw [declarationName_function, hword]
    rfl
  | exportedNameless =>
    have hline : exportedNameless.text.toList =
        "export default ".toList ++ "function ()".toList := by decide
    exact lineExports_default rfl hline ⟨by decide, by decide, by decide⟩ (by decide) number
  | exportedClass x =>
    have hline : (exportedClass x).text.toList =
        "export default ".toList ++ ("class ".toList ++ x.text.toList ++ " \x7b".toList) := by
      dsimp only [text]
      simp
    refine lineExports_default rfl hline (trimmed_class x) ?_ number
    have hword : word? (x.text.toList ++ " \x7b".toList) = some (x.text.toList, " \x7b".toList) :=
      x.isWord_text.read rfl
    rw [declarationName_class, hword]
    rfl
  | _ => exact lineExports_import rfl number

end Declaration

end Source

end ChangeImpact
