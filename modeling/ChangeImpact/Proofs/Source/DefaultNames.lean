import ChangeImpact.Proofs.Source.Grammar

/-!
# Proofs.Source.DefaultNames

What the default export of a function or a class is called.

* `Gap`                 — white space of a script, of which U+FEFF separates no words here.
* `Title`               — the name of a declaration, or that it has none, and the gaps around it.
* `FunctionHead`, `ClassHead`, `DefaultLine` — the declarations, and the lines that export them.
* `isRead`              — the spellings that are read.
* `Called`              — the declared name, or a word of the language.
* `FunctionHead.called`, `ClassHead.called` — what each declaration is called.
* `declared_names`      — so it is on each line of every text.
* `not_declared_names`  — words of the language in place of names.
-/

namespace ChangeImpact

namespace Source

open Text

/-! ## Declarations -/

def isSpacing (c : Char) : Bool := isBlank c || c = '\ufeff'

/-- White space between two tokens, or none. -/
structure Gap where
  text : List Char
  spacing : ∀ c ∈ text, isSpacing c = true

namespace Gap

def isBlank (g : Gap) : Bool := g.text.all Text.isBlank

/-- It starts with a blank. -/
def opens (g : Gap) : Bool := g.text.head?.any Text.isBlank

/-- What is left of it behind the blanks at its start. -/
def afterBlanks (g : Gap) : List Char := g.text.dropWhile Text.isBlank

end Gap

/-- The words that name nothing. -/
def reservedWords : List String :=
  ["await", "break", "case", "catch", "class", "const", "continue", "debugger", "default",
    "delete", "do", "else", "enum", "export", "extends", "false", "finally", "for", "function",
    "if", "import", "in", "instanceof", "new", "null", "return", "super", "switch", "this",
    "throw", "true", "try", "typeof", "var", "void", "while", "with", "yield"]

structure DeclaredName where
  text : List Char
  isWord : IsWord text
  notReserved : ∀ w ∈ reservedWords, w.toList ≠ text

/-- The name that a declaration gives, if it gives one, between two gaps. -/
inductive Title where
  | named (gap : Gap) (name : DeclaredName) (behind : Gap)
  | anonymous (gap : Gap)

namespace Title

def text : Title → List Char
  | named gap name behind => gap.text ++ (name.text ++ behind.text)
  | anonymous gap => gap.text

def name : Title → List Char
  | named _ name _ => name.text
  | anonymous _ => "default".toList

def isAnonymous : Title → Bool
  | named .. => false
  | anonymous _ => true

/-- The gap behind everything else. -/
def last : Title → Gap
  | named _ _ behind => behind
  | anonymous gap => gap

/-- A name does not stand right behind a keyword. -/
def Apart : Title → Prop
  | named gap _ _ => gap.text ≠ []
  | anonymous _ => True

/-- Behind `function` or its star: a name only behind blanks, a parenthesis also at once. -/
def isRead : Title → Bool
  | named gap _ _ => gap.opens && gap.isBlank
  | anonymous gap => gap.text.isEmpty || gap.opens

end Title

/-- The mark for asynchronous functions with the gap behind it. -/
def markText (mark : Option Gap) : List Char := (mark.map ("async".toList ++ ·.text)).getD []

theorem markText_none : markText none = [] := rfl

theorem markText_some (gap : Gap) : markText (some gap) = "async".toList ++ gap.text := rfl

/-- The star of a generator with the gap in front of it. -/
def starText : Option Gap → List Char
  | none => []
  | some gap => gap.text ++ ['*']

/-- A function up to its parameters, and anything after that. -/
structure FunctionHead where
  mark : Option Gap
  star : Option Gap
  title : Title
  rest : List Char
  markApart : ∀ gap ∈ mark, gap.text ≠ []
  apart : star = none → title.Apart

namespace FunctionHead

def text (f : FunctionHead) : List Char :=
  markText f.mark ++ ("function".toList ++ (starText f.star ++ (f.title.text ++ '(' :: f.rest)))

-- rewriting with `text` itself would evaluate the word
theorem text_eq (f : FunctionHead) : f.text = markText f.mark ++
    ("function".toList ++ (starText f.star ++ (f.title.text ++ '(' :: f.rest))) := rfl

/-- A star is read past only right behind `function`. -/
def isRead (f : FunctionHead) : Bool :=
  f.mark.all Gap.isBlank &&
    match f.star with
    | none => f.title.isRead
    | some gap =>
      if gap.text.isEmpty then f.title.isRead else f.title.isAnonymous && gap.opens

end FunctionHead

def heritageText (heritage : Option (List Char)) : List Char :=
  (heritage.map ("extends".toList ++ ·)).getD []

/-- A class up to its body, and anything after that. -/
structure ClassHead where
  title : Title
  /-- The expression behind `extends` with its gaps. -/
  heritage : Option (List Char)
  rest : List Char
  apart : title.Apart
  heritageApart : ∀ e ∈ heritage, title.last.text ≠ [] ∧ wordEnds e = true

namespace ClassHead

/-- What stands behind the title. -/
def body (c : ClassHead) : List Char := heritageText c.heritage ++ '\x7b' :: c.rest

def text (c : ClassHead) : List Char := "class".toList ++ (c.title.text ++ c.body)

theorem text_eq (c : ClassHead) : c.text = "class".toList ++ (c.title.text ++ c.body) := rfl

/-- Behind blanks, and where no other word stands in the place of the name. -/
def isRead (c : ClassHead) : Bool :=
  match c.title with
  | .named gap _ _ => gap.isBlank
  | .anonymous gap => gap.opens && (c.heritage.isNone || !gap.isBlank)

end ClassHead

inductive DefaultDeclaration where
  | function (f : FunctionHead)
  | classDecl (c : ClassHead)

namespace DefaultDeclaration

def text : DefaultDeclaration → List Char
  | function f => f.text
  | classDecl c => c.text

def title : DefaultDeclaration → Title
  | function f => f.title
  | classDecl c => c.title

def isRead : DefaultDeclaration → Bool
  | function f => f.isRead
  | classDecl c => c.isRead

end DefaultDeclaration

/-- A line that exports a declaration as the default. -/
structure DefaultLine where
  before : Gap
  behind : Gap
  declaration : DefaultDeclaration
  beforeApart : before.text ≠ []
  behindApart : behind.text ≠ []

namespace DefaultLine

def text (l : DefaultLine) : List Char :=
  "export".toList ++ (l.before.text ++ ("default".toList ++ (l.behind.text ++ l.declaration.text)))

theorem text_eq (l : DefaultLine) : l.text = "export".toList ++ (l.before.text ++
    ("default".toList ++ (l.behind.text ++ l.declaration.text))) := rfl

/-- The declared name, `default` where there is none. -/
def declared (l : DefaultLine) : List Char := l.declaration.title.name

/-- It is taken for a default export at all. -/
def isFound (l : DefaultLine) : Bool := l.before.isBlank && l.behind.opens

def isRead (l : DefaultLine) : Bool :=
  l.isFound &&
    if l.behind.isBlank then l.declaration.isRead else l.declaration.title.isAnonymous

end DefaultLine

/-- Words that come in place of a name. -/
def strayWords : List String := ["default", "async", "function", "class", "extends"]

/-- What a declaration is called that is read, and one that is not. It can be its name by chance,
if that is `async`. -/
inductive Called (declared : List Char) : Bool → List Char → Prop
  | read : Called declared true declared
  | stray {w : String} (hw : w ∈ strayWords) (hasync : w.toList = declared → w = "async") :
      Called declared false w.toList

/-! ## Words at the front of a text -/

/-- The word at the front of a text, `default` where there is none. -/
def firstName (s : List Char) : List Char := ((word? s).map (·.1)).getD "default".toList

section Front

variable {s u w : List Char}

theorem firstName_word (hw : IsWord w) (hu : wordEnds u = true) : firstName (w ++ u) = w := by
  rw [firstName, hw.read hu]
  rfl

theorem IsWord.wordEnds_append (hw : IsWord w) (u : List Char) : wordEnds (w ++ u) = false := by
  obtain ⟨c, cs, rfl⟩ := List.exists_cons_of_ne_nil hw.ne_nil
  simp [wordEnds, hw.word c List.mem_cons_self]

theorem firstName_of_wordEnds (h : wordEnds s = true) : firstName s = "default".toList := by
  have hnone : word? s = none := by
    rw [Option.eq_none_iff_forall_ne_some]
    rintro ⟨w, r⟩ hread
    obtain ⟨hw, rfl, _⟩ := word?_eq_some_iff.mp hread
    rw [hw.wordEnds_append] at h
    cases h
  rw [firstName, hnone]
  rfl

/-- No word stands where none starts. -/
theorem after?_of_wordEnds (hw : IsWord w) (h : wordEnds s = true) : after? w s = none := by
  rw [Option.eq_none_iff_forall_ne_some]
  intro r hread
  rw [after?_eq_some_iff.mp hread, hw.wordEnds_append] at h
  cases h

theorem after?_of_head? (hne : w ≠ []) (h : w.head? ≠ s.head?) : after? w s = none := by
  rw [Option.eq_none_iff_forall_ne_some]
  intro r hread
  rw [after?_eq_some_iff.mp hread, List.head?_append_of_ne_nil _ hne] at h
  exact h rfl

theorem isWord_literal {k : String} (hne : k.toList ≠ []) (h : k.toList.all isWordChar = true) :
    IsWord k.toList := ⟨hne, List.all_eq_true.mp h⟩

theorem skipKeyword_of_after? {k : String} (h : after? k.toList s = none) :
    skipKeyword k s = s := by
  rw [skipKeyword, keyword?, h]
  rfl

/-- Nothing is passed over in front of what is no word. -/
theorem declarationName_of_wordEnds (h : wordEnds s = true) : declarationName s = s := by
  have hasync : after? "async".toList s = none :=
    after?_of_wordEnds (isWord_literal (by decide) (by decide)) h
  have hfunction : after? "function".toList s = none :=
    after?_of_wordEnds (isWord_literal (by decide) (by decide)) h
  have hclass : after? "class".toList s = none :=
    after?_of_wordEnds (isWord_literal (by decide) (by decide)) h
  rw [declarationName, afterFunction?, skipKeyword_of_after? hasync, hfunction]
  exact skipKeyword_of_after? hclass

end Front

/-! ## Gaps -/

namespace Gap

variable (g : Gap) {u : List Char}

theorem not_word {c : Char} (h : isSpacing c = true) : isWordChar c = false := by
  rw [isSpacing, Bool.or_eq_true, decide_eq_true_eq] at h
  rcases h with h | rfl
  · cases hword : isWordChar c with
    | false => rfl
    | true => simp [isBlank_of_isWordChar hword] at h
  · decide +kernel

theorem wordEnds_append (hu : wordEnds u = true) : wordEnds (g.text ++ u) = true := by
  cases htext : g.text with
  | nil => exact hu
  | cons c cs =>
    have hc := not_word (g.spacing c (by simp [htext]))
    simp [wordEnds, hc]

theorem head?_ne_star (h : g.text ≠ [] ∨ u.head? ≠ some '*') :
    (g.text ++ u).head? ≠ some '*' := by
  cases htext : g.text with
  | nil => exact h.resolve_left (not_not_intro htext)
  | cons c cs =>
    rintro ⟨⟩
    exact absurd (g.spacing '*' (by simp [htext])) (by decide)

theorem wordEnds_of_ne_nil (hne : g.text ≠ []) (u : List Char) :
    wordEnds (g.text ++ u) = true := by
  obtain ⟨c, cs, htext⟩ := List.exists_cons_of_ne_nil hne
  have hc := not_word (g.spacing c (by simp [htext]))
  simp [htext, wordEnds, hc]

theorem isBlank_iff : g.isBlank = true ↔ g.afterBlanks = [] := by
  rw [isBlank, afterBlanks, List.all_eq_true, List.dropWhile_eq_nil_iff]

theorem dropWhile_append (hu : ∀ c ∈ u.head?, Text.isBlank c = false) :
    (g.text ++ u).dropWhile Text.isBlank = g.afterBlanks ++ u := by
  have hstart : u.dropWhile Text.isBlank = u := by
    cases u with
    | nil => rfl
    | cons c u => simp [hu c rfl]
  rw [List.dropWhile_append, hstart, afterBlanks]
  split
  · next hnil => rw [List.isEmpty_iff.mp hnil, List.nil_append]
  · rfl

/-- What a gap leaves over is no word. -/
theorem wordEnds_afterBlanks (hblank : g.isBlank = false) (u : List Char) :
    wordEnds (g.afterBlanks ++ u) = true := by
  have hne : g.afterBlanks ≠ [] := fun hnil => by simp [g.isBlank_iff.mpr hnil] at hblank
  obtain ⟨c, cs, hcs⟩ := List.exists_cons_of_ne_nil hne
  have hmem : c ∈ g.text := (List.dropWhile_suffix _).subset (hcs ▸ List.mem_cons_self)
  simp [hcs, wordEnds, not_word (g.spacing c hmem)]

theorem firstName_afterBlanks (u : List Char) : firstName (g.afterBlanks ++ u) =
    if g.isBlank then firstName u else "default".toList := by
  cases hblank : g.isBlank with
  | true => rw [g.isBlank_iff.mp hblank, List.nil_append, if_pos rfl]
  | false =>
    rw [firstName_of_wordEnds (g.wordEnds_afterBlanks hblank u)]
    rfl

/-- A keyword is read past with the blanks behind it, if there are any. -/
theorem keyword?_append (k : String) (hu : ∀ c ∈ u.head?, Text.isBlank c = false) :
    keyword? k (k.toList ++ (g.text ++ u)) =
      if g.opens then some (g.afterBlanks ++ u) else none := by
  rw [keyword?, after?_append, ← g.dropWhile_append hu, opens]
  cases htext : g.text with
  | nil =>
    cases u with
    | nil => rfl
    | cons c u => simp [blanks?, hu c rfl]
  | cons c cs =>
    cases hc : Text.isBlank c <;> simp [blanks?, hc]

theorem opens_of_isBlank (hne : g.text ≠ []) (hblank : g.isBlank = true) : g.opens = true := by
  obtain ⟨c, cs, htext⟩ := List.exists_cons_of_ne_nil hne
  rw [isBlank, htext, List.all_cons, Bool.and_eq_true] at hblank
  simp [opens, htext, hblank.1]

theorem callFollows_append (u : List Char) :
    callFollows (g.text ++ u) = (g.opens || (g.text.isEmpty && callFollows u)) := by
  cases htext : g.text with
  | nil => simp [opens, htext]
  | cons c cs =>
    have hc : c ≠ '(' := by
      rintro rfl
      exact absurd (g.spacing '(' (by simp [htext])) (by decide)
    simp [callFollows, opens, htext, hc]

end Gap

/-! ## Declarations that are called by their names, and others -/

/-- No name is a stray word but `async`. -/
theorem Called.of_title {t : Title} {w : String} (hw : w ∈ strayWords)
    (hne : t.isAnonymous = true → w ≠ "default") : Called t.name false w.toList := by
  refine .stray hw fun he => ?_
  have hstray : ∀ w ∈ strayWords, w = "async" ∨ w ∈ reservedWords := by decide
  cases t with
  | named gap name behind => exact (hstray w hw).resolve_right fun h => name.notReserved w h he
  | anonymous gap => exact absurd (String.toList_inj.mp he) (hne rfl)

theorem Called.of_named {w : String} (hw : w ∈ strayWords) (gap : Gap) (name : DeclaredName)
    (behind : Gap) : Called (Title.named gap name behind).name false w.toList :=
  .of_title hw fun h => absurd h Bool.false_ne_true

section Classes

theorem declarationName_classDecl (s : List Char) :
    declarationName ("class".toList ++ s) = skipKeyword "class" ("class".toList ++ s) := by
  have hasync : after? "async".toList ("class".toList ++ s) = none := rfl
  have hfunction : after? "function".toList ("class".toList ++ s) = none := rfl
  rw [declarationName, afterFunction?, skipKeyword_of_after? hasync, hfunction]

/-- The word behind `class`, or `class` itself. -/
theorem firstName_class (g : Gap) {u : List Char} (hu : ∀ c ∈ u.head?, isBlank c = false)
    (hends : wordEnds (g.text ++ u) = true) :
    firstName (declarationName ("class".toList ++ (g.text ++ u))) =
      if g.opens then if g.isBlank then firstName u else "default".toList else "class".toList := by
  rw [declarationName_classDecl, skipKeyword, g.keyword?_append "class" hu]
  cases g.opens with
  | true => exact g.firstName_afterBlanks u
  | false => exact firstName_word (isWord_literal (by decide) (by decide)) hends

namespace ClassHead

variable (c : ClassHead)

theorem head?_body : ∀ d ∈ c.body.head?, isBlank d = false := by
  rw [body]
  cases c.heritage <;> rintro _ ⟨⟩ <;> decide

theorem wordEnds_last : wordEnds (c.title.last.text ++ c.body) = true := by
  cases hheritage : c.heritage with
  | none => exact c.title.last.wordEnds_append (by rw [body, hheritage]; rfl)
  | some e => exact c.title.last.wordEnds_of_ne_nil (c.heritageApart e hheritage).1 _

theorem firstName_body : firstName c.body =
    match c.heritage with
    | none => "default".toList
    | some _ => "extends".toList := by
  have hword : IsWord "extends".toList := isWord_literal (by decide) (by decide)
  rw [body]
  cases hheritage : c.heritage with
  | none =>
    have hbrace : wordEnds ('\x7b' :: c.rest) = true := rfl
    exact firstName_of_wordEnds hbrace
  | some e =>
    have hends : wordEnds (e ++ '\x7b' :: c.rest) = true := by
      have he := (c.heritageApart e hheritage).2
      cases e with
      | nil => rfl
      | cons d e => exact he
    rw [heritageText, Option.map_some, Option.getD_some, List.append_assoc]
    exact firstName_word hword hends

theorem called : Called c.title.name c.isRead (firstName (declarationName c.text)) := by
  have hlast := c.wordEnds_last
  have hapart := c.apart
  rw [text_eq]
  cases htitle : c.title with
  | named gap name behind =>
    have hread : c.isRead = gap.isBlank := by rw [isRead, htitle]
    rw [htitle] at hapart hlast
    have hgap : gap.text ≠ [] := hapart
    have hname : wordEnds (behind.text ++ c.body) = true := hlast
    have hline : (Title.named gap name behind).text ++ c.body =
        gap.text ++ (name.text ++ (behind.text ++ c.body)) := by
      simp [Title.text]
    rw [hread, hline, firstName_class gap (name.isWord.head?_not_blank _)
      (gap.wordEnds_of_ne_nil hgap _), firstName_word name.isWord hname]
    cases hblank : gap.isBlank with
    | true =>
      rw [gap.opens_of_isBlank hgap hblank]
      exact .read
    | false =>
      cases gap.opens with
      | true => exact .of_named (w := "default") (by decide) ..
      | false => exact .of_named (w := "class") (by decide) ..
  | anonymous gap =>
    have hread : c.isRead = (gap.opens && (c.heritage.isNone || !gap.isBlank)) := by
      rw [isRead, htitle]
    rw [htitle] at hlast
    have hends : wordEnds (gap.text ++ c.body) = true := hlast
    rw [hread, Title.text, firstName_class gap c.head?_body hends, firstName_body]
    cases gap.opens with
    | false => exact .of_title (w := "class") (by decide) fun _ => by decide
    | true =>
      cases gap.isBlank with
      | false =>
        rw [Bool.not_false, Bool.or_true]
        exact .read
      | true =>
        cases c.heritage with
        | none => exact .read
        | some e => exact .of_title (w := "extends") (by decide) fun _ => by decide

end ClassHead

end Classes

section Functions

variable {mark : Option Gap} {s s' : List Char}

/-- Only blanks are read past behind the mark. -/
theorem after?_function (hmark : ∀ gap ∈ mark, gap.text ≠ []) :
    after? "function".toList (skipKeyword "async" (markText mark ++ ("function".toList ++ s))) =
      if mark.all Gap.isBlank then some s else none := by
  have hletter : ∀ c ∈ ("function".toList ++ s).head?, isBlank c = false := by
    rintro _ ⟨⟩
    decide
  cases mark with
  | none =>
    have hasync : after? "async".toList ("function".toList ++ s) = none := rfl
    rw [markText_none, List.nil_append, skipKeyword_of_after? hasync, after?_append]
    rfl
  | some gap =>
    rw [markText_some, List.append_assoc, skipKeyword, gap.keyword?_append "async" hletter,
      Option.all_some]
    cases hblank : gap.isBlank with
    | true =>
      rw [gap.opens_of_isBlank (hmark gap rfl) hblank, if_pos rfl, Option.getD_some,
        gap.isBlank_iff.mp hblank, List.nil_append, after?_append]
      rfl
    | false =>
      have hword : IsWord "function".toList := isWord_literal (by decide) (by decide)
      cases gap.opens with
      | true => exact after?_of_wordEnds hword (gap.wordEnds_afterBlanks hblank _)
      | false => rfl

/-- What is left of a text without the star at its front, if there is one. -/
def AfterStar (s s' : List Char) : Prop := s = '*' :: s' ∨ s = s' ∧ s.head? ≠ some '*'

theorem afterFunction?_function (hmark : ∀ gap ∈ mark, gap.text ≠ []) (hs : AfterStar s s') :
    afterFunction? (markText mark ++ ("function".toList ++ s)) =
      if mark.all Gap.isBlank && callFollows s' then some (s'.dropWhile isBlank) else none := by
  rw [afterFunction?, after?_function hmark]
  cases mark.all Gap.isBlank with
  | false => rfl
  | true =>
    rw [if_pos rfl, Bool.true_and]
    rcases hs with rfl | ⟨rfl, hhead⟩
    · rfl
    · dsimp only
      split
      · exact absurd rfl hhead
      · rfl

/-- The word in front of a function. -/
def opening (mark : Option Gap) : String := if mark.isSome then "async" else "function"

theorem firstName_opening (hmark : ∀ gap ∈ mark, gap.text ≠ []) (hends : wordEnds s = true) :
    firstName (skipKeyword "class" (markText mark ++ ("function".toList ++ s))) =
      (opening mark).toList := by
  cases mark with
  | none =>
    have hclass : after? "class".toList ("function".toList ++ s) = none := rfl
    rw [markText_none, List.nil_append, skipKeyword_of_after? hclass]
    exact firstName_word (isWord_literal (by decide) (by decide)) hends
  | some gap =>
    have hclass : after? "class".toList ("async".toList ++ (gap.text ++ ("function".toList ++ s))) =
        none := rfl
    rw [markText_some, List.append_assoc, skipKeyword_of_after? hclass]
    exact firstName_word (isWord_literal (by decide) (by decide))
      (gap.wordEnds_of_ne_nil (hmark gap rfl) _)

/-- The word behind the gap that is read, or the first word of all. -/
theorem firstName_function (hmark : ∀ gap ∈ mark, gap.text ≠ []) (g : Gap) {u : List Char}
    (hu : ∀ c ∈ u.head?, isBlank c = false) (hs : AfterStar s (g.text ++ u))
    (hends : wordEnds s = true) :
    firstName (declarationName (markText mark ++ ("function".toList ++ s))) =
      if mark.all Gap.isBlank && callFollows (g.text ++ u) then
        if g.isBlank then firstName u else "default".toList
      else (opening mark).toList := by
  rw [declarationName, afterFunction?_function hmark hs]
  cases mark.all Gap.isBlank && callFollows (g.text ++ u) with
  | true =>
    rw [if_pos rfl, if_pos rfl, g.dropWhile_append hu]
    exact g.firstName_afterBlanks u
  | false => exact firstName_opening hmark hends

theorem opening_mem (mark : Option Gap) : opening mark ∈ strayWords := by
  rw [opening]
  split <;> decide

theorem opening_ne (mark : Option Gap) : opening mark ≠ "default" := by
  rw [opening]
  split <;> decide

/-- A function whose title is what comes first. -/
theorem called_title (hmark : ∀ gap ∈ mark, gap.text ≠ []) (t : Title) (rest : List Char)
    (hs : AfterStar s (t.text ++ '(' :: rest)) (hends : wordEnds s = true) :
    Called t.name (mark.all Gap.isBlank && t.isRead)
      (firstName (declarationName (markText mark ++ ("function".toList ++ s)))) := by
  have hparen : wordEnds ('(' :: rest) = true := rfl
  cases t with
  | named gap name behind =>
    have hline : (Title.named gap name behind).text ++ '(' :: rest =
        gap.text ++ (name.text ++ (behind.text ++ '(' :: rest)) := by
      simp [Title.text]
    have hname : callFollows (name.text ++ (behind.text ++ '(' :: rest)) = false := by
      obtain ⟨c, cs, hcs⟩ := List.exists_cons_of_ne_nil name.isWord.ne_nil
      have hc : isWordChar c = true := name.isWord.word c (by simp [hcs])
      have hne : c ≠ '(' := by
        rintro rfl
        exact absurd hc (by decide)
      simp [hcs, callFollows, isBlank_of_isWordChar hc, hne]
    rw [hline] at hs
    rw [firstName_function hmark gap (name.isWord.head?_not_blank _) hs hends,
      gap.callFollows_append, hname, Bool.and_false, Bool.or_false,
      firstName_word name.isWord (behind.wordEnds_append hparen), Title.isRead]
    -- what can be no blank: the gap behind the mark, the start of this one, the rest of it
    cases mark.all Gap.isBlank with
    | false => exact .of_named (opening_mem mark) ..
    | true =>
      cases gap.opens with
      | false => exact .of_named (opening_mem mark) ..
      | true =>
        cases gap.isBlank with
        | false => exact .of_named (w := "default") (by decide) ..
        | true => exact .read
  | anonymous gap =>
    have hblank : ∀ c ∈ ('(' :: rest).head?, isBlank c = false := by
      rintro _ ⟨⟩
      decide
    have hfollows : callFollows ('(' :: rest) = true := rfl
    rw [firstName_function hmark gap hblank hs hends, gap.callFollows_append, hfollows,
      Bool.and_true, Bool.or_comm, firstName_of_wordEnds hparen, ite_self, Title.isRead]
    cases mark.all Gap.isBlank && (gap.text.isEmpty || gap.opens) with
    | false => exact .of_title (opening_mem mark) fun _ => opening_ne mark
    | true => exact .read

/-- No name is found behind a gap and a star. -/
theorem called_star (hmark : ∀ gap ∈ mark, gap.text ≠ []) {gap : Gap} (hne : gap.text ≠ [])
    (t : Title) (rest : List Char) :
    Called t.name (mark.all Gap.isBlank && (t.isAnonymous && gap.opens))
      (firstName (declarationName
        (markText mark ++ ("function".toList ++ (gap.text ++ '*' :: rest))))) := by
  have hstar : wordEnds ('*' :: rest) = true := rfl
  have hblank : ∀ c ∈ ('*' :: rest).head?, isBlank c = false := by
    rintro _ ⟨⟩
    decide
  have hafter : AfterStar (gap.text ++ '*' :: rest) (gap.text ++ '*' :: rest) :=
    .inr ⟨rfl, gap.head?_ne_star (.inl hne)⟩
  rw [firstName_function hmark gap hblank hafter (gap.wordEnds_of_ne_nil hne _),
    gap.callFollows_append, List.isEmpty_eq_false_iff.mpr hne, Bool.false_and, Bool.or_false,
    firstName_of_wordEnds hstar, ite_self]
  cases mark.all Gap.isBlank with
  | false => exact .of_title (opening_mem mark) fun _ => opening_ne mark
  | true =>
    cases gap.opens with
    | false =>
      rw [Bool.and_false]
      exact .of_title (opening_mem mark) fun _ => opening_ne mark
    | true =>
      cases t with
      | named gap name behind => exact .of_named (w := "default") (by decide) ..
      | anonymous gap => exact .read

/-- Neither a star nor a word stands right behind `function`. -/
theorem Title.Apart.start {t : Title} (h : t.Apart) (rest : List Char) :
    (t.text ++ '(' :: rest).head? ≠ some '*' ∧ wordEnds (t.text ++ '(' :: rest) = true := by
  cases t with
  | named gap name behind =>
    have hgap : gap.text ≠ [] := h
    rw [Title.text, List.append_assoc]
    exact ⟨gap.head?_ne_star (.inl hgap), gap.wordEnds_of_ne_nil hgap _⟩
  | anonymous gap => exact ⟨gap.head?_ne_star (.inr nofun), gap.wordEnds_append rfl⟩

namespace FunctionHead

variable (f : FunctionHead)

theorem called : Called f.title.name f.isRead (firstName (declarationName f.text)) := by
  rw [text_eq, isRead]
  cases hstar : f.star with
  | none =>
    obtain ⟨hhead, hends⟩ := (f.apart hstar).start f.rest
    exact called_title f.markApart f.title f.rest (.inr ⟨rfl, hhead⟩) hends
  | some gap =>
    have hline : starText (some gap) ++ (f.title.text ++ '(' :: f.rest) =
        gap.text ++ '*' :: (f.title.text ++ '(' :: f.rest) := by
      simp [starText]
    rw [hline]
    dsimp only
    by_cases hne : gap.text = []
    · rw [List.isEmpty_iff.mpr hne, if_pos rfl, hne]
      exact called_title f.markApart f.title f.rest (.inl rfl) rfl
    · rw [List.isEmpty_eq_false_iff.mpr hne, if_neg Bool.false_ne_true]
      exact called_star f.markApart hne f.title _

end FunctionHead

end Functions

/-! ## Lines -/

namespace DefaultDeclaration

variable (d : DefaultDeclaration)

theorem called : Called d.title.name d.isRead (firstName (declarationName d.text)) := by
  cases d with
  | function f => exact f.called
  | classDecl c => exact c.called

theorem head?_text : ∀ c ∈ d.text.head?, isBlank c = false := by
  cases d with
  | function f =>
    have hword : IsWord "function".toList := isWord_literal (by decide) (by decide)
    have hasync : IsWord "async".toList := isWord_literal (by decide) (by decide)
    rw [text, f.text_eq]
    cases f.mark with
    | none => exact hword.head?_not_blank _
    | some gap =>
      rw [markText_some, List.append_assoc]
      exact hasync.head?_not_blank _
  | classDecl c =>
    have hword : IsWord "class".toList := isWord_literal (by decide) (by decide)
    exact hword.head?_not_blank _

end DefaultDeclaration

namespace DefaultLine

variable (l : DefaultLine)

/-- What the name is looked for in. -/
def fromName : List Char := l.behind.afterBlanks ++ l.declaration.text

/-- Behind what is no blank no declaration is seen. -/
theorem called (hfound : l.isFound = true) :
    Called l.declared l.isRead (firstName (declarationName l.fromName)) := by
  rw [isRead, hfound, Bool.true_and, declared, fromName]
  cases hblank : l.behind.isBlank with
  | true =>
    rw [l.behind.isBlank_iff.mp hblank]
    exact l.declaration.called
  | false =>
    have hends := l.behind.wordEnds_afterBlanks hblank l.declaration.text
    rw [declarationName_of_wordEnds hends, firstName_of_wordEnds hends]
    cases l.declaration.title with
    | named gap name behind => exact .of_named (w := "default") (by decide) ..
    | anonymous gap => exact .read

theorem keyword?_export (h : l.before.isBlank = true) : keyword? "export" l.text =
    some ("default".toList ++ (l.behind.text ++ l.declaration.text)) := by
  rw [l.text_eq, l.before.keyword?_append "export" (head?_default_not_blank _),
    l.before.opens_of_isBlank l.beforeApart h, l.before.isBlank_iff.mp h]
  rfl

/-- Behind `export` no word is read. -/
theorem keyword?_export_cases (h : l.before.isBlank = false) : keyword? "export" l.text = none ∨
    ∃ rest, keyword? "export" l.text = some rest ∧ wordEnds rest = true := by
  rw [l.text_eq, l.before.keyword?_append "export" (head?_default_not_blank _)]
  cases l.before.opens with
  | false => exact .inl rfl
  | true => exact .inr ⟨_, rfl, l.before.wordEnds_afterBlanks h _⟩

theorem namedExport?_text : namedExport? l.text = none := by
  have hother {rest : List Char} (hexport : keyword? "export" l.text = some rest)
      (hnone : ∀ w ∈ "async" :: declaringKeywords, after? w.toList rest = none) :
      namedExport? l.text = none := by
    have hasync : after? "async".toList rest = none := hnone "async" List.mem_cons_self
    have hkeywords : (declaringKeywords.findSome? fun k => keyword? k rest) = none := by
      refine List.findSome?_eq_none_iff.mpr fun k hk => ?_
      rw [keyword?, hnone k (List.mem_cons_of_mem _ hk)]
    rw [namedExport?, hexport]
    simp only [skipKeyword_of_after? hasync, hkeywords]
  cases hblank : l.before.isBlank with
  | true =>
    have hfirst : ∀ w ∈ "async" :: declaringKeywords,
        w.toList ≠ [] ∧ w.toList.head? ≠ some 'd' := by
      decide +kernel
    exact hother (l.keyword?_export hblank) fun w hw =>
      after?_of_head? (hfirst w hw).1 (hfirst w hw).2
  | false =>
    have hword : ∀ w ∈ "async" :: declaringKeywords,
        w.toList ≠ [] ∧ w.toList.all isWordChar = true := by
      decide +kernel
    rcases l.keyword?_export_cases hblank with hnone | ⟨rest, hexport, hends⟩
    · rw [namedExport?, hnone]
    · exact hother hexport fun w hw =>
        after?_of_wordEnds (isWord_literal (hword w hw).1 (hword w hw).2) hends

theorem defaultExport?_text : defaultExport? l.text =
    if l.isFound then some (firstName (declarationName l.fromName)) else none := by
  cases hblank : l.before.isBlank with
  | true =>
    rw [defaultExport?, l.keyword?_export hblank, isFound, hblank, Bool.true_and]
    dsimp only
    rw [l.behind.keyword?_append "default" l.declaration.head?_text]
    cases l.behind.opens with
    | false => rfl
    | true =>
      rw [if_pos rfl, if_pos rfl, firstName, ← fromName]
      dsimp only
      cases word? (declarationName l.fromName) <;> rfl
  | false =>
    have hdefault : IsWord "default".toList := isWord_literal (by decide) (by decide)
    rw [isFound, hblank, Bool.false_and, defaultExport?]
    rcases l.keyword?_export_cases hblank with hnone | ⟨rest, hexport, hends⟩
    · rw [hnone]
      rfl
    · rw [hexport]
      dsimp only
      rw [keyword?, after?_of_wordEnds hdefault hends]
      rfl

end DefaultLine

def defaultSymbol (number : Nat) (line name : List Char) : ExportSymbol :=
  { name := .ofList name, kind := exportKind line, line := number, isDefault := true }

/-- The symbols of a line that exports a declaration as the default. -/
structure NamedAsDeclared (number : Nat) (l : DefaultLine) (symbols : List ExportSymbol) :
    Prop where
  found : l.isFound = true → ∃ name, Called l.declared l.isRead name ∧
    symbols = [defaultSymbol number l.text name]
  missed : l.isFound = false → symbols = []

theorem namedAsDeclared_lineExports (number : Nat) (l : DefaultLine) :
    NamedAsDeclared number l (lineExports number l.text) := by
  have hline : lineExports number l.text =
      if l.isFound then
        [defaultSymbol number l.text (firstName (declarationName l.fromName))]
      else [] := by
    rw [lineExports, l.namedExport?_text, l.defaultExport?_text]
    cases l.isFound <;> rfl
  rw [hline]
  constructor
  case found =>
    intro hfound
    exact ⟨_, l.called hfound, if_pos hfound⟩
  case missed =>
    intro hmissed
    rw [hmissed]
    rfl

/-- A declaration that is exported as the default is called by its name, or `default`, where it
is spelled so that it is read, and by a word of the language elsewhere. -/
theorem declared_names (text : String) : ∃ exports, exportsOf text = exports.flatten ∧
    List.Forall₂ (fun line symbols => ∀ l : DefaultLine, strip line.1 = l.text →
      NamedAsDeclared line.2 l symbols) ((splitOn '\n' text.toList).zipIdx 1) exports := by
  refine ⟨((splitOn '\n' text.toList).zipIdx 1).map fun l => lineExports l.2 (strip l.1), ?_, ?_⟩
  · simp only [exportsOf, numberedLines_eq_map, List.flatMap_def, List.map_map, Function.comp_def]
  · rw [List.forall₂_map_right_iff, List.forall₂_same]
    intro line _ l hl
    rw [hl]
    exact namedAsDeclared_lineExports line.2 l

namespace Sample

def blank : Gap := ⟨[' '], by decide⟩

def noGap : Gap := ⟨[], by decide⟩

def pages : DeclaredName where
  text := "pages".toList
  isWord := isWord_literal (by decide) (by decide)
  notReserved := by decide +kernel

def exporting (d : DefaultDeclaration) : DefaultLine where
  before := blank
  behind := blank
  declaration := d
  beforeApart := by decide
  behindApart := by decide

def bareClass : ClassHead where
  title := .anonymous noGap
  heritage := none
  rest := ['\x7d']
  apart := trivial
  heritageApart := nofun

def derivedClass : ClassHead where
  title := .anonymous blank
  heritage := some " Base ".toList
  rest := ['\x7d']
  apart := trivial
  heritageApart := by rintro _ ⟨⟩; exact ⟨by decide, by decide⟩

/-- A generator with its star between these two gaps. -/
def generator (gap gap' : Gap) : FunctionHead where
  mark := none
  star := some gap
  title := .named gap' pages noGap
  rest := ") \x7b\x7d".toList
  markApart := nofun
  apart := nofun

/-- The text is that of the line, and its one symbol has another name than the declaration. -/
structure Misnamed (l : DefaultLine) (text : String) (x : ExportSymbol) : Prop where
  line : strip text.toList = l.text
  found : exportsOf text = [x]
  differs : x.name.toList ≠ l.declared

end Sample

/-- Words of the language stand where names should, and a generator is called `default`. -/
theorem not_declared_names :
    Sample.Misnamed (Sample.exporting (.classDecl Sample.bareClass)) "export default class\x7b\x7d"
      { name := "class", kind := .known .classDecl, line := 1, isDefault := true } ∧
    Sample.Misnamed (Sample.exporting (.classDecl Sample.derivedClass))
      "export default class extends Base \x7b\x7d"
      { name := "extends", kind := .known .classDecl, line := 1, isDefault := true } ∧
    Sample.Misnamed (Sample.exporting (.function (Sample.generator Sample.blank Sample.noGap)))
      "export default function *pages() \x7b\x7d"
      { name := "default", kind := .known .functionDecl, line := 1, isDefault := true } ∧
    Sample.Misnamed (Sample.exporting (.function (Sample.generator Sample.noGap Sample.noGap)))
      "export default function*pages() \x7b\x7d"
      { name := "function", kind := .known .functionDecl, line := 1, isDefault := true } := by
  refine ⟨?_, ?_, ?_, ?_⟩
  all_goals exact ⟨by decide +kernel, by decide +kernel, by decide +kernel⟩

end Source

end ChangeImpact
