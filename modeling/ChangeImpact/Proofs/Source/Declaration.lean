import ChangeImpact.Proofs.Source.ImportLine
import ChangeImpact.Proofs.Text.Search
import ChangeImpact.Source.Extract

/-!
# Proofs.Source.Declaration

Declarations as they are written on single lines, and what they bring in and give out.

* `Word`, `Specifier`, `Item` — names, what is imported from, and one of several imported names.
* `Declaration`               — the supported forms; `Declaration.text` is how each is written.
* `Declaration.edge?`, `Declaration.symbol?` — the import or the export that it stands for.
* `Line`, `written`           — declarations one to a line, with blanks around them.
-/

namespace ChangeImpact

namespace Source

open Text

/-- A name, which is none of the declaring keywords. -/
structure Word where
  text : String
  ne_empty : text ≠ ""
  isWord : ∀ c ∈ text.toList, isWordChar c = true
  notDeclaring : ∀ k : ExportKind, text ≠ Vocabulary.word k

structure Specifier where
  text : String
  ne_empty : text ≠ ""
  noQuote : ∀ c ∈ text.toList, isQuote c = false
  noBlank : ∀ c ∈ text.toList, isBlank c = false
  noBrace : ∀ c ∈ text.toList, c ≠ '\x7b' ∧ c ≠ '\x7d'

inductive Quote where
  | single
  | double
  deriving DecidableEq, Repr

def Quote.text : Quote → String
  | single => "'"
  | double => "\""

def Quote.around (q : Quote) (s : Specifier) : String := q.text ++ s.text ++ q.text

/-- An imported name, perhaps under another one. -/
structure Item where
  name : Word
  renamed : Option Word := none

def Item.text (i : Item) : String :=
  match i.renamed with
  | none => i.name.text
  | some other => i.name.text ++ " as " ++ other.text

inductive Declaration where
  | importListed (first : Item) (others : List Item) (quote : Quote) (source : Specifier)
  | importSingle (name : Word) (quote : Quote) (source : Specifier)
  | importAll (name : Word) (quote : Quote) (source : Specifier)
  | required (name : Word) (quote : Quote) (source : Specifier)
  | exported (isAsync : Bool) (kind : ExportKind) (name : Word)
  | exportedDefault (name : Word)
  | exportedFunction (isAsync : Bool) (name : Word)
  | exportedNameless
  | exportedClass (name : Word)

namespace Declaration

def listed (items : List Item) : String := String.intercalate ", " (items.map Item.text)

def asyncText (isAsync : Bool) : String := if isAsync then "async " else ""

def text : Declaration → String
  | importListed first others q s =>
    "import \x7b " ++ listed (first :: others) ++ " \x7d from " ++ q.around s
  | importSingle x q s => "import " ++ x.text ++ " from " ++ q.around s
  | importAll x q s => "import * as " ++ x.text ++ " from " ++ q.around s
  | required x q s => "const " ++ x.text ++ " = require(" ++ q.around s ++ ")"
  | exported isAsync k x =>
    "export " ++ asyncText isAsync ++ Vocabulary.word k ++ " " ++ x.text
  | exportedDefault x => "export default " ++ x.text
  | exportedFunction isAsync x =>
    "export default " ++ asyncText isAsync ++ "function " ++ x.text ++ "()"
  | exportedNameless => "export default function ()"
  | exportedClass x => "export default class " ++ x.text ++ " \x7b"

/-- What an import takes from where, and under which names. -/
def imports? : Declaration → Option (Specifier × List String)
  | importListed first others _ s => some (s, (first :: others).map Item.text)
  | importSingle x _ s => some (s, [x.text])
  | importAll x _ s => some (s, [x.text])
  | required _ _ s => some (s, [])
  | _ => none

def edge? (path : String) (number : Nat) (d : Declaration) : Option ImportEdge :=
  d.imports?.map fun (s, symbols) =>
    { fromPath := path, specifier := s.text, kind := specifierKind s.text, line := number, symbols }

def symbol? (number : Nat) : Declaration → Option ExportSymbol
  | exported _ k x => some { name := x.text, kind := k, line := number }
  | exportedDefault x =>
    some { name := x.text, kind := ExportKind.varDecl, line := number, isDefault := true }
  | exportedFunction _ x =>
    some { name := x.text, kind := ExportKind.functionDecl, line := number, isDefault := true }
  | exportedNameless =>
    some { name := "default", kind := ExportKind.functionDecl, line := number, isDefault := true }
  | exportedClass x =>
    some { name := x.text, kind := ExportKind.classDecl, line := number, isDefault := true }
  | _ => none

end Declaration

/-- Blanks that can stand on a line. -/
structure Margin where
  text : String
  isBlank : ∀ c ∈ text.toList, Text.isBlank c = true
  noBreak : '\n' ∉ text.toList

structure Line where
  before : Margin
  declaration : Declaration
  after : Margin

def Line.text (l : Line) : String := l.before.text ++ l.declaration.text ++ l.after.text

/-- One declaration a line; the last line may end like the others. -/
def written (lines : List Line) (ended : Bool) : String :=
  String.intercalate "\n" (lines.map Line.text) ++ if ended then "\n" else ""

/-! ## Characters -/

theorem isQuote_of_isWordChar {c : Char} (h : isWordChar c = true) : isQuote c = false := by
  cases hc : isQuote c with
  | false => rfl
  | true =>
    rw [isQuote, Bool.or_eq_true, decide_eq_true_eq, decide_eq_true_eq] at hc
    rcases hc with rfl | rfl
    · exact absurd h (by decide)
    · exact absurd h (by decide)

namespace Word

variable (w : Word)

theorem ne_nil : w.text.toList ≠ [] := by simpa using w.ne_empty

theorem isWord_text : IsWord w.text.toList := ⟨w.ne_nil, w.isWord⟩

theorem noBlank : ∀ c ∈ w.text.toList, isBlank c = false :=
  fun c hc => isBlank_of_isWordChar (w.isWord c hc)

theorem noQuote : ∀ c ∈ w.text.toList, isQuote c = false :=
  fun c hc => isQuote_of_isWordChar (w.isWord c hc)

theorem notMem {d : Char} (hd : isWordChar d = false) : d ∉ w.text.toList := by
  intro hmem
  simp [w.isWord d hmem] at hd

theorem trimmed : Trimmed w.text.toList where
  ne_nil := w.ne_nil
  first c hc := w.noBlank c (List.mem_of_mem_head? hc)
  last c hc := w.noBlank c (List.mem_of_mem_getLast? hc)

end Word

theorem Specifier.ne_nil (s : Specifier) : s.text.toList ≠ [] := by simpa using s.ne_empty

namespace Quote

variable (q : Quote) (s : Specifier)

/-- The character of a quote. -/
def char : Quote → Char
  | single => '\''
  | double => '"'

theorem isQuote : Source.isQuote q.char = true := by
  cases q <;> decide

theorem toList_text : q.text.toList = [q.char] := by
  cases q <;> decide

theorem toList_around : (q.around s).toList = q.char :: (s.text.toList ++ [q.char]) := by
  simp [around, q.toList_text]

theorem around_noBlank : ∀ c ∈ (q.around s).toList, isBlank c = false := by
  intro c hc
  simp only [toList_around, List.mem_append, List.mem_cons, List.not_mem_nil, or_false] at hc
  rcases hc with rfl | hc | rfl
  · exact isBlank_of_isQuote q.isQuote
  · exact s.noBlank c hc
  · exact isBlank_of_isQuote q.isQuote

theorem around_head? {d : Char} (hd : Source.isQuote d = false) :
    (q.around s).toList.head? ≠ some d := by
  rw [toList_around, List.head?_cons]
  rintro ⟨⟩
  simp [q.isQuote] at hd

theorem trimmed_around : Trimmed (q.around s).toList where
  ne_nil := by simp [toList_around]
  first c hc := q.around_noBlank s c (List.mem_of_mem_head? hc)
  last c hc := q.around_noBlank s c (List.mem_of_mem_getLast? hc)

end Quote

namespace Item

variable (i : Item)

theorem mem_text {c : Char} (h : c ∈ i.text.toList) : isWordChar c = true ∨ c = ' ' := by
  have has : ∀ c ∈ " as ".toList, isWordChar c = true ∨ c = ' ' := by decide
  rw [text] at h
  split at h
  · exact .inl (i.name.isWord c h)
  · next other _ =>
    rw [String.toList_append, String.toList_append, List.mem_append, List.mem_append] at h
    rcases h with (h | h) | h
    · exact .inl (i.name.isWord c h)
    · exact has c h
    · exact .inl (other.isWord c h)

theorem trimmed : Trimmed i.text.toList := by
  rw [text]
  split
  · exact i.name.trimmed
  · next other _ =>
    rw [String.toList_append, String.toList_append]
    exact i.name.trimmed.append other.trimmed _

end Item

namespace Declaration

theorem toList_listed_singleton (i : Item) : (listed [i]).toList = i.text.toList := by
  simp [listed]

theorem toList_listed_cons_cons (i j : Item) (items : List Item) :
    (listed (i :: j :: items)).toList =
      i.text.toList ++ ", ".toList ++ (listed (j :: items)).toList := by
  simp [listed, String.toList_intercalate]

theorem mem_listed {first : Item} {others : List Item} {c : Char}
    (h : c ∈ (listed (first :: others)).toList) : isWordChar c = true ∨ c = ' ' ∨ c = ',' := by
  have hcomma : ∀ c ∈ ", ".toList, c = ' ' ∨ c = ',' := by decide
  induction others generalizing first with
  | nil =>
    rw [toList_listed_singleton] at h
    exact (first.mem_text h).imp_right .inl
  | cons next others ih =>
    rw [toList_listed_cons_cons, List.mem_append, List.mem_append] at h
    rcases h with (h | h) | h
    · exact (first.mem_text h).imp_right .inl
    · exact .inr (hcomma c h)
    · exact ih h

theorem noBreak (d : Declaration) : '\n' ∉ d.text.toList := by
  have hword (w : Word) : '\n' ∉ w.text.toList := w.notMem (by decide)
  have haround (q : Quote) (s : Specifier) : '\n' ∉ (q.around s).toList := fun h =>
    absurd (q.around_noBlank s _ h) (by decide)
  have hlisted (first : Item) (others : List Item) :
      '\n' ∉ (listed (first :: others)).toList := fun h => absurd (mem_listed h) (by decide)
  have hasync (isAsync : Bool) : '\n' ∉ (asyncText isAsync).toList := by
    cases isAsync <;> decide
  have hkind (k : ExportKind) : '\n' ∉ (Vocabulary.word k).toList := by
    cases k <;> decide
  cases d <;> dsimp only [text] <;> simp [hword, haround, hlisted, hasync, hkind]

theorem trimmed (d : Declaration) : Trimmed d.text.toList where
  ne_nil := by cases d <;> dsimp only [text] <;> simp
  first := by
    have hletter : ∀ c ∈ ['i', 'c', 'e'], isBlank c = false := by decide
    cases d <;> dsimp only [text] <;> simp [hletter]
  last := by
    have haround (q : Quote) (s : Specifier) := last_append (q.trimmed_around s).ne_nil
      (q.trimmed_around s).last
    have hname (x : Word) := last_append x.trimmed.ne_nil x.trimmed.last
    cases d <;> dsimp only [text] <;> try rw [String.toList_append]
    case importListed q s => exact haround q s _
    case importSingle q s => exact haround q s _
    case importAll q s => exact haround q s _
    case required => exact last_append (by decide) (by decide) _
    case exported x => exact hname x _
    case exportedDefault x => exact hname x _
    case exportedFunction => exact last_append (by decide) (by decide) _
    case exportedNameless => decide
    case exportedClass => exact last_append (by decide) (by decide) _

end Declaration

end Source

end ChangeImpact
