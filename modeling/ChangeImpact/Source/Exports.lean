import ChangeImpact.Record.Basic
import ChangeImpact.Source.Piece

/-!
# Source.Exports

Export declarations on one line of a source text.

* `namedExport?`   — the name after `export`, an optional `async` and a declaring keyword.
* `defaultExport?` — the name of a default export, `default` when it has none.
* `exportKind`     — the declaring keyword that decides the kind of a line.
-/

namespace ChangeImpact.Source

open Text

/-- The first of the declaring keywords that occurs on the line as a word, in the order of the
vocabulary. -/
def exportKind (line : List Char) : ExportKind :=
  ((Vocabulary.all (α := ExportKind)).find? fun k => hasWord (Vocabulary.word k) line).getD
    .varDecl

/-- The declaring keywords in the order in which they are tried. -/
def declaringKeywords : List String := Vocabulary.words ExportKind

def namedExport? (line : List Char) : Option (List Char) :=
  match keyword? "export" line with
  | none => none
  | some rest =>
    let rest := skipKeyword "async" rest
    match declaringKeywords.findSome? fun k => keyword? k rest with
    | none => none
    | some rest => (word? rest).map (·.1)

/-- A blank or an opening parenthesis comes next. -/
def callFollows (s : List Char) : Bool :=
  match s with
  | [] => false
  | c :: _ => isBlank c || c = '('

/-- The text after `function` and an optional star, where a blank or a parenthesis follows. -/
def afterFunction? (s : List Char) : Option (List Char) :=
  match after? "function".toList (skipKeyword "async" s) with
  | none => none
  | some rest =>
    let rest :=
      match rest with
      | '*' :: rest => rest
      | rest => rest
    if callFollows rest then some (rest.dropWhile isBlank) else none

/-- The text from the declared name on. -/
def declarationName (s : List Char) : List Char :=
  match afterFunction? s with
  | some rest => rest
  | none => skipKeyword "class" s

def defaultExport? (line : List Char) : Option (List Char) :=
  match keyword? "export" line with
  | none => none
  | some rest =>
    match keyword? "default" rest with
    | none => none
    | some rest =>
      match word? (declarationName rest) with
      | some (name, _) => some name
      | none => some "default".toList

/-- The symbol of one line, which has no blanks at its ends. -/
def lineExports (number : Nat) (line : List Char) : List ExportSymbol :=
  match namedExport? line with
  | some name => [{ name := .ofList name, kind := exportKind line, line := number }]
  | none =>
    match defaultExport? line with
    | some name =>
      [{ name := .ofList name, kind := exportKind line, line := number, isDefault := true }]
    | none => []

end ChangeImpact.Source
