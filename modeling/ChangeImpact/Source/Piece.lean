import ChangeImpact.Text.Search

/-!
# Source.Piece

Readers for the pieces of a declaration line. Each takes its piece off the front of a text and
gives what follows.

* `blanks?` — one or more blank characters.
* `word?`   — a whole run of word characters.
* `quoted?` — a text without quotes between two quote characters, which may differ.
* `braced?` — a text between braces.
-/

namespace ChangeImpact.Source

open Text

def blanks? (s : List Char) : Option (List Char) :=
  match s with
  | [] => none
  | c :: cs => if isBlank c then some (cs.dropWhile isBlank) else none

def word? (s : List Char) : Option (List Char × List Char) :=
  match s.takeWhile isWordChar with
  | [] => none
  | w => some (w, s.dropWhile isWordChar)

def isQuote (c : Char) : Bool := c = '\'' || c = '"'

def quoted? (s : List Char) : Option (List Char × List Char) :=
  match s with
  | [] => none
  | q :: rest =>
    if isQuote q then
      match rest.takeWhile (fun c => !isQuote c), rest.dropWhile (fun c => !isQuote c) with
      | [], _ => none
      | _, [] => none
      | body, _ :: rest => some (body, rest)
    else none

def braced? (s : List Char) : Option (List Char × List Char) :=
  match s with
  | '\x7b' :: rest =>
    match rest.dropWhile (· != '\x7d') with
    | [] => none
    | _ :: after => some (rest.takeWhile (· != '\x7d'), after)
  | _ => none

/-- A word of the language and the blanks after it. -/
def keyword? (w : String) (s : List Char) : Option (List Char) :=
  match after? w.toList s with
  | some rest => blanks? rest
  | none => none

/-- Reads past a word and its blanks where they are present. -/
def skipKeyword (w : String) (s : List Char) : List Char := (keyword? w s).getD s

end ChangeImpact.Source
