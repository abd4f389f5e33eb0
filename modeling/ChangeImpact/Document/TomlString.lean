import ChangeImpact.Document.JsonReader
import ChangeImpact.Failure
import ChangeImpact.Text.Quoted
import ChangeImpact.Text.Search

/-!
# Document.TomlString

Texts in quotes, as TOML files hold them.

* `Toml.stringLit?`   — a text with its quotes and escapes, if it has a written form.
* `Toml.basicBody?`   — the characters up to a closing quote, escapes and all.
* `Toml.decodeQuoted` — the text that stands in quotes.

TOML knows escapes with four digits and with eight, but none with two. Writing starts from the
escapes of `Text.quote` and rids them of the short kind (`weld`); the digits stay as text. Reading
takes three passes, one for each kind of escape, and each pass reads again what the pass before
it has made.
-/

namespace ChangeImpact.Toml

/-- The stretches of a text between the places where a backslash and `mark` follow each other. -/
def stretches (mark : Char) : List Char → List (List Char)
  | [] => [[]]
  | [c] => [[c]]
  | c :: d :: rest =>
    if c = '\\' && d = mark then [] :: stretches mark rest
    else
      match stretches mark (d :: rest) with
      | [] => [[c]]
      | first :: more => (c :: first) :: more

/-- One backslash for every two. -/
def halve : List Char → List Char
  | '\\' :: '\\' :: rest => '\\' :: halve rest
  | c :: rest => c :: halve rest
  | [] => []

/-- What takes the place of a backslash and an `x` after `before`: the letter alone, or the start
of four digits where `before` ends in backslashes whose number, one at its front left out, is
even. -/
def joint (before : List Char) : List Char :=
  let run := (before.drop 1).reverse.takeWhile (· = '\\')
  if (before.getLast? == some '\\') == (run.length % 2 == 1) then ['x'] else ['u', '0', '0']

/-- Joins stretches from the left. Before each joint the text made so far has its backslashes
halved, so there has to be such a text. -/
def weld : List Char → List (List Char) → Option (List Char)
  | first, [] => some first
  | [], _ :: _ => none
  | first, next :: rest => weld (halve first ++ joint (halve first) ++ next) rest

/-- The escapes of a text without those of two digits. An empty stretch at the front is passed
over, and then there have to be two more. -/
def encode? (cs : List Char) : Option (List Char) :=
  match stretches 'x' (cs.flatMap (Text.quoteChar '"')) with
  | [[], _] => none
  | [] :: first :: rest => weld first rest
  | first :: rest => weld first rest
  | [] => some []

def stringLit? (s : String) : Option String :=
  (encode? s.toList).map fun cs => .ofList ('"' :: cs ++ ['"'])

/-- The characters of a text in double quotes after its opening quote, and what follows the
closing one. The text ends on the line that it starts on. -/
def basicBody? : List Char → Option (List Char × List Char)
  | [] => none
  | '"' :: rest => some ([], rest)
  | '\\' :: c :: rest =>
    if c = '\n' then none else Json.consTo '\\' (Json.consTo c (basicBody? rest))
  | c :: rest => if c = '\n' then none else Json.consTo c (basicBody? rest)

/-- The character of an escape with one letter. -/
def shortEscape? (c : Char) : Option Char :=
  if c = '0' then some '\x00' else if c = '/' then none else Json.shortEscape? c

/-- No backslash stands before a character that it has no meaning with. -/
def escapesKnown : List Char → Bool
  | '\\' :: c :: rest =>
    (c = 'u' || c = 'U' || (shortEscape? c).isSome) && escapesKnown rest
  | _ :: rest => escapesKnown rest
  | [] => true

/-- The value of hexadecimal digits. -/
def hexDigits? (ds : List Char) : Option Nat :=
  ds.foldl (fun acc d => acc.bind fun n => (Json.hexValue? d).map (n * 16 + ·)) (some 0)

/-- The character with a code point; surrogates have none. -/
def codePoint (n : Nat) : Except Failure Char :=
  if n.isValidChar then .ok (.ofNat n) else .error .badToml

/-- The character of an escape with digits. An escape that another one cuts short may have fewer
digits than it should, but it needs one, and a `d` needs a second that keeps clear of the
surrogates. -/
def pointOf (digits : List Char) : Except Failure Char :=
  match hexDigits? digits with
  | none => .error .badToml
  | some n =>
    match digits with
    | [] => .error .tomlCutShort
    | c :: rest =>
      if c = 'd' || c = 'D' then
        match rest with
        | [] => .error .tomlCutShort
        | e :: _ => if e ≤ '7' then codePoint n else .error .badToml
      else codePoint n

/-- The text ends in a backslash that no other one escapes. -/
def endsOpen (cs : List Char) : Bool := (cs.reverse.takeWhile (· = '\\')).length % 2 == 1

/-- Reads the stretches after the first one, each with the digits of an escape at its front. One
that an open backslash comes before is kept as it is; only the stretch after a kept one is
looked at in this way. -/
def pointsFrom (mark : Char) (width : Nat) : Bool → List (List Char) → Except Failure (List Char)
  | _, [] => .ok []
  | true, s :: rest =>
    (pointsFrom mark width (endsOpen s) rest).map fun cs => '\\' :: mark :: s ++ cs
  | false, s :: rest =>
    match pointOf (s.take width) with
    | .error e => .error e
    | .ok c => (pointsFrom mark width false rest).map fun cs => c :: s.drop width ++ cs

/-- Reads the escapes that have digits and the given letter. -/
def points (mark : Char) (width : Nat) (cs : List Char) : Except Failure (List Char) :=
  match stretches mark cs with
  | [] => .ok []
  | first :: rest => (pointsFrom mark width (endsOpen first) rest).map (first ++ ·)

/-- Reads the escapes with one letter. -/
def shortEscapes : List Char → Except Failure (List Char)
  | '\\' :: c :: rest =>
    if c = 'u' || c = 'U' then (shortEscapes rest).map fun cs => '\\' :: c :: cs
    else
      match shortEscape? c with
      | none => .error .badToml
      | some x => (shortEscapes rest).map (x :: ·)
  | c :: rest => (shortEscapes rest).map (c :: ·)
  | [] => .ok []

/-- Quotes are closed once, for what is left after the opening one and cut at the quotes. A
stretch with an open backslash at its end only goes on. Where the mark is `long`, with three
quotes, two empty stretches are needed to close. -/
def closesOnce (long : Bool) : Bool → Nat → List (List Char) → Bool
  | _, _, [] => true
  | closed, quotes, s :: rest =>
    if s.isEmpty then closesOnce long (closed || !long) (quotes + 1) rest
    else if endsOpen s then closesOnce long closed quotes rest
    else !closed && closesOnce long (!long || 1 < quotes) 0 rest

/-- A text from its opening quote on has nothing after the closing one. -/
def isWholeQuoted (q : Char) (cs : List Char) : Bool :=
  match Text.splitOn q (cs.drop 1) with
  | [] :: [] :: rest => closesOnce true false 0 rest
  | stretches => closesOnce false false 0 stretches

/-- Takes away the quotes around a text. Two quotes after the first one, the closing one
included, count as part of a longer mark of the same length at both ends. -/
def unquoted (q : Char) (cs : List Char) : List Char :=
  let inner (cs : List Char) : List Char := (cs.drop 1).dropLast
  match cs with
  | _ :: c :: d :: _ => if c = q && d = q then inner (cs.drop 2).dropLast.dropLast else inner cs
  | cs => inner cs

/-- Reads the escapes of a text, its quotes included: a closing quote is no digit, and a backslash
made by digits may escape it. -/
def withoutEscapes (cs : List Char) : Except Failure (List Char) :=
  if !escapesKnown cs then .error .badToml else
  match points 'u' 4 cs with
  | .error e => .error e
  | .ok cs =>
    match points 'U' 8 cs with
    | .error e => .error e
    | .ok cs => shortEscapes cs

/-- The text that stands in quotes. Single quotes have no escapes. -/
def decodeQuoted (q : Char) (cs : List Char) : Except Failure (List Char) :=
  if !isWholeQuoted q cs then .error .badToml
  else if q = '"' then (withoutEscapes cs).map (unquoted q)
  else .ok (unquoted q cs)

end ChangeImpact.Toml
