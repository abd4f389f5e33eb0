import ChangeImpact.Document.TomlKey
import ChangeImpact.Document.TomlNumber
import ChangeImpact.Document.TomlTable

/-!
# Document.TomlValue

Values as TOML files write them.

* `Toml.source?`  — the text of a value, which ends with its line unless brackets are open.
* `Toml.value`    — the value that such a text stands for.
* `Toml.assigned` — the value after an equals sign.

Where a value ends is settled by quotes and brackets alone. The items of an array are then what
stands between its commas, and a piece whose opening quote is not closed yet is joined with the
next.
-/

namespace ChangeImpact.Toml

/-- What a scan has passed: an open quote, how many more brackets were opened than closed, and
whether the backslashes just passed are odd in number. -/
structure Scan where
  quote : Option Char := none
  depth : Int := 0
  isEscaped : Bool := false

namespace Scan

def toggle (s : Scan) (q : Char) : Scan :=
  { s with quote := if s.quote.isSome then none else some q }

def unescaped (s : Scan) : Scan := { s with isEscaped := false }

def step (s : Scan) (c : Char) : Scan :=
  let next := { s with isEscaped := c = '\\' && !s.isEscaped }
  if c = '\'' && s.quote != some '"' then next.toggle c
  else if c = '"' && s.quote != some '\'' then if s.isEscaped then next else next.toggle c
  else if c = '[' && s.quote.isNone then { next with depth := s.depth + 1 }
  else if c = ']' && s.quote.isNone then { next with depth := s.depth - 1 }
  else next

end Scan

mutual

/-- The text up to the end of a line, and what follows it. With brackets open it goes on in the
next line. Comments and line ends become blanks. -/
def source? (s : Scan) : List Char → Option (List Char × List Char)
  | [] => if s.quote.isSome then none else some ([], [])
  | c :: rest =>
    if c = '\n' then
      if s.quote.isSome then none
      else if s.depth = 0 then some ([], rest)
      else Json.consTo ' ' (source? s.unescaped rest)
    else if c = '#' && s.quote.isNone then Json.consTo ' ' (comment? s rest)
    else Json.consTo c (source? (s.step c) rest)

def comment? (s : Scan) : List Char → Option (List Char × List Char)
  | [] => some ([], [])
  | c :: rest =>
    if c = '\n' then
      if s.depth = 0 then some ([], rest) else Json.consTo ' ' (source? s.unescaped rest)
    else Json.consTo ' ' (comment? s rest)

end

/-- Items of one array have the same kind. -/
def sameKind : Value → Value → Bool
  | .null, .null => true
  | .bool _, .bool _ => true
  | .int _, .int _ => true
  | .float _, .float _ => true
  | .text _, .text _ => true
  | .list _, .list _ => true
  | .object _, .object _ => true
  | _, _ => false

def isQuote (c : Char) : Bool := c = '"' || c = '\''

/-- A piece ends with the character that it starts with, and no backslash escapes that one. -/
def isClosed (piece : List Char) : Bool :=
  match Text.strip piece with
  | [] => true
  | c :: rest => (c :: rest).getLast? == some c && !endsOpen rest.dropLast

/-- Joins each piece that is not closed with those after it. The last piece need not be closed,
unless it was joined. -/
def gather (isJoined : Bool) (piece : List Char) : List (List Char) →
    Except Failure (List (List Char))
  | [] => if isJoined && !isClosed piece then .error .tomlCutShort else .ok [piece]
  | next :: rest =>
    if isClosed piece then (gather false next rest).map (piece :: ·)
    else gather true (piece ++ ',' :: next) rest

/-- Cuts at the commas outside of all brackets. -/
def splitOutside (depth : Int) : List Char → List (List Char)
  | [] => [[]]
  | c :: cs =>
    if c = ',' && depth = 0 then [] :: splitOutside depth cs
    else
      let depth := if c = '[' then depth + 1 else if c = ']' then depth - 1 else depth
      match splitOutside depth cs with
      | [] => [[c]]
      | piece :: rest => (c :: piece) :: rest

/-- The stretches in braces; what stands between them is left out. -/
def bracedFrom (depth : Nat) (inText isEscaped : Bool) : List Char → List (List Char)
  | [] => []
  | c :: cs =>
    let quote := isQuote c && !(inText && isEscaped)
    let inText' := if 0 < depth && quote then !inText else inText
    let opens := c = '\x7b' && !inText'
    let closes := c = '\x7d' && !inText'
    let depth' := if opens then depth + 1 else if closes then depth - 1 else depth
    let after := bracedFrom depth' inText' (c = '\\' && !isEscaped) cs
    if depth = 0 && !opens then after
    else if depth' = 0 then [c] :: after
    else
      match after with
      | [] => []
      | piece :: rest => (c :: piece) :: rest

/-- The texts of the items of an array, given what stands between its brackets. -/
def itemSources (inner : List Char) : Except Failure (List (List Char)) :=
  let front := inner.takeWhile (· != '[')
  if inner.contains '[' && (Text.strip front).isEmpty then .ok (splitOutside 0 inner)
  else
    match (Text.strip inner).head?, Text.splitOn ',' inner with
    | some '\x7b', _ => .ok (bracedFrom 0 false false inner)
    | some c, piece :: rest => if isQuote c then gather false piece rest else .ok (piece :: rest)
    | _, _ => .ok []

/-- A value whose text may end where it does. -/
def isComplete (cs : List Char) : Bool :=
  match cs, cs.getLast? with
  | c :: _, some d =>
    (c = d && isQuote c) || c = '-' || ('0' ≤ c && c ≤ '9') || cs = "true".toList
      || cs = "false".toList || (c = '[' && d = ']') || (c = '\x7b' && d = '\x7d')
  | _, _ => false

/-- Joins pieces to assignments, each with a complete value. -/
def gatherFields (piece : List Char) (rest : List (List Char)) :
    Except Failure (List (List Char)) :=
  match Text.strip ((piece.dropWhile (· != '=')).drop 1), rest with
  | [], _ => .error (if piece.contains '=' then .tomlCutShort else .badToml)
  | cs, [] => if isComplete cs then .ok [piece] else .error .badToml
  | cs, next :: rest =>
    if isComplete cs then (gatherFields next rest).map (piece :: ·)
    else gatherFields (piece ++ ',' :: next) rest

/-- The texts of the assignments in a table on one line, given what stands in its braces. -/
def fieldSources (inner : List Char) : Except Failure (List (List Char)) :=
  match Text.splitOn ',' inner with
  | [] => .ok []
  | piece :: rest =>
    if rest.isEmpty && (Text.strip piece).isEmpty then .ok [] else gatherFields piece rest

/-- The key of an assignment and what follows its equals sign. -/
def assignment? (s : List Char) : Option (List String × List Char) :=
  match key? s with
  | none => none
  | some (path, rest) =>
    match skipSpace rest with
    | '=' :: rest => some (path, rest)
    | _ => none

/-- A number of another base than ten has to keep away from the equals sign. -/
def standsTight : List Char → Bool
  | '0' :: c :: _ => (baseOf? c).isSome
  | _ => false

mutual

def value : Nat → Bool → List Char → Except Failure Value
  | 0, _, _ => .error .badToml
  | _ + 1, _, [] => .error .badToml
  | fuel + 1, isItem, c :: cs =>
    if isQuote c then (decodeQuoted c (c :: cs)).map fun cs => .text (.ofList cs)
    else if c = '[' then
      match itemSources cs.dropLast with
      | .error e => .error e
      | .ok pieces => (items fuel none pieces).map .list
    else if c = '\x7b' then
      match fieldSources cs.dropLast with
      | .error e => .error e
      | .ok pieces => (fields fuel [] pieces).map .object
    else
      match bareValue? isItem (c :: cs) with
      | some v => .ok v
      | none => .error .badToml

/-- The items of an array, all of the kind of `model` if there is one. Empty pieces are none. -/
def items : Nat → Option Value → List (List Char) → Except Failure (List Value)
  | 0, _, _ => .error .badToml
  | _ + 1, _, [] => .ok []
  | fuel + 1, model, piece :: rest =>
    match Text.strip piece with
    | [] => items fuel model rest
    | cs =>
      match value fuel true cs with
      | .error e => .error e
      | .ok v =>
        if sameKind (model.getD v) v then (items fuel (some v) rest).map (v :: ·)
        else .error .badToml

/-- The assignments of a table on one line. -/
def fields : Nat → Table → List (List Char) → Except Failure Table
  | 0, _, _ => .error .badToml
  | _ + 1, table, [] => .ok table
  | fuel + 1, table, piece :: rest =>
    match assignment? (Text.strip piece) with
    | none => .error .badToml
    | some (path, cs) =>
      if standsTight cs then .error .badToml
      else
        match value fuel false (Text.strip cs) with
        | .error e => .error e
        | .ok v =>
          match assignAt path v table with
          | none => .error .badToml
          | some table => fields fuel table rest

end

/-- The value after an equals sign. -/
def assigned (cs : List Char) : Except Failure Value :=
  if standsTight cs then .error .badToml else value (2 * cs.length + 2) false (Text.strip cs)

end ChangeImpact.Toml
