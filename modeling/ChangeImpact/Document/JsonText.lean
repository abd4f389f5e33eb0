import ChangeImpact.Document.Value

/-!
# Document.JsonText

Values written as JSON.

* `Json.pretty` — one item a line, indented by two blanks a level, all printable text kept.
* `Json.inline` — on one line, with everything outside of ASCII escaped.
-/

namespace ChangeImpact.Json

/-- The short escapes and, for other controls, four hexadecimal digits. -/
def escapeChar (c : Char) : List Char :=
  if c = '"' then ['\\', '"']
  else if c = '\\' then ['\\', '\\']
  else if c = '\n' then ['\\', 'n']
  else if c = '\r' then ['\\', 'r']
  else if c = '\t' then ['\\', 't']
  else if c = '\x0c' then ['\\', 'f']
  else if c = '\x08' then ['\\', 'b']
  else if c.toNat < 0x20 then '\\' :: 'u' :: Text.hex 4 c.toNat
  else [c]

/-- Beyond the first plane a character is escaped as two surrogates. -/
def escapeAscii (c : Char) : List Char :=
  if c.toNat < 0x7f then escapeChar c
  else if c.toNat ≤ 0xffff then '\\' :: 'u' :: Text.hex 4 c.toNat
  else
    let rest := c.toNat - 0x10000
    '\\' :: 'u' :: Text.hex 4 (0xd800 + rest / 0x400)
      ++ '\\' :: 'u' :: Text.hex 4 (0xdc00 + rest % 0x400)

def stringLit (escape : Char → List Char) (s : String) : List Char :=
  '"' :: s.toList.flatMap escape ++ ['"']

def keyword (b : Bool) : List Char := if b then "true".toList else "false".toList

/-- JSON has names of its own for what is no finite number. -/
def float (x : Binary64) : List Char :=
  match x with
  | .finite .. => x.text.toList
  | .infinite negative => if negative then "-Infinity".toList else "Infinity".toList
  | .nan => "NaN".toList

/-- A new line at the given depth. -/
def lineBreak (depth : Nat) : List Char := '\n' :: List.replicate (2 * depth) ' '

mutual

def prettyAt (depth : Nat) : Value → List Char
  | .null => "null".toList
  | .bool b => keyword b
  | .int n => (Text.integer n).toList
  | .float x => float x
  | .text s => stringLit escapeChar s
  | .list [] => ['[', ']']
  | .list (v :: rest) =>
    '[' :: lineBreak (depth + 1) ++ prettyAt (depth + 1) v ++ prettyItems (depth + 1) rest
      ++ lineBreak depth ++ [']']
  | .object [] => ['\x7b', '\x7d']
  | .object ((k, v) :: rest) =>
    '\x7b' :: lineBreak (depth + 1) ++ stringLit escapeChar k ++ [':', ' ']
      ++ prettyAt (depth + 1) v ++ prettyFields (depth + 1) rest ++ lineBreak depth ++ ['\x7d']

/-- The items after the first one. -/
def prettyItems (depth : Nat) : List Value → List Char
  | [] => []
  | v :: rest => ',' :: lineBreak depth ++ prettyAt depth v ++ prettyItems depth rest

/-- The fields after the first one. -/
def prettyFields (depth : Nat) : List (String × Value) → List Char
  | [] => []
  | (k, v) :: rest =>
    ',' :: lineBreak depth ++ stringLit escapeChar k ++ [':', ' '] ++ prettyAt depth v
      ++ prettyFields depth rest

end

def pretty (v : Value) : String := .ofList (prettyAt 0 v)

mutual

def inlineChars : Value → List Char
  | .null => "null".toList
  | .bool b => keyword b
  | .int n => (Text.integer n).toList
  | .float x => float x
  | .text s => stringLit escapeAscii s
  | .list [] => ['[', ']']
  | .list (v :: rest) => '[' :: inlineChars v ++ inlineItems rest ++ [']']
  | .object [] => ['\x7b', '\x7d']
  | .object ((k, v) :: rest) =>
    '\x7b' :: stringLit escapeAscii k ++ [':', ' '] ++ inlineChars v ++ inlineFields rest
      ++ ['\x7d']

def inlineItems : List Value → List Char
  | [] => []
  | v :: rest => ',' :: ' ' :: inlineChars v ++ inlineItems rest

def inlineFields : List (String × Value) → List Char
  | [] => []
  | (k, v) :: rest =>
    ',' :: ' ' :: stringLit escapeAscii k ++ [':', ' '] ++ inlineChars v ++ inlineFields rest

end

def inline (v : Value) : String := .ofList (inlineChars v)

end ChangeImpact.Json
