import ChangeImpact.Document.JsonReader
import ChangeImpact.Text.Search

/-!
# Document.TomlNumber

Numbers and truth values as TOML files write them.

* `Toml.wellSpelled` — the care that a number needs outside of arrays.
* `Toml.bareValue?`  — the value of a text without quotes and brackets.
-/

namespace ChangeImpact.Toml

/-- The value of one digit or more of a base. -/
def digitsValue? (base : Nat) : List Char → Option Nat
  | [] => none
  | ds =>
    ds.foldl (fun acc d => acc.bind fun n =>
      ((Json.hexValue? d).filter (· < base)).map (n * base + ·)) (some 0)

/-- The base that a letter after a leading zero stands for. -/
def baseOf? (c : Char) : Option Nat :=
  if c = 'x' || c = 'X' then some 16
  else if c = 'o' || c = 'O' then some 8
  else if c = 'b' || c = 'B' then some 2
  else none

/-- A whole number without sign. A leading zero comes before a base or nothing but zeros. -/
def integer? : List Char → Option Nat
  | '0' :: c :: cs =>
    match baseOf? c with
    | some base => digitsValue? base cs
    | none => if (c :: cs).all (· = '0') then some 0 else none
  | cs => digitsValue? 10 cs

/-- The exponent of a float. -/
def exponent? : List Char → Option Int
  | '-' :: cs => (digitsValue? 10 cs).map fun n => -Int.ofNat n
  | '+' :: cs => (digitsValue? 10 cs).map Int.ofNat
  | cs => (digitsValue? 10 cs).map Int.ofNat

def isMark (c : Char) : Bool := c = 'e' || c = 'E'

/-- What makes a number a float: a point, or an exponent where there is no base. -/
def hasFloatForm (cs : List Char) : Bool :=
  cs.any fun c => c = '.' || (isMark c && !cs.contains 'x')

/-- A number with a point, an exponent or both. Digits come before the point, and something after
it. -/
def float? (cs : List Char) : Option Binary64 :=
  if cs.getLast? = some '.' then none else
  let body := cs.takeWhile fun c => !isMark c
  let whole := body.takeWhile (· != '.')
  let places := body.drop (whole.length + 1)
  let power : Option Int :=
    match cs.drop body.length with
    | [] => some 0
    | _ :: cs => exponent? cs
  match digitsValue? 10 whole, digitsValue? 10 ('0' :: places), power with
  | some _, some _, some e =>
    some (.ofDecimal false (Json.digitsValue (whole ++ places)) (e - Int.ofNat places.length))
  | _, _, _ => none

/-- A number without sign and underscores, taken away from zero where it is negative. -/
def number? (negative : Bool) (cs : List Char) : Option Value :=
  let signed (x : Binary64) : Value := .float (if negative then x.opposite else x)
  if hasFloatForm cs then (float? cs).map signed
  else
    match cs.map Char.toLower with
    | ['i', 'n', 'f'] => some (signed (.infinite false))
    | ['n', 'a', 'n'] => some (signed .nan)
    | _ => (integer? cs).map fun n => .int (if negative then -Int.ofNat n else Int.ofNat n)

/-- A zero before other digits, a letter for a base after a sign included. -/
def isZeroLed : List Char → Bool
  | '0' :: c :: _ => !(c = '.' || c = 'x' || c = 'o' || c = 'b')
  | s :: '0' :: c :: _ => (s = '+' || s = '-') && c != '.'
  | _ => false

/-- The care that a number needs outside of arrays: no zero leads it, and no underscore stands at
an end, beside a point or beside another one. -/
def wellSpelled (cs : List Char) : Bool :=
  let occurs (pair : List Char) : Bool := Text.contains pair cs
  !(isZeroLed cs || cs.head? == some '_' || cs.getLast? == some '_'
    || occurs ['_', '_'] || occurs ['_', '.'] || occurs ['.', '_'])

/-- A truth value or a number; one that is an item of an array may be spelled without care. -/
def bareValue? (isItem : Bool) (cs : List Char) : Option Value :=
  if cs = "true".toList then some (.bool true)
  else if cs = "false".toList then some (.bool false)
  else if !isItem && !wellSpelled cs then none
  else
    match cs with
    | '-' :: cs => number? true (cs.filter (· != '_'))
    | '+' :: cs => number? false (cs.filter (· != '_'))
    | cs => number? false (cs.filter (· != '_'))

end ChangeImpact.Toml
