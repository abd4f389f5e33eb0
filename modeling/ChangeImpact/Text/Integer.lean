import ChangeImpact.Text.Word

/-!
# Text.Integer

Whole numbers written in decimal.

* `integer?` — the number that a text denotes: an optional sign and decimal digits of any script,
  with single underscores between digits and blank characters around.
* `natural`, `count`, `integer` — the decimal digits of a number.
-/

namespace ChangeImpact.Text

/-- Reads digits onto `acc`; an underscore has a digit on each side. -/
def digits? (acc : Nat) : List Char → Option Nat
  | [] => some acc
  | '_' :: c :: cs => (decimalDigit? c).bind fun d => digits? (acc * 10 + d) cs
  | c :: cs => (decimalDigit? c).bind fun d => digits? (acc * 10 + d) cs

def natural? : List Char → Option Nat
  | [] => none
  | '_' :: _ => none
  | cs => digits? 0 cs

/-- The blanks that may stand around a number; the information separators may not. -/
def isNumberBlank (c : Char) : Bool := isBlank c && !inRanges [(0x1c, 0x1f)] c

def withoutNumberBlanks (s : List Char) : List Char :=
  ((s.dropWhile isNumberBlank).reverse.dropWhile isNumberBlank).reverse

def integer? (s : String) : Option Int :=
  match withoutNumberBlanks s.toList with
  | '+' :: cs => (natural? cs).map Int.ofNat
  | '-' :: cs => (natural? cs).map fun n => -Int.ofNat n
  | cs => (natural? cs).map Int.ofNat

def natural (n : Nat) : List Char := Nat.toDigits 10 n

def count (n : Nat) : String := .ofList (natural n)

def integer (n : Int) : String :=
  match n with
  | .ofNat m => .ofList (natural m)
  | .negSucc m => .ofList ('-' :: natural (m + 1))

end ChangeImpact.Text
