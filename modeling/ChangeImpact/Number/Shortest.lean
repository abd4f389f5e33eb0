import ChangeImpact.Number.Binary64
import ChangeImpact.Text.Integer

/-!
# Number.Shortest

The decimal text of a floating point number.

* `Binary64.shortest` — the fewest digits that read back as the number, and among those the
  nearest ones.
* `Binary64.text`     — those digits, positional from 0.0001 up to 10^16 and with an exponent of
  at least two digits elsewhere.
-/

namespace ChangeImpact.Binary64

/-- How many times `den` can be multiplied by ten without passing `num`. -/
def tensBelow (num den : Nat) : Nat → Nat
  | 0 => 0
  | fuel + 1 => if num < den * 10 then 0 else tensBelow num (den * 10) fuel + 1

/-- How often `num` must be multiplied by ten to reach `den`. -/
def tensMissing (num den : Nat) : Nat → Nat
  | 0 => 0
  | fuel + 1 => if den ≤ num then 0 else tensMissing (num * 10) den fuel + 1

/-- The exponent of the first decimal digit of `num / den`; no double needs more than 400 steps. -/
def decimalExponent (num den : Nat) : Int :=
  if den ≤ num then Int.ofNat (tensBelow num den 400) else -Int.ofNat (tensMissing num den 400)

/-- `c * 10 ^ k` as a fraction. -/
def decimalRatio (c : Nat) (k : Int) : Nat × Nat :=
  match k with
  | .ofNat j => (c * Nat.pow 10 j, 1)
  | .negSucc j => (c, Nat.pow 10 (j + 1))

/-- The fraction `a` reads back as `m * 2 ^ e`: it lies within half a unit on both sides, where
the unit below a power of two is half as large; the ends belong to even mantissas. -/
def readsBack (m : Nat) (e : Int) (a : Nat × Nat) : Bool :=
  let low := if m = Nat.pow 2 52 && -1074 < e then magnitude (4 * m - 1) (e - 2)
    else magnitude (2 * m - 1) (e - 1)
  let high := magnitude (2 * m + 1) (e - 1)
  if m % 2 = 0 then a.1 * low.2 ≥ low.1 * a.2 && a.1 * high.2 ≤ high.1 * a.2
  else a.1 * low.2 > low.1 * a.2 && a.1 * high.2 < high.1 * a.2

/-- The better of the two neighbours of `m * 2 ^ e` on the grid of multiples of `10 ^ k`. -/
def onGrid (m : Nat) (e k : Int) : Option Nat :=
  let v := magnitude m e
  let unit := decimalRatio 1 k
  let below := v.1 * unit.2 / (v.2 * unit.1)
  match readsBack m e (decimalRatio below k) && below != 0,
      readsBack m e (decimalRatio (below + 1) k) with
  | true, true =>
    let rest := v.1 * unit.2 % (v.2 * unit.1)
    let whole := v.2 * unit.1
    some (if 2 * rest < whole then below
      else if whole < 2 * rest then below + 1
      else below + below % 2)
  | true, false => some below
  | false, true => some (below + 1)
  | false, false => none

/-- The first of the grids with `count`, `count + 1`, … digits that holds a number which reads
back, with the exponent of its unit. -/
def firstGrid (m : Nat) (e top : Int) (count : Nat) : Nat → Nat × Int
  | 0 => (m, 0)
  | fuel + 1 =>
    let k := top + 1 - Int.ofNat count
    match onGrid m e k with
    | some c => (c, k)
    | none => firstGrid m e top (count + 1) fuel

/-- Moves the zeros at the end of `c` into the exponent. -/
def trimZeros (c : Nat) (k : Int) : Nat → Nat × Int
  | 0 => (c, k)
  | fuel + 1 => if c % 10 = 0 && c != 0 then trimZeros (c / 10) (k + 1) fuel else (c, k)

/-- Digits and exponent of the shortest decimal `c * 10 ^ k`; seventeen digits always suffice. -/
def shortest (m : Nat) (e : Int) : Nat × Int :=
  let v := magnitude m e
  let (c, k) := firstGrid m e (decimalExponent v.1 v.2) 1 17
  trimZeros c k 20

def exponentText (x : Int) : List Char :=
  let digits := Text.natural x.natAbs
  'e' :: (if x < 0 then '-' else '+') :: (if digits.length < 2 then '0' :: digits else digits)

/-- Lays out `c * 10 ^ k`; `top` is the exponent of the first digit. -/
def layOut (c : Nat) (k : Int) : List Char :=
  let digits := Text.natural c
  let top := k + Int.ofNat digits.length - 1
  if -4 ≤ top && top < 16 then
    if 0 ≤ k then digits ++ List.replicate k.toNat '0' ++ ['.', '0']
    else if 0 ≤ top then digits.take (top.toNat + 1) ++ '.' :: digits.drop (top.toNat + 1)
    else '0' :: '.' :: List.replicate (-top - 1).toNat '0' ++ digits
  else
    match digits with
    | [] => []
    | [d] => d :: exponentText top
    | d :: rest => d :: '.' :: rest ++ exponentText top

def text : Binary64 → String
  | .finite negative m e =>
    let body := if m = 0 then ['0', '.', '0'] else
      let (c, k) := shortest m e
      layOut c k
    .ofList (if negative then '-' :: body else body)
  | .infinite negative => if negative then "-inf" else "inf"
  | .nan => "nan"

end ChangeImpact.Binary64
