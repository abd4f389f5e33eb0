/-!
# Number.Binary64

Floating point numbers of double precision as exact values.

* `Binary64`          — a signed `mantissa * 2 ^ exponent`, an infinity or not a number.
* `Binary64.ofRatio`  — the nearest one to a fraction, a tie going to the even mantissa.
* `Binary64.scale`    — the product with a natural number, rounded the same way.
* `Binary64.truncate?` — the whole number towards zero.
-/

namespace ChangeImpact

/-- A finite number is kept with `mantissa < 2 ^ 53` and the least exponent, -1074 at least. -/
inductive Binary64 where
  | finite (negative : Bool) (mantissa : Nat) (exponent : Int)
  | infinite (negative : Bool)
  | nan
  deriving DecidableEq, Repr

namespace Binary64

/-- The nearest natural number to `num / den`; a half goes to the even neighbour. -/
def roundHalfEven (num den : Nat) : Nat :=
  let q := num / den
  let r := num % den
  if 2 * r < den then q
  else if den < 2 * r then q + 1
  else q + q % 2

/-- `num / den / 2 ^ e` as a fraction. -/
def scaled (num den : Nat) (e : Int) : Nat × Nat :=
  match e with
  | .ofNat k => (num, den * Nat.pow 2 k)
  | .negSucc k => (num * Nat.pow 2 (k + 1), den)

def ofRatio (negative : Bool) (num den : Nat) : Binary64 :=
  if num = 0 then .finite negative 0 (-1074)
  else
    let guess : Int := Int.ofNat num.log2 - Int.ofNat den.log2 - 52
    let (n, d) := scaled num den guess
    let e := max (if n < d * Nat.pow 2 52 then guess - 1 else guess) (-1074)
    let (n, d) := scaled num den e
    let m := roundHalfEven n d
    let (m, e) := if m = Nat.pow 2 53 then (Nat.pow 2 52, e + 1) else (m, e)
    if 971 < e then .infinite negative else .finite negative m e

/-- The number written `digits * 10 ^ exponent`. Exponents far out of range are settled first, so
that no huge power is computed. -/
def ofDecimal (negative : Bool) (digits : Nat) (exponent : Int) : Binary64 :=
  if digits = 0 then ofRatio negative 0 1
  else if 400 < exponent then .infinite negative
  else if exponent < -(400 + Int.ofNat digits.log2) then ofRatio negative 0 1
  else
    match exponent with
    | .ofNat k => ofRatio negative (digits * Nat.pow 10 k) 1
    | .negSucc k => ofRatio negative digits (Nat.pow 10 (k + 1))

/-- The magnitude of `mantissa * 2 ^ exponent` as a fraction. -/
def magnitude (mantissa : Nat) (exponent : Int) : Nat × Nat :=
  match exponent with
  | .ofNat k => (mantissa * Nat.pow 2 k, 1)
  | .negSucc k => (mantissa, Nat.pow 2 (k + 1))

def scale (x : Binary64) (factor : Nat) : Binary64 :=
  match x with
  | .finite negative m e =>
    let (n, d) := magnitude m e
    ofRatio negative (n * factor) d
  | x => x

/-- Zero less a number. What is left when zero is taken away has no sign. -/
def opposite : Binary64 → Binary64
  | .finite negative m e => .finite (!negative && m != 0) m e
  | .infinite negative => .infinite (!negative)
  | .nan => .nan

def truncate? : Binary64 → Option Int
  | .finite negative m e =>
    let (n, d) := magnitude m e
    some (if negative then -Int.ofNat (n / d) else Int.ofNat (n / d))
  | _ => none

end Binary64

end ChangeImpact
