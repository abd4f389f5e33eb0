import ChangeImpact.Text.Integer

/-!
# Plan.Moment

A reading of the clock and the text that stands for it: date and time of day with leading zeros,
and six digits for the microseconds unless there are none.

* `Moment`, `Moment.text` — one reading, and its text.
* `Clock`                 — the readings that an operation takes, one after another.
-/

namespace ChangeImpact

structure Moment where
  year : Nat
  month : Nat
  day : Nat
  hour : Nat
  minute : Nat
  second : Nat
  micro : Nat := 0
  deriving DecidableEq, Repr

namespace Moment

/-- The last `width` decimal digits of `n`. -/
def padded : Nat → Nat → List Char
  | 0, _ => []
  | width + 1, n => padded width (n / 10) ++ [Char.ofNat (0x30 + n % 10)]

def chars (m : Moment) : List Char :=
  padded 4 m.year ++ '-' :: padded 2 m.month ++ '-' :: padded 2 m.day ++ 'T' :: padded 2 m.hour
    ++ ':' :: padded 2 m.minute ++ ':' :: padded 2 m.second
    ++ (if m.micro = 0 then [] else '.' :: padded 6 m.micro)

def text (m : Moment) : String := .ofList m.chars

end Moment

/-- The readings of a clock in the order in which they are taken. -/
structure Clock where
  reading : Nat → Moment

namespace Clock

/-- A clock that stands still. -/
instance : Coe Moment Clock := ⟨fun m => ⟨fun _ => m⟩⟩

def text (c : Clock) (n : Nat) : String := (c.reading n).text

/-- The clock after `n` readings. -/
def later (c : Clock) (n : Nat) : Clock := ⟨fun i => c.reading (n + i)⟩

end Clock

end ChangeImpact
