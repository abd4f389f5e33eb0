import ChangeImpact.Plan.Moment
import Mathlib.Data.String.Basic

/-!
# Proofs.Plan.Timestamps

Readings of the clock and the order of their texts.

* `Moment.fields`  — a reading from the year down to the microsecond, which is compared in this
  order.
* `Moment.Fits`    — every field has room in its place in the text.
* `padded_lt_iff`  — numbers with leading zeros are in the order of the numbers.
* `text_lt_iff`    — the texts are in the order of the readings. A text without a fraction stands
  before all that go on with one.
-/

namespace ChangeImpact.Moment

def fields (m : Moment) : List Nat :=
  [m.year, m.month, m.day, m.hour, m.minute, m.second, m.micro]

/-- One reading is earlier than another. -/
instance : LT Moment := ⟨fun m m' => m.fields < m'.fields⟩

instance (m m' : Moment) : Decidable (m < m') :=
  inferInstanceAs (Decidable (m.fields < m'.fields))

theorem lt_irrefl (m : Moment) : ¬ m < m := List.lt_irrefl m.fields

structure Fits (m : Moment) : Prop where
  year : m.year < 10 ^ 4
  month : m.month < 10 ^ 2
  day : m.day < 10 ^ 2
  hour : m.hour < 10 ^ 2
  minute : m.minute < 10 ^ 2
  second : m.second < 10 ^ 2
  micro : m.micro < 10 ^ 6

/-! ## Texts of one length -/

/-- Of two texts the first pieces of one length decide, unless they are the same. -/
theorem append_lt_append_iff {a b s t : List Char} (h : a.length = b.length) :
    a ++ s < b ++ t ↔ a < b ∨ a = b ∧ s < t := by
  induction a generalizing b with
  | nil =>
    cases b with
    | nil => simp
    | cons d b => cases h
  | cons c a ih =>
    cases b with
    | nil => cases h
    | cons d b =>
      rw [List.cons_append, List.cons_append, List.cons_lt_cons_iff, List.cons_lt_cons_iff,
        ih (Nat.succ.inj h), List.cons.injEq]
      tauto

theorem length_padded (width n : Nat) : (padded width n).length = width := by
  induction width generalizing n with
  | zero => rfl
  | succ width ih => simp [padded, ih]

theorem digit_lt_iff : ∀ d < 10, ∀ e < 10,
    (Char.ofNat (0x30 + d) < Char.ofNat (0x30 + e) ↔ d < e) ∧
      (Char.ofNat (0x30 + d) = Char.ofNat (0x30 + e) ↔ d = e) := by
  decide

theorem padded_inj {width a b : Nat} (ha : a < 10 ^ width) (hb : b < 10 ^ width) :
    padded width a = padded width b ↔ a = b := by
  refine ⟨fun h => ?_, fun h => by rw [h]⟩
  induction width generalizing a b with
  | zero => omega
  | succ width ih =>
    rw [padded, padded] at h
    obtain ⟨hfront, hlast⟩ := List.append_inj' h rfl
    have hten := ih (by omega) (by omega) hfront
    have hone := ((digit_lt_iff (a % 10) (by omega) (b % 10) (by omega)).2).mp
      (List.cons.inj hlast).1
    omega

theorem padded_lt_iff {width a b : Nat} (ha : a < 10 ^ width) (hb : b < 10 ^ width) :
    padded width a < padded width b ↔ a < b := by
  induction width generalizing a b with
  | zero =>
    obtain rfl : a = b := by omega
    simp [padded]
  | succ width ih =>
    have ha' : a / 10 < 10 ^ width := by omega
    have hb' : b / 10 < 10 ^ width := by omega
    have hdigit := (digit_lt_iff (a % 10) (by omega) (b % 10) (by omega)).1
    rw [padded, padded, append_lt_append_iff (by rw [length_padded, length_padded]), ih ha' hb',
      padded_inj ha' hb', List.cons_lt_cons_iff, hdigit]
    simp only [List.not_lt_nil, and_false, or_false]
    omega

/-! ## Texts of readings -/

variable {m m' : Moment}

/-- A field and what follows it. -/
theorem field_lt_iff {width a b : Nat} (ha : a < 10 ^ width) (hb : b < 10 ^ width)
    (s t : List Char) :
    padded width a ++ s < padded width b ++ t ↔ a < b ∨ a = b ∧ s < t := by
  rw [append_lt_append_iff (by rw [length_padded, length_padded]), padded_lt_iff ha hb,
    padded_inj ha hb]

theorem sign_lt_iff (c : Char) (s t : List Char) : c :: s < c :: t ↔ s < t := by
  simp

/-- The end of a text, which is left out where it would be all zeros. -/
theorem fraction_lt_iff {a b : Nat} (ha : a < 10 ^ 6) (hb : b < 10 ^ 6) :
    (if a = 0 then [] else '.' :: padded 6 a) < (if b = 0 then [] else '.' :: padded 6 b) ↔
      a < b := by
  by_cases ha0 : a = 0
  · by_cases hb0 : b = 0
    · simp [ha0, hb0]
    · simp [ha0, hb0]
      omega
  · by_cases hb0 : b = 0
    · simp [ha0, hb0]
    · rw [if_neg ha0, if_neg hb0, sign_lt_iff, padded_lt_iff ha hb]

/-- The earlier of two readings has the smaller text, and no other has. -/
theorem text_lt_iff (h : m.Fits) (h' : m'.Fits) : m.text < m'.text ↔ m < m' := by
  have hfields : m < m' ↔ m.fields < m'.fields := .rfl
  rw [hfields, text, text, String.lt_iff_toList_lt, String.toList_ofList, String.toList_ofList,
    chars, chars]
  simp only [List.append_assoc, List.cons_append, fields]
  rw [field_lt_iff h.year h'.year, sign_lt_iff, field_lt_iff h.month h'.month, sign_lt_iff,
    field_lt_iff h.day h'.day, sign_lt_iff, field_lt_iff h.hour h'.hour, sign_lt_iff,
    field_lt_iff h.minute h'.minute, sign_lt_iff, field_lt_iff h.second h'.second,
    fraction_lt_iff h.micro h'.micro]
  simp only [List.cons_lt_cons_iff, List.not_lt_nil, and_false, or_false]

theorem text_le_iff (h : m.Fits) (h' : m'.Fits) : m.text ≤ m'.text ↔ ¬ m' < m := by
  rw [← not_lt, text_lt_iff h' h]

end ChangeImpact.Moment
