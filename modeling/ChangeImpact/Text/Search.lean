import ChangeImpact.Text.Word

/-!
# Text.Search

Looking for a text inside another one.

* `after?`     — what follows a text at the front of another one.
* `contains`   — the text occurs somewhere.
* `firstMatch` — the result of a reader at the leftmost place where it succeeds.
* `hasWord`    — the text occurs as a word of its own.
* `splitOn`    — the pieces between the occurrences of a separator.
-/

namespace ChangeImpact.Text

def after? : List Char → List Char → Option (List Char)
  | [], s => some s
  | _ :: _, [] => none
  | p :: ps, c :: cs => if p = c then after? ps cs else none

theorem after?_eq_some_iff {p s r : List Char} : after? p s = some r ↔ s = p ++ r := by
  induction p generalizing s with
  | nil => simp [after?]
  | cons c p ih =>
    cases s with
    | nil => simp [after?]
    | cons d s =>
      by_cases h : c = d
      · simp [after?, h, ih]
      · simp [after?, h, Ne.symm h]

@[simp] theorem after?_append (p r : List Char) : after? p (p ++ r) = some r :=
  after?_eq_some_iff.mpr rfl

def contains (pat : List Char) : List Char → Bool
  | [] => pat.isEmpty
  | c :: cs => (after? pat (c :: cs)).isSome || contains pat cs

theorem contains_iff {pat s : List Char} : contains pat s = true ↔ pat <:+: s := by
  induction s with
  | nil => cases pat <;> simp [contains]
  | cons c s ih =>
    rw [contains, Bool.or_eq_true, ih, List.infix_cons_iff, Option.isSome_iff_exists]
    refine or_congr ?_ Iff.rfl
    constructor
    · rintro ⟨r, h⟩
      exact ⟨r, (after?_eq_some_iff.mp h).symm⟩
    · rintro ⟨r, h⟩
      exact ⟨r, after?_eq_some_iff.mpr h.symm⟩

/-- The text `needle` occurs in `s`. -/
def occursIn (needle s : String) : Bool := contains needle.toList s.toList

def startsWith (pat s : String) : Bool := (after? pat.toList s.toList).isSome

def firstMatch {α : Type} (read : List Char → Option α) : List Char → Option α
  | [] => read []
  | c :: cs =>
    match read (c :: cs) with
    | some x => some x
    | none => firstMatch read cs

/-- No word goes on at the front of `s`. -/
def wordEnds : List Char → Bool
  | [] => true
  | c :: _ => !isWordChar c

/-- One of the readers of whole words succeeds in `s`; `inWord` tells whether the character in
front of `s` belongs to a word. -/
def wordMatchFrom (read : List Char → Option (List Char)) (inWord : Bool) : List Char → Bool
  | [] => false
  | c :: cs =>
    (!inWord && isWordChar c && ((read (c :: cs)).map wordEnds).getD false)
      || wordMatchFrom read (isWordChar c) cs

/-- `read` succeeds somewhere in `s` on a stretch that starts and ends where words do. -/
def wordMatch (read : List Char → Option (List Char)) (s : List Char) : Bool :=
  wordMatchFrom read false s

def hasWord (word : String) (s : List Char) : Bool := wordMatch (after? word.toList) s

def splitOn (sep : Char) : List Char → List (List Char)
  | [] => [[]]
  | c :: cs =>
    if c = sep then [] :: splitOn sep cs
    else
      match splitOn sep cs with
      | [] => [[c]]
      | piece :: rest => (c :: piece) :: rest

theorem splitOn_ne_nil (sep : Char) (s : List Char) : splitOn sep s ≠ [] := by
  cases s with
  | nil => simp [splitOn]
  | cons c s =>
    rw [splitOn]
    split
    · simp
    · split <;> simp

theorem intercalate_splitOn (sep : Char) (s : List Char) :
    List.intercalate [sep] (splitOn sep s) = s := by
  induction s with
  | nil => rfl
  | cons c s ih =>
    have hne := splitOn_ne_nil sep s
    rw [splitOn]
    cases h : splitOn sep s with
    | nil => exact absurd h hne
    | cons piece rest =>
      rw [h] at ih
      split
      · next hc =>
        rw [hc, List.intercalate_cons_cons, ih]
        rfl
      · cases rest with
        | nil => simpa using ih
        | cons q rest =>
          rw [List.intercalate_cons_cons] at ih ⊢
          rw [← ih]
          simp

theorem not_mem_of_mem_splitOn {sep : Char} {s piece : List Char} (h : piece ∈ splitOn sep s) :
    sep ∉ piece := by
  induction s generalizing piece with
  | nil =>
    rw [splitOn, List.mem_singleton] at h
    simp [h]
  | cons c s ih =>
    rw [splitOn] at h
    split at h
    · rcases List.mem_cons.mp h with rfl | h
      · simp
      · exact ih h
    · next hc =>
      split at h
      · rw [List.mem_singleton] at h
        subst h
        simp [Ne.symm hc]
      · next q rest hs =>
        rcases List.mem_cons.mp h with rfl | h
        · have := ih (hs ▸ List.mem_cons_self)
          simp [Ne.symm hc, this]
        · exact ih (hs ▸ List.mem_cons_of_mem _ h)

end ChangeImpact.Text
