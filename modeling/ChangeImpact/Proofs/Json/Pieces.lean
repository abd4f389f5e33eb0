import ChangeImpact.Document.JsonReader
import ChangeImpact.Document.JsonText

/-!
# Proofs.Json.Pieces

The pieces of a JSON text are read back.

* `digitsValue_natural`, `unsigned?_natural` — whole numbers, by induction on the number.
* `stringBody?_escapeChar`, `stringBody?_escapeAscii` — the escape of a character.
* `skipSpace_append`                         — the blanks between the pieces.
-/

namespace ChangeImpact.Json

/-! ## Whole numbers -/

theorem natural_eq (n : Nat) : Text.natural n =
    if n < 10 then [n.digitChar] else Text.natural (n / 10) ++ [(n % 10).digitChar] :=
  Nat.toDigits_eq_if (by decide)

theorem digitChar_value : ∀ d, d < 10 →
    isDigit d.digitChar = true ∧ d.digitChar.toNat - 0x30 = d ∧ (d.digitChar = '0' → d = 0) := by
  decide

theorem isDigit_of_mem_natural (n : Nat) : ∀ c ∈ Text.natural n, isDigit c = true := by
  induction n using Nat.strongRecOn with
  | ind n ih =>
    intro c hc
    rw [natural_eq] at hc
    split at hc
    · next hn =>
      rw [List.mem_singleton.mp hc]
      exact (digitChar_value n hn).1
    · rcases List.mem_append.mp hc with hc | hc
      · exact ih (n / 10) (by omega) c hc
      · rw [List.mem_singleton.mp hc]
        exact (digitChar_value (n % 10) (by omega)).1

theorem digitsValue_append (ds : List Char) (d : Char) :
    digitsValue (ds ++ [d]) = digitsValue ds * 10 + (d.toNat - 0x30) := by
  simp [digitsValue]

theorem digitsValue_natural (n : Nat) : digitsValue (Text.natural n) = n := by
  induction n using Nat.strongRecOn with
  | ind n ih =>
    rw [natural_eq]
    split
    · next hn =>
      have := (digitChar_value n hn).2.1
      simpa [digitsValue] using this
    · rw [digitsValue_append, ih (n / 10) (by omega), (digitChar_value (n % 10) (by omega)).2.1]
      omega

/-- Only zero starts with a zero. -/
theorem natural_cons (n : Nat) : ∃ c cs, Text.natural n = c :: cs ∧ isDigit c = true ∧
    (c = '0' → n = 0 ∧ cs = []) := by
  induction n using Nat.strongRecOn with
  | ind n ih =>
    rw [natural_eq]
    split
    · next hn =>
      obtain ⟨h1, _, h3⟩ := digitChar_value n hn
      exact ⟨_, [], rfl, h1, fun h => ⟨h3 h, rfl⟩⟩
    · next hn =>
      obtain ⟨c, cs, hc, hd, h0⟩ := ih (n / 10) (by omega)
      refine ⟨c, cs ++ [(n % 10).digitChar], by rw [hc]; rfl, hd, fun h => ?_⟩
      have := (h0 h).1
      omega

/-- A number ends in front of `r`. -/
def NumberEnds (r : List Char) : Prop :=
  ∀ c cs, r = c :: cs → isDigit c = false ∧ c ≠ '.' ∧ c ≠ 'e' ∧ c ≠ 'E'

theorem numberEnds_nil : NumberEnds [] := by
  intro c cs h
  cases h

theorem numberEnds_cons {c : Char} {cs : List Char}
    (h : isDigit c = false ∧ c ≠ '.' ∧ c ≠ 'e' ∧ c ≠ 'E') : NumberEnds (c :: cs) := by
  intro d ds hd
  cases hd
  exact h

theorem digitRun?_append {ds r : List Char} (hne : ds ≠ []) (hds : ∀ c ∈ ds, isDigit c = true)
    (hr : NumberEnds r) : digitRun? (ds ++ r) = some (ds, r) := by
  have htake : (ds ++ r).takeWhile isDigit = ds := by
    rw [List.takeWhile_append_of_pos hds]
    cases r with
    | nil => simp
    | cons c cs => simp [(hr c cs rfl).1]
  have hdrop : (ds ++ r).dropWhile isDigit = r := by
    rw [List.dropWhile_append_of_pos hds]
    cases r with
    | nil => rfl
    | cons c cs => simp [(hr c cs rfl).1]
  rw [digitRun?, htake, hdrop]
  cases ds with
  | nil => exact absurd rfl hne
  | cons d ds => rfl

theorem wholeDigits?_natural (n : Nat) {r : List Char} (hr : NumberEnds r) :
    wholeDigits? (Text.natural n ++ r) = some (Text.natural n, r) := by
  obtain ⟨c, cs, hc, _, h0⟩ := natural_cons n
  by_cases hz : c = '0'
  · obtain ⟨_, rfl⟩ := h0 hz
    subst hz
    rw [hc]
    rfl
  · have hrun := digitRun?_append (by rw [hc]; simp) (isDigit_of_mem_natural n) hr
    rw [hc] at hrun ⊢
    rw [← hrun, List.cons_append, wholeDigits?]
    simpa using hz

theorem fraction?_none {r : List Char} (hr : NumberEnds r) : fraction? r = none := by
  unfold fraction?
  split
  · exact absurd rfl (hr _ _ rfl).2.1
  · rfl

theorem exponent?_none {r : List Char} (hr : NumberEnds r) : exponent? r = none := by
  unfold exponent?
  dsimp only
  split
  · exact absurd rfl (hr _ _ rfl).2.2.1
  · exact absurd rfl (hr _ _ rfl).2.2.2
  · rfl

theorem unsigned?_natural (negative : Bool) (n : Nat) {r : List Char} (hr : NumberEnds r) :
    unsigned? negative (Text.natural n ++ r) =
      some (.int (if negative then -(n : Int) else n), r) := by
  rw [unsigned?, wholeDigits?_natural n hr]
  simp only [fraction?_none hr, Option.elim_none, exponent?_none hr, digitsValue_natural]
  rfl

/-! ## Strings -/

theorem hexValue?_hexDigit : ∀ d, d < 16 → hexValue? (Text.hexDigit d) = some d := by
  decide

theorem hex_eq (n : Nat) : Text.hex 4 n =
    [Text.hexDigit (n / 16 / 16 / 16 % 16), Text.hexDigit (n / 16 / 16 % 16),
      Text.hexDigit (n / 16 % 16), Text.hexDigit (n % 16)] := rfl

theorem hex4?_hex {n : Nat} (h : n < 0x10000) :
    hex4? (Text.hexDigit (n / 16 / 16 / 16 % 16)) (Text.hexDigit (n / 16 / 16 % 16))
      (Text.hexDigit (n / 16 % 16)) (Text.hexDigit (n % 16)) = some n := by
  rw [hex4?, hexValue?_hexDigit _ (by omega), hexValue?_hexDigit _ (by omega),
    hexValue?_hexDigit _ (by omega), hexValue?_hexDigit _ (by omega)]
  simp only [Option.some.injEq]
  omega

theorem not_surrogate (c : Char) :
    isHighSurrogate c.toNat = false ∧ isLowSurrogate c.toNat = false := by
  have hvalid : c.toNat < 0xd800 ∨ 0xdfff < c.toNat ∧ c.toNat < 0x110000 := c.valid
  simp only [isHighSurrogate, isLowSurrogate, Bool.and_eq_false_iff, decide_eq_false_iff_not]
  omega

theorem stringBody?_unicode {c : Char} (h : c.toNat < 0x10000) (rest : List Char) :
    stringBody? ('\\' :: 'u' :: Text.hex 4 c.toNat ++ rest) = consTo c (stringBody? rest) := by
  obtain ⟨hhigh, hlow⟩ := not_surrogate c
  rw [hex_eq]
  simp only [List.cons_append, List.nil_append, stringBody?, hex4?_hex h, hhigh, hlow,
    Char.ofNat_toNat]
  rfl

/-- Beyond the first plane it takes the two halves of a pair. -/
theorem stringBody?_pair {c : Char} (h : 0xffff < c.toNat) (rest : List Char) :
    stringBody? ('\\' :: 'u' :: Text.hex 4 (0xd800 + (c.toNat - 0x10000) / 0x400)
      ++ '\\' :: 'u' :: Text.hex 4 (0xdc00 + (c.toNat - 0x10000) % 0x400) ++ rest) =
      consTo c (stringBody? rest) := by
  have hvalid : c.toNat < 0xd800 ∨ 0xdfff < c.toNat ∧ c.toNat < 0x110000 := c.valid
  generalize hhi : 0xd800 + (c.toNat - 0x10000) / 0x400 = hi
  generalize hlo : 0xdc00 + (c.toNat - 0x10000) % 0x400 = lo
  have hhigh : isHighSurrogate hi = true := by
    simp only [isHighSurrogate, Bool.and_eq_true, decide_eq_true_eq]
    omega
  have hlow : isLowSurrogate lo = true := by
    simp only [isLowSurrogate, Bool.and_eq_true, decide_eq_true_eq]
    omega
  have hc : 0x10000 + (hi - 0xd800) * 0x400 + (lo - 0xdc00) = c.toNat := by omega
  rw [hex_eq, hex_eq]
  simp only [List.cons_append, List.nil_append, stringBody?,
    hex4?_hex (show hi < 0x10000 by omega), hex4?_hex (show lo < 0x10000 by omega), hhigh, hlow,
    if_true, hc, Char.ofNat_toNat]

theorem stringBody?_plain {c : Char} (hq : c ≠ '"') (hb : c ≠ '\\') (h : ¬ c.toNat < 0x20)
    (rest : List Char) : stringBody? (c :: rest) = consTo c (stringBody? rest) := by
  rw [stringBody?.eq_def]
  split
  · next h => cases h
  · next h => exact absurd (List.cons.inj h).1 hq
  · next h => exact absurd (List.cons.inj h).1 hb
  · next h => exact absurd (List.cons.inj h).1 hb
  · next h' =>
    cases h'
    exact if_neg h

theorem stringBody?_escapeChar (c : Char) (rest : List Char) :
    stringBody? (escapeChar c ++ rest) = consTo c (stringBody? rest) := by
  unfold escapeChar
  repeat
    split
    · next h =>
      subst h
      rfl
  split
  · next h => exact stringBody?_unicode (by omega) rest
  · next hq hb _ _ _ _ _ h => exact stringBody?_plain hq hb h rest

theorem stringBody?_escapeAscii (c : Char) (rest : List Char) :
    stringBody? (escapeAscii c ++ rest) = consTo c (stringBody? rest) := by
  unfold escapeAscii
  split
  · exact stringBody?_escapeChar c rest
  · split
    · exact stringBody?_unicode (by omega) rest
    · exact stringBody?_pair (by omega) rest

/-! ## Blanks -/

theorem skipSpace_cons {c : Char} (h : isSpace c = false) (s : List Char) :
    skipSpace (c :: s) = c :: s := by
  simp [skipSpace, h]

theorem skipSpace_append {gap : List Char} (hgap : ∀ c ∈ gap, isSpace c = true) {c : Char}
    (h : isSpace c = false) (s : List Char) : skipSpace (gap ++ c :: s) = c :: s := by
  rw [skipSpace, List.dropWhile_append_of_pos hgap]
  exact skipSpace_cons h s

theorem isSpace_of_mem_lineBreak {depth : Nat} : ∀ c ∈ lineBreak depth, isSpace c = true := by
  intro c hc
  rcases List.mem_cons.mp hc with rfl | hc
  · rfl
  · rw [List.eq_of_mem_replicate hc]
    rfl

end ChangeImpact.Json
