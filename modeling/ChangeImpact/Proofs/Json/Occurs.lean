import Mathlib.Data.List.Infix
import ChangeImpact.Proofs.Json.RoundTrip
import ChangeImpact.Proofs.Text.Search

/-!
# Proofs.Json.Occurs

What occurs in the text of a value.

* `Value.words`         — the texts and the keys of a value.
* `Layout.infix_value`  — a piece without quotes occurs in the text of a value if it occurs in one
  of its words, as that is escaped.
* `infix_flatMap`       — a piece that needs no escapes occurs in an escaped text if it occurs in
  the text itself.
* `control_notMem_inline`, `cr_notMem_pretty` — control characters are always escaped.
-/

namespace ChangeImpact

/-! ## Pieces of a text -/

namespace Text

variable {c d : Char} {w a b : List Char}

theorem infix_cons_of_ne (h : c ≠ d) : c :: w <:+: d :: b ↔ c :: w <:+: b := by
  rw [List.infix_cons_iff]
  exact or_iff_right fun hp => h (List.cons_prefix_cons.mp hp).1

theorem infix_append_of_notMem (h : c ∉ a) : c :: w <:+: a ++ b ↔ c :: w <:+: b := by
  induction a with
  | nil => rfl
  | cons d a ih =>
    rw [List.mem_cons, not_or] at h
    rw [List.cons_append, infix_cons_of_ne h.1, ih h.2]

theorem prefix_cut (h : d ∉ w) : w <+: a ++ d :: b ↔ w <+: a := by
  induction w generalizing a with
  | nil => simp
  | cons x w ih =>
    rw [List.mem_cons, not_or] at h
    cases a with
    | nil => simp [Ne.symm h.1]
    | cons y a => rw [List.cons_append, List.cons_prefix_cons, List.cons_prefix_cons, ih h.2]

/-- A piece does not reach over a character that it does not hold. -/
theorem infix_cut (h : d ∉ c :: w) :
    c :: w <:+: a ++ d :: b ↔ c :: w <:+: a ∨ c :: w <:+: b := by
  induction a with
  | nil =>
    rw [List.nil_append, infix_cons_of_ne (List.ne_of_not_mem_cons h).symm]
    simp
  | cons y a ih =>
    rw [List.cons_append, List.infix_cons_iff, List.infix_cons_iff, ih, ← List.cons_append,
      prefix_cut h, or_assoc]

end Text

/-! ## Words -/

namespace Value

mutual

/-- The texts of a value and the keys of its objects. -/
def words : Value → List String
  | .text s => [s]
  | .list items => wordsOfItems items
  | .object fields => wordsOfFields fields
  | _ => []

def wordsOfItems : List Value → List String
  | [] => []
  | v :: rest => words v ++ wordsOfItems rest

def wordsOfFields : List (String × Value) → List String
  | [] => []
  | (k, v) :: rest => k :: (words v ++ wordsOfFields rest)

end

theorem mem_wordsOfItems {items : List Value} {s : String} :
    s ∈ wordsOfItems items ↔ ∃ v ∈ items, s ∈ v.words := by
  induction items with
  | nil => simp [wordsOfItems]
  | cons v rest ih => simp [wordsOfItems, ih]

end Value

namespace Json

open Text Value

/-- What a value is written with outside of its texts and keys. -/
def marks : List Char := "nulltruefalse-0123456789[]\x7b\x7d,: \"".toList

namespace Layout

/-- The character stands in texts and keys only. -/
structure Silent (l : Layout) (c : Char) : Prop where
  mark : c ∉ marks
  opening : ∀ depth, c ∉ l.opening depth
  between : ∀ depth, c ∉ l.between depth
  closing : ∀ depth, c ∉ l.closing depth

variable {l : Layout} {c : Char} {w : List Char}

theorem Silent.ne (h : l.Silent c) {d : Char} (hd : d ∈ marks) : c ≠ d := by
  rintro rfl
  exact h.mark hd

theorem Silent.infix_cons (h : l.Silent c) {d : Char} {b : List Char} (hd : d ∈ marks) :
    c :: w <:+: d :: b ↔ c :: w <:+: b :=
  infix_cons_of_ne (h.ne hd)

theorem Silent.notMem (h : l.Silent c) {a : List Char} (ha : ∀ d ∈ a, d ∈ marks) : c ∉ a :=
  fun hc => h.mark (ha c hc)

theorem isDigit_mem_marks {d : Char} (h : isDigit d = true) : d ∈ marks := by
  have hle : '0' ≤ d ∧ d ≤ '9' := by simpa [isDigit] using h
  have h0 : 0x30 ≤ d.toNat := hle.1
  have h9 : d.toNat ≤ 0x39 := hle.2
  rw [← Char.ofNat_toNat d]
  generalize d.toNat = n at h0 h9
  have hall : ∀ m, m ≤ 9 → Char.ofNat (0x30 + m) ∈ marks := by decide
  have := hall (n - 0x30) (by omega)
  rwa [show 0x30 + (n - 0x30) = n by omega] at this

theorem natural_mem_marks (n : Nat) : ∀ d ∈ Text.natural n, d ∈ marks :=
  fun d hd => isDigit_mem_marks (isDigit_of_mem_natural n d hd)

theorem infix_stringLit (h : l.Silent c) (hquote : '"' ∉ c :: w) (s : String) (r : List Char) :
    c :: w <:+: stringLit l.escape s ++ r ↔
      c :: w <:+: s.toList.flatMap l.escape ∨ c :: w <:+: r := by
  rw [stringLit_append, infix_cons_of_ne (h.ne (by decide)), infix_cut hquote]

/-- One of the words holds the piece, as it is escaped. -/
def Holds (l : Layout) (p : List Char) (words : List String) : Prop :=
  ∃ s ∈ words, p <:+: s.toList.flatMap l.escape

@[simp] theorem holds_nil {p : List Char} : ¬ l.Holds p [] := by simp [Holds]

@[simp] theorem holds_cons {p : List Char} {s : String} {rest : List String} :
    l.Holds p (s :: rest) ↔ p <:+: s.toList.flatMap l.escape ∨ l.Holds p rest := by
  simp [Holds]

@[simp] theorem holds_append {p : List Char} {a b : List String} :
    l.Holds p (a ++ b) ↔ l.Holds p a ∨ l.Holds p b := by
  simp [Holds, or_and_right, exists_or]

mutual

/-- A piece that starts with no punctuation and holds no quote lies within one word. -/
theorem infix_value (h : l.Silent c) (hquote : '"' ∉ c :: w) :
    ∀ (depth : Nat) (v : Value) (r : List Char), v.Plain →
      (c :: w <:+: l.value depth v ++ r ↔ l.Holds (c :: w) v.words ∨ c :: w <:+: r)
  | _, .null, r, _ => by
    rw [value, infix_append_of_notMem (h.notMem (by decide))]
    simp [words]
  | _, .bool b, r, _ => by
    rw [value, infix_append_of_notMem (h.notMem (by cases b <;> decide))]
    simp [words]
  | _, .int (.ofNat n), r, _ => by
    simp [value, words, Text.integer, infix_append_of_notMem (h.notMem (natural_mem_marks n))]
  | _, .int (.negSucc n), r, _ => by
    simp (disch := decide) [value, words, Text.integer, h.infix_cons,
      infix_append_of_notMem (h.notMem (natural_mem_marks (n + 1)))]
  | _, .float x, _, hv => hv.elim
  | _, .text s, r, _ => by
    simp [value, words, infix_stringLit h hquote]
  | _, .list [], r, _ => by
    simp (disch := decide) [value, words, wordsOfItems, h.infix_cons]
  | depth, .list (v :: rest), r, hv => by
    simp (disch := decide) [value, words, wordsOfItems, h.infix_cons,
      infix_append_of_notMem (h.opening depth), infix_append_of_notMem (h.closing depth),
      infix_value h hquote (depth + 1) v _ hv.1,
      infix_laterItems h hquote (depth + 1) rest _ hv.2, or_assoc]
  | _, .object [], r, _ => by
    simp (disch := decide) [value, words, wordsOfFields, h.infix_cons]
  | depth, .object ((k, v) :: rest), r, hv => by
    simp (disch := decide) [value, words, wordsOfFields, h.infix_cons,
      infix_append_of_notMem (h.opening depth), infix_append_of_notMem (h.closing depth),
      infix_stringLit h hquote, infix_value h hquote (depth + 1) v _ hv.2.1,
      infix_laterFields h hquote (depth + 1) rest _ hv.2.2, or_assoc]

theorem infix_laterItems (h : l.Silent c) (hquote : '"' ∉ c :: w) :
    ∀ (depth : Nat) (items : List Value) (r : List Char), PlainItems items →
      (c :: w <:+: l.laterItems depth items ++ r ↔
        l.Holds (c :: w) (wordsOfItems items) ∨ c :: w <:+: r)
  | _, [], r, _ => by simp [laterItems, wordsOfItems]
  | depth, v :: rest, r, hv => by
    simp (disch := decide) [laterItems, wordsOfItems, h.infix_cons,
      infix_append_of_notMem (h.between depth), infix_value h hquote depth v _ hv.1,
      infix_laterItems h hquote depth rest _ hv.2, or_assoc]

theorem infix_laterFields (h : l.Silent c) (hquote : '"' ∉ c :: w) :
    ∀ (depth : Nat) (fields : List (String × Value)) (r : List Char), PlainFields fields →
      (c :: w <:+: l.laterFields depth fields ++ r ↔
        l.Holds (c :: w) (wordsOfFields fields) ∨ c :: w <:+: r)
  | _, [], r, _ => by simp [laterFields, wordsOfFields]
  | depth, (k, v) :: rest, r, hv => by
    simp (disch := decide) [laterFields, wordsOfFields, h.infix_cons,
      infix_append_of_notMem (h.between depth), infix_stringLit h hquote,
      infix_value h hquote depth v _ hv.1, infix_laterFields h hquote depth rest _ hv.2, or_assoc]

end

theorem notMem_value (h : l.Silent c) (hquote : c ≠ '"') (hescape : ∀ d, c ∉ l.escape d)
    {v : Value} (hv : v.Plain) (depth : Nat) : c ∉ l.value depth v := by
  have hpiece := infix_value (w := []) h (by simpa using hquote.symm) depth v [] hv
  rw [List.append_nil, List.singleton_infix_iff] at hpiece
  rw [hpiece]
  rintro (⟨s, _, hs⟩ | hnil)
  · rw [List.singleton_infix_iff, List.mem_flatMap] at hs
    obtain ⟨d, _, hd⟩ := hs
    exact hescape d hd
  · simp at hnil

end Layout

/-! ## Escapes -/

/-- What follows the backslash of an escape. -/
def escapeMarks : List Char := "\\\"nrtfbu0123456789abcdef".toList

theorem hexDigit_mem_escapeMarks : ∀ d, d < 16 → Text.hexDigit d ∈ escapeMarks := by decide

theorem hex_mem_escapeMarks (n : Nat) : ∀ d ∈ Text.hex 4 n, d ∈ escapeMarks := by
  simp only [hex_eq, List.forall_mem_cons, List.not_mem_nil, false_imp_iff, implies_true, and_true]
  refine ⟨?_, ?_, ?_, ?_⟩ <;> exact hexDigit_mem_escapeMarks _ (by omega)

/-- An escape starts with a backslash; only characters that can be printed have none. -/
def Escaping (escape : Char → List Char) : Prop :=
  ∀ c, escape c = [c] ∧ 0x20 ≤ c.toNat ∨
    ∃ t, escape c = '\\' :: t ∧ ∀ d ∈ t, d ∈ escapeMarks

theorem escaping_escapeChar : Escaping escapeChar := by
  intro c
  unfold escapeChar
  repeat
    split
    · exact .inr ⟨_, rfl, by decide⟩
  split
  · refine .inr ⟨_, rfl, List.forall_mem_cons.mpr ⟨by decide, hex_mem_escapeMarks _⟩⟩
  · exact .inl ⟨rfl, by omega⟩

theorem escaping_escapeAscii : Escaping escapeAscii := by
  intro c
  unfold escapeAscii
  split
  · exact escaping_escapeChar c
  · split
    · exact .inr ⟨_, rfl, List.forall_mem_cons.mpr ⟨by decide, hex_mem_escapeMarks _⟩⟩
    · refine .inr ⟨'u' :: Text.hex 4 _ ++ '\\' :: 'u' :: Text.hex 4 _, rfl, ?_⟩
      simp only [List.forall_mem_append, List.forall_mem_cons]
      exact ⟨⟨by decide, hex_mem_escapeMarks _⟩, by decide, by decide, hex_mem_escapeMarks _⟩

theorem escapeAscii_of_plain {c : Char} (hlow : 0x20 ≤ c.toNat) (hhigh : c.toNat < 0x7f)
    (hquote : c ≠ '"') (hslash : c ≠ '\\') : escapeAscii c = [c] := by
  have hne : ∀ d : Char, d.toNat < 0x20 → c ≠ d := by
    rintro d hd rfl
    omega
  rw [escapeAscii, if_pos hhigh, escapeChar, if_neg hquote, if_neg hslash,
    if_neg (hne _ (by decide)),
    if_neg (hne _ (by decide)), if_neg (hne _ (by decide)), if_neg (hne _ (by decide)),
    if_neg (hne _ (by decide)), if_neg (by omega)]

section Escaping

variable {escape : Char → List Char}

theorem le_of_mem_escape (h : Escaping escape) {c d : Char} (hd : d ∈ escape c) :
    0x20 ≤ d.toNat := by
  rcases h c with ⟨hc, hle⟩ | ⟨t, hc, ht⟩
  · rw [hc, List.mem_singleton] at hd
    exact hd ▸ hle
  · have hmarks : ∀ x ∈ escapeMarks, 0x20 ≤ x.toNat := by decide
    rw [hc] at hd
    rcases List.mem_cons.mp hd with rfl | hd
    · decide
    · exact hmarks d (ht d hd)

variable {c : Char} {w : List Char}

theorem prefix_flatMap (h : Escaping escape) (hkept : ∀ d ∈ w, escape d = [d])
    (hslash : '\\' ∉ w) (s : List Char) : w <+: s.flatMap escape ↔ w <+: s := by
  induction w generalizing s with
  | nil => simp
  | cons x w ih =>
    rw [List.forall_mem_cons] at hkept
    rw [List.mem_cons, not_or] at hslash
    cases s with
    | nil => rfl
    | cons d s =>
      rw [List.flatMap_cons, List.cons_prefix_cons]
      rcases h d with ⟨hd, _⟩ | ⟨t, hd, _⟩
      · rw [hd, List.singleton_append, List.cons_prefix_cons, ih hkept.2 hslash.2]
      · -- The first character of the piece is no backslash, and is not escaped itself.
        rw [hd, List.cons_append, List.cons_prefix_cons]
        refine iff_of_false (fun hx => hslash.1 hx.1.symm) fun hx => ?_
        have hslash' := List.cons.inj (hd.symm.trans (hx.1 ▸ hkept.1))
        exact hslash.1 (hslash'.1.trans hx.1.symm)

/-- A piece that needs no escapes is found where it was. -/
theorem infix_flatMap (h : Escaping escape) (hkept : ∀ d ∈ c :: w, escape d = [d])
    (hslash : '\\' ∉ c :: w) (hmark : c ∉ escapeMarks) (s : List Char) :
    c :: w <:+: s.flatMap escape ↔ c :: w <:+: s := by
  induction s with
  | nil => rfl
  | cons d s ih =>
    have hprefix := prefix_flatMap h hkept hslash (d :: s)
    rw [List.flatMap_cons] at hprefix ⊢
    rw [List.infix_cons_iff, ← hprefix, ← ih]
    rcases h d with ⟨hd, _⟩ | ⟨t, hd, ht⟩
    · rw [hd, List.singleton_append, List.infix_cons_iff]
    · have hne : c ∉ escape d := by
        rw [hd, List.mem_cons, not_or]
        exact ⟨fun hc => hslash (hc ▸ List.mem_cons_self), fun hc => hmark (ht c hc)⟩
      rw [infix_append_of_notMem hne, iff_or_self]
      exact fun hp => (infix_append_of_notMem hne).mp hp.isInfix

end Escaping

/-! ## Control characters -/

theorem control_notMem_inline {c : Char} (h : c.toNat < 0x20) {v : Value} (hv : v.Plain) :
    c ∉ inlineChars v := by
  have hmarks : ∀ x ∈ marks, 0x20 ≤ x.toNat := by decide
  have hne : ∀ x : Char, 0x20 ≤ x.toNat → c ≠ x := by
    rintro x hx rfl
    omega
  rw [Layout.inlineChars_eq 0]
  refine Layout.notMem_value ?_ (hne _ (by decide))
    (fun d hd => hne c (le_of_mem_escape escaping_escapeAscii hd) rfl) hv 0
  exact {
    mark := fun hc => hne c (hmarks c hc) rfl
    opening := fun _ => List.not_mem_nil
    between := fun _ => by simpa [Layout.oneLine] using hne ' ' (by decide)
    closing := fun _ => List.not_mem_nil }

/-- Carriage returns stand in texts only, where they are escaped. -/
theorem cr_notMem_pretty {v : Value} (hv : v.Plain) : '\r' ∉ (pretty v).toList := by
  have hbreak : ∀ depth, '\r' ∉ lineBreak depth := fun depth => by simp [lineBreak]
  rw [pretty, String.toList_ofList, Layout.prettyAt_eq]
  refine Layout.notMem_value ?_ (by decide) (fun d hd => ?_) hv 0
  · exact {
      mark := by decide
      opening := fun depth => hbreak (depth + 1)
      between := hbreak
      closing := hbreak }
  · exact absurd (le_of_mem_escape escaping_escapeChar hd) (by decide)

end Json

end ChangeImpact
