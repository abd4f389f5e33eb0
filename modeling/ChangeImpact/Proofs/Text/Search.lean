import ChangeImpact.Text.Search

/-!
# Proofs.Text.Search

What is found in a text that is put together from pieces.

* `cut_inj`           — two texts are cut at their first character of a kind in the same place.
* `firstMatch_append` — a piece in which a reader fails everywhere can be left out.
* `firstMatch_eq_some_iff` — what a search finds is read at the first place where anything is.
* `hasWord_append`    — a word is the whole of a run of word characters, or found further on.
* `hasWord_iff`       — it is found where it stands between other characters than those of words.
* `strip_append`      — blanks around a text are taken away, and nothing else.
* `infix_of_mem_splitOn`, `strip_isInfix` — pieces of a text stand in it.
* `strip_eq_nil_iff`, `strip_margins` — blank texts, and blanks added to a text.
-/

namespace ChangeImpact

namespace Text

/-- What holds of every character of a text is decided along the text. There are instances that go
through all characters instead. -/
instance (priority := high) decidableForallMem {p : Char → Prop} [DecidablePred p]
    (s : List Char) : Decidable (∀ c ∈ s, p c) := List.decidableBAll p s

instance (priority := high) decidableForallMemOption {p : Char → Prop} [DecidablePred p]
    (c? : Option Char) : Decidable (∀ c ∈ c?, p c) := Option.decidableForallMem c?

theorem cut_inj {p : Char → Bool} {a b r s : List Char} {x y : Char}
    (ha : ∀ c ∈ a, p c = false) (hb : ∀ c ∈ b, p c = false) (hx : p x = true) (hy : p y = true)
    (h : a ++ x :: r = b ++ y :: s) : a = b ∧ x :: r = y :: s := by
  induction a generalizing b with
  | nil =>
    cases b with
    | nil => exact ⟨rfl, h⟩
    | cons d b =>
      obtain ⟨rfl, _⟩ := List.cons.inj h
      rw [hb x List.mem_cons_self] at hx
      cases hx
  | cons c a ih =>
    cases b with
    | nil =>
      obtain ⟨rfl, _⟩ := List.cons.inj h
      rw [ha c List.mem_cons_self] at hy
      cases hy
    | cons d b =>
      rw [List.forall_mem_cons] at ha hb
      obtain ⟨rfl, htail⟩ := List.cons.inj h
      obtain ⟨rfl, hrest⟩ := ih ha.2 hb.2 htail
      exact ⟨rfl, hrest⟩

/-- A text is cut behind its longest front of one kind. -/
theorem takeWhile_dropWhile_iff {p : Char → Bool} {s a r : List Char} :
    (s.takeWhile p = a ∧ s.dropWhile p = r) ↔
      s = a ++ r ∧ (∀ c ∈ a, p c = true) ∧ ∀ c ∈ r.head?, p c = false := by
  constructor
  · rintro ⟨rfl, rfl⟩
    refine ⟨List.takeWhile_append_dropWhile.symm, List.all_eq_true.mp List.all_takeWhile, ?_⟩
    intro c hc
    have hhead := List.head?_dropWhile_not p s
    rw [Option.mem_def.mp hc] at hhead
    exact hhead
  · rintro ⟨rfl, ha, hr⟩
    rw [List.takeWhile_append_of_pos ha, List.dropWhile_append_of_pos ha]
    cases r with
    | nil => simp
    | cons c r =>
      have hc : ¬ p c = true := by simp [hr c rfl]
      rw [List.takeWhile_cons_of_neg hc, List.dropWhile_cons_of_neg hc, List.append_nil]
      exact ⟨rfl, rfl⟩

section FirstMatch

variable {α : Type} {read : List Char → Option α} {a b s : List Char}

theorem firstMatch_of_some {x : α} (h : read s = some x) : firstMatch read s = some x := by
  cases s with
  | nil => exact h
  | cons c s => rw [firstMatch, h]

/-- Nothing is found in front of `b` if the reader fails at every place there. -/
theorem firstMatch_append (h : ∀ t, t <:+ a → t ≠ [] → read (t ++ b) = none) :
    firstMatch read (a ++ b) = firstMatch read b := by
  induction a with
  | nil => rfl
  | cons c a ih =>
    have hhere : read (c :: (a ++ b)) = none := h (c :: a) (List.suffix_refl _) (by simp)
    rw [List.cons_append, firstMatch, hhere]
    exact ih fun t ht hne => h t (ht.trans (List.suffix_cons c a)) hne

theorem firstMatch_eq_none (h : ∀ t, t <:+ s → read t = none) : firstMatch read s = none := by
  have hall : firstMatch read (s ++ []) = firstMatch read [] :=
    firstMatch_append fun t ht _ => by simpa using h t ht
  rw [List.append_nil] at hall
  rw [hall]
  exact h [] List.nil_suffix

theorem isSome_firstMatch {t : List Char} {x : α} (ht : t <:+ s) (h : read t = some x) :
    (firstMatch read s).isSome = true := by
  induction s with
  | nil =>
    rw [List.suffix_nil.mp ht] at h
    rw [firstMatch, h]
    rfl
  | cons c s ih =>
    rw [firstMatch]
    rcases List.suffix_cons_iff.mp ht with rfl | ht
    · rw [h]
      rfl
    · split
      · rfl
      · exact ih ht

/-- No other place where the reader succeeds comes before. -/
theorem firstMatch_eq_some_iff {x : α} : firstMatch read s = some x ↔
    ∃ a b, s = a ++ b ∧ read b = some x ∧
      ∀ a' b' y, s = a' ++ b' → read b' = some y → a.length ≤ a'.length := by
  constructor
  · intro h
    induction s with
    | nil => exact ⟨[], [], rfl, h, by simp⟩
    | cons c s ih =>
      rw [firstMatch] at h
      split at h
      · next y hy =>
        cases h
        exact ⟨[], c :: s, rfl, hy, by simp⟩
      · next hnone =>
        obtain ⟨a, b, rfl, hread, hfirst⟩ := ih h
        refine ⟨c :: a, b, rfl, hread, fun a' b' y hs hread' => ?_⟩
        cases a' with
        | nil =>
          rw [List.nil_append] at hs
          rw [← hs, hnone] at hread'
          cases hread'
        | cons c' a' => exact Nat.succ_le_succ (hfirst a' b' y (List.cons.inj hs).2 hread')
  · rintro ⟨a, b, rfl, hread, hfirst⟩
    have hfront : ∀ t, t <:+ a → t ≠ [] → read (t ++ b) = none := by
      rintro t ⟨v, rfl⟩ hne
      rw [Option.eq_none_iff_forall_ne_some]
      intro y hread'
      have hle := hfirst v (t ++ b) y (by simp) hread'
      have hpos := List.length_pos_iff.mpr hne
      rw [List.length_append] at hle
      omega
    rw [firstMatch_append hfront]
    exact firstMatch_of_some hread

end FirstMatch

/-! ## Whole words -/

section Words

variable {k : String} {w rest : List Char} {c : Char}

theorem wordMatchFrom_inside {read : List Char → Option (List Char)}
    (hw : ∀ c ∈ w, isWordChar c = true) :
    wordMatchFrom read true (w ++ rest) = wordMatchFrom read true rest := by
  induction w with
  | nil => rfl
  | cons c w ih =>
    rw [List.forall_mem_cons] at hw
    rw [List.cons_append, wordMatchFrom, hw.1, ih hw.2]
    rfl

theorem wordMatchFrom_cons {read : List Char → Option (List Char)} (hc : isWordChar c = false)
    (inWord : Bool) : wordMatchFrom read inWord (c :: rest) = wordMatch read rest := by
  simp [wordMatchFrom, wordMatch, hc]

theorem takeWhile_word (hw : ∀ c ∈ w, isWordChar c = true) (hrest : wordEnds rest = true) :
    (w ++ rest).takeWhile isWordChar = w := by
  rw [List.takeWhile_append_of_pos hw]
  cases rest with
  | nil => simp
  | cons c rest =>
    have hc : isWordChar c = false := by simpa [wordEnds] using hrest
    rw [List.takeWhile_cons_of_neg (by simp [hc]), List.append_nil]

/-- A word is there if it is the whole of the first one, or further on. -/
theorem hasWord_append (hk : ∀ c ∈ k.toList, isWordChar c = true) (hne : w ≠ [])
    (hw : ∀ c ∈ w, isWordChar c = true) (hrest : wordEnds rest = true) :
    hasWord k (w ++ rest) = (decide (w = k.toList) || hasWord k rest) := by
  obtain ⟨c, cs, rfl⟩ := List.exists_cons_of_ne_nil hne
  have hc := List.forall_mem_cons.mp hw
  have hhere : ((after? k.toList (c :: cs ++ rest)).map wordEnds).getD false =
      decide (c :: cs = k.toList) := by
    by_cases heq : c :: cs = k.toList
    · rw [heq, after?_append]
      simpa using hrest
    · cases hafter : after? k.toList (c :: cs ++ rest) with
      | none => simp [heq]
      | some r =>
        cases hr : wordEnds r with
        | false => simp [heq, hr]
        | true =>
          have hcut := takeWhile_word hw hrest
          rw [after?_eq_some_iff.mp hafter, takeWhile_word hk hr] at hcut
          exact absurd hcut.symm heq
  have hlater : wordMatchFrom (after? k.toList) true rest = hasWord k rest := by
    cases rest with
    | nil => rfl
    | cons d rest =>
      have hd : isWordChar d = false := by simpa [wordEnds] using hrest
      rw [hasWord, wordMatch, wordMatchFrom_cons hd, wordMatchFrom_cons hd]
  rw [hasWord, wordMatch, List.cons_append, wordMatchFrom, ← List.cons_append, hhere, hc.1,
    wordMatchFrom_inside hc.2, hlater]
  simp

theorem hasWord_cons (hc : isWordChar c = false) : hasWord k (c :: rest) = hasWord k rest :=
  wordMatchFrom_cons hc false

/-- The word stands in the text, with no other character of a word beside it. -/
def StandsIn (w s : List Char) : Prop :=
  ∃ a b, s = a ++ (w ++ b) ∧ (∀ c ∈ a.getLast?, isWordChar c = false) ∧ wordEnds b = true

/-- The same behind a character, which may belong to a word. -/
theorem wordMatchFrom_iff (hne : w ≠ []) (hw : ∀ c ∈ w, isWordChar c = true) {s : List Char} :
    ∀ {inWord : Bool}, wordMatchFrom (after? w) inWord s = true ↔
      ∃ a b, s = a ++ (w ++ b) ∧ (a = [] → inWord = false) ∧
        (∀ c ∈ a.getLast?, isWordChar c = false) ∧ wordEnds b = true := by
  obtain ⟨d, ds, rfl⟩ := List.exists_cons_of_ne_nil hne
  induction s with
  | nil => simp [wordMatchFrom]
  | cons c s ih =>
    intro inWord
    have hhere : ((after? (d :: ds) (c :: s)).map wordEnds).getD false = true ↔
        ∃ b, c :: s = d :: ds ++ b ∧ wordEnds b = true := by
      cases hafter : after? (d :: ds) (c :: s) with
      | none =>
        simp only [Option.map_none, Option.getD_none, Bool.false_eq_true, false_iff, not_exists]
        rintro b ⟨hb, _⟩
        rw [hb, after?_append] at hafter
        cases hafter
      | some r =>
        have hr := after?_eq_some_iff.mp hafter
        constructor
        · exact fun hends => ⟨r, hr, hends⟩
        · rintro ⟨b, hb, hends⟩
          rw [hr, List.append_cancel_left_eq] at hb
          exact hb ▸ hends
    rw [wordMatchFrom, Bool.or_eq_true, ih, Bool.and_eq_true, Bool.and_eq_true, hhere]
    constructor
    · rintro (⟨⟨hin, _⟩, b, hb, hends⟩ | ⟨a, b, rfl, hin, hlast, hends⟩)
      · exact ⟨[], b, hb, fun _ => by simpa using hin, by simp, hends⟩
      · refine ⟨c :: a, b, rfl, by simp, ?_, hends⟩
        cases a with
        | nil => simpa using hin rfl
        | cons e a => simpa [List.getLast?_cons_cons] using hlast
    · rintro ⟨a, b, hs, hin, hlast, hends⟩
      cases a with
      | nil =>
        refine .inl ⟨⟨by simpa using hin rfl, ?_⟩, b, hs, hends⟩
        obtain ⟨rfl, _⟩ := List.cons.inj hs
        exact hw c List.mem_cons_self
      | cons e a =>
        obtain ⟨rfl, rfl⟩ := List.cons.inj hs
        refine .inr ⟨a, b, rfl, ?_, ?_, hends⟩
        · rintro rfl
          exact hlast c rfl
        · cases a with
          | nil => simp
          | cons f a => simpa [List.getLast?_cons_cons] using hlast

theorem hasWord_iff {s : List Char} (hne : k ≠ "") (hk : ∀ c ∈ k.toList, isWordChar c = true) :
    hasWord k s = true ↔ StandsIn k.toList s := by
  rw [hasWord, wordMatch, wordMatchFrom_iff (by simpa using hne) hk]
  simp [StandsIn]

end Words

/-! ## Margins -/

/-- The text is not empty and no blank stands at either end. -/
structure Trimmed (s : List Char) : Prop where
  ne_nil : s ≠ []
  first : ∀ c ∈ s.head?, isBlank c = false
  last : ∀ c ∈ s.getLast?, isBlank c = false

theorem last_append {b : List Char} (hne : b ≠ []) (hb : ∀ c ∈ b.getLast?, isBlank c = false)
    (a : List Char) : ∀ c ∈ (a ++ b).getLast?, isBlank c = false := by
  obtain ⟨c, hc⟩ := Option.isSome_iff_exists.mp (List.getLast?_isSome.mpr hne)
  rw [List.getLast?_append, hc, Option.some_or, ← hc]
  exact hb

theorem Trimmed.append {a b : List Char} (ha : Trimmed a) (hb : Trimmed b) (m : List Char) :
    Trimmed (a ++ m ++ b) where
  ne_nil := by simp [ha.ne_nil]
  first := by
    obtain ⟨c, cs, rfl⟩ := List.exists_cons_of_ne_nil ha.ne_nil
    exact ha.first
  last := last_append hb.ne_nil hb.last _

theorem dropWhile_blanks {a s : List Char} (ha : ∀ c ∈ a, isBlank c = true)
    (hs : ∀ c ∈ s.head?, isBlank c = false) : (a ++ s).dropWhile isBlank = s := by
  rw [List.dropWhile_append_of_pos ha]
  cases s with
  | nil => rfl
  | cons c s => rw [List.dropWhile_cons_of_neg (by simp [hs c rfl])]

theorem strip_append {a s b : List Char} (ha : ∀ c ∈ a, isBlank c = true) (hs : Trimmed s)
    (hb : ∀ c ∈ b, isBlank c = true) : strip (a ++ s ++ b) = s := by
  have hfront : (a ++ (s ++ b)).dropWhile isBlank = s ++ b := by
    obtain ⟨c, cs, rfl⟩ := List.exists_cons_of_ne_nil hs.ne_nil
    exact dropWhile_blanks ha hs.first
  have hback : (b.reverse ++ s.reverse).dropWhile isBlank = s.reverse :=
    dropWhile_blanks (by simpa using hb) (by simpa using hs.last)
  rw [strip, stripStart, List.append_assoc, hfront, stripEnd, List.reverse_append, hback,
    List.reverse_reverse]

/-! ## Pieces -/

theorem infix_intercalate {sep piece : List Char} {pieces : List (List Char)}
    (h : piece ∈ pieces) : piece <:+: List.intercalate sep pieces := by
  induction pieces with
  | nil => cases h
  | cons p pieces ih =>
    cases pieces with
    | nil =>
      have hself : List.intercalate sep [p] = piece := by
        rw [List.intercalate_singleton, List.mem_singleton.mp h]
      exact hself ▸ List.infix_rfl
    | cons q pieces =>
      rw [List.intercalate_cons_cons]
      rcases List.mem_cons.mp h with rfl | h
      · exact ((List.prefix_append piece sep).trans (List.prefix_append _ _)).isInfix
      · exact (ih h).trans (List.suffix_append _ _).isInfix

theorem infix_of_mem_splitOn {sep : Char} {s piece : List Char} (h : piece ∈ splitOn sep s) :
    piece <:+: s := by
  have hin : piece <:+: List.intercalate [sep] (splitOn sep s) := infix_intercalate h
  rwa [intercalate_splitOn] at hin

/-- A text is what is left of it between blanks. -/
theorem exists_strip (s : List Char) : ∃ a b, s = a ++ (strip s ++ b) ∧
    (∀ c ∈ a, isBlank c = true) ∧ ∀ c ∈ b, isBlank c = true := by
  obtain ⟨hfront, ha, _⟩ := takeWhile_dropWhile_iff (s := s) (p := isBlank).mp ⟨rfl, rfl⟩
  obtain ⟨hback, hb, _⟩ :=
    takeWhile_dropWhile_iff (s := (stripStart s).reverse) (p := isBlank).mp ⟨rfl, rfl⟩
  rw [List.reverse_eq_iff, List.reverse_append] at hback
  refine ⟨_, _, ?_, ha, fun c hc => hb c (List.mem_reverse.mp hc)⟩
  rw [strip, stripEnd, ← hback]
  exact hfront

theorem strip_isInfix (s : List Char) : strip s <:+: s := by
  obtain ⟨a, b, hs, _⟩ := exists_strip s
  exact ⟨a, b, by rw [List.append_assoc, ← hs]⟩

/-- What is left of a text has no blanks at its ends. -/
theorem trimmed_strip {s : List Char} (h : strip s ≠ []) : Trimmed (strip s) := by
  obtain ⟨_, _, hfirst⟩ := takeWhile_dropWhile_iff (s := s) (p := isBlank).mp ⟨rfl, rfl⟩
  obtain ⟨hback, _, hlast⟩ :=
    takeWhile_dropWhile_iff (s := (stripStart s).reverse) (p := isBlank).mp ⟨rfl, rfl⟩
  rw [List.reverse_eq_iff, List.reverse_append] at hback
  refine ⟨h, ?_, ?_⟩
  · intro c hc
    rw [strip, stripEnd, Option.mem_def] at hc
    exact hfirst c (by rw [← stripStart, hback, List.head?_append, hc, Option.some_or]; rfl)
  · rw [strip, stripEnd, List.getLast?_reverse]
    exact hlast

theorem strip_eq_nil_iff {s : List Char} : strip s = [] ↔ ∀ c ∈ s, isBlank c = true := by
  constructor
  · intro h
    obtain ⟨a, b, hs, ha, hb⟩ := exists_strip s
    rw [h, List.nil_append] at hs
    rw [hs, List.forall_mem_append]
    exact ⟨ha, hb⟩
  · intro h
    have hstart : stripStart (s ++ []) = [] := dropWhile_blanks h (by simp)
    rw [strip, ← List.append_nil s, hstart]
    rfl

/-- Blanks at the ends of a text are taken away with those that it has there. -/
theorem strip_margins {a b : List Char} (ha : ∀ c ∈ a, isBlank c = true)
    (hb : ∀ c ∈ b, isBlank c = true) (s : List Char) : strip (a ++ s ++ b) = strip s := by
  obtain ⟨a', b', hs, ha', hb'⟩ := exists_strip s
  by_cases hblank : strip s = []
  · rw [hblank, strip_eq_nil_iff]
    rw [strip_eq_nil_iff] at hblank
    simp only [List.forall_mem_append]
    exact ⟨⟨ha, hblank⟩, hb⟩
  · have htext : a ++ s ++ b = a ++ a' ++ strip s ++ (b' ++ b) := calc
      a ++ s ++ b = a ++ (a' ++ (strip s ++ b')) ++ b := by rw [← hs]
      _ = a ++ a' ++ strip s ++ (b' ++ b) := by simp
    rw [htext]
    exact strip_append (List.forall_mem_append.mpr ⟨ha, ha'⟩) (trimmed_strip hblank)
      (List.forall_mem_append.mpr ⟨hb', hb⟩)

end Text

end ChangeImpact
