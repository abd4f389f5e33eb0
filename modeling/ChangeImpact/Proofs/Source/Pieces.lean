import ChangeImpact.Proofs.Text.Search
import ChangeImpact.Source.Imports

/-!
# Proofs.Source.Pieces

The pieces that a declaration line is made of, and that each reader takes just its own piece off
the front of a text.

* `Blanks`, `IsWord`, `Quoted` — runs of blanks, words, and texts between quotes.
* `IsBinding`, `Binds`         — what can stand between `import` and `from`, and what it binds.
* `blanks?_eq_some_iff`, `word?_eq_some_iff`, `quoted?_eq_some_iff`, `braced?_eq_some_iff`,
  `keyword?_eq_some_iff`, `from?_eq_some_iff`, `allAs?_eq_some_iff` — what the readers accept.
* `binding?_sound`, `Binds.read` — and the one for bindings.
* `keyword?_inj`               — no two keywords are read in one place.
-/

namespace ChangeImpact

namespace Source

open Text

/-! ## Words and blanks -/

theorem wordRanges_not_blank : ∀ w ∈ wordRanges, ∀ b ∈ blankRanges, w.2 < b.1 ∨ b.2 < w.1 := by
  decide +kernel

theorem ascii_word_not_blank : ∀ n < 0x80, isWordChar (.ofNat n) = true →
    isBlank (.ofNat n) = false := by
  decide +kernel

/-- No character of a word separates words. -/
theorem isBlank_of_isWordChar {c : Char} (h : isWordChar c = true) : isBlank c = false := by
  by_cases hascii : c.toNat < 0x80
  · have hc := ascii_word_not_blank c.toNat hascii
    rw [Char.ofNat_toNat] at hc
    exact hc h
  · rw [isWordChar, if_neg hascii, inRanges, List.any_eq_true] at h
    obtain ⟨w, hw, hc⟩ := h
    rw [isBlank, inRanges, List.any_eq_false]
    intro b hb
    have hapart := wordRanges_not_blank w hw b hb
    simp only [Bool.and_eq_true, decide_eq_true_eq] at hc ⊢
    omega

theorem isBlank_of_isQuote {c : Char} (h : isQuote c = true) : isBlank c = false := by
  rw [isQuote, Bool.or_eq_true, decide_eq_true_eq, decide_eq_true_eq] at h
  rcases h with rfl | rfl <;> decide

/-! ## Pieces -/

/-- One or more blanks. -/
structure Blanks (s : List Char) : Prop where
  ne_nil : s ≠ []
  blank : ∀ c ∈ s, isBlank c = true

/-- One or more characters of words. -/
structure IsWord (s : List Char) : Prop where
  ne_nil : s ≠ []
  word : ∀ c ∈ s, isWordChar c = true

/-- The text `s`, which has no quotes in it and is not empty, between two quote characters. -/
inductive Quoted (s : List Char) : List Char → Prop
  | intro (q q' : Char) (hq : isQuote q = true) (hq' : isQuote q' = true) (hne : s ≠ [])
      (hs : ∀ c ∈ s, isQuote c = false) : Quoted s (q :: (s ++ [q']))

inductive IsBinding : List Char → Prop
  | braces (body : List Char) (h : '\x7d' ∉ body) : IsBinding ('\x7b' :: (body ++ ['\x7d']))
  | allAs {a b w : List Char} (ha : Blanks a) (hb : Blanks b) (hw : IsWord w) :
      IsBinding ('*' :: (a ++ ("as".toList ++ (b ++ w))))
  | single {w : List Char} (hw : IsWord w) : IsBinding w

/-- The text is how the binding is written. -/
inductive Binds : Binding → List Char → Prop
  | braces {body : List Char} (h : '\x7d' ∉ body) :
      Binds (.braces body) ('\x7b' :: (body ++ ['\x7d']))
  | allAs {a b w : List Char} (ha : Blanks a) (hb : Blanks b) (hw : IsWord w) :
      Binds (.allAs w) ('*' :: (a ++ ("as".toList ++ (b ++ w))))
  | single {w : List Char} (hw : IsWord w) : Binds (.single w) w

section Pieces

variable {s r w a b : List Char}

theorem blanks_space : Blanks [' '] := ⟨by decide, by decide⟩

theorem wordEnds_space (s : List Char) : wordEnds (' ' :: s) = true := rfl

theorem Blanks.exists_cons (h : Blanks a) : ∃ c cs, a = c :: cs ∧ isBlank c = true := by
  obtain ⟨c, cs, rfl⟩ := List.exists_cons_of_ne_nil h.ne_nil
  exact ⟨c, cs, rfl, h.blank c List.mem_cons_self⟩

theorem Blanks.wordEnds (h : Blanks a) (s : List Char) : wordEnds (a ++ s) = true := by
  obtain ⟨c, cs, rfl, hc⟩ := h.exists_cons
  cases hword : isWordChar c with
  | false => simp [Text.wordEnds, hword]
  | true => simp [isBlank_of_isWordChar hword] at hc

theorem IsWord.head?_not_blank (h : IsWord w) (s : List Char) :
    ∀ c ∈ (w ++ s).head?, isBlank c = false := by
  obtain ⟨c, cs, rfl⟩ := List.exists_cons_of_ne_nil h.ne_nil
  rintro _ ⟨⟩
  exact isBlank_of_isWordChar (h.word c List.mem_cons_self)

theorem Quoted.head?_not_blank {t : List Char} (h : Quoted w t) (s : List Char) :
    ∀ c ∈ (t ++ s).head?, isBlank c = false := by
  cases h with
  | intro q q' hq =>
    rintro _ ⟨⟩
    exact isBlank_of_isQuote hq

theorem IsBinding.head?_not_blank {t : List Char} (h : IsBinding t) (s : List Char) :
    ∀ c ∈ (t ++ s).head?, isBlank c = false := by
  cases h with
  | braces | allAs =>
    rintro _ ⟨⟩
    decide
  | single hw => exact hw.head?_not_blank s

theorem isBinding_iff {t : List Char} : IsBinding t ↔ ∃ found, Binds found t := by
  constructor
  · rintro (⟨body, h⟩ | ⟨ha, hb, hw⟩ | hw)
    · exact ⟨_, .braces h⟩
    · exact ⟨_, .allAs ha hb hw⟩
    · exact ⟨_, .single hw⟩
  · rintro ⟨_, h | ⟨ha, hb, hw⟩ | hw⟩
    · exact .braces _ h
    · exact .allAs ha hb hw
    · exact .single hw

theorem Binds.head?_not_blank {found : Binding} {t : List Char} (h : Binds found t)
    (s : List Char) : ∀ c ∈ (t ++ s).head?, isBlank c = false :=
  (isBinding_iff.mpr ⟨found, h⟩).head?_not_blank s

/-! ## The readers -/

theorem blanks?_eq_some_iff : blanks? s = some r ↔
    ∃ a, Blanks a ∧ s = a ++ r ∧ ∀ c ∈ r.head?, isBlank c = false := by
  constructor
  · intro h
    cases s with
    | nil => cases h
    | cons c s =>
      rw [blanks?] at h
      split at h
      · next hc =>
        obtain ⟨hs, hblank, hr⟩ := takeWhile_dropWhile_iff.mp ⟨rfl, Option.some.inj h⟩
        refine ⟨c :: s.takeWhile isBlank, ⟨by simp, ?_⟩, by rw [List.cons_append, ← hs], hr⟩
        exact List.forall_mem_cons.mpr ⟨hc, hblank⟩
      · cases h
  · rintro ⟨a, ha, rfl, hr⟩
    obtain ⟨c, cs, rfl, hc⟩ := ha.exists_cons
    have hcs := (List.forall_mem_cons.mp ha.blank).2
    rw [List.cons_append, blanks?, if_pos hc, dropWhile_blanks hcs hr]

theorem word?_eq_some_iff :
    word? s = some (w, r) ↔ IsWord w ∧ s = w ++ r ∧ wordEnds r = true := by
  have hends : wordEnds r = true ↔ ∀ c ∈ r.head?, isWordChar c = false := by
    cases r <;> simp [wordEnds]
  rw [hends]
  constructor
  · intro h
    rw [word?] at h
    split at h
    · cases h
    · next hne =>
      obtain ⟨hw, hr⟩ := Prod.mk.inj (Option.some.inj h)
      obtain ⟨hs, hword, hr⟩ := takeWhile_dropWhile_iff.mp ⟨hw, hr⟩
      exact ⟨⟨fun hnil => hne (hw.trans hnil), hword⟩, hs, hr⟩
  · rintro ⟨hw, hs, hr⟩
    obtain ⟨htake, hdrop⟩ := takeWhile_dropWhile_iff.mpr ⟨hs, hw.word, hr⟩
    rw [word?, htake, hdrop]
    split
    · exact absurd rfl hw.ne_nil
    · rfl

theorem quoted?_eq_some_iff : quoted? s = some (w, r) ↔ ∃ t, Quoted w t ∧ s = t ++ r := by
  constructor
  · intro h
    cases s with
    | nil => cases h
    | cons q s =>
      rw [quoted?] at h
      split at h
      · next hq =>
        split at h
        · cases h
        · cases h
        · next q' rest hdrop hne =>
          obtain ⟨hw, rfl⟩ := Prod.mk.inj (Option.some.inj h)
          obtain ⟨hs, hquiet, hq'⟩ := takeWhile_dropWhile_iff.mp ⟨hw, hdrop⟩
          refine ⟨_, .intro q q' hq ?_ (fun hnil => hne (hw.trans hnil)) ?_, ?_⟩
          · simpa using hq' q' rfl
          · exact fun c hc => by simpa using hquiet c hc
          · rw [hs]
            simp
      · cases h
  · rintro ⟨t, ⟨q, q', hq, hq', hne, hw⟩, rfl⟩
    have hline : q :: (w ++ [q']) ++ r = q :: (w ++ q' :: r) := by simp
    obtain ⟨htake, hdrop⟩ := takeWhile_dropWhile_iff (p := fun c => !isQuote c).mpr
      ⟨(rfl : w ++ q' :: r = w ++ q' :: r), fun c hc => by simp [hw c hc], by simp [hq']⟩
    rw [hline, quoted?, if_pos hq, htake, hdrop]
    split
    · contradiction
    · contradiction
    · next heq =>
      cases heq
      rfl

theorem braced?_eq_some_iff : braced? s = some (w, r) ↔
    '\x7d' ∉ w ∧ s = '\x7b' :: (w ++ '\x7d' :: r) := by
  have hfree : (∀ c ∈ w, (c != '\x7d') = true) ↔ '\x7d' ∉ w := by
    constructor
    · exact fun h hmem => by simpa using h _ hmem
    · rintro h c hc
      have hne : c ≠ '\x7d' := fun he => h (he ▸ hc)
      simpa using hne
  constructor
  · intro h
    unfold braced? at h
    split at h
    · next rest =>
      split at h
      · cases h
      · next c after hdrop =>
        obtain ⟨hw, rfl⟩ := Prod.mk.inj (Option.some.inj h)
        obtain ⟨hs, hpass, hc⟩ := takeWhile_dropWhile_iff.mp ⟨hw, hdrop⟩
        obtain rfl : c = '\x7d' := by simpa using hc c rfl
        exact ⟨hfree.mp hpass, by rw [hs]⟩
    · cases h
  · rintro ⟨hw, rfl⟩
    obtain ⟨htake, hdrop⟩ := takeWhile_dropWhile_iff (p := (· != '\x7d')).mpr
      ⟨(rfl : w ++ '\x7d' :: r = w ++ '\x7d' :: r), hfree.mpr hw, by simp⟩
    simp only [braced?, htake, hdrop]

theorem keyword?_eq_some_iff {k : String} : keyword? k s = some r ↔
    ∃ a, Blanks a ∧ s = k.toList ++ (a ++ r) ∧ ∀ c ∈ r.head?, isBlank c = false := by
  rw [keyword?]
  constructor
  · intro h
    split at h
    · next rest hafter =>
      obtain ⟨a, ha, rfl, hr⟩ := blanks?_eq_some_iff.mp h
      exact ⟨a, ha, after?_eq_some_iff.mp hafter, hr⟩
    · cases h
  · rintro ⟨a, ha, rfl, hr⟩
    rw [after?_append]
    exact blanks?_eq_some_iff.mpr ⟨a, ha, rfl, hr⟩

theorem from?_eq_some_iff : from? s = some r ↔
    ∃ a, Blanks a ∧ s = a ++ ("from".toList ++ r) := by
  rw [from?]
  constructor
  · intro h
    split at h
    · next rest hblanks =>
      obtain ⟨a, ha, rfl, _⟩ := blanks?_eq_some_iff.mp hblanks
      exact ⟨a, ha, by rw [after?_eq_some_iff.mp h]⟩
    · cases h
  · rintro ⟨a, ha, rfl⟩
    have hletter : ∀ c ∈ ("from".toList ++ r).head?, isBlank c = false := by
      rintro _ ⟨⟩
      decide
    rw [blanks?_eq_some_iff.mpr ⟨a, ha, rfl, hletter⟩]
    exact after?_append _ r

theorem Blanks.read (h : Blanks a) (hr : ∀ c ∈ r.head?, isBlank c = false) :
    blanks? (a ++ r) = some r := blanks?_eq_some_iff.mpr ⟨a, h, rfl, hr⟩

theorem Blanks.read_keyword (h : Blanks a) (k : String)
    (hr : ∀ c ∈ r.head?, isBlank c = false) : keyword? k (k.toList ++ (a ++ r)) = some r :=
  keyword?_eq_some_iff.mpr ⟨a, h, rfl, hr⟩

/-- Blanks that go on behind the first ones are read as well. -/
theorem Blanks.exists_read_keyword (h : Blanks a) (k : String) (s : List Char) :
    ∃ r, keyword? k (k.toList ++ (a ++ s)) = some r := by
  obtain ⟨c, cs, rfl, hc⟩ := h.exists_cons
  exact ⟨_, by rw [keyword?, after?_append, List.cons_append]; exact if_pos hc⟩

theorem Blanks.read_from (h : Blanks a) (r : List Char) :
    from? (a ++ ("from".toList ++ r)) = some r := from?_eq_some_iff.mpr ⟨a, h, rfl⟩

theorem IsWord.read (h : IsWord w) (hr : wordEnds r = true) : word? (w ++ r) = some (w, r) :=
  word?_eq_some_iff.mpr ⟨h, rfl, hr⟩

theorem Quoted.read {t : List Char} (h : Quoted w t) (r : List Char) :
    quoted? (t ++ r) = some (w, r) := quoted?_eq_some_iff.mpr ⟨t, h, rfl⟩

theorem allAs?_eq_some_iff : allAs? s = some (w, r) ↔
    ∃ a b, Blanks a ∧ Blanks b ∧ IsWord w ∧ wordEnds r = true ∧
      s = '*' :: (a ++ ("as".toList ++ (b ++ (w ++ r)))) := by
  constructor
  · intro h
    unfold allAs? at h
    split at h
    · next rest =>
      split at h
      · cases h
      · next after hblanks =>
        split at h
        · cases h
        · next last hkeyword =>
          obtain ⟨a, ha, rfl, _⟩ := blanks?_eq_some_iff.mp hblanks
          obtain ⟨b, hb, rfl, _⟩ := keyword?_eq_some_iff.mp hkeyword
          obtain ⟨hw, rfl, hr⟩ := word?_eq_some_iff.mp h
          exact ⟨a, b, ha, hb, hw, hr, rfl⟩
    · cases h
  · rintro ⟨a, b, ha, hb, hw, hr, rfl⟩
    have hletter : ∀ c ∈ ("as".toList ++ (b ++ (w ++ r))).head?, isBlank c = false := by
      rintro _ ⟨⟩
      decide
    simp only [allAs?, ha.read hletter, hb.read_keyword "as" (hw.head?_not_blank r), hw.read hr]

theorem binding?_sound {found : Binding} (h : binding? s = some (found, r)) :
    ∃ t, Binds found t ∧ s = t ++ r := by
  unfold binding? at h
  split at h
  · obtain ⟨⟨body, rest⟩, hbraced, heq⟩ := Option.map_eq_some_iff.mp h
    cases heq
    obtain ⟨hbody, hs⟩ := braced?_eq_some_iff.mp hbraced
    exact ⟨_, .braces hbody, by rw [hs]; simp⟩
  · obtain ⟨⟨name, rest⟩, hall, heq⟩ := Option.map_eq_some_iff.mp h
    cases heq
    obtain ⟨a, b, ha, hb, hw, _, hs⟩ := allAs?_eq_some_iff.mp hall
    exact ⟨_, .allAs ha hb hw, by rw [hs]; simp⟩
  · obtain ⟨⟨name, rest⟩, hword, heq⟩ := Option.map_eq_some_iff.mp h
    cases heq
    obtain ⟨hw, hs, _⟩ := word?_eq_some_iff.mp hword
    exact ⟨_, .single hw, hs⟩

theorem IsWord.read_binding (h : IsWord w) (hr : wordEnds r = true) :
    binding? (w ++ r) = some (.single w, r) := by
  obtain ⟨c, cs, rfl⟩ := List.exists_cons_of_ne_nil h.ne_nil
  have hc := h.word c List.mem_cons_self
  rw [List.cons_append, binding?, ← List.cons_append, h.read hr]
  · rfl
  · rintro _ ⟨⟩
    exact absurd hc (by decide)
  · rintro _ ⟨⟩
    exact absurd hc (by decide)

/-- A binding is read to its end, where no word goes on. -/
theorem Binds.read {found : Binding} {t : List Char} (h : Binds found t)
    (hr : wordEnds r = true) : binding? (t ++ r) = some (found, r) := by
  cases h with
  | @braces body hbody =>
    have hbraced : braced? ('\x7b' :: (body ++ ['\x7d']) ++ r) = some (body, r) :=
      braced?_eq_some_iff.mpr ⟨hbody, by simp⟩
    rw [List.cons_append, binding?, ← List.cons_append, hbraced]
    rfl
  | @allAs a b w ha hb hw =>
    have hall : allAs? ('*' :: (a ++ ("as".toList ++ (b ++ w))) ++ r) = some (w, r) :=
      allAs?_eq_some_iff.mpr ⟨a, b, ha, hb, hw, hr, by simp⟩
    rw [List.cons_append, binding?, ← List.cons_append, hall]
    rfl
  | single hw => exact hw.read_binding hr

/-- Words without blanks that are read in one place are the same. -/
theorem keyword?_inj {k k' : String} {r' : List Char} (hk : ∀ c ∈ k.toList, isBlank c = false)
    (hk' : ∀ c ∈ k'.toList, isBlank c = false) (h : keyword? k s = some r)
    (h' : keyword? k' s = some r') : k = k' ∧ r = r' := by
  obtain ⟨a, ha, hs, _⟩ := keyword?_eq_some_iff.mp h
  obtain ⟨a', ha', hs', _⟩ := keyword?_eq_some_iff.mp h'
  obtain ⟨c, cs, rfl, hc⟩ := ha.exists_cons
  obtain ⟨d, ds, rfl, hd⟩ := ha'.exists_cons
  obtain rfl : k = k' := String.toList_inj.mp (cut_inj hk hk' hc hd (hs.symm.trans hs')).1
  exact ⟨rfl, Option.some.inj (h.symm.trans h')⟩

end Pieces

end Source

end ChangeImpact
