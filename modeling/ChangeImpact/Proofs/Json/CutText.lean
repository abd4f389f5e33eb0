import ChangeImpact.Proofs.Json.RoundTrip
import ChangeImpact.Proofs.Text.Search

/-!
# Proofs.Json.CutText

A text that is cut short is not read.

* `stringBody?_longer`, `unsigned?_longer`, `scalar?_longer` — what is read at the front of a text
  is read at the front of every longer one.
* `value?_longer` — so is a value, by recursion on the fuel.
* `parse?_cut`    — no part of the text of an object is read. Read within the whole text, it would
  leave something over.
-/

namespace ChangeImpact.Json

variable {s rest : List Char} (t : List Char)

/-- Something follows, and it is not more of a number. -/
def Stops (rest : List Char) : Prop := rest ≠ [] ∧ NumberEnds rest

theorem Stops.append (h : Stops rest) : Stops (rest ++ t) := by
  cases rest with
  | nil => exact absurd rfl h.1
  | cons c rest => exact ⟨List.cons_ne_nil c _, numberEnds_cons (h.2 c rest rfl)⟩

/-- What is left after blanks is left, and more behind it. -/
theorem skipSpace_longer (h : skipSpace s ≠ []) : skipSpace (s ++ t) = skipSpace s ++ t := by
  obtain ⟨c, r, hcr⟩ := List.exists_cons_of_ne_nil h
  obtain ⟨hs, hblank, hc⟩ := Text.takeWhile_dropWhile_iff.mp ⟨rfl, hcr⟩
  have hlong : s ++ t = s.takeWhile isSpace ++ c :: (r ++ t) := by
    rw [← List.cons_append, ← List.append_assoc, ← hs]
  rw [hcr, hlong]
  exact skipSpace_append hblank (hc c rfl) (r ++ t)

theorem skipSpace_longer_cons {c : Char} (h : skipSpace s = c :: rest) :
    skipSpace (s ++ t) = c :: (rest ++ t) := by
  rw [skipSpace_longer t (by rw [h]; exact List.cons_ne_nil c rest), h]
  rfl

/-- A comma or a bracket behind blanks ends a number. -/
theorem stops_of_skipSpace {c : Char} (h : skipSpace s = c :: rest)
    (hc : isDigit c = false ∧ c ≠ '.' ∧ c ≠ 'e' ∧ c ≠ 'E') : Stops s := by
  obtain ⟨hs, hblank, _⟩ := Text.takeWhile_dropWhile_iff.mp ⟨rfl, h⟩
  rw [hs]
  exact ⟨by simp, Layout.numberEnds_gap hblank hc rest⟩

/-- What a reader makes of the piece that it has read. -/
theorem map_longer {α β : Type} {x y : Option (α × List Char)} (f : α → β)
    (hxy : ∀ {a}, x = some (a, rest) → y = some (a, rest ++ t)) {b : β}
    (h : x.map (fun p => (f p.1, p.2)) = some (b, rest)) :
    y.map (fun p => (f p.1, p.2)) = some (b, rest ++ t) := by
  obtain ⟨⟨a, r⟩, ha, hx⟩ := Option.map_eq_some_iff.mp h
  obtain ⟨rfl, rfl⟩ := Prod.mk.inj hx
  rw [hxy ha]
  rfl

/-! ## Numbers -/

theorem digitRun?_longer {ds : List Char} (h : digitRun? s = some (ds, rest)) (hr : rest ≠ []) :
    digitRun? (s ++ t) = some (ds, rest ++ t) := by
  unfold digitRun? at h
  split at h
  · cases h
  · next hne =>
    obtain ⟨rfl, rfl⟩ : s.takeWhile isDigit = ds ∧ s.dropWhile isDigit = rest := by simpa using h
    obtain ⟨c, r, hcr⟩ := List.exists_cons_of_ne_nil hr
    have hcut : (s ++ t).takeWhile isDigit = s.takeWhile isDigit ∧
        (s ++ t).dropWhile isDigit = s.dropWhile isDigit ++ t := by
      obtain ⟨hs, hds, hc⟩ := Text.takeWhile_dropWhile_iff.mp ⟨rfl, hcr⟩
      rw [hcr, Text.takeWhile_dropWhile_iff]
      refine ⟨?_, hds, hc⟩
      rw [← List.append_assoc, ← hs]
    rw [digitRun?, hcut.1, hcut.2]
    split
    · next hnil => exact absurd hnil hne
    · rfl

theorem wholeDigits?_longer {ds : List Char} (h : wholeDigits? s = some (ds, rest))
    (hr : rest ≠ []) : wholeDigits? (s ++ t) = some (ds, rest ++ t) := by
  unfold wholeDigits? at h
  split at h
  · cases h
    rfl
  · next hzero =>
    have hrun := digitRun?_longer t h hr
    cases s with
    | nil => cases h
    | cons c s =>
      rw [List.cons_append] at hrun ⊢
      rw [← hrun, wholeDigits?]
      intro r hr
      exact hzero s (by rw [(List.cons.inj hr).1])

theorem fraction?_longer {ds : List Char} (h : fraction? s = some (ds, rest)) (hr : rest ≠ []) :
    fraction? (s ++ t) = some (ds, rest ++ t) := by
  unfold fraction? at h
  split at h
  · exact digitRun?_longer t h hr
  · cases h

theorem digitRun?_starts {x : List Char × List Char} (h : digitRun? s = some x) :
    ∃ c cs, s = c :: cs ∧ isDigit c = true := by
  cases s with
  | nil => cases h
  | cons c cs =>
    cases hc : isDigit c with
    | true => exact ⟨c, cs, rfl, hc⟩
    | false =>
      rw [digitRun?, List.takeWhile_cons_of_neg (by simp [hc])] at h
      cases h

theorem wholeDigits?_starts {x : List Char × List Char} (h : wholeDigits? s = some x) :
    ∃ c cs, s = c :: cs ∧ isDigit c = true := by
  unfold wholeDigits? at h
  split at h
  · exact ⟨'0', _, rfl, rfl⟩
  · exact digitRun?_starts h

theorem unsigned?_starts {negative : Bool} {x : Value × List Char}
    (h : unsigned? negative s = some x) : ∃ c cs, s = c :: cs ∧ isDigit c = true := by
  unfold unsigned? at h
  split at h
  · cases h
  · next hwhole => exact wholeDigits?_starts hwhole

theorem exponent?_longer {e : Int} (h : exponent? s = some (e, rest)) (hr : rest ≠ []) :
    (∃ cs, s = 'e' :: cs ∨ s = 'E' :: cs) ∧ exponent? (s ++ t) = some (e, rest ++ t) := by
  have hdigits : ∀ {r ds : List Char}, digitRun? r = some (ds, rest) →
      digitRun? (r ++ t) = some (ds, rest ++ t) := fun h => digitRun?_longer t h hr
  have hsigned : ∀ {r : List Char}, exponent? ('e' :: r) = some (e, rest) →
      exponent? ('e' :: (r ++ t)) = some (e, rest ++ t) := by
    intro r h
    simp only [exponent?] at h ⊢
    split at h
    · exact map_longer t (fun ds => -Int.ofNat (digitsValue ds)) hdigits h
    · exact map_longer t (fun ds => Int.ofNat (digitsValue ds)) hdigits h
    · next hminus hplus =>
      obtain ⟨x, hrun, _⟩ := Option.map_eq_some_iff.mp h
      obtain ⟨c, cs, rfl, _⟩ := digitRun?_starts hrun
      rw [List.cons_append]
      split
      · next heq => exact absurd (by rw [(List.cons.inj heq).1]) (hminus cs)
      · next heq => exact absurd (by rw [(List.cons.inj heq).1]) (hplus cs)
      · exact map_longer t (fun ds => Int.ofNat (digitsValue ds)) hdigits h
  cases s with
  | nil => cases h
  | cons c s =>
    by_cases he : c = 'e'
    · subst he
      exact ⟨⟨s, .inl rfl⟩, hsigned h⟩
    · by_cases hE : c = 'E'
      · subst hE
        exact ⟨⟨s, .inr rfl⟩, hsigned h⟩
      · simp [exponent?, he, hE] at h

theorem unsigned?_longer {negative : Bool} {v : Value}
    (h : unsigned? negative s = some (v, rest)) (hr : Stops rest) :
    unsigned? negative (s ++ t) = some (v, rest ++ t) := by
  have hends := (hr.append t).2
  unfold unsigned? at h
  split at h
  · cases h
  · next ds r hwhole =>
    split at h
    · cases h
      rw [unsigned?, wholeDigits?_longer t hwhole hr.1]
      simp only [fraction?_none hends, Option.elim_none, exponent?_none hends]
    · next fs r' hf he =>
      cases h
      have hr' : r ≠ [] := by
        rintro rfl
        cases hf
      rw [unsigned?, wholeDigits?_longer t hwhole hr']
      simp only [fraction?_longer t hf hr.1, Option.elim_some, exponent?_none hends]
    · next e r' hf he =>
      cases h
      rw [hf, Option.elim_none] at he
      obtain ⟨⟨cs, hcs⟩, he⟩ := exponent?_longer t he hr.1
      have hnone : fraction? (r ++ t) = none := by
        rcases hcs with rfl | rfl <;> rfl
      have hr' : r ≠ [] := by
        rcases hcs with rfl | rfl <;> exact List.cons_ne_nil _ _
      rw [unsigned?, wholeDigits?_longer t hwhole hr']
      simp only [hnone, Option.elim_none, he]
    · next fs r' e r'' hf he =>
      cases h
      rw [hf, Option.elim_some] at he
      obtain ⟨⟨cs, hcs⟩, he⟩ := exponent?_longer t he hr.1
      have hr'' : r' ≠ [] := by
        rcases hcs with rfl | rfl <;> exact List.cons_ne_nil _ _
      have hr' : r ≠ [] := by
        rintro rfl
        cases hf
      rw [unsigned?, wholeDigits?_longer t hwhole hr']
      simp only [fraction?_longer t hf hr'', Option.elim_some, he]

/-! ## Strings and scalars -/

theorem consTo_longer {c : Char} {x y : Option (List Char × List Char)} {cs : List Char}
    (hx : ∀ {cs}, x = some (cs, rest) → y = some (cs, rest ++ t))
    (h : consTo c x = some (cs, rest)) : consTo c y = some (cs, rest ++ t) := by
  cases x with
  | none => cases h
  | some x =>
    obtain ⟨rfl, rfl⟩ := Prod.mk.inj (Option.some.inj h)
    rw [hx rfl]
    rfl

/-- The quote that closes a string is found again, and so is each escape before it. -/
theorem stringBody?_longer {cs : List Char} (h : stringBody? s = some (cs, rest)) :
    stringBody? (s ++ t) = some (cs, rest ++ t) := by
  fun_induction stringBody? s generalizing cs with
  | case2 =>
    cases h
    rfl
  | case5 a b c d n hn hhigh e f g x rest' m hm hlow ih =>
    simp only [List.cons_append, stringBody?, hn, hhigh, hm, hlow, if_true]
    exact consTo_longer t ih h
  | case9 a b c d rest' n hn hhigh hlow ih =>
    simp only [List.cons_append, stringBody?, hn, hhigh, hlow]
    exact consTo_longer t ih h
  | case11 c rest' hlong e he ih =>
    -- what is cut off after `\u` is no short escape
    have hu : c ≠ 'u' := by
      rintro rfl
      cases he
    rw [List.cons_append, List.cons_append, stringBody?]
    · rw [he]
      exact consTo_longer t ih h
    · intro _ _ _ _ _ hc _
      exact absurd hc hu
  | case13 c rest' hquote hlong hshort hcontrol ih =>
    by_cases hc : c = '\\'
    · cases rest' with
      | nil => cases h
      | cons d rest' => exact absurd rfl (hshort d rest' hc)
    · rw [List.cons_append, stringBody?_plain hquote hc hcontrol]
      exact consTo_longer t ih h
  | _ => cases h

theorem scalar?_longer {v : Value} (h : scalar? s = some (v, rest)) (hr : Stops rest) :
    scalar? (s ++ t) = some (v, rest ++ t) := by
  unfold scalar? at h
  split at h
  case h_4 =>
    exact map_longer t (fun cs => Value.text (.ofList cs)) (stringBody?_longer t) h
  case h_8 =>
    obtain ⟨c, cs, rfl, hc⟩ := unsigned?_starts h
    rw [List.cons_append, List.cons_append, scalar?_minus hc]
    exact unsigned?_longer t h hr
  case h_9 =>
    obtain ⟨c, cs, rfl, hc⟩ := unsigned?_starts h
    rw [List.cons_append, scalar?_digit hc]
    exact unsigned?_longer t h hr
  all_goals
    cases h
    rfl

/-! ## Values -/

theorem value?_nil (fuel : Nat) : value? fuel [] = none := by
  cases fuel <;> rfl

theorem items?_nil (fuel : Nat) : items? fuel [] = none := by
  cases fuel with
  | zero => rfl
  | succ fuel => rw [items?, value?_nil]

theorem fields?_nil (fuel : Nat) : fields? fuel [] = none := by
  cases fuel <;> rfl

/-- A reader that finds nothing in an empty text has something behind the blanks. -/
theorem skipSpace_longer_of_read {α : Type} {read : List Char → Option α} {x : α}
    (hnil : read [] = none) (h : read (skipSpace s) = some x) :
    skipSpace (s ++ t) = skipSpace s ++ t := by
  refine skipSpace_longer t fun hs => ?_
  rw [hs, hnil] at h
  cases h

/-- The reading of a list whose first character behind the blanks is known. -/
theorem value?_bracket (fuel : Nat) {c : Char} (h : skipSpace s = c :: rest) :
    value? (fuel + 1) ('[' :: s) =
      if c = ']' then some (.list [], rest)
      else (items? fuel (c :: rest)).map fun x => (.list x.1, x.2) := by
  rw [value?, h]
  split
  · next heq =>
    obtain ⟨rfl, rfl⟩ := List.cons.inj heq
    rw [if_pos rfl]
  · next hclose =>
    rw [if_neg fun hc => hclose rest (by rw [hc])]

theorem value?_brace (fuel : Nat) {c : Char} (h : skipSpace s = c :: rest) :
    value? (fuel + 1) ('\x7b' :: s) =
      if c = '\x7d' then some (.object [], rest)
      else (fields? fuel (c :: rest)).map fun x =>
        (.object (x.1.foldl (fun seen f => Value.setField f.1 f.2 seen) []), x.2) := by
  rw [value?, h]
  split
  · next heq =>
    obtain ⟨rfl, rfl⟩ := List.cons.inj heq
    rw [if_pos rfl]
  · next hclose =>
    rw [if_neg fun hc => hclose rest (by rw [hc])]

/-- Nothing is read of a list or an object that ends behind its opening bracket. -/
theorem value?_open_nil (fuel : Nat) (h : skipSpace s = []) :
    value? fuel ('[' :: s) = none ∧ value? fuel ('\x7b' :: s) = none := by
  cases fuel with
  | zero => exact ⟨rfl, rfl⟩
  | succ fuel =>
    rw [value?, value?, h]
    simp only [items?_nil, fields?_nil, Option.map_none, and_self]

mutual

/-- A value is read at the front of a longer text, if a bracket closes it or what follows ends
numbers. -/
theorem value?_longer : ∀ {fuel more : Nat} {s rest : List Char} {v : Value},
    value? fuel s = some (v, rest) → fuel ≤ more → (∃ s', s = '\x7b' :: s') ∨ Stops rest →
    value? more (s ++ t) = some (v, rest ++ t)
  | 0, _, _, _, _, h, _, _ => by cases h
  | fuel + 1, 0, _, _, _, _, hle, _ => absurd hle (by omega)
  | fuel + 1, more + 1, [], _, _, h, _, _ => by cases h
  | fuel + 1, more + 1, c :: s, rest, v, h, hle, hr => by
    have hfuel := Nat.le_of_succ_le_succ hle
    rw [List.cons_append]
    by_cases hl : c = '['
    · subst hl
      cases hskip : skipSpace s with
      | nil =>
        rw [(value?_open_nil _ hskip).1] at h
        cases h
      | cons d r =>
        rw [value?_bracket more (skipSpace_longer_cons t hskip)]
        rw [value?_bracket fuel hskip] at h
        split at h
        · next hd =>
          cases h
          rw [if_pos hd]
        · next hd =>
          rw [if_neg hd]
          exact map_longer t Value.list (fun hitems => items?_longer hitems hfuel) h
    · by_cases ho : c = '\x7b'
      · subst ho
        cases hskip : skipSpace s with
        | nil =>
          rw [(value?_open_nil _ hskip).2] at h
          cases h
        | cons d r =>
          rw [value?_brace more (skipSpace_longer_cons t hskip)]
          rw [value?_brace fuel hskip] at h
          split at h
          · next hd =>
            cases h
            rw [if_pos hd]
          · next hd =>
            rw [if_neg hd]
            exact map_longer t
              (fun fs => Value.object (fs.foldl (fun seen f => Value.setField f.1 f.2 seen) []))
              (fun hfields => fields?_longer hfields hfuel) h
      · rw [value?_scalar hl ho] at h
        rw [value?_scalar hl ho]
        rcases hr with ⟨s', hs'⟩ | hr
        · exact absurd (List.cons.inj hs').1 ho
        · exact scalar?_longer t h hr

theorem items?_longer : ∀ {fuel more : Nat} {s rest : List Char} {vs : List Value},
    items? fuel s = some (vs, rest) → fuel ≤ more → items? more (s ++ t) = some (vs, rest ++ t)
  | 0, _, _, _, _, h, _ => by cases h
  | fuel + 1, 0, _, _, _, _, hle => absurd hle (by omega)
  | fuel + 1, more + 1, s, rest, vs, h, hle => by
    have hfuel := Nat.le_of_succ_le_succ hle
    rw [items?] at h
    split at h
    · cases h
    · next v r hv =>
      split at h
      · next r' hskip =>
        cases h
        have hlong := value?_longer hv hfuel (.inr (stops_of_skipSpace hskip (by decide)))
        rw [items?, hlong]
        simp only [skipSpace_longer_cons t hskip]
      · next r' hskip =>
        split at h
        · cases h
        · next vs' r'' hitems =>
          cases h
          have hlong := value?_longer hv hfuel (.inr (stops_of_skipSpace hskip (by decide)))
          have hmore := items?_longer hitems hfuel
          rw [items?, hlong]
          simp only [skipSpace_longer_cons t hskip,
            skipSpace_longer_of_read t (items?_nil fuel) hitems, hmore]
      · cases h

theorem fields?_longer : ∀ {fuel more : Nat} {s rest : List Char} {fs : List (String × Value)},
    fields? fuel s = some (fs, rest) → fuel ≤ more → fields? more (s ++ t) = some (fs, rest ++ t)
  | 0, _, _, _, _, h, _ => by cases h
  | fuel + 1, 0, _, _, _, _, hle => absurd hle (by omega)
  | fuel + 1, more + 1, s, rest, fs, h, hle => by
    have hfuel := Nat.le_of_succ_le_succ hle
    cases s with
    | nil => cases h
    | cons c s =>
      by_cases hquote : c = '"'
      · subst hquote
        rw [fields?] at h
        rw [List.cons_append, fields?]
        split at h
        · cases h
        · next key r hkey =>
          rw [stringBody?_longer t hkey]
          split at h
          · next r' hcolon =>
            split at h
            · cases h
            · next v r'' hv =>
              simp only [skipSpace_longer_cons t hcolon,
                skipSpace_longer_of_read t (value?_nil fuel) hv]
              split at h
              · next r₃ hskip =>
                cases h
                rw [value?_longer hv hfuel (.inr (stops_of_skipSpace hskip (by decide)))]
                simp only [skipSpace_longer_cons t hskip]
              · next r₃ hskip =>
                split at h
                · cases h
                · next fs' r₄ hfields =>
                  cases h
                  rw [value?_longer hv hfuel (.inr (stops_of_skipSpace hskip (by decide)))]
                  simp only [skipSpace_longer_cons t hskip,
                    skipSpace_longer_of_read t (fields?_nil fuel) hfields,
                    fields?_longer hfields hfuel]
              · cases h
          · cases h
      · simp [fields?, hquote] at h

end

theorem Layout.value_object_opens (l : Layout) (depth : Nat) (fields : List (String × Value)) :
    ∃ s, l.value depth (.object fields) = '\x7b' :: s := by
  cases fields with
  | nil => exact ⟨_, rfl⟩
  | cons f rest => exact ⟨_, rfl⟩

/-- What is left of the text of an object when something is cut off its end has no value. -/
theorem parse?_cut {fields : List (String × Value)} (h : (Value.object fields).Plain)
    {cut more : String} (hcut : pretty (.object fields) = cut ++ more) (hmore : more ≠ "") :
    parse? cut = none := by
  have htext : Layout.spread.value 0 (.object fields) = cut.toList ++ more.toList := by
    rw [← Layout.prettyAt_eq, ← String.toList_append, ← hcut, pretty, String.toList_ofList]
  have hfuel := Layout.spread.weight_le_length 0 _ h
  have hwhole := Layout.spread.value?_value 0 (.object fields)
    ((cut.toList ++ more.toList).length + 1) [] h (by rw [← htext]; omega) numberEnds_nil
  rw [List.append_nil, htext] at hwhole
  cases hs : cut.toList with
  | nil =>
    simp only [parse?, hs]
    rfl
  | cons c s =>
    obtain ⟨s', hopens⟩ := Layout.spread.value_object_opens 0 fields
    obtain rfl : c = '\x7b' := by
      rw [htext, hs, List.cons_append] at hopens
      exact (List.cons.inj hopens).1
    rw [parse?, hs, skipSpace_cons (by decide)]
    split
    · next v rest hread =>
      have hlonger := value?_longer more.toList hread
        (show ('\x7b' :: s).length + 1 ≤ (cut.toList ++ more.toList).length + 1 by
          rw [hs, List.length_append]; omega)
        (.inl ⟨s, rfl⟩)
      rw [← hs, hwhole] at hlonger
      have hrest := (Prod.mk.inj (Option.some.inj hlonger)).2
      exact absurd (String.toList_eq_nil_iff.mp (List.append_eq_nil_iff.mp hrest.symm).2) hmore
    · rfl

end ChangeImpact.Json
