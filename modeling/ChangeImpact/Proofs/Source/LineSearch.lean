import ChangeImpact.Proofs.Source.ImportLine
import ChangeImpact.Proofs.Text.Search
import Mathlib.Data.List.TakeWhile

/-!
# Proofs.Source.LineSearch

Searches for calls and imports over a whole line.

* `requireCall?_unquoted`, `requireCall?_quotedEnd` — no call is found without quotes, nor where
  one pair of them ends the line.
* `firstMatch_imported_spaced` — a search for an import goes on from word to word.
* `firstMatch_imported_marked` — a binding with a mark at its start is not found without the mark.
-/

namespace ChangeImpact

namespace Source

open Text

/-- A call is found in front of the first quote of a text, or not there at all. -/
theorem requireHere?_append {a rest : List Char} {q : Char} (ha : ∀ c ∈ a, isQuote c = false)
    (hq : isQuote q = true) (hne : a ≠ "require(".toList) :
    requireHere? (a ++ q :: rest) = none := by
  have hcall : ∀ c ∈ "require(".toList, isQuote c = false := by decide
  rw [requireHere?]
  cases hafter : after? "require(".toList (a ++ q :: rest) with
  | none => rfl
  | some r =>
    have hr := after?_eq_some_iff.mp hafter
    cases r with
    | nil => rfl
    | cons c r =>
      by_cases hc : isQuote c = true
      · exact absurd (cut_inj ha hcall hq hc hr).1 hne
      · simp [quoted?, hc]

theorem requireHere?_unquoted {s : List Char} (h : ∀ c ∈ s, isQuote c = false) :
    requireHere? s = none := by
  rw [requireHere?]
  cases hafter : after? "require(".toList s with
  | none => rfl
  | some r =>
    cases r with
    | nil => rfl
    | cons c r =>
      have hc : isQuote c = false := h c (by simp [after?_eq_some_iff.mp hafter])
      simp [quoted?, hc]

theorem requireCall?_unquoted {s : List Char} (h : ∀ c ∈ s, isQuote c = false) :
    requireCall? s = none :=
  firstMatch_eq_none fun _ ht => requireHere?_unquoted fun c hc => h c (ht.subset hc)

/-- A call needs two quotes after its parenthesis. -/
theorem requireCall?_quotedEnd {a s : List Char} {q : Char} (ha : ∀ c ∈ a, isQuote c = false)
    (hlast : a.getLast? ≠ some '(') (hs : ∀ c ∈ s, isQuote c = false) (hq : isQuote q = true) :
    requireCall? (a ++ q :: (s ++ [q])) = none := by
  have hfront : ∀ t, t <:+ a → t ≠ [] → requireHere? (t ++ q :: (s ++ [q])) = none := by
    intro t ht hne
    refine requireHere?_append (fun c hc => ha c (ht.subset hc)) hq ?_
    rintro rfl
    obtain ⟨b, rfl⟩ := ht
    simp at hlast
  have hbody : ∀ t, t <:+ s → requireHere? (t ++ [q]) = none := by
    intro t ht
    by_cases hcall : t = "require(".toList
    · rw [hcall, requireHere?, after?_append]
      simp [quoted?, hq]
    · exact requireHere?_append (fun c hc => hs c (ht.subset hc)) hq hcall
  have hopen : requireHere? (q :: (s ++ [q])) = none :=
    requireHere?_append (a := []) (by simp) hq (by simp)
  have hend : requireHere? [q] = none := hbody [] List.nil_suffix
  have hempty : requireHere? [] = none := rfl
  rw [requireCall?, firstMatch_append hfront, firstMatch, hopen]
  dsimp only
  rw [firstMatch_append fun t ht _ => hbody t ht, firstMatch, hend]
  exact hempty

/-! ### Imports -/

section Imported

variable {read : List Char → Option (List Char × List Char)} {k : String} {w s : List Char}

theorem keyword?_unspaced (h : ∀ c ∈ s, isBlank c = false) : keyword? k s = none := by
  rw [keyword?]
  cases hafter : after? k.toList s with
  | none => rfl
  | some r =>
    cases r with
    | nil => rfl
    | cons c r =>
      have hc : isBlank c = false := h c (by simp [after?_eq_some_iff.mp hafter])
      simp [blanks?, hc]

/-- A keyword is the whole of the word in front of a blank. -/
theorem keyword?_spaced (hk : ∀ c ∈ k.toList, isBlank c = false) (hw : ∀ c ∈ w, isBlank c = false)
    (hne : w ≠ k.toList) : keyword? k (w ++ ' ' :: s) = none := by
  have hspace : isBlank ' ' = true := by decide
  rw [keyword?]
  cases hafter : after? k.toList (w ++ ' ' :: s) with
  | none => rfl
  | some r =>
    have hr := after?_eq_some_iff.mp hafter
    cases r with
    | nil => rfl
    | cons c r =>
      by_cases hc : isBlank c = true
      · exact absurd (cut_inj hw hk hspace hc hr).1 hne
      · simp [blanks?, hc]

theorem importedHere?_eq_none (h : keyword? "import" s = none) : importedHere? read s = none := by
  rw [importedHere?, h]

/-- An import that starts in a word of a line starts at the end of the word, and what follows
decides. -/
theorem firstMatch_imported_spaced (hw : ∀ c ∈ w, isBlank c = false)
    (h : ¬ "import".toList <:+ w ∨ importedHere? read ("import".toList ++ ' ' :: s) = none) :
    firstMatch (importedHere? read) (w ++ ' ' :: s) = firstMatch (importedHere? read) s := by
  have hblank : importedHere? read (' ' :: s) = none := rfl
  have hword : ∀ t, t <:+ w → t ≠ [] → importedHere? read (t ++ ' ' :: s) = none := by
    intro t ht _
    by_cases himport : t = "import".toList
    · subst himport
      exact h.resolve_left (fun hnot => hnot ht)
    · exact importedHere?_eq_none
        (keyword?_spaced (by decide) (fun c hc => hw c (ht.subset hc)) himport)
  rw [firstMatch_append hword, firstMatch, hblank]

theorem firstMatch_imported_unspaced (h : ∀ c ∈ s, isBlank c = false) :
    firstMatch (importedHere? read) s = none :=
  firstMatch_eq_none fun _ ht =>
    importedHere?_eq_none (keyword?_unspaced fun c hc => h c (ht.subset hc))

/-- A blank stands in front of what follows a keyword. -/
theorem exists_of_keyword? {r : List Char} (h : keyword? k s = some r) :
    ∃ a c, s = a ++ c :: r ∧ isBlank c = true := by
  rw [keyword?] at h
  cases hafter : after? k.toList s with
  | none => simp [hafter] at h
  | some u =>
    rw [hafter] at h
    cases u with
    | nil => cases h
    | cons c u =>
      simp only [blanks?] at h
      split at h
      · next hc =>
        obtain rfl := Option.some.inj h
        have hblanks : ∀ d ∈ c :: u.takeWhile isBlank, isBlank d = true :=
          List.forall_mem_cons.mpr ⟨hc, fun d hd => List.mem_takeWhile_imp hd⟩
        refine ⟨k.toList ++ (c :: u.takeWhile isBlank).dropLast,
          (c :: u.takeWhile isBlank).getLast (by simp), ?_, hblanks _ (List.getLast_mem _)⟩
        rw [after?_eq_some_iff.mp hafter, List.append_assoc, List.append_cons (List.dropLast _),
          List.dropLast_concat_getLast, List.cons_append, List.takeWhile_append_dropWhile]
      · cases h

/-- A binding that starts with a mark is only found behind a blank and the mark. -/
theorem firstMatch_imported_marked {mark : Char} {a : List Char}
    (hread : ∀ ⦃t r⦄, read t = some r → t.head? = some mark) (ha : mark ∉ a)
    (hs : s.head? ≠ some mark) (hsolid : ∀ c ∈ s, isBlank c = false) :
    firstMatch (importedHere? read) (a ++ s) = none := by
  apply firstMatch_eq_none
  rintro t ⟨y, hy⟩
  rw [importedHere?]
  cases hkeyword : keyword? "import" t with
  | none => rfl
  | some r =>
    cases hfound : read r with
    | none => simp [hfound]
    | some found =>
      exfalso
      obtain ⟨r', rfl⟩ := List.head?_eq_some_iff.mp (hread hfound)
      obtain ⟨x, c, rfl, hc⟩ := exists_of_keyword? hkeyword
      rw [← List.append_assoc, List.append_eq_append_iff] at hy
      obtain ⟨v, rfl, hv⟩ | ⟨v, -, rfl⟩ := hy
      · cases v with
        | nil =>
          have hblank := hsolid c (by rw [← List.nil_append s, ← hv]; simp)
          simp [hc] at hblank
        | cons d v =>
          simp only [List.cons_append, List.cons.injEq] at hv
          cases v with
          | nil => exact hs (by rw [← List.nil_append s, ← hv.2, List.head?_cons])
          | cons m v =>
            simp only [List.cons_append, List.cons.injEq] at hv
            exact ha (by simp [hv.2.1])
      · have hblank := hsolid c (by simp)
        simp [hc] at hblank

theorem head?_of_allAs? {s : List Char} {r : List Char × List Char} (h : allAs? s = some r) :
    s.head? = some '*' := by
  cases s with
  | nil => simp [allAs?] at h
  | cons c s =>
    by_cases hc : c = '*'
    · rw [hc, List.head?_cons]
    · simp [allAs?, hc] at h

theorem head?_of_filledBraces? {s : List Char} {r : List Char × List Char}
    (h : filledBraces? s = some r) : s.head? = some '\x7b' := by
  cases s with
  | nil => simp [filledBraces?, braced?] at h
  | cons c s =>
    by_cases hc : c = '\x7b'
    · rw [hc, List.head?_cons]
    · simp [filledBraces?, braced?, hc] at h

end Imported

end Source

end ChangeImpact
