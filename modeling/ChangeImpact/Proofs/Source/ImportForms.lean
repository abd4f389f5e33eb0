import ChangeImpact.Proofs.Path.Segments
import ChangeImpact.Proofs.Source.Declaration
import ChangeImpact.Proofs.Source.LineSearch

/-!
# Proofs.Source.ImportForms

The supported import forms as lines of their own.

* `importing`            — the line of an import, whatever stands between `import` and `from`.
* `lineImports_importing` — it is read as one import.
* `symbolsOf_braces`, `symbolsOf_single`, `symbolsOf_star` — the names that it brings in.
* `Declaration.lineImports_text` — the line of any declaration holds its own import only.
-/

namespace ChangeImpact

namespace Source

open Text

/-! ## Bindings -/

theorem braced?_append {body : List Char} (h : '\x7d' ∉ body) (rest : List Char) :
    braced? ('\x7b' :: (body ++ '\x7d' :: rest)) = some (body, rest) :=
  braced?_eq_some_iff.mpr ⟨h, rfl⟩

theorem allAs?_append (w : Word) (rest : List Char) :
    allAs? ("* as ".toList ++ w.text.toList ++ ' ' :: rest) =
      some (w.text.toList, ' ' :: rest) :=
  allAs?_eq_some_iff.mpr
    ⟨_, _, blanks_space, blanks_space, w.isWord_text, wordEnds_space rest, by simp⟩

/-- A binding at the front of a line is read as it is written. -/
theorem importedHere?_bound {read : List Char → Option (List Char × List Char)}
    {t found : List Char} (ht : Trimmed t)
    (hread : ∀ rest, read (t ++ ' ' :: rest) = some (found, ' ' :: rest)) (rest : List Char) :
    importedHere? read ("import ".toList ++ t ++ " from ".toList ++ rest) = some found := by
  obtain ⟨c, cs, rfl⟩ := List.exists_cons_of_ne_nil ht.ne_nil
  have hline : "import ".toList ++ (c :: cs) ++ " from ".toList ++ rest =
      "import".toList ++ ' ' :: c :: (cs ++ " from ".toList ++ rest) := by
    simp
  have hback : c :: (cs ++ " from ".toList ++ rest) =
      (c :: cs) ++ ' ' :: ("from ".toList ++ rest) := by
    simp
  have hfrom : ' ' :: ("from ".toList ++ rest) = " from".toList ++ ' ' :: rest := by simp
  rw [importedHere?, hline, keyword?_append (ht.first c rfl), hback]
  simp only [hread]
  rw [hfrom, from?_append]
  rfl

/-! ## Lists of names -/

section Names

open Declaration

theorem map_strip_listed (first : Item) (others : List Item) :
    (splitOn ',' (' ' :: (listed (first :: others)).toList ++ [' '])).map strip =
      (first :: others).map fun i => i.text.toList := by
  have hspace : ∀ c ∈ [' '], isBlank c = true := by decide
  have hcomma (i : Item) : ',' ∉ i.text.toList := fun h => absurd (i.mem_text h) (by decide)
  induction others generalizing first with
  | nil =>
    have hpiece : ',' ∉ ' ' :: (listed [first]).toList ++ [' '] := by
      simp [toList_listed_singleton, hcomma]
    rw [splitOn_eq_singleton hpiece, toList_listed_singleton, List.map_singleton]
    exact congrArg (fun s => [s]) (strip_append hspace first.trimmed hspace)
  | cons next others ih =>
    have hcut : ' ' :: (listed (first :: next :: others)).toList ++ [' '] =
        (' ' :: first.text.toList) ++
          ',' :: (' ' :: (listed (next :: others)).toList ++ [' ']) := by
      simp [toList_listed_cons_cons]
    have hpiece : ',' ∉ ' ' :: first.text.toList := by simp [hcomma]
    have hfirst : strip (' ' :: first.text.toList) = first.text.toList := by
      simpa using strip_append hspace first.trimmed (b := []) (by simp)
    rw [hcut, splitOn_append, splitOn_eq_singleton hpiece, List.map_append, ih, List.map_singleton,
      hfirst]
    rfl

/-- The items come out as they went in, in their order. -/
theorem listedNames_listed (first : Item) (others : List Item) :
    listedNames (' ' :: (listed (first :: others)).toList ++ [' ']) =
      (first :: others).map Item.text := by
  have hkept : ∀ i ∈ first :: others,
      ((fun item : List Char => !item.isEmpty) ∘ fun i : Item => i.text.toList) i = true :=
    fun i _ => by simpa using i.trimmed.ne_nil
  rw [listedNames, map_strip_listed, List.filter_map, List.filter_eq_self.mpr hkept, List.map_map]
  exact List.map_congr_left fun i _ => String.ofList_toList

end Names

/-! ## The line of an import -/

/-- The line of an import of `t`. -/
def importing (t : List Char) (q : Quote) (s : Specifier) : List Char :=
  "import ".toList ++ t ++ " from ".toList ++ (q.around s).toList

section Importing

variable {t found : List Char} {read : List Char → Option (List Char × List Char)}

theorem importLine?_importing {b : Binding} (ht : Trimmed t)
    (hread : ∀ rest, binding? (t ++ ' ' :: rest) = some (b, ' ' :: rest)) (q : Quote)
    (s : Specifier) : importLine? (importing t q s) = some (b, s.text.toList) := by
  unfold importing
  rw [q.toList_around]
  exact importLine?_bound ht.ne_nil ht.first hread q.isQuote s.ne_nil s.noQuote []

theorem requireCall?_importing (ht : ∀ c ∈ t, isQuote c = false) (q : Quote) (s : Specifier) :
    requireCall? (importing t q s) = none := by
  have hquiet : ∀ c ∈ "import ".toList ++ t ++ " from ".toList, isQuote c = false := by
    rw [List.forall_mem_append, List.forall_mem_append]
    exact ⟨⟨by decide, ht⟩, by decide⟩
  unfold importing
  rw [q.toList_around]
  refine requireCall?_quotedEnd hquiet ?_ s.noQuote q.isQuote
  have hlast : " from ".toList.getLast? = some ' ' := by decide
  rw [List.getLast?_append, hlast]
  simp

theorem firstMatch_importing (ht : Trimmed t)
    (hread : ∀ rest, read (t ++ ' ' :: rest) = some (found, ' ' :: rest)) (q : Quote)
    (s : Specifier) : firstMatch (importedHere? read) (importing t q s) = some found :=
  firstMatch_of_some (importedHere?_bound ht hread _)

/-- Bindings that start with a mark are not found on a line without it. -/
theorem firstMatch_importing_unmarked {mark : Char}
    (hread : ∀ ⦃t r⦄, read t = some r → t.head? = some mark) (hmark : mark ∉ t)
    (hopen : mark ∉ "import from ".toList) (hquote : isQuote mark = false) (q : Quote)
    (s : Specifier) : firstMatch (importedHere? read) (importing t q s) = none := by
  have hfront : mark ∉ "import ".toList ++ t ++ " from ".toList := by
    simp at hopen
    simp [hmark, hopen]
  exact firstMatch_imported_marked hread hfront (q.around_head? s hquote) (q.around_noBlank s)

theorem lineImports_importing {b : Binding} (ht : Trimmed t)
    (hread : ∀ rest, binding? (t ++ ' ' :: rest) = some (b, ' ' :: rest))
    (hquiet : ∀ c ∈ t, isQuote c = false) (q : Quote) (s : Specifier) (path : String)
    (number : Nat) :
    lineImports path number (importing t q s) =
      [{ fromPath := path, specifier := s.text, kind := specifierKind s.text, line := number,
         symbols := symbolsOf (importing t q s) }] := by
  simp only [lineImports, importLine?_importing ht hread, requireCall?_importing hquiet,
    String.ofList_toList, List.append_nil]

theorem mem_importing {q : Quote} {s : Specifier} {c : Char} (h : c ∈ importing t q s) :
    c ∈ "import from ".toList ∨ c ∈ t ∨ c ∈ (q.around s).toList := by
  have hopen : ∀ c ∈ "import ".toList, c ∈ "import from ".toList := by decide
  have hclose : ∀ c ∈ " from ".toList, c ∈ "import from ".toList := by decide
  unfold importing at h
  rw [List.mem_append, List.mem_append, List.mem_append] at h
  rcases h with ((h | h) | h) | h
  · exact .inl (hopen c h)
  · exact .inr (.inl h)
  · exact .inl (hclose c h)
  · exact .inr (.inr h)

end Importing

/-! ## The forms -/

section Forms

variable (q : Quote) (s : Specifier)

theorem mem_around {c : Char} (h : c ∈ (q.around s).toList) : c ≠ '\x7b' := by
  rw [q.toList_around, List.mem_cons, List.mem_append, List.mem_singleton] at h
  rcases h with rfl | h | rfl
  · cases q <;> decide
  · exact (s.noBrace c h).1
  · cases q <;> decide

theorem contains_importing {t : List Char} (ht : '\x7b' ∉ t) :
    (importing t q s).contains '\x7b' = false := by
  rw [List.contains_eq_mem, decide_eq_false_iff_not]
  intro h
  rcases mem_importing h with h | h | h
  · exact absurd h (by decide)
  · exact ht h
  · exact mem_around q s h rfl

/-- Names in braces. -/
theorem symbolsOf_braces {body : List Char} (hne : body ≠ []) (hend : '\x7d' ∉ body)
    (hstar : '*' ∉ body) :
    symbolsOf (importing ('\x7b' :: (body ++ ['\x7d'])) q s) = listedNames body := by
  have ht : Trimmed ('\x7b' :: (body ++ ['\x7d'])) :=
    Trimmed.append (a := ['\x7b']) (b := ['\x7d']) ⟨by decide, by decide, by decide⟩
      ⟨by decide, by decide, by decide⟩ body
  have hread (rest : List Char) : filledBraces? ('\x7b' :: (body ++ ['\x7d']) ++ ' ' :: rest) =
      some (body, ' ' :: rest) := by
    have hline : '\x7b' :: (body ++ ['\x7d']) ++ ' ' :: rest =
        '\x7b' :: (body ++ '\x7d' :: ' ' :: rest) := by simp
    rw [filledBraces?, hline, braced?_append hend]
    cases body with
    | nil => contradiction
    | cons c cs => rfl
  have hlisted := firstMatch_importing ht hread q s
  have hall : firstMatch (importedHere? allAs?)
      (importing ('\x7b' :: (body ++ ['\x7d'])) q s) = none :=
    firstMatch_importing_unmarked (fun _ _ h => head?_of_allAs? h) (by simpa using hstar)
      (by decide) (by decide) q s
  have hbrace : (importing ('\x7b' :: (body ++ ['\x7d'])) q s).contains '\x7b' = true := by
    rw [List.contains_eq_mem, decide_eq_true_iff]
    unfold importing
    simp
  rw [symbolsOf, hlisted, hall, hbrace]
  simp

/-- A name alone. -/
theorem symbolsOf_single (x : Word) : symbolsOf (importing x.text.toList q s) = [x.text] := by
  have hlisted : firstMatch (importedHere? filledBraces?) (importing x.text.toList q s) = none :=
    firstMatch_importing_unmarked (fun _ _ h => head?_of_filledBraces? h) (x.notMem (by decide))
      (by decide) (by decide) q s
  have hall : firstMatch (importedHere? allAs?) (importing x.text.toList q s) = none :=
    firstMatch_importing_unmarked (fun _ _ h => head?_of_allAs? h) (x.notMem (by decide))
      (by decide) (by decide) q s
  have hsingle := firstMatch_importing x.trimmed
    (fun rest => x.isWord_text.read (wordEnds_space rest)) q s
  have hbrace := contains_importing q s (x.notMem (by decide : isWordChar '\x7b' = false))
  rw [symbolsOf, hlisted, hall, hsingle, hbrace]
  simp

/-- A name for everything is not one of the names alone: between `import` and `from` stands
either a star or, if that name is `import`, nothing. -/
theorem firstMatch_word_star (x : Word) :
    firstMatch (importedHere? word?) (importing ("* as ".toList ++ x.text.toList) q s) = none := by
  have hstar (rest : List Char) :
      importedHere? word? ("import".toList ++ ' ' :: ("*".toList ++ rest)) = none := by
    have hcons : "*".toList ++ rest = '*' :: rest := rfl
    rw [hcons, importedHere?, keyword?_append (by decide)]
    rfl
  have hfrom : importedHere? word?
      ("import".toList ++ ' ' :: ("from".toList ++ ' ' :: (q.around s).toList)) = none := by
    have hcons : "from".toList ++ ' ' :: (q.around s).toList =
        'f' :: ("rom".toList ++ ' ' :: (q.around s).toList) := rfl
    have hquoted : from? (' ' :: (q.around s).toList) = none := by
      rw [from?, q.toList_around, blanks?_space (isBlank_of_isQuote q.isQuote)]
      cases q <;> rfl
    have hword : IsWord "from".toList := ⟨by decide, by decide⟩
    rw [hcons, importedHere?, keyword?_append (by decide), ← hcons]
    simp only [hword.read (wordEnds_space _), hquoted]
    rfl
  have hline : importing ("* as ".toList ++ x.text.toList) q s =
      "import".toList ++ ' ' :: ("*".toList ++ ' ' :: ("as".toList ++ ' ' :: (x.text.toList ++
        ' ' :: ("from".toList ++ ' ' :: (q.around s).toList)))) := by
    unfold importing
    simp
  rw [hline, firstMatch_imported_spaced (by decide) (.inr (hstar _)),
    firstMatch_imported_spaced (by decide) (.inl (by decide)),
    firstMatch_imported_spaced (by decide) (.inl (by decide)),
    firstMatch_imported_spaced x.noBlank (.inr hfrom),
    firstMatch_imported_spaced (by decide) (.inl (by decide)),
    firstMatch_imported_unspaced (q.around_noBlank s)]

theorem symbolsOf_star (x : Word) :
    symbolsOf (importing ("* as ".toList ++ x.text.toList) q s) = [x.text] := by
  have hname {c : Char} (hc : isWordChar c = false) (hword : c ∉ "* as ".toList) :
      c ∉ "* as ".toList ++ x.text.toList := by
    rw [List.mem_append, not_or]
    exact ⟨hword, x.notMem hc⟩
  have hlisted : firstMatch (importedHere? filledBraces?)
      (importing ("* as ".toList ++ x.text.toList) q s) = none :=
    firstMatch_importing_unmarked (fun _ _ h => head?_of_filledBraces? h)
      (hname (by decide) (by decide)) (by decide) (by decide) q s
  have hall := firstMatch_importing (t := "* as ".toList ++ x.text.toList)
    (Trimmed.append (a := "*".toList) ⟨by decide, by decide, by decide⟩ x.trimmed " as ".toList)
    (allAs?_append x) q s
  have hbrace := contains_importing q s (hname (by decide : isWordChar '\x7b' = false) (by decide))
  rw [symbolsOf, hlisted, hall, firstMatch_word_star, hbrace]
  simp

end Forms

/-! ## All declarations -/

namespace Declaration

theorem importLine?_eq_none {line : List Char} (h : line.head? ≠ some 'i') :
    importLine? line = none := by
  have hkeyword : keyword? "import" line = none := by
    cases line with
    | nil => rfl
    | cons c line =>
      have hc : ¬ 'i' = c := fun he => h (by rw [he, List.head?_cons])
      simp [keyword?, after?, hc]
  rw [importLine?, hkeyword]

theorem lineImports_importListed (first : Item) (others : List Item) (q : Quote) (s : Specifier)
    (path : String) (number : Nat) :
    lineImports path number (importListed first others q s).text.toList =
      ((importListed first others q s).edge? path number).toList := by
  let body := ' ' :: (listed (first :: others)).toList ++ [' ']
  have hbody {c : Char} (h : c ∈ body) : isWordChar c = true ∨ c = ' ' ∨ c = ',' := by
    rcases List.mem_append.mp h with h | h
    · rcases List.mem_cons.mp h with h | h
      · exact .inr (.inl h)
      · exact mem_listed h
    · exact .inr (.inl (List.mem_singleton.mp h))
  have hend : '\x7d' ∉ body := fun h => absurd (hbody h) (by decide)
  have hstar : '*' ∉ body := fun h => absurd (hbody h) (by decide)
  have hquiet : ∀ c ∈ '\x7b' :: (body ++ ['\x7d']), isQuote c = false := by
    rw [List.forall_mem_cons, List.forall_mem_append]
    refine ⟨by decide, fun c hc => ?_, by decide⟩
    rcases hbody hc with hc | rfl | rfl
    · exact isQuote_of_isWordChar hc
    · decide
    · decide
  have hread (rest : List Char) : binding? ('\x7b' :: (body ++ ['\x7d']) ++ ' ' :: rest) =
      some (.braces body, ' ' :: rest) := by
    have hbraced := braced?_append hend (' ' :: rest)
    have hcons : '\x7b' :: (body ++ ['\x7d']) ++ ' ' :: rest =
        '\x7b' :: (body ++ '\x7d' :: ' ' :: rest) := by simp
    rw [hcons, binding?, hbraced]
    rfl
  have ht : Trimmed ('\x7b' :: (body ++ ['\x7d'])) :=
    Trimmed.append (a := ['\x7b']) (b := ['\x7d']) ⟨by decide, by decide, by decide⟩
      ⟨by decide, by decide, by decide⟩ body
  have hline : (importListed first others q s).text.toList =
      importing ('\x7b' :: (body ++ ['\x7d'])) q s := by
    dsimp only [text]
    unfold importing
    simp [body]
  have hsymbols : symbolsOf (importing ('\x7b' :: (body ++ ['\x7d'])) q s) =
      (first :: others).map Item.text :=
    (symbolsOf_braces q s (List.cons_ne_nil _ _) hend hstar).trans (listedNames_listed first others)
  rw [hline, lineImports_importing ht hread hquiet, hsymbols]
  rfl

theorem lineImports_importSingle (x : Word) (q : Quote) (s : Specifier) (path : String)
    (number : Nat) :
    lineImports path number (importSingle x q s).text.toList =
      ((importSingle x q s).edge? path number).toList := by
  have hline : (importSingle x q s).text.toList = importing x.text.toList q s := by
    dsimp only [text]
    unfold importing
    simp
  rw [hline, lineImports_importing x.trimmed
    (fun rest => x.isWord_text.read_binding (wordEnds_space rest)) x.noQuote, symbolsOf_single]
  rfl

theorem lineImports_importAll (x : Word) (q : Quote) (s : Specifier) (path : String)
    (number : Nat) :
    lineImports path number (importAll x q s).text.toList =
      ((importAll x q s).edge? path number).toList := by
  have hline : (importAll x q s).text.toList =
      importing ("* as ".toList ++ x.text.toList) q s := by
    dsimp only [text]
    unfold importing
    simp
  have ht : Trimmed ("* as ".toList ++ x.text.toList) :=
    Trimmed.append (a := "*".toList) ⟨by decide, by decide, by decide⟩ x.trimmed " as ".toList
  have hread (rest : List Char) : binding? ("* as ".toList ++ x.text.toList ++ ' ' :: rest) =
      some (.allAs x.text.toList, ' ' :: rest) := by
    have hcons : "* as ".toList ++ x.text.toList ++ ' ' :: rest =
        '*' :: (" as ".toList ++ x.text.toList ++ ' ' :: rest) := rfl
    rw [hcons, binding?, ← hcons, allAs?_append]
    rfl
  have hquiet : ∀ c ∈ "* as ".toList ++ x.text.toList, isQuote c = false := by
    rw [List.forall_mem_append]
    exact ⟨by decide, x.noQuote⟩
  rw [hline, lineImports_importing ht hread hquiet, symbolsOf_star]
  rfl

theorem lineImports_required (x : Word) (q : Quote) (s : Specifier) (path : String)
    (number : Nat) :
    lineImports path number (required x q s).text.toList =
      ((required x q s).edge? path number).toList := by
  let front := "const ".toList ++ x.text.toList ++ " = ".toList
  have hline : (required x q s).text.toList =
      front ++ ("require(".toList ++ q.char :: (s.text.toList ++ q.char :: [')'])) := by
    dsimp only [text]
    simp [front, q.toList_around]
  have hquiet : ∀ c ∈ front, isQuote c = false := by
    rw [List.forall_mem_append, List.forall_mem_append]
    exact ⟨⟨by decide, x.noQuote⟩, by decide⟩
  have hhere : requireHere? ("require(".toList ++ q.char :: (s.text.toList ++ q.char :: [')'])) =
      some s.text.toList := by
    rw [requireHere?, after?_append]
    simp only [quoted?_append q.isQuote s.ne_nil s.noQuote]
  have hcall : requireCall? (required x q s).text.toList = some s.text.toList := by
    rw [hline, requireCall?, firstMatch_append, firstMatch_of_some hhere]
    intro t ht hne
    rw [← List.append_assoc]
    refine requireHere?_append ?_ q.isQuote (by simpa using hne)
    rw [List.forall_mem_append]
    exact ⟨fun c hc => hquiet c (ht.subset hc), by decide⟩
  have hdeclared : importLine? (required x q s).text.toList = none :=
    importLine?_eq_none (by simp [hline, front])
  simp only [lineImports, hdeclared, hcall, String.ofList_toList]
  rfl

/-- Quotes stand around specifiers only. -/
theorem noQuote_of_imports? {d : Declaration} (h : d.imports? = none) :
    ∀ c ∈ d.text.toList, isQuote c = false := by
  have hasync (isAsync : Bool) : ∀ c ∈ (asyncText isAsync).toList, isQuote c = false := by
    cases isAsync <;> decide
  have hkind (k : ExportKind) : ∀ c ∈ (Vocabulary.word k).toList, isQuote c = false := by
    cases k <;> decide
  cases d <;> cases h <;> dsimp only [text] <;>
    try simp only [String.toList_append, List.forall_mem_append]
  case exported isAsync k x =>
    exact ⟨⟨⟨⟨by decide, hasync isAsync⟩, hkind k⟩, by decide⟩, x.noQuote⟩
  case exportedDefault x => exact ⟨by decide, x.noQuote⟩
  case exportedFunction isAsync x =>
    exact ⟨⟨⟨⟨by decide, hasync isAsync⟩, by decide⟩, x.noQuote⟩, by decide⟩
  case exportedNameless => decide
  case exportedClass x => exact ⟨⟨by decide, x.noQuote⟩, by decide⟩

theorem lineImports_export {d : Declaration} (h : d.imports? = none) (path : String)
    (number : Nat) : lineImports path number d.text.toList = (d.edge? path number).toList := by
  have hdeclared : importLine? d.text.toList = none := by
    apply importLine?_eq_none
    cases d <;> cases h <;> dsimp only [text] <;> simp
  have hcall : requireCall? d.text.toList = none := requireCall?_unquoted (noQuote_of_imports? h)
  simp only [lineImports, hdeclared, hcall, edge?, h]
  rfl

/-- The line of a declaration holds the import that it stands for, and no other one. -/
theorem lineImports_text (d : Declaration) (path : String) (number : Nat) :
    lineImports path number d.text.toList = (d.edge? path number).toList := by
  cases d with
  | importListed first others q s => exact lineImports_importListed first others q s path number
  | importSingle x q s => exact lineImports_importSingle x q s path number
  | importAll x q s => exact lineImports_importAll x q s path number
  | required x q s => exact lineImports_required x q s path number
  | _ => exact lineImports_export rfl path number

end Declaration

end Source

end ChangeImpact
