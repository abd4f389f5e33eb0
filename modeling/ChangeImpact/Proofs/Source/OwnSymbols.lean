import ChangeImpact.Proofs.Source.Grammar

/-!
# Proofs.Source.OwnSymbols

Whose names the edge of an import is given. The names are looked for on the whole line, apart from
the import that the line starts with.

* `Binding.kind`, `Binding.names` — what a binding clause is, and the names that it brings in.
* `Importing`, `FirstBehind`  — an import up to `from`, at the front of a text and further on.
* `Reads`, `importedHere?_iff` — the reader of names for each kind of binding.
* `foundIn_line`, `mem_foundIn_iff` — what a search for one kind finds on a line.
* `strays`, `isHidden`        — names from further on, and a name of the import that is passed over.
* `GivesOwn`, `own_symbols`   — when an edge is given what the import itself binds.
-/

namespace ChangeImpact

namespace Source

open Text

/-! ## Bindings -/

inductive BindingKind where
  /-- Braces with nothing between them, which no search stops at. -/
  | empty
  | filled
  | allAs
  | single
  deriving DecidableEq

namespace Binding

def kind : Binding → BindingKind
  | .braces body => if body = [] then .empty else .filled
  | .allAs _ => .allAs
  | .single _ => .single

/-- What stands between the braces, or the one name. -/
def text : Binding → List Char
  | .braces body => body
  | .allAs name => name
  | .single name => name

def names : Binding → List String
  | .braces body => listedNames body
  | .allAs name => [.ofList name]
  | .single name => [.ofList name]

variable {found : Binding}

theorem kind_eq_empty_iff : found.kind = .empty ↔ found = .braces [] := by
  cases found <;> simp [kind]

theorem kind_eq_filled_iff : found.kind = .filled ↔ ∃ body, body ≠ [] ∧ found = .braces body := by
  cases found <;> simp [kind]

theorem kind_eq_allAs_iff : found.kind = .allAs ↔ ∃ name, found = .allAs name := by
  cases found <;> simp [kind, ite_eq_iff]

theorem kind_eq_single_iff : found.kind = .single ↔ ∃ name, found = .single name := by
  cases found <;> simp [kind, ite_eq_iff]

end Binding

/-- An import that binds `found`, up to `from` and with anything after it. -/
inductive Importing (found : Binding) : List Char → Prop
  | intro {a t b : List Char} (ha : Blanks a) (ht : Binds found t) (hb : Blanks b)
      (rest : List Char) :
      Importing found ("import".toList ++ (a ++ (t ++ (b ++ ("from".toList ++ rest)))))

/-- Such an import stands on the line and does not start it. -/
def Behind (found : Binding) (line : List Char) : Prop :=
  ∃ a b, line = a ++ b ∧ a ≠ [] ∧ Importing found b

/-- Of the imports of its kind that do so it is the first. -/
def FirstBehind (found : Binding) (line : List Char) : Prop :=
  ∃ a b, line = a ++ b ∧ a ≠ [] ∧ Importing found b ∧
    ∀ a' b' found', line = a' ++ b' → a' ≠ [] → Importing found' b' → found'.kind = found.kind →
      a.length ≤ a'.length

theorem FirstBehind.behind {found : Binding} {line : List Char} (h : FirstBehind found line) :
    Behind found line := by
  obtain ⟨a, b, hline, hne, himport, _⟩ := h
  exact ⟨a, b, hline, hne, himport⟩

/-! ## Imports at the front of a text -/

section Front

variable {line s r w : List Char} {found found' : Binding}

theorem ImportFormOf.importing (h : ImportFormOf found s line) : Importing found line := by
  cases h with
  | intro ha ht hb => exact .intro ha ht hb _

theorem importing_iff : Importing found s ↔ ∃ r r', keyword? "import" s = some r ∧
    binding? r = some (found, r') ∧ (from? r').isSome = true := by
  constructor
  · rintro @⟨a, t, b, ha, ht, hb, rest⟩
    refine ⟨_, _, ha.read_keyword "import" (ht.head?_not_blank _), ht.read (hb.wordEnds _), ?_⟩
    rw [hb.read_from]
    rfl
  · rintro ⟨r, r', hkeyword, hbinding, hfrom⟩
    obtain ⟨a, ha, rfl, _⟩ := keyword?_eq_some_iff.mp hkeyword
    obtain ⟨t, ht, rfl⟩ := binding?_sound hbinding
    obtain ⟨rest, hfrom⟩ := Option.isSome_iff_exists.mp hfrom
    obtain ⟨b, hb, rfl⟩ := from?_eq_some_iff.mp hfrom
    exact .intro ha ht hb rest

/-- One text does not start with two imports. -/
theorem Importing.unique (h : Importing found s) (h' : Importing found' s) : found = found' := by
  obtain ⟨r, _, hkeyword, hbinding, _⟩ := importing_iff.mp h
  obtain ⟨r', _, hkeyword', hbinding', _⟩ := importing_iff.mp h'
  obtain rfl : r = r' := Option.some.inj (hkeyword.symm.trans hkeyword')
  exact (Prod.mk.inj (Option.some.inj (hbinding.symm.trans hbinding'))).1

theorem Importing.ne_nil (h : Importing found s) : s ≠ [] := by
  cases h with
  | intro => simp

/-- An import with braces has an opening one. -/
theorem Importing.brace_mem (h : Importing found s) (hallAs : found.kind ≠ .allAs)
    (hsingle : found.kind ≠ .single) : '\x7b' ∈ s := by
  cases h with
  | intro _ ht =>
    cases ht with
    | braces => simp
    | allAs => exact absurd rfl hallAs
    | single => exact absurd rfl hsingle

/-! ## The readers of names -/

/-- The reader takes the bindings of one kind. -/
def Reads (read : List Char → Option (List Char × List Char)) (kind : BindingKind) : Prop :=
  ∀ s w r, read s = some (w, r) ↔
    ∃ found, binding? s = some (found, r) ∧ found.kind = kind ∧ found.text = w

theorem braced?_iff : braced? s = some (w, r) ↔ binding? s = some (.braces w, r) := by
  unfold binding?
  split
  · simp
  · simp [braced?]
  · next hbrace _ =>
    have hnone : braced? s = none := by
      unfold braced?
      split
      · exact absurd rfl (hbrace _)
      · rfl
    simp [hnone]

theorem word?_iff : word? s = some (w, r) ↔ binding? s = some (.single w, r) := by
  constructor
  · intro h
    obtain ⟨hw, rfl, hr⟩ := word?_eq_some_iff.mp h
    exact hw.read_binding hr
  · intro h
    unfold binding? at h
    split at h
    · simp at h
    · simp at h
    · simpa using h

theorem allAs?_iff : allAs? s = some (w, r) ↔ binding? s = some (.allAs w, r) := by
  constructor
  · intro h
    obtain ⟨a, b, ha, hb, hw, hr, rfl⟩ := allAs?_eq_some_iff.mp h
    simpa using (Binds.allAs ha hb hw).read hr
  · intro h
    unfold binding? at h
    split at h
    · simp at h
    · simpa using h
    · simp at h

theorem reads_filledBraces : Reads filledBraces? .filled := by
  intro s w r
  have hfilled : filledBraces? s = some (w, r) ↔ braced? s = some (w, r) ∧ w ≠ [] := by
    rw [filledBraces?]
    split
    · next rest hs =>
      constructor
      · rintro ⟨⟩
      · rintro ⟨hs', hne⟩
        cases hs.symm.trans hs'
        exact absurd rfl hne
    · next hs =>
      refine ⟨fun h => ⟨h, ?_⟩, And.left⟩
      rintro rfl
      exact hs r h
  rw [hfilled, braced?_iff]
  constructor
  · rintro ⟨h, hne⟩
    exact ⟨_, h, Binding.kind_eq_filled_iff.mpr ⟨w, hne, rfl⟩, rfl⟩
  · rintro ⟨found, h, hkind, rfl⟩
    obtain ⟨body, hne, rfl⟩ := Binding.kind_eq_filled_iff.mp hkind
    exact ⟨h, hne⟩

theorem reads_word : Reads word? .single := by
  intro s w r
  rw [word?_iff]
  constructor
  · exact fun h => ⟨_, h, rfl, rfl⟩
  · rintro ⟨found, h, hkind, rfl⟩
    obtain ⟨name, rfl⟩ := Binding.kind_eq_single_iff.mp hkind
    exact h

theorem reads_allAs : Reads allAs? .allAs := by
  intro s w r
  rw [allAs?_iff]
  constructor
  · exact fun h => ⟨_, h, rfl, rfl⟩
  · rintro ⟨found, h, hkind, rfl⟩
    obtain ⟨name, rfl⟩ := Binding.kind_eq_allAs_iff.mp hkind
    exact h

variable {read : List Char → Option (List Char × List Char)} {kind : BindingKind}

theorem importedHere?_eq_some_iff : importedHere? read s = some w ↔
    ∃ r r', keyword? "import" s = some r ∧ read r = some (w, r') ∧ (from? r').isSome = true := by
  rw [importedHere?]
  constructor
  · intro h
    split at h
    · cases h
    · next r hkeyword =>
      split at h
      · cases h
      · next found r' hread =>
        obtain ⟨rest, hfrom, rfl⟩ := Option.map_eq_some_iff.mp h
        exact ⟨r, r', hkeyword, hread, by rw [hfrom]; rfl⟩
  · rintro ⟨r, r', hkeyword, hread, hfrom⟩
    obtain ⟨rest, hfrom⟩ := Option.isSome_iff_exists.mp hfrom
    simp only [hkeyword, hread, hfrom, Option.map_some]

theorem importedHere?_iff (h : Reads read kind) : importedHere? read s = some w ↔
    ∃ found, Importing found s ∧ found.kind = kind ∧ found.text = w := by
  rw [importedHere?_eq_some_iff]
  constructor
  · rintro ⟨r, r', hkeyword, hread, hfrom⟩
    obtain ⟨found, hbinding, hfound⟩ := (h r w r').mp hread
    exact ⟨found, importing_iff.mpr ⟨r, r', hkeyword, hbinding, hfrom⟩, hfound⟩
  · rintro ⟨found, himport, hfound⟩
    obtain ⟨r, r', hkeyword, hbinding, hfrom⟩ := importing_iff.mp himport
    exact ⟨r, r', hkeyword, (h r w r').mpr ⟨found, hbinding, hfound⟩, hfrom⟩

end Front

/-! ## Searches -/

/-- The names that a search for one kind of binding finds. -/
def foundIn (read : List Char → Option (List Char × List Char))
    (names : List Char → List String) (text : List Char) : List String :=
  ((firstMatch (importedHere? read) text).map names).getD []

def listedIn : List Char → List String := foundIn filledBraces? listedNames

def singleIn : List Char → List String := foundIn word? fun w => [.ofList w]

def allIn : List Char → List String := foundIn allAs? fun w => [.ofList w]

theorem symbolsOf_eq_found (line : List Char) : symbolsOf line =
    listedIn line ++ (if line.contains '\x7b' then [] else singleIn line) ++ allIn line := rfl

/-- The names of all bindings of a kind are made of their texts. -/
def Names (names : List Char → List String) (kind : BindingKind) : Prop :=
  ∀ found : Binding, found.kind = kind → names found.text = found.names

theorem names_filled : Names listedNames .filled := by
  intro found hkind
  obtain ⟨body, _, rfl⟩ := Binding.kind_eq_filled_iff.mp hkind
  rfl

theorem names_single : Names (fun w => [.ofList w]) .single := by
  intro found hkind
  obtain ⟨name, rfl⟩ := Binding.kind_eq_single_iff.mp hkind
  rfl

theorem names_allAs : Names (fun w => [.ofList w]) .allAs := by
  intro found hkind
  obtain ⟨name, rfl⟩ := Binding.kind_eq_allAs_iff.mp hkind
  rfl

section Search

variable {line s w : List Char} {found : Binding}
  {read : List Char → Option (List Char × List Char)} {kind : BindingKind}
  {names : List Char → List String}

/-- A search stops at the import that the line starts with if that is of its kind. -/
theorem foundIn_line (h : Reads read kind) (hnames : Names names kind)
    (hline : Importing found line) : foundIn read names line =
      if found.kind = kind then found.names else foundIn read names line.tail := by
  split
  · next hkind =>
    have hread := (importedHere?_iff h).mpr ⟨found, hline, hkind, rfl⟩
    rw [foundIn, firstMatch_of_some hread, Option.map_some, Option.getD_some, hnames found hkind]
  · next hkind =>
    obtain ⟨c, cs, rfl⟩ := List.exists_cons_of_ne_nil hline.ne_nil
    have hnone : importedHere? read (c :: cs) = none := by
      rw [Option.eq_none_iff_forall_ne_some]
      intro w hw
      obtain ⟨found', himport, hkind', _⟩ := (importedHere?_iff h).mp hw
      exact hkind (hline.unique himport ▸ hkind')
    rw [foundIn, foundIn, firstMatch, hnone, List.tail_cons]

/-- Behind the start of a line the first import of the kind is found. -/
theorem firstMatch_tail_iff (h : Reads read kind) (hne : line ≠ []) :
    firstMatch (importedHere? read) line.tail = some w ↔
      ∃ found, FirstBehind found line ∧ found.kind = kind ∧ found.text = w := by
  obtain ⟨c, cs, rfl⟩ := List.exists_cons_of_ne_nil hne
  rw [List.tail_cons, firstMatch_eq_some_iff]
  constructor
  · rintro ⟨a, b, rfl, hread, hfirst⟩
    obtain ⟨found, himport, hkind, htext⟩ := (importedHere?_iff h).mp hread
    refine ⟨found, ⟨c :: a, b, rfl, by simp, himport, ?_⟩, hkind, htext⟩
    intro a' b' found' hline hne' himport' hkind'
    obtain ⟨c', a', rfl⟩ := List.exists_cons_of_ne_nil hne'
    have hread' := (importedHere?_iff h).mpr ⟨found', himport', hkind'.trans hkind, rfl⟩
    exact Nat.succ_le_succ (hfirst a' b' _ (List.cons.inj hline).2 hread')
  · rintro ⟨found, ⟨a, b, hline, hne', himport, hfirst⟩, hkind, htext⟩
    obtain ⟨c', a, rfl⟩ := List.exists_cons_of_ne_nil hne'
    obtain ⟨rfl, rfl⟩ := List.cons.inj hline
    refine ⟨a, b, rfl, (importedHere?_iff h).mpr ⟨found, himport, hkind, htext⟩, ?_⟩
    intro a' b' w' hcs hread'
    obtain ⟨found', himport', hkind', _⟩ := (importedHere?_iff h).mp hread'
    exact Nat.le_of_succ_le_succ
      (hfirst (c :: a') b' found' (congrArg _ hcs) (by simp) himport' (hkind'.trans hkind.symm))

theorem mem_foundIn_iff (h : Reads read kind) (hnames : Names names kind) (hne : line ≠ [])
    {x : String} : x ∈ foundIn read names line.tail ↔
      ∃ found, FirstBehind found line ∧ found.kind = kind ∧ x ∈ found.names := by
  have hfound : x ∈ foundIn read names line.tail ↔
      ∃ w, firstMatch (importedHere? read) line.tail = some w ∧ x ∈ names w := by
    rw [foundIn]
    cases firstMatch (importedHere? read) line.tail <;> simp
  rw [hfound]
  constructor
  · rintro ⟨w, hmatch, hx⟩
    obtain ⟨found, hfirst, hkind, rfl⟩ := (firstMatch_tail_iff h hne).mp hmatch
    exact ⟨found, hfirst, hkind, hnames found hkind ▸ hx⟩
  · rintro ⟨found, hfirst, hkind, hx⟩
    exact ⟨found.text, (firstMatch_tail_iff h hne).mpr ⟨found, hfirst, hkind, rfl⟩,
      hnames found hkind ▸ hx⟩

end Search

/-! ## Names of one import -/

/-- A single name is passed over on a line with an opening brace. -/
def isHidden (found : Binding) (line : List Char) : Bool :=
  found.kind = .single && line.contains '\x7b'

/-- What the searches for other kinds than that of the import at the start of the line find. -/
def strays (found : Binding) (line : List Char) : List String :=
  (if found.kind = .filled then [] else listedIn line.tail) ++
    (if found.kind = .single || line.contains '\x7b' then [] else singleIn line.tail) ++
    (if found.kind = .allAs then [] else allIn line.tail)

section Own

variable {line s : List Char} {found : Binding}

/-- The names that stray in are those of the first import of each other kind, but for a single name
on a line with an opening brace. -/
theorem mem_strays_iff (h : Importing found line) {x : String} : x ∈ strays found line ↔
    ∃ found', FirstBehind found' line ∧ found'.kind ≠ found.kind ∧
      isHidden found' line = false ∧ x ∈ found'.names := by
  have hlisted : x ∈ listedIn line.tail ↔ _ :=
    mem_foundIn_iff reads_filledBraces names_filled h.ne_nil
  have hsingle : x ∈ singleIn line.tail ↔ _ :=
    mem_foundIn_iff reads_word names_single h.ne_nil
  have hall : x ∈ allIn line.tail ↔ _ :=
    mem_foundIn_iff reads_allAs names_allAs h.ne_nil
  rw [strays, List.mem_append, List.mem_append, List.mem_ite_nil_left, List.mem_ite_nil_left,
    List.mem_ite_nil_left, hlisted, hsingle, hall]
  constructor
  · rintro ((⟨hkind, found', hfirst, hkind', hx⟩ | ⟨hkind, found', hfirst, hkind', hx⟩) |
      ⟨hkind, found', hfirst, hkind', hx⟩)
    · exact ⟨found', hfirst, hkind' ▸ Ne.symm hkind, by simp [isHidden, hkind'], hx⟩
    · rw [Bool.or_eq_true, decide_eq_true_eq, not_or, Bool.not_eq_true] at hkind
      exact ⟨found', hfirst, hkind' ▸ Ne.symm hkind.1, by rw [isHidden, hkind.2, Bool.and_false], hx⟩
    · exact ⟨found', hfirst, hkind' ▸ Ne.symm hkind, by simp [isHidden, hkind'], hx⟩
  · rintro ⟨found', hfirst, hkind, hhidden, hx⟩
    cases hkind' : found'.kind with
    | empty =>
      rw [Binding.kind_eq_empty_iff.mp hkind'] at hx
      cases hx
    | filled => exact .inl (.inl ⟨hkind' ▸ Ne.symm hkind, found', hfirst, hkind', hx⟩)
    | single =>
      refine .inl (.inr ⟨?_, found', hfirst, hkind', hx⟩)
      have hplain : '\x7b' ∉ line := by simpa [isHidden, hkind'] using hhidden
      rw [Bool.or_eq_true, decide_eq_true_eq, List.contains_iff_mem, not_or]
      exact ⟨hkind' ▸ Ne.symm hkind, hplain⟩
    | allAs => exact .inr ⟨hkind' ▸ Ne.symm hkind, found', hfirst, hkind', hx⟩

/-- The names of the import stand between those that stray in, or are missing. -/
theorem symbolsOf_eq (h : Importing found line) : ∃ before after,
    strays found line = before ++ after ∧
    symbolsOf line = before ++ (if isHidden found line then [] else found.names) ++ after := by
  have hlisted : listedIn line = if found.kind = .filled then found.names else listedIn line.tail :=
    foundIn_line reads_filledBraces names_filled h
  have hsingle : singleIn line = if found.kind = .single then found.names else singleIn line.tail :=
    foundIn_line reads_word names_single h
  have hall : allIn line = if found.kind = .allAs then found.names else allIn line.tail :=
    foundIn_line reads_allAs names_allAs h
  rw [symbolsOf_eq_found, hlisted, hsingle, hall, strays, isHidden]
  cases hkind : found.kind with
  | empty =>
    have hbrace : '\x7b' ∈ line := h.brace_mem (by simp [hkind]) (by simp [hkind])
    have hnames : found.names = [] := by rw [Binding.kind_eq_empty_iff.mp hkind]; rfl
    exact ⟨listedIn line.tail, allIn line.tail, by simp [hbrace], by simp [hbrace, hnames]⟩
  | filled =>
    have hbrace : '\x7b' ∈ line := h.brace_mem (by simp [hkind]) (by simp [hkind])
    exact ⟨[], allIn line.tail, by simp [hbrace], by simp [hbrace]⟩
  | allAs =>
    exact ⟨listedIn line.tail ++ if line.contains '\x7b' then [] else singleIn line.tail, [],
      by simp, by simp⟩
  | single => exact ⟨listedIn line.tail, allIn line.tail, by simp, by simp⟩

theorem surrounded_eq_iff {α : Type} {as bs cs : List α} : as ++ bs ++ cs = bs ↔ as ++ cs = [] := by
  constructor
  · intro h
    have hlength := congrArg List.length h
    rw [List.length_append, List.length_append] at hlength
    rw [List.append_eq_nil_iff, ← List.length_eq_zero_iff, ← List.length_eq_zero_iff]
    omega
  · intro h
    obtain ⟨rfl, rfl⟩ := List.append_eq_nil_iff.mp h
    simp

/-- What an edge is given on a line that starts with an import of `found`. -/
structure GivesOwn (found : Binding) (line : List Char) (symbols : List String) : Prop where
  own_iff : symbols = found.names ↔
    strays found line = if isHidden found line then found.names else []
  mem_strays_iff : ∀ x, x ∈ strays found line ↔
    ∃ found', FirstBehind found' line ∧ found'.kind ≠ found.kind ∧
      isHidden found' line = false ∧ x ∈ found'.names
  own_iff_of_alone : (∀ found', ¬ Behind found' line) →
    (symbols = found.names ↔ isHidden found line = false)

theorem givesOwn_symbolsOf (h : Importing found line) :
    GivesOwn found line (symbolsOf line) := by
  obtain ⟨before, after, hstrays, hsymbols⟩ := symbolsOf_eq h
  have hiff : symbolsOf line = found.names ↔
      strays found line = if isHidden found line then found.names else [] := by
    rw [hstrays, hsymbols]
    split
    · rw [List.append_nil]
    · exact surrounded_eq_iff
  refine ⟨hiff, fun x => mem_strays_iff h, fun halone => ?_⟩
  have hnone : strays found line = [] := by
    rw [List.eq_nil_iff_forall_not_mem]
    intro x hx
    obtain ⟨found', hfirst, _⟩ := (mem_strays_iff h).mp hx
    exact halone found' hfirst.behind
  rw [hiff, hnone]
  cases hhidden : isHidden found line with
  | false => simp
  | true =>
    rw [isHidden, Bool.and_eq_true, decide_eq_true_eq] at hhidden
    obtain ⟨name, rfl⟩ := Binding.kind_eq_single_iff.mp hhidden.1
    simp [Binding.names]

end Own

/-- Each import is given its own names, but for a single name on a line with an opening brace, and
for those of further imports on the line; no other names stray in. -/
theorem own_symbols (path text : String) : ∃ imports, importsOf path text = imports.flatten ∧
    List.Forall₂ (fun line edges => (∀ e ∈ edges, e.line = line.2) ∧
      ∀ found s, ImportFormOf found s (strip line.1) →
        ∃ e rest, edges = e :: rest ∧ e.specifier.toList = s ∧
          GivesOwn found (strip line.1) e.symbols)
      ((splitOn '\n' text.toList).zipIdx 1) imports := by
  refine ⟨((splitOn '\n' text.toList).zipIdx 1).map fun l => lineImports path l.2 (strip l.1),
    ?_, ?_⟩
  · simp only [importsOf, numberedLines_eq_map, List.flatMap_def, List.map_map, Function.comp_def]
  · rw [List.forall₂_map_right_iff, List.forall₂_same]
    rintro ⟨raw, n⟩ _
    refine ⟨fun e he => ((importsOnLine_lineImports path n (strip raw)).origin e he).2.1, ?_⟩
    intro found s hform
    have hread : importLine? (strip raw) = some (found, s) := importLine?_eq_some_iff.mpr hform
    refine ⟨_, _, by rw [lineImports, hread]; rfl, by simp, ?_⟩
    exact givesOwn_symbolsOf hform.importing

/-- Names of a further import come in front of the own one, and a brace in a comment drops it. -/
theorem not_own_symbols :
    ImportFormOf (.allAs "b".toList) "./b".toList
      "import * as b from './b'; import \x7b a \x7d from './a'".toList ∧
    (importsOf "src/c.ts" "import * as b from './b'; import \x7b a \x7d from './a'").map
      (fun e => (e.line, e.specifier, e.symbols)) = [(1, "./b", ["a", "b"])] ∧
    Binding.names (.allAs "b".toList) = ["b"] ∧
    ImportFormOf (.single "x".toList) "./a".toList "import x from './a' // \x7b".toList ∧
    (importsOf "src/c.ts" "import x from './a' // \x7b").map
      (fun e => (e.line, e.specifier, e.symbols)) = [(1, "./a", [])] ∧
    Binding.names (.single "x".toList) = ["x"] := by
  refine ⟨importLine?_eq_some_iff.mp (by decide), by decide, by decide,
    importLine?_eq_some_iff.mp (by decide), by decide, by decide⟩

end Source

end ChangeImpact
