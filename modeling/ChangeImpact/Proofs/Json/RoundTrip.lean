import ChangeImpact.Proofs.Json.Layout

/-!
# Proofs.Json.RoundTrip

Reading undoes printing.

* `Value.Plain`         — a value without floats whose objects name no key twice.
* `Layout.value?_value` — such a value is read back from its text in any layout, whatever
  follows it.
* `parse?_pretty`, `parse?_inline` — and from its text alone.
-/

namespace ChangeImpact

namespace Value

mutual

def Plain : Value → Prop
  | .float _ => False
  | .list items => PlainItems items
  | .object fields => (fields.map (·.1)).Nodup ∧ PlainFields fields
  | _ => True

def PlainItems : List Value → Prop
  | [] => True
  | v :: rest => Plain v ∧ PlainItems rest

def PlainFields : List (String × Value) → Prop
  | [] => True
  | (_, v) :: rest => Plain v ∧ PlainFields rest

end

theorem plainItems_iff {items : List Value} : PlainItems items ↔ ∀ v ∈ items, Plain v := by
  induction items with
  | nil => simp [PlainItems]
  | cons v rest ih => simp [PlainItems, ih]

theorem setField_new {key : String} {v : Value} {fields : List (String × Value)}
    (h : key ∉ fields.map (·.1)) : setField key v fields = fields ++ [(key, v)] := by
  induction fields with
  | nil => rfl
  | cons f rest ih =>
    rw [List.map_cons, List.mem_cons, not_or] at h
    rw [setField, if_neg (Ne.symm h.1), ih h.2]
    rfl

theorem mem_names_setField {key k : String} {v : Value} {fields : List (String × Value)}
    (h : k ∈ (setField key v fields).map (·.1)) : k = key ∨ k ∈ fields.map (·.1) := by
  induction fields with
  | nil => exact .inl (by simpa [setField] using h)
  | cons f rest ih =>
    rw [setField] at h
    split at h
    · exact .inr h
    · rw [List.map_cons, List.mem_cons] at h ⊢
      rcases h with h | h
      · exact .inr (.inl h)
      · exact (ih h).imp_right .inr

theorem nodup_setField {fields : List (String × Value)} (h : (fields.map (·.1)).Nodup)
    (key : String) (v : Value) : ((setField key v fields).map (·.1)).Nodup := by
  induction fields with
  | nil => exact by simp [setField]
  | cons f rest ih =>
    obtain ⟨hnew, hrest⟩ := List.nodup_cons.mp h
    rw [setField]
    split
    · exact h
    · next hne =>
      refine List.nodup_cons.mpr ⟨fun hmem => ?_, ih hrest⟩
      rcases mem_names_setField hmem with he | hmem
      · exact hne he
      · exact hnew hmem

theorem plainFields_setField {fields : List (String × Value)} (h : PlainFields fields)
    (key : String) {v : Value} (hv : v.Plain) : PlainFields (setField key v fields) := by
  induction fields with
  | nil => exact ⟨hv, trivial⟩
  | cons f rest ih =>
    rw [setField]
    split
    · exact ⟨hv, h.2⟩
    · exact ⟨h.1, ih h.2⟩

/-- Fields that name no key twice are taken over as they stand. -/
theorem foldl_setField (fields : List (String × Value)) :
    ∀ seen : List (String × Value), ((seen ++ fields).map (·.1)).Nodup →
      fields.foldl (fun seen f => setField f.1 f.2 seen) seen = seen ++ fields := by
  induction fields with
  | nil => simp
  | cons f rest ih =>
    intro seen h
    have hnew : f.1 ∉ seen.map (·.1) := by
      rw [List.map_append, List.map_cons, List.nodup_append] at h
      intro hm
      exact h.2.2 f.1 hm f.1 List.mem_cons_self rfl
    rw [List.append_cons] at h ⊢
    rw [List.foldl_cons, setField_new hnew, ih _ h]

end Value

namespace Json

open Value

/-! ## How much fuel a value takes -/

mutual

def weight : Value → Nat
  | .list items => 1 + weightItems items
  | .object fields => 1 + weightFields fields
  | _ => 1

def weightItems : List Value → Nat
  | [] => 0
  | v :: rest => 1 + weight v + weightItems rest

def weightFields : List (String × Value) → Nat
  | [] => 0
  | (_, v) :: rest => 1 + weight v + weightFields rest

end

theorem length_stringLit (escape : Char → List Char) (s : String) :
    2 ≤ (stringLit escape s).length := by
  simp [stringLit]

theorem length_integer (n : Int) : 1 ≤ (Text.integer n).toList.length := by
  cases n with
  | ofNat m =>
    obtain ⟨c, cs, h, _⟩ := natural_cons m
    simp [Text.integer, h]
  | negSucc m => simp [Text.integer]

namespace Layout

variable (l : Layout)

mutual

theorem weight_le_length : ∀ (depth : Nat) (v : Value), v.Plain →
    weight v ≤ (l.value depth v).length
  | _, .null, _ => by simp [weight, value]
  | _, .bool b, _ => by cases b <;> simp [weight, value, keyword]
  | _, .int n, _ => by
    have := length_integer n
    simpa [weight, value] using this
  | _, .float x, h => h.elim
  | _, .text s, _ => by
    have := length_stringLit l.escape s
    simp only [weight, value]
    omega
  | _, .list [], _ => by simp [weight, weightItems, value]
  | depth, .list (v :: rest), h => by
    have hv := weight_le_length (depth + 1) v h.1
    have hrest := weightItems_le_length (depth + 1) rest h.2
    simp only [weight, weightItems, value, List.length_cons, List.length_append, List.length_nil]
    omega
  | _, .object [], _ => by simp [weight, weightFields, value]
  | depth, .object ((k, v) :: rest), h => by
    have hv := weight_le_length (depth + 1) v h.2.1
    have hrest := weightFields_le_length (depth + 1) rest h.2.2
    simp only [weight, weightFields, value, List.length_cons, List.length_append,
      List.length_nil]
    omega

theorem weightItems_le_length : ∀ (depth : Nat) (items : List Value), PlainItems items →
    weightItems items ≤ (l.laterItems depth items).length
  | _, [], _ => Nat.zero_le _
  | depth, v :: rest, h => by
    have hv := weight_le_length depth v h.1
    have hrest := weightItems_le_length depth rest h.2
    simp only [weightItems, laterItems, List.length_cons, List.length_append]
    omega

theorem weightFields_le_length : ∀ (depth : Nat) (fields : List (String × Value)),
    PlainFields fields → weightFields fields ≤ (l.laterFields depth fields).length
  | _, [], _ => Nat.zero_le _
  | depth, (k, v) :: rest, h => by
    have hv := weight_le_length depth v h.1
    have hrest := weightFields_le_length depth rest h.2
    simp only [weightFields, laterFields, List.length_cons, List.length_append]
    omega

end

end Layout

/-! ## Scalars -/

/-- How the text of a value begins. -/
structure Opens (c : Char) : Prop where
  notSpace : isSpace c = false
  notEnd : c ≠ ']'

theorem ne_of_isDigit {c d : Char} (h : isDigit c = true) (hd : isDigit d = false) : c ≠ d := by
  rintro rfl
  rw [h] at hd
  cases hd

theorem opens_of_isDigit {c : Char} (h : isDigit c = true) : Opens c where
  notSpace := by
    simp [isSpace, ne_of_isDigit h (d := ' ') rfl, ne_of_isDigit h (d := '\n') rfl,
      ne_of_isDigit h (d := '\r') rfl, ne_of_isDigit h (d := '\t') rfl]
  notEnd := ne_of_isDigit h rfl

theorem Layout.value_opens (l : Layout) (depth : Nat) : ∀ v : Value, v.Plain →
    ∃ c s, l.value depth v = c :: s ∧ Opens c
  | .null, _ => ⟨'n', _, rfl, rfl, by decide⟩
  | .bool true, _ => ⟨'t', _, rfl, rfl, by decide⟩
  | .bool false, _ => ⟨'f', _, rfl, rfl, by decide⟩
  | .int (.ofNat n), _ => by
    obtain ⟨c, cs, h, hd, _⟩ := natural_cons n
    exact ⟨c, cs, by simp [Layout.value, Text.integer, h], opens_of_isDigit hd⟩
  | .int (.negSucc n), _ => ⟨'-', Text.natural (n + 1), by simp [Layout.value, Text.integer],
      rfl, by decide⟩
  | .float _, h => h.elim
  | .text _, _ => ⟨'"', _, rfl, rfl, by decide⟩
  | .list [], _ => ⟨'[', _, rfl, rfl, by decide⟩
  | .list (_ :: _), _ => ⟨'[', _, rfl, rfl, by decide⟩
  | .object [], _ => ⟨'\x7b', _, rfl, rfl, by decide⟩
  | .object ((_, _) :: _), _ => ⟨'\x7b', _, rfl, rfl, by decide⟩

theorem value?_scalar {c : Char} (hl : c ≠ '[') (ho : c ≠ '\x7b') (fuel : Nat) (s : List Char) :
    value? (fuel + 1) (c :: s) = scalar? (c :: s) := by
  rw [value?.eq_def]
  split
  · next h => cases h
  · next h => exact absurd (List.cons.inj h).1 hl
  · next h => exact absurd (List.cons.inj h).1 ho
  · rfl

/-- Digits begin no other scalar than a number. -/
theorem scalar?_digit {c : Char} (h : isDigit c = true) (s : List Char) :
    scalar? (c :: s) = unsigned? false (c :: s) := by
  unfold scalar?
  split
  all_goals first
    | rfl
    | next h' =>
      rw [(List.cons.inj h').1] at h
      cases h

theorem scalar?_minus {c : Char} (h : isDigit c = true) (s : List Char) :
    scalar? ('-' :: c :: s) = unsigned? true (c :: s) := by
  have hi : c ≠ 'I' := ne_of_isDigit h rfl
  simp [scalar?, hi]

theorem value?_integer (n : Int) (fuel : Nat) {r : List Char} (hr : NumberEnds r) :
    value? (fuel + 1) ((Text.integer n).toList ++ r) = some (.int n, r) := by
  cases n with
  | ofNat m =>
    obtain ⟨c, cs, h, hd, _⟩ := natural_cons m
    have hread := unsigned?_natural false m hr
    rw [Text.integer, String.toList_ofList]
    rw [h, List.cons_append] at hread ⊢
    rw [value?_scalar (ne_of_isDigit hd rfl) (ne_of_isDigit hd rfl), scalar?_digit hd, hread]
    rfl
  | negSucc m =>
    obtain ⟨c, cs, h, hd, _⟩ := natural_cons (m + 1)
    have hread := unsigned?_natural true (m + 1) hr
    rw [Text.integer, String.toList_ofList]
    rw [h] at hread ⊢
    rw [List.cons_append, value?_scalar (by decide) (by decide), List.cons_append,
      scalar?_minus hd]
    exact hread

namespace Layout

variable (l : Layout)

theorem stringBody?_escaped (s rest : List Char) :
    stringBody? (s.flatMap l.escape ++ '"' :: rest) = some (s, rest) := by
  induction s with
  | nil => rfl
  | cons c s ih =>
    rw [List.flatMap_cons, List.append_assoc, l.reads, ih]
    rfl

theorem stringLit_append (s : String) (r : List Char) :
    stringLit l.escape s ++ r = '"' :: (s.toList.flatMap l.escape ++ '"' :: r) := by
  simp [stringLit]

theorem value?_text (s : String) (fuel : Nat) (r : List Char) :
    value? (fuel + 1) (stringLit l.escape s ++ r) = some (.text s, r) := by
  rw [stringLit_append, value?_scalar (by decide) (by decide)]
  simp [scalar?, stringBody?_escaped]

/-! ## Values -/

theorem numberEnds_gap {gap : List Char} (hgap : ∀ c ∈ gap, isSpace c = true) {c : Char}
    (hc : isDigit c = false ∧ c ≠ '.' ∧ c ≠ 'e' ∧ c ≠ 'E') (r : List Char) :
    NumberEnds (gap ++ c :: r) := by
  cases gap with
  | nil => exact numberEnds_cons hc
  | cons d gap =>
    have hd := hgap d List.mem_cons_self
    simp only [isSpace, Bool.or_eq_true, decide_eq_true_eq] at hd
    rcases hd with ((rfl | rfl) | rfl) | rfl <;> exact numberEnds_cons (by decide)

theorem numberEnds_items (depth below : Nat) (items : List Value) (r : List Char) :
    NumberEnds (l.laterItems depth items ++ (l.closing below ++ ']' :: r)) := by
  cases items with
  | nil => exact numberEnds_gap (l.blank_closing below) (by decide) r
  | cons v rest => exact numberEnds_cons (by decide)

theorem numberEnds_fields (depth below : Nat) (fields : List (String × Value)) (r : List Char) :
    NumberEnds (l.laterFields depth fields ++ (l.closing below ++ '\x7d' :: r)) := by
  cases fields with
  | nil => exact numberEnds_gap (l.blank_closing below) (by decide) r
  | cons f rest => exact numberEnds_cons (by decide)

/-- A list that is not empty starts with an item. -/
theorem value?_list {c : Char} (h : Opens c) (fuel depth : Nat) (s : List Char) :
    value? (fuel + 1) ('[' :: (l.opening depth ++ c :: s)) =
      (items? fuel (c :: s)).map fun (vs, rest) => (.list vs, rest) := by
  rw [value?, skipSpace_append (l.blank_opening depth) h.notSpace]
  split
  · next h' => exact absurd (List.cons.inj h').1 h.notEnd
  · rfl

theorem value?_object (fuel depth : Nat) (s : List Char) :
    value? (fuel + 1) ('\x7b' :: (l.opening depth ++ '"' :: s)) =
      (fields? fuel ('"' :: s)).map fun (fs, rest) =>
        (.object (fs.foldl (fun seen f => Value.setField f.1 f.2 seen) []), rest) := by
  rw [value?, skipSpace_append (l.blank_opening depth) (by decide)]
  rfl

/-- The last item of a list. -/
theorem items?_last {fuel depth : Nat} {v : Value} {s r : List Char}
    (h : value? fuel s = some (v, l.closing depth ++ ']' :: r)) :
    items? (fuel + 1) s = some ([v], r) := by
  rw [items?, h]
  simp only [skipSpace_append (l.blank_closing depth) (show isSpace ']' = false by decide)]

/-- An item with others after it. -/
theorem items?_more {fuel depth : Nat} {v : Value} {c : Char} {s r : List Char}
    (hc : isSpace c = false) (h : value? fuel s = some (v, ',' :: (l.between depth ++ c :: r))) :
    items? (fuel + 1) s = (items? fuel (c :: r)).map fun (vs, rest) => (v :: vs, rest) := by
  rw [items?, h]
  simp only [skipSpace_cons (show isSpace ',' = false by decide),
    skipSpace_append (l.blank_between depth) hc]
  cases items? fuel (c :: r) <;> rfl

theorem fields?_last {fuel depth : Nat} (key : String) {v : Value} {c : Char} {s r : List Char}
    (hc : isSpace c = false)
    (h : value? fuel (c :: s) = some (v, l.closing depth ++ '\x7d' :: r)) :
    fields? (fuel + 1) (stringLit l.escape key ++ ':' :: ' ' :: c :: s) =
      some ([(key, v)], r) := by
  rw [stringLit_append, fields?, stringBody?_escaped]
  simp only [skipSpace_cons (show isSpace ':' = false by decide),
    show skipSpace (' ' :: c :: s) = skipSpace (c :: s) from rfl, skipSpace_cons hc, h,
    skipSpace_append (l.blank_closing depth) (show isSpace '\x7d' = false by decide),
    String.ofList_toList]

theorem fields?_more {fuel depth : Nat} (key : String) {v : Value} {c : Char} {s r : List Char}
    (hc : isSpace c = false)
    (h : value? fuel (c :: s) = some (v, ',' :: (l.between depth ++ '"' :: r))) :
    fields? (fuel + 1) (stringLit l.escape key ++ ':' :: ' ' :: c :: s) =
      (fields? fuel ('"' :: r)).map fun (fs, rest) => ((key, v) :: fs, rest) := by
  rw [stringLit_append, fields?, stringBody?_escaped]
  simp only [skipSpace_cons (show isSpace ':' = false by decide),
    show skipSpace (' ' :: c :: s) = skipSpace (c :: s) from rfl, skipSpace_cons hc, h,
    skipSpace_cons (show isSpace ',' = false by decide),
    skipSpace_append (l.blank_between depth) (show isSpace '"' = false by decide),
    String.ofList_toList]
  cases fields? fuel ('"' :: r) <;> rfl

/-- Items one of which at least there is. -/
def items (depth : Nat) : List Value → List Char
  | [] => []
  | v :: rest => l.value depth v ++ l.laterItems depth rest

def fields (depth : Nat) : List (String × Value) → List Char
  | [] => []
  | (k, v) :: rest =>
    stringLit l.escape k ++ ':' :: ' ' :: (l.value depth v ++ l.laterFields depth rest)

theorem laterItems_cons (depth : Nat) (v : Value) (rest : List Value) :
    l.laterItems depth (v :: rest) = ',' :: (l.between depth ++ l.items depth (v :: rest)) := rfl

theorem laterFields_cons (depth : Nat) (f : String × Value) (rest : List (String × Value)) :
    l.laterFields depth (f :: rest) = ',' :: (l.between depth ++ l.fields depth (f :: rest)) :=
  rfl

/-- The first of some items starts with no blank. -/
theorem items_opens (depth : Nat) {v : Value} (h : v.Plain) (rest : List Value) (r : List Char) :
    ∃ c s, l.items depth (v :: rest) ++ r = c :: s ∧ Opens c := by
  obtain ⟨c, s, hs, hc⟩ := l.value_opens depth v h
  exact ⟨c, _, by rw [items, hs]; rfl, hc⟩

theorem fields_opens (depth : Nat) (f : String × Value) (rest : List (String × Value))
    (r : List Char) : ∃ s, l.fields depth (f :: rest) ++ r = '"' :: s :=
  ⟨_, rfl⟩

mutual

/-- A value is read back from its text, whatever follows. -/
theorem value?_value : ∀ (depth : Nat) (v : Value) (fuel : Nat) (r : List Char), v.Plain →
    weight v ≤ fuel → NumberEnds r → value? fuel (l.value depth v ++ r) = some (v, r)
  | _, .null, fuel + 1, _, _, _, _ => value?_scalar (by decide) (by decide) fuel _
  | _, .bool true, fuel + 1, _, _, _, _ => value?_scalar (by decide) (by decide) fuel _
  | _, .bool false, fuel + 1, _, _, _, _ => value?_scalar (by decide) (by decide) fuel _
  | _, .int n, fuel + 1, _, _, _, hr => value?_integer n fuel hr
  | _, .float _, _, _, h, _, _ => h.elim
  | _, .text s, fuel + 1, r, _, _, _ => l.value?_text s fuel r
  | _, .list [], fuel + 1, _, _, _, _ => by
    rw [value, List.cons_append, value?, List.cons_append, skipSpace_cons (by decide)]
    rfl
  | depth, .list (v :: rest), fuel + 1, r, h, hw, _ => by
    have hitems := items?_items (depth + 1) depth (v :: rest) fuel r (by simp) h
      (by simp only [weight] at hw; omega)
    obtain ⟨c, s, hs, hc⟩ := l.items_opens (depth + 1) h.1 rest (l.closing depth ++ ']' :: r)
    have htext : l.value depth (.list (v :: rest)) ++ r = '[' :: (l.opening depth ++ c :: s) := by
      rw [← hs]
      simp [value, items]
    rw [hs] at hitems
    rw [htext, value?_list l hc, hitems]
    rfl
  | _, .list (_ :: _), 0, _, _, hw, _ => absurd hw (by simp [weight])
  | _, .object [], fuel + 1, _, _, _, _ => by
    rw [value, List.cons_append, value?, List.cons_append, skipSpace_cons (by decide)]
    rfl
  | depth, .object ((k, v) :: rest), fuel + 1, r, h, hw, _ => by
    have hfields := fields?_fields (depth + 1) depth ((k, v) :: rest) fuel r (by simp) h.2
      (by simp only [weight] at hw; omega)
    obtain ⟨s, hs⟩ := l.fields_opens (depth + 1) (k, v) rest (l.closing depth ++ '\x7d' :: r)
    have htext : l.value depth (.object ((k, v) :: rest)) ++ r =
        '\x7b' :: (l.opening depth ++ '"' :: s) := by
      rw [← hs]
      simp [value, fields]
    rw [hs] at hfields
    rw [htext, value?_object l, hfields]
    simp only [Option.map_some, foldl_setField _ [] h.1, List.nil_append]
  | _, .object ((_, _) :: _), 0, _, _, hw, _ => absurd hw (by simp [weight])

theorem items?_items : ∀ (depth below : Nat) (vs : List Value) (fuel : Nat) (r : List Char),
    vs ≠ [] → PlainItems vs → weightItems vs ≤ fuel →
    items? fuel (l.items depth vs ++ (l.closing below ++ ']' :: r)) = some (vs, r)
  | depth, below, [v], fuel + 1, r, _, h, hw => by
    have hv := value?_value depth v fuel (l.closing below ++ ']' :: r) h.1
      (by simp only [weightItems] at hw; omega) (l.numberEnds_items depth below [] r)
    simp only [items, laterItems, List.append_nil]
    exact items?_last l hv
  | depth, below, v :: w :: rest, fuel + 1, r, _, h, hw => by
    have hrest := items?_items depth below (w :: rest) fuel r (by simp) h.2
      (by simp only [weightItems] at hw ⊢; omega)
    have hv := value?_value depth v fuel
      (l.laterItems depth (w :: rest) ++ (l.closing below ++ ']' :: r)) h.1
      (by simp only [weightItems] at hw; omega) (l.numberEnds_items depth below _ r)
    obtain ⟨c, s, hs, hc⟩ := l.items_opens depth h.2.1 rest (l.closing below ++ ']' :: r)
    rw [laterItems_cons, List.cons_append, List.append_assoc, hs] at hv
    rw [hs] at hrest
    rw [items, laterItems_cons, List.append_assoc, List.cons_append, List.append_assoc, hs,
      items?_more l hc.notSpace hv, hrest]
    rfl
  | _, _, _ :: _, 0, _, _, _, hw => absurd hw (by simp [weightItems])

theorem fields?_fields : ∀ (depth below : Nat) (fs : List (String × Value)) (fuel : Nat)
    (r : List Char), fs ≠ [] → PlainFields fs → weightFields fs ≤ fuel →
    fields? fuel (l.fields depth fs ++ (l.closing below ++ '\x7d' :: r)) = some (fs, r)
  | depth, below, [(k, v)], fuel + 1, r, _, h, hw => by
    have hv := value?_value depth v fuel (l.closing below ++ '\x7d' :: r) h.1
      (by simp only [weightFields] at hw; omega) (l.numberEnds_fields depth below [] r)
    obtain ⟨c, s, hs, hc⟩ := l.value_opens depth v h.1
    rw [hs] at hv
    simp only [fields, laterFields, hs, List.append_nil, List.cons_append, List.append_assoc]
    exact fields?_last l k hc.notSpace hv
  | depth, below, (k, v) :: g :: rest, fuel + 1, r, _, h, hw => by
    have hrest := fields?_fields depth below (g :: rest) fuel r (by simp) h.2
      (by simp only [weightFields] at hw ⊢; omega)
    have hv := value?_value depth v fuel
      (l.laterFields depth (g :: rest) ++ (l.closing below ++ '\x7d' :: r)) h.1
      (by simp only [weightFields] at hw; omega) (l.numberEnds_fields depth below _ r)
    obtain ⟨c, s, hs, hc⟩ := l.value_opens depth v h.1
    obtain ⟨t, ht⟩ := l.fields_opens depth g rest (l.closing below ++ '\x7d' :: r)
    rw [laterFields_cons, List.cons_append, List.append_assoc, ht, hs, List.cons_append] at hv
    rw [ht] at hrest
    have hmore := fields?_more l k hc.notSpace hv
    rw [hrest, Option.map_some] at hmore
    rw [fields, laterFields_cons]
    simpa only [hs, List.cons_append, List.append_assoc, ht] using hmore
  | _, _, (_, _) :: _, 0, _, _, _, hw => absurd hw (by simp [weightFields])

end

theorem parse?_value {v : Value} (h : v.Plain) : parse? (.ofList (l.value 0 v)) = some v := by
  have hfuel := l.weight_le_length 0 v h
  obtain ⟨c, s, hs, hc⟩ := l.value_opens 0 v h
  have hread := l.value?_value 0 v ((l.value 0 v).length + 1) [] h (by omega) numberEnds_nil
  rw [List.append_nil] at hread
  have hskip : skipSpace (l.value 0 v) = l.value 0 v := by
    rw [hs]
    exact skipSpace_cons hc.notSpace s
  simp only [parse?, String.toList_ofList, hskip, hread]
  rfl

end Layout

/-- Reading undoes printing. -/
theorem parse?_pretty {v : Value} (h : v.Plain) : parse? (pretty v) = some v := by
  rw [pretty, Layout.prettyAt_eq]
  exact Layout.spread.parse?_value h

theorem parse?_inline {v : Value} (h : v.Plain) : parse? (inline v) = some v := by
  rw [inline, Layout.inlineChars_eq 0]
  exact Layout.oneLine.parse?_value h

end Json

end ChangeImpact
