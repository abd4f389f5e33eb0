/-!
# Keyed

A map from texts that remembers the order in which its keys were first entered.

* `Keyed`        — entries in order, no key twice.
* `Keyed.insert` — replaces the value of a key in place, or enters a new key at the end.
* `Keyed.mapValues`, `Keyed.erase`, `Keyed.get?`, `Keyed.keys`, `Keyed.ofList`.
* `Keyed.total`  — a number of each value, added up.
-/

namespace ChangeImpact

structure Keyed (α : Type) where
  entries : List (String × α)
  nodup : (entries.map Prod.fst).Nodup

namespace Keyed

variable {α β : Type}

theorem ext_entries {m m' : Keyed α} (h : m.entries = m'.entries) : m = m' := by
  cases m
  cases m'
  cases h
  rfl

def empty : Keyed α := ⟨[], .nil⟩

instance : Inhabited (Keyed α) := ⟨empty⟩

def keys (m : Keyed α) : List String := m.entries.map Prod.fst

def values (m : Keyed α) : List α := m.entries.map (·.2)

def size (m : Keyed α) : Nat := m.entries.length

def total (f : α → Nat) (m : Keyed α) : Nat := m.entries.foldr (fun e n => f e.2 + n) 0

def getIn (key : String) : List (String × α) → Option α
  | [] => none
  | (k, v) :: rest => if k = key then some v else getIn key rest

def get? (m : Keyed α) (key : String) : Option α := getIn key m.entries

def contains (m : Keyed α) (key : String) : Bool := (m.get? key).isSome

def putIn (key : String) (value : α) : List (String × α) → List (String × α)
  | [] => [(key, value)]
  | (k, v) :: rest => if k = key then (k, value) :: rest else (k, v) :: putIn key value rest

theorem keys_putIn (key : String) (value : α) (es : List (String × α)) :
    (putIn key value es).map Prod.fst =
      if key ∈ es.map Prod.fst then es.map Prod.fst else es.map Prod.fst ++ [key] := by
  induction es with
  | nil => rfl
  | cons e rest ih =>
    obtain ⟨k, v⟩ := e
    by_cases h : k = key
    · simp [putIn, h]
    · have h' : key ≠ k := fun hk => h hk.symm
      simp only [putIn, if_neg h, List.map_cons, ih, List.mem_cons, h', false_or]
      split <;> rfl

theorem nodup_putIn (key : String) (value : α) {es : List (String × α)}
    (h : (es.map Prod.fst).Nodup) : ((putIn key value es).map Prod.fst).Nodup := by
  rw [keys_putIn]
  split
  · exact h
  · next hk =>
    rw [List.nodup_append]
    refine ⟨h, by simp, ?_⟩
    intro a ha b hb
    rw [List.mem_singleton] at hb
    subst hb
    intro hab
    exact hk (hab ▸ ha)

def insert (m : Keyed α) (key : String) (value : α) : Keyed α :=
  ⟨putIn key value m.entries, nodup_putIn key value m.nodup⟩

def erase (m : Keyed α) (key : String) : Keyed α :=
  ⟨m.entries.filter fun e => e.1 != key,
    (List.filter_sublist.map Prod.fst).nodup m.nodup⟩

/-- Values computed from key and value; the keys stay as they are. -/
def mapValues (f : String → α → β) (m : Keyed α) : Keyed β :=
  ⟨m.entries.map fun e => (e.1, f e.1 e.2), by
    have h : (m.entries.map fun e => (e.1, f e.1 e.2)).map Prod.fst = m.entries.map Prod.fst := by
      simp [List.map_map, Function.comp_def]
    rw [h]
    exact m.nodup⟩

/-- The entries with a value under `f`, which is kept in place of theirs. -/
def filterMap (f : String → α → Option β) (m : Keyed α) : Keyed β :=
  ⟨m.entries.filterMap fun e => (f e.1 e.2).map fun v => (e.1, v), by
    have h : ∀ es : List (String × α),
        ((es.filterMap fun e => (f e.1 e.2).map fun v => (e.1, v)).map Prod.fst).Sublist
          (es.map Prod.fst) := by
      intro es
      induction es with
      | nil => exact .slnil
      | cons e rest ih =>
        cases hf : f e.1 e.2 with
        | none => simpa [List.filterMap_cons, hf] using ih.cons e.1
        | some v => simpa [List.filterMap_cons, hf] using ih.cons_cons e.1
    exact (h m.entries).nodup m.nodup⟩

/-- A repeated key keeps its first place and takes its last value. -/
def ofList (es : List (String × α)) : Keyed α :=
  es.foldl (fun m e => m.insert e.1 e.2) empty

theorem getIn_putIn (key k : String) (value : α) (es : List (String × α)) :
    getIn k (putIn key value es) = if key = k then some value else getIn k es := by
  induction es with
  | nil => rfl
  | cons e rest ih =>
    obtain ⟨k', v⟩ := e
    by_cases h : k' = key
    · subst h
      by_cases hk : k' = k <;> simp [putIn, getIn, hk]
    · by_cases hk : k' = k
      · subst hk
        simp [putIn, getIn, h, Ne.symm h]
      · simp [putIn, getIn, h, hk, ih]

theorem getIn_eq_some_iff {es : List (String × α)} (h : (es.map Prod.fst).Nodup) {k : String}
    {v : α} : getIn k es = some v ↔ (k, v) ∈ es := by
  induction es with
  | nil => simp [getIn]
  | cons e rest ih =>
    obtain ⟨k', w⟩ := e
    rw [List.map_cons, List.nodup_cons] at h
    by_cases hk : k' = k
    · subst hk
      have hv : (k', v) ∉ rest := fun hm => h.1 (List.mem_map.mpr ⟨(k', v), hm, rfl⟩)
      simp [getIn, hv, eq_comm]
    · have hk' : k ≠ k' := fun he => hk he.symm
      simp [getIn, hk, hk', ih h.2]

@[simp] theorem get?_empty (k : String) : (empty : Keyed α).get? k = none := rfl

@[simp] theorem get?_insert (m : Keyed α) (key k : String) (value : α) :
    (m.insert key value).get? k = if key = k then some value else m.get? k :=
  getIn_putIn key k value m.entries

theorem get?_eq_some_iff (m : Keyed α) {k : String} {v : α} :
    m.get? k = some v ↔ (k, v) ∈ m.entries := getIn_eq_some_iff m.nodup

theorem keys_insert (m : Keyed α) (key : String) (value : α) :
    (m.insert key value).keys = if key ∈ m.keys then m.keys else m.keys ++ [key] :=
  keys_putIn key value m.entries

theorem keys_erase (m : Keyed α) (key : String) :
    (m.erase key).keys = m.keys.filter (· != key) := by
  rw [keys, erase, keys, List.filter_map]
  rfl

theorem mem_keys_iff (m : Keyed α) {k : String} : k ∈ m.keys ↔ m.contains k = true := by
  have aux : ∀ es : List (String × α), k ∈ es.map Prod.fst ↔ (getIn k es).isSome = true := by
    intro es
    induction es with
    | nil => simp [getIn]
    | cons e rest ih =>
      obtain ⟨k', v⟩ := e
      by_cases hk : k' = k
      · simp [getIn, hk]
      · have hk' : k ≠ k' := fun he => hk he.symm
        simp only [List.map_cons, List.mem_cons, hk', false_or, getIn, if_neg hk]
        exact ih
  exact aux m.entries

@[simp] theorem get?_erase (m : Keyed α) (key k : String) :
    (m.erase key).get? k = if key = k then none else m.get? k := by
  have aux : ∀ es : List (String × α),
      getIn k (es.filter fun e => e.1 != key) = if key = k then none else getIn k es := by
    intro es
    induction es with
    | nil => simp [getIn]
    | cons e rest ih =>
      obtain ⟨k', v⟩ := e
      by_cases h : k' = key
      · subst h
        by_cases hk : k' = k
        · subst hk
          simpa using ih
        · simp [getIn, hk, ih]
      · by_cases hk : k' = k
        · subst hk
          simp [getIn, h, Ne.symm h]
        · simp [getIn, h, hk, ih]
  exact aux m.entries

@[simp] theorem get?_mapValues (f : String → α → β) (m : Keyed α) (k : String) :
    (m.mapValues f).get? k = (m.get? k).map (f k) := by
  have aux : ∀ es : List (String × α),
      getIn k (es.map fun e => (e.1, f e.1 e.2)) = (getIn k es).map (f k) := by
    intro es
    induction es with
    | nil => rfl
    | cons e rest ih =>
      obtain ⟨k', v⟩ := e
      by_cases hk : k' = k
      · subst hk
        simp [getIn]
      · simp [getIn, hk, ih]
  exact aux m.entries

theorem mem_filterMap_entries (f : String → α → Option β) (m : Keyed α) {k : String} {w : β} :
    (k, w) ∈ (m.filterMap f).entries ↔ ∃ v, (k, v) ∈ m.entries ∧ f k v = some w := by
  simp only [filterMap, List.mem_filterMap, Option.map_eq_some_iff, Prod.mk.injEq]
  constructor
  · rintro ⟨⟨k', v⟩, hm, w', hf, rfl, rfl⟩
    exact ⟨v, hm, hf⟩
  · rintro ⟨v, hm, hf⟩
    exact ⟨(k, v), hm, w, hf, rfl, rfl⟩

theorem get?_filterMap (f : String → α → Option β) (m : Keyed α) (k : String) :
    (m.filterMap f).get? k = (m.get? k).bind (f k) := by
  apply Option.ext
  intro w
  rw [get?_eq_some_iff, mem_filterMap_entries, Option.bind_eq_some_iff]
  constructor
  · rintro ⟨v, hm, hf⟩
    exact ⟨v, (get?_eq_some_iff m).mpr hm, hf⟩
  · rintro ⟨v, hm, hf⟩
    exact ⟨v, (get?_eq_some_iff m).mp hm, hf⟩

@[simp] theorem keys_mapValues (f : String → α → β) (m : Keyed α) :
    (m.mapValues f).keys = m.keys := by
  simp [mapValues, keys, List.map_map, Function.comp_def]

end Keyed

end ChangeImpact
