import ChangeImpact.Proofs.Settings.Coercion

/-!
# Proofs.Settings.Tables

Tables of settings up to the order of their fields, and the changes made to them.

* `Value.sorted`       — a value with the fields of all objects in it by key.
* `Value.SameField`    — two lists of fields have the same under a key, up to that order.
* `Settings.SameTable` — the same table, up to the order of fields outside the settings.
* `Settings.ReadsBack` — a table that is read again where its text is read.
* `putSetting_eq`, `scanFields_dropField` — what the two changes of a table do to its section.
-/

namespace ChangeImpact

namespace Value

/-! ## Values that are the same -/

mutual

def same : Value → Value → Bool
  | .null, .null => true
  | .bool a, .bool b => a == b
  | .int m, .int n => m == n
  | .float x, .float y => x == y
  | .text s, .text t => s == t
  | .list vs, .list ws => sameItems vs ws
  | .object fs, .object gs => sameFields fs gs
  | _, _ => false

def sameItems : List Value → List Value → Bool
  | [], [] => true
  | v :: vs, w :: ws => same v w && sameItems vs ws
  | _, _ => false

def sameFields : List (String × Value) → List (String × Value) → Bool
  | [], [] => true
  | (k, v) :: fs, (l, w) :: gs => k == l && same v w && sameFields fs gs
  | _, _ => false

end

mutual

theorem same_iff : ∀ v w : Value, same v w = true ↔ v = w
  | .null, w => by cases w <;> simp [same]
  | .bool a, w => by cases w <;> simp [same]
  | .int m, w => by cases w <;> simp [same]
  | .float x, w => by cases w <;> simp [same]
  | .text s, w => by cases w <;> simp [same]
  | .list vs, w => by cases w <;> simp [same, sameItems_iff vs]
  | .object fs, w => by cases w <;> simp [same, sameFields_iff fs]

theorem sameItems_iff : ∀ vs ws : List Value, sameItems vs ws = true ↔ vs = ws
  | [], ws => by cases ws <;> simp [sameItems]
  | v :: vs, ws => by cases ws <;> simp [sameItems, same_iff v, sameItems_iff vs]

theorem sameFields_iff : ∀ fs gs : List (String × Value), sameFields fs gs = true ↔ fs = gs
  | [], gs => by cases gs <;> simp [sameFields]
  | (k, v) :: fs, gs => by
    cases gs <;> simp [sameFields, same_iff v, sameFields_iff fs, Prod.ext_iff]

end

instance : DecidableEq Value := fun v w => decidable_of_iff (same v w = true) (same_iff v w)

/-! ## The order of fields -/

/-- A field put in front of the first one whose key is not less. -/
def insertField (key : String) (value : Value) : List (String × Value) → List (String × Value)
  | [] => [(key, value)]
  | (k, v) :: rest =>
    if k < key then (k, v) :: insertField key value rest else (key, value) :: (k, v) :: rest

mutual

def sorted : Value → Value
  | .list items => .list (sortedItems items)
  | .object fields => .object (sortedFields fields)
  | v => v

def sortedItems : List Value → List Value
  | [] => []
  | v :: rest => sorted v :: sortedItems rest

def sortedFields : List (String × Value) → List (String × Value)
  | [] => []
  | (k, v) :: rest => insertField k (sorted v) (sortedFields rest)

end

theorem field?_insertField (key k : String) (value : Value) (fields : List (String × Value)) :
    field? k (insertField key value fields) = if key = k then some value else field? k fields := by
  induction fields with
  | nil => rfl
  | cons f rest ih =>
    obtain ⟨k', v⟩ := f
    rw [insertField]
    split
    · next hless =>
      have hne : k' ≠ key := fun he => String.lt_irrefl key (he ▸ hless)
      by_cases hk : k' = k
      · subst hk
        simp [field?, Ne.symm hne]
      · simp [field?, hk, ih]
    · rfl

theorem field?_sortedFields (k : String) (fields : List (String × Value)) :
    field? k (sortedFields fields) = (field? k fields).map sorted := by
  induction fields with
  | nil => rfl
  | cons f rest ih =>
    obtain ⟨k', v⟩ := f
    rw [sortedFields, field?_insertField, ih, field?]
    split <;> rfl

@[simp] theorem field?_dropField (key k : String) (fields : List (String × Value)) :
    field? k (dropField key fields) = if key = k then none else field? k fields := by
  induction fields with
  | nil => simp [dropField, field?]
  | cons f rest ih =>
    obtain ⟨k', v⟩ := f
    rw [dropField] at ih ⊢
    by_cases h : k' = key
    · subst h
      by_cases hk : k' = k
      · subst hk
        simpa using ih
      · simp [field?, hk, ih]
    · by_cases hk : k' = k
      · subst hk
        simp [field?, h, Ne.symm h]
      · simp [field?, h, hk, ih]

/-- Under a key stands the same, or nothing in both. -/
def SameField (k : String) (fields fields' : List (String × Value)) : Prop :=
  (field? k fields).map sorted = (field? k fields').map sorted

theorem sameField_of_sorted {fields fields' : List (String × Value)}
    (h : (object fields).sorted = (object fields').sorted) (k : String) :
    SameField k fields fields' := by
  have hfields : sortedFields fields = sortedFields fields' := by
    simpa only [sorted, object.injEq] using h
  rw [SameField, ← field?_sortedFields, ← field?_sortedFields, hfields]

theorem exists_fields_of_sorted {v : Value} {fields : List (String × Value)}
    (h : v.sorted = (object fields).sorted) : ∃ fields', v = .object fields' := by
  cases v with
  | object fields' => exact ⟨fields', rfl⟩
  | null => simp [sorted] at h
  | bool b => simp [sorted] at h
  | int n => simp [sorted] at h
  | float x => simp [sorted] at h
  | text s => simp [sorted] at h
  | list items => simp [sorted] at h

end Value

namespace Settings

open Value (field? setField dropField SameField)

/-! ## The section of a table -/

/-- The fields of the section, none where it is no table. -/
def scanFields (table : Toml.Table) : List (String × Value) :=
  match scanSection table with
  | .object fields => fields
  | _ => []

/-- The section is a table or missing. -/
def HasSection (table : Toml.Table) : Prop := scanSection table = .object (scanFields table)

theorem hasSection_of_eq {table : Toml.Table} {fields : List (String × Value)}
    (h : scanSection table = .object fields) : HasSection table := by
  rw [HasSection, scanFields, h]

theorem word_injective {key key' : SettingKey} (h : key.word = key'.word) : key = key' := by
  cases key <;> cases key' <;> first | rfl | exact absurd h (by decide)

theorem ofWord?_word (key : SettingKey) : SettingKey.ofWord? key.word = some key := by
  cases key <;> decide

theorem word_of_ofWord? {word : String} {key : SettingKey}
    (h : SettingKey.ofWord? word = some key) : key.word = word := by
  simpa using List.find?_some h

section Changed

variable {table : Toml.Table} {key : SettingKey} {x : Setting}

theorem putSetting_eq (h : HasSection table) (key : SettingKey) (x : Setting) :
    putSetting table key x = .ok (setField "scan"
      (.object (setField key.word x.toValue (scanFields table))) table) := by
  rw [putSetting, h]

theorem scanSection_setField (fields : List (String × Value)) (table : Toml.Table) :
    scanSection (setField "scan" (.object fields) table) = .object fields := by
  simp [scanSection]

theorem scanFields_setField (fields : List (String × Value)) (table : Toml.Table) :
    scanFields (setField "scan" (.object fields) table) = fields := by
  rw [scanFields, scanSection_setField]

theorem scanSection_dropField (table : Toml.Table) :
    scanSection (dropField "scan" table) = .object [] := by
  simp [scanSection]

theorem scanFields_dropField (table : Toml.Table) : scanFields (dropField "scan" table) = [] := by
  rw [scanFields, scanSection_dropField]

end Changed

/-! ## Written and read again -/

/-- The same table. A setting that is a table is shown with its fields in their order, so what
stands under the keys of settings agrees in that too. -/
structure SameTable (table table' : Toml.Table) : Prop where
  alike : (Value.object table).sorted = (Value.object table').sorted
  settings : ∀ key : SettingKey,
    field? key.word (scanFields table) = field? key.word (scanFields table')

/-- A table whose text gives the table again. -/
def ReadsBack (table : Toml.Table) : Prop :=
  ∃ text table', Toml.render? table = some text ∧
    Toml.parse (Disk.normalized text) = .ok table' ∧ SameTable table' table

theorem readsBack_of_bind {table : Toml.Table} (h : ((Toml.render? table).bind fun text =>
    (Toml.parse (Disk.normalized text)).toOption) = some table) : ReadsBack table := by
  obtain ⟨text, hrender, hparse⟩ := Option.bind_eq_some_iff.mp h
  cases hread : Toml.parse (Disk.normalized text) with
  | error e => simp [hread, Except.toOption] at hparse
  | ok table' =>
    rw [hread, Except.toOption, Option.some.injEq] at hparse
    exact ⟨text, table', hrender, hread, hparse ▸ ⟨rfl, fun _ => rfl⟩⟩

namespace SameTable

variable {table table' : Toml.Table}

theorem sameField (h : SameTable table table') (name : String) : SameField name table table' :=
  Value.sameField_of_sorted h.alike name

theorem hasSection (h : SameTable table table') (hscan : HasSection table') :
    HasSection table := by
  have hsame := h.sameField "scan"
  rw [SameField] at hsame
  cases hfield : field? "scan" table with
  | none => exact @hasSection_of_eq table [] (by simp [scanSection, hfield])
  | some v =>
    cases hfield' : field? "scan" table' with
    | none => simp [hfield, hfield'] at hsame
    | some v' =>
      have hv' : v' = .object (scanFields table') := by
        rw [← hscan, scanSection, hfield', Option.getD_some]
      rw [hfield, hfield', hv', Option.map_some, Option.map_some, Option.some.injEq] at hsame
      obtain ⟨fields, rfl⟩ := Value.exists_fields_of_sorted hsame
      exact @hasSection_of_eq table fields (by simp [scanSection, hfield])

theorem scanFields_sameField (h : SameTable table table') (hscan : HasSection table')
    (k : String) : SameField k (scanFields table) (scanFields table') := by
  have hsections : (scanSection table).sorted = (scanSection table').sorted := by
    have hsame := h.sameField "scan"
    rw [SameField] at hsame
    rw [scanSection, scanSection]
    cases hfield : field? "scan" table <;> cases hfield' : field? "scan" table' <;>
      simp_all
  rw [hscan, h.hasSection hscan] at hsections
  exact Value.sameField_of_sorted hsections k

end SameTable

end Settings

end ChangeImpact
