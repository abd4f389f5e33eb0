import ChangeImpact.Proofs.Settings.Precedence

/-!
# Proofs.Settings.Loading

Settings loaded from files that may hold any bytes.

* `HasContent`  — nothing stands at a path, or a file with the given bytes.
* `document`    — the table that a file counts as, an empty one where none can be read.
* `Loads`       — what a loading gives that does not fail.
* `IsSound`     — the contents that do not end a loading.
* `loads_iff`   — the loading gives settings for sound contents, and only for those.
* `not_loads`   — contents of each kind that end it.
-/

namespace ChangeImpact

namespace Disk

variable {d : Disk} {path : String} {bytes : ByteArray}

/-- A file that can be read is read under any name that it is shown by. -/
theorem readBytes_shown (h : d.readBytes path path = .ok bytes) (shown : String) :
    d.readBytes path shown = .ok bytes := by
  rw [readBytes, status, place] at h ⊢
  by_cases hnull : hasNull path = true
  · simp [hnull] at h
  · rw [if_neg hnull] at h ⊢
    cases hplace : d.placeOf true path with
    | error f => simp [hplace] at h
    | ok p =>
      cases p with
      | free directory name => simp [hplace] at h
      | taken location =>
        simp only [hplace] at h ⊢
        cases hat : d.at? location with
        | none => simp [hat] at h
        | some node =>
          cases node <;> simp [hat] at h ⊢
          exact h

theorem isPresent_of_readBytes (h : d.readBytes path path = .ok bytes) :
    d.isPresent path = .ok true := by
  rw [readBytes] at h
  rw [isPresent, asks]
  cases hstatus : d.status path path with
  | error e => simp [hstatus] at h
  | ok found => rfl

end Disk

namespace Settings

open Value (field?)

/-! ## One file -/

/-- What stands at a path: nothing, or a file with these bytes. -/
def HasContent (d : Disk) (path : String) : Option ByteArray → Prop
  | none => d.isPresent path = .ok false
  | some bytes => d.readBytes path path = .ok bytes

instance (d : Disk) (path : String) : (content : Option ByteArray) →
    Decidable (HasContent d path content)
  | none => inferInstanceAs (Decidable (d.isPresent path = .ok false))
  | some bytes => inferInstanceAs (Decidable (d.readBytes path path = .ok bytes))

/-- The text of a file, if its bytes are those of one. -/
def textOf? (content : Option ByteArray) : Option String :=
  content.bind fun bytes => (Text.Utf8.decode? bytes).map Disk.normalized

/-- The table that a file counts as. One that is missing or cannot be read counts as empty. -/
def document (parse : TableReader) (content : Option ByteArray) : Toml.Table :=
  ((textOf? content).bind fun text => (parse text).toOption).getD []

/-- Of the text of a file the reader says what table it is, or that it is none. -/
def Decides (parse : TableReader) (content : Option ByteArray) : Prop :=
  ∀ text ∈ textOf? content, (parse text).isOk = true ∨ parse text = .error .badToml

instance (parse : TableReader) (content : Option ByteArray) : Decidable (Decides parse content) :=
  inferInstanceAs (Decidable (∀ text ∈ textOf? content, _))

/-- Bytes of a text, in which the section is not of a kind that ends the loading. -/
structure IsSound (parse : TableReader) (content : Option ByteArray) : Prop where
  isText : ∀ bytes ∈ content, (Text.Utf8.decode? bytes).isSome
  mergeable : Mergeable (scanSection (document parse content))

section File

variable {parse : TableReader} {d : Disk} {path shown : String} {content : Option ByteArray}

theorem readTableWith_of_isText (hcontent : HasContent d path content)
    (hparse : Decides parse content)
    (htext : ∀ bytes ∈ content, (Text.Utf8.decode? bytes).isSome) :
    (readTableWith parse d path shown).1 = .ok (document parse content) := by
  rw [readTableWith]
  cases content with
  | none =>
    rw [HasContent] at hcontent
    rw [hcontent]
    rfl
  | some bytes =>
    obtain ⟨text, hdecode⟩ := Option.isSome_iff_exists.mp (htext bytes rfl)
    have hread : d.readText path shown = .ok (Disk.normalized text) := by
      rw [Disk.readText, Disk.readBytes_shown hcontent]
      simp only [hdecode]
    have htextOf : textOf? (some bytes) = some (Disk.normalized text) := by
      rw [textOf?, Option.bind_some, hdecode, Option.map_some]
    rw [Disk.isPresent_of_readBytes hcontent, hread, document, htextOf]
    cases hparsed : parse (Disk.normalized text) with
    | ok table =>
      simp only [hparsed, Option.bind_some]
      rfl
    | error e =>
      rcases hparse _ htextOf with hok | hbad
      · rw [hparsed] at hok
        cases hok
      · simp only [hbad, Option.bind_some]
        rfl

theorem readTableWith_of_not_isText {bytes : ByteArray} (hcontent : HasContent d path (some bytes))
    (htext : Text.Utf8.decode? bytes = none) :
    ∃ e, (readTableWith parse d path shown).1 = .error e := by
  rw [readTableWith, Disk.isPresent_of_readBytes hcontent]
  simp only [Disk.readText, Disk.readBytes_shown hcontent, htext]
  exact ⟨_, rfl⟩

/-- A file whose section has been merged is sound. -/
theorem isSound_of_merge {table : Toml.Table} {s s' : ScanSettings}
    (hcontent : HasContent d path content) (hparse : Decides parse content)
    (hread : (readTableWith parse d path shown).1 = .ok table)
    (hmerge : (merge (scanSection table) s).1 = .ok s') : IsSound parse content := by
  have htext : ∀ bytes ∈ content, (Text.Utf8.decode? bytes).isSome := by
    rintro bytes ⟨⟩
    cases hdecode : Text.Utf8.decode? bytes with
    | some text => rfl
    | none =>
      have herror : ∃ e, (readTableWith parse d path shown).1 = .error e :=
        readTableWith_of_not_isText hcontent hdecode
      obtain ⟨e, he⟩ := herror
      rw [he] at hread
      cases hread
  rw [readTableWith_of_isText hcontent hparse htext, Except.ok.injEq] at hread
  subst hread
  refine ⟨htext, Classical.byContradiction fun hnot => ?_⟩
  obtain ⟨e, he⟩ := merge_error hnot s
  rw [he] at hmerge
  cases hmerge

end File

/-! ## Both files -/

/-- What a loading gives that does not fail: at least one worker, extensions with their points,
and each setting from the project, else from the user, else the default, where a file or a value
that cannot be read counts as missing. -/
structure Loads (parse : TableReader) (l : Locations) (d : Disk) (projectDir : Option String)
    (user project : Option ByteArray) (s : ScanSettings) : Prop where
  loaded : (loadWith parse l d projectDir).1 = .ok s
  workers : 1 ≤ s.maxWorkers
  extensions : ∀ x ∈ s.extensions, Text.startsWith "." x = true
  settings : ∀ key, s.get key =
    preferred key (field? key.word (scanFields (document parse user)))
      (field? key.word (scanFields (document parse project)))

section Both

variable {parse : TableReader} {l : Locations} {d : Disk} {projectDir : Option String}
  {user project : Option ByteArray}

theorem workers_of_suits {s : ScanSettings} (h : Setting.Suits .maxWorkers (s.get .maxWorkers)) :
    1 ≤ s.maxWorkers := by
  cases h with
  | maxWorkers hn => exact hn

theorem extensions_of_suits {s : ScanSettings}
    (h : Setting.Suits .extensions (s.get .extensions)) :
    ∀ x ∈ s.extensions, Text.startsWith "." x = true := by
  cases h with
  | extensions hitems => exact fun x hx => hitems x hx ▸ Setting.startsWith_pointed x

/-- Settings are loaded from sound files, and from no others. -/
theorem loads_iff (huser : HasContent d l.config user)
    (hproject : HasContent d (projectPath d projectDir).1 project)
    (hparse : Decides parse user) (hparse' : Decides parse project) :
    (∃ s, Loads parse l d projectDir user project s) ↔
      IsSound parse user ∧ IsSound parse project := by
  constructor
  · rintro ⟨s, h⟩
    obtain ⟨table, table', s', hread, hread', hmerge, hmerge'⟩ := loadWith_ok_iff.mp h.loaded
    exact ⟨isSound_of_merge huser hparse hread hmerge,
      isSound_of_merge hproject hparse' hread' hmerge'⟩
  · rintro ⟨hsound, hsound'⟩
    obtain ⟨s, hloaded, hget⟩ := exists_loadWith
      (readTableWith_of_isText huser hparse hsound.isText)
      (readTableWith_of_isText hproject hparse' hsound'.isText) hsound.mergeable hsound'.mergeable
    refine ⟨s, hloaded, ?_, ?_, hget⟩
    · exact workers_of_suits (hget .maxWorkers ▸ suits_preferred _ _ _)
    · exact extensions_of_suits (hget .extensions ▸ suits_preferred _ _ _)

end Both

namespace Sample

def withUser (bytes : ByteArray) : Disk :=
  { top := [("home", .dir [("config.toml", .file bytes)])] }

/-- A header that is not closed. -/
def brokenText : String := "[scan\nroot = "

def brokenUser : Disk :=
  { top := [("home", .dir [("config.toml", .file brokenText.toUTF8)]),
      ("safechange.toml", .file projectText.toUTF8)] }

theorem document_broken : document Toml.parse (some brokenText.toUTF8) = [] := by decide +kernel

theorem document_project : document Toml.parse (some projectText.toUTF8) = project := by
  decide +kernel

theorem isSound_broken : IsSound Toml.parse (some brokenText.toUTF8) :=
  ⟨by decide +kernel, by rw [document_broken]; exact .table fun _ => nofun⟩

theorem isSound_project : IsSound Toml.parse (some projectText.toUTF8) :=
  ⟨by decide +kernel, by rw [document_project]; exact isPlain_project.mergeable⟩

/-- Bytes of no text. -/
def noText : ByteArray := ⟨#[0xff]⟩

/-- A section that is a number. -/
def numberSection : ByteArray := "scan = 5".toUTF8

def endlessWorkers : ByteArray := "[scan]\nmax_workers = inf".toUTF8

end Sample

theorem loads_iff_sample : ∃ s, Loads Toml.parse {} Sample.brokenUser none
    (some Sample.brokenText.toUTF8) (some Sample.projectText.toUTF8) s := by
  have huser : HasContent Sample.brokenUser ({} : Locations).config
      (some Sample.brokenText.toUTF8) := by decide +kernel
  have hproject : HasContent Sample.brokenUser (projectPath Sample.brokenUser none).1
      (some Sample.projectText.toUTF8) := by decide +kernel
  exact (loads_iff huser hproject (by decide +kernel) (by decide +kernel)).mpr
    ⟨Sample.isSound_broken, Sample.isSound_project⟩

/-- These bytes are what the user's file holds, the project has none, and nothing is loaded. -/
def EndsLoading (bytes : ByteArray) : Prop :=
  HasContent (Sample.withUser bytes) ({} : Locations).config (some bytes) ∧
    HasContent (Sample.withUser bytes) (projectPath (Sample.withUser bytes) none).1 none ∧
      Decides Toml.parse (some bytes) ∧
        ¬ ∃ s, Loads Toml.parse {} (Sample.withUser bytes) none (some bytes) none s

theorem endsLoading_of_error {bytes : ByteArray}
    (huser : HasContent (Sample.withUser bytes) ({} : Locations).config (some bytes))
    (hproject : HasContent (Sample.withUser bytes)
      (projectPath (Sample.withUser bytes) none).1 none)
    (hparse : Decides Toml.parse (some bytes))
    (hload : (loadWith Toml.parse {} (Sample.withUser bytes) none).1.isOk = false) :
    EndsLoading bytes := by
  refine ⟨huser, hproject, hparse, ?_⟩
  rintro ⟨s, h⟩
  rw [h.loaded] at hload
  cases hload

/-- Each of them alone ends the loading, where the settings could be the defaults. -/
theorem not_loads : EndsLoading Sample.noText ∧ EndsLoading Sample.numberSection ∧
    EndsLoading Sample.endlessWorkers := by
  refine ⟨?_, ?_, ?_⟩
  all_goals
    exact endsLoading_of_error (by decide +kernel) (by decide +kernel) (by decide +kernel)
      (by decide +kernel)

end Settings

end ChangeImpact
