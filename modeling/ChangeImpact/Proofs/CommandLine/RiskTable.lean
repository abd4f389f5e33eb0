import ChangeImpact.Proofs.CommandLine.Actions
import ChangeImpact.Proofs.Export.Selection
import ChangeImpact.Proofs.Plan.Canonical
import ChangeImpact.Proofs.Plan.Creation
import ChangeImpact.Proofs.Project.Growth
import Mathlib.Data.List.Sort
import Mathlib.Data.String.Basic

/-!
# Proofs.CommandLine.RiskTable

The table of an analysis, of all files or of those from a level of risk on.

* `Risk.IsScored`      — records as an analysis leaves them.
* `Precedes`, `rowOf`  — the order of the table and what it tells of a file.
* `IsCutTable`         — tables for all levels that are beginnings of one another.
* `isCutTable_riskRows` — sorting by score and filtering by level makes such tables.
* `Console.Analyzes`   — the files that an analysis yields.
* `analyze_shows_cutTables` — the tables are what is shown.
-/

namespace ChangeImpact

/-- In a list that has what satisfies `p` in front, that is a beginning of what satisfies less. -/
theorem filter_prefix_filter {α : Type} {p q : α → Bool} {as : List α}
    (h : as.Pairwise fun a b => p b = true → p a = true) (hpq : ∀ a, p a = true → q a = true) :
    as.filter p <+: as.filter q := by
  induction as with
  | nil => exact List.prefix_refl _
  | cons a as ih =>
    rw [List.pairwise_cons] at h
    by_cases hp : p a = true
    · rw [List.filter_cons_of_pos hp, List.filter_cons_of_pos (hpq a hp)]
      exact (List.prefix_cons_inj a).mpr (ih h.2)
    · have hnil : as.filter p = [] :=
        List.filter_eq_nil_iff.mpr fun b hb hpb => hp (h.1 b hb hpb)
      rw [List.filter_cons_of_neg hp, hnil]
      exact List.nil_prefix

/-! ## Scored records -/

namespace Risk

/-- Every file has a record of its own, at the level of its score. -/
structure IsScored (files : FileMap) : Prop where
  path : ∀ {path r}, files.get? path = some r → r.path = path
  risk : ∀ {path r}, files.get? path = some r → r.risk = .known (levelOf r)

theorem IsScored.paths {files : FileMap} (h : IsScored files) :
    files.values.map (·.path) = files.keys := by
  rw [Keyed.values, Keyed.keys, List.map_map]
  refine List.map_congr_left fun e he => ?_
  exact h.path (files.get?_eq_some_iff.mpr he)

end Risk

theorem Project.isScored_analyze {s : ScanSettings} {d : Disk} {root : Option String}
    {files : FileMap} (h : (analyze s d root).1 = .ok files) : Risk.IsScored files := by
  obtain ⟨sources, rfl⟩ := exists_sources_of_analyze h
  constructor
  case path =>
    intro path r hr
    obtain ⟨text, _, rfl⟩ := get?_textual.mp hr
    rfl
  case risk => exact fun hr => risk_analyzeSources hr

namespace CommandLine

/-! ## The order of the table -/

def Precedes (r s : FileRecord) : Prop :=
  Risk.score s < Risk.score r ∨ (Risk.score r = Risk.score s ∧ r.path < s.path)

section Order

variable {files : FileMap} {r s : FileRecord}

theorem comesBefore_iff : comesBefore r s = true ↔
    Risk.score s < Risk.score r ∨ (Risk.score r = Risk.score s ∧ r.path ≤ s.path) := by
  simp [comesBefore]

theorem comesBefore_trans (a b c : FileRecord) (hab : comesBefore a b = true)
    (hbc : comesBefore b c = true) : comesBefore a c = true := by
  rw [comesBefore_iff] at hab hbc ⊢
  rcases hab with hab | ⟨hab, hpath⟩
  · rcases hbc with hbc | ⟨hbc, _⟩
    · exact .inl (hbc.trans hab)
    · exact .inl (hbc ▸ hab)
  · rcases hbc with hbc | ⟨hbc, hpath'⟩
    · exact .inl (hab ▸ hbc)
    · exact .inr ⟨hab.trans hbc, hpath.trans hpath'⟩

theorem comesBefore_total (a b : FileRecord) : (comesBefore a b || comesBefore b a) = true := by
  rw [Bool.or_eq_true, comesBefore_iff, comesBefore_iff]
  rcases lt_trichotomy (Risk.score a) (Risk.score b) with h | h | h
  · exact .inr (.inl h)
  · rcases le_total a.path b.path with hpath | hpath
    · exact .inl (.inr ⟨h, hpath⟩)
    · exact .inr (.inr ⟨h.symm, hpath⟩)
  · exact .inl (.inl h)

/-- A file that comes later is of no higher level. -/
theorem ordinal_le_of_comesBefore (h : comesBefore r s = true) :
    (Risk.levelOf s).ordinal ≤ (Risk.levelOf r).ordinal := by
  refine Risk.ordinal_classify_mono (Int.ofNat_le.mpr ?_)
  rcases comesBefore_iff.mp h with hscore | ⟨hscore, _⟩
  · exact hscore.le
  · exact hscore.ge

theorem mem_riskRows {least : Option RiskLevel} (h : r ∈ riskRows files least) :
    ∃ path, files.get? path = some r :=
  Keyed.mem_values.mp (List.mem_mergeSort.mp (List.mem_filter.mp h).1)

theorem riskRows_none : riskRows files none = files.values.mergeSort comesBefore :=
  List.filter_eq_self.mpr fun _ _ => rfl

theorem riskRows_eq_filter (least : Option RiskLevel) :
    riskRows files least = (riskRows files none).filter (isAtLeast least) := by
  rw [riskRows_none, riskRows]

theorem pairwise_riskRows : (riskRows files none).Pairwise fun r s => comesBefore r s = true := by
  rw [riskRows_none]
  exact List.pairwise_mergeSort comesBefore_trans comesBefore_total _

theorem perm_riskRows : (riskRows files none).Perm files.values := by
  rw [riskRows_none]
  exact List.mergeSort_perm _ _

/-- Equal scores leave the order to the paths, and no two files have the same. -/
theorem pairwise_precedes (h : Risk.IsScored files) :
    (riskRows files none).Pairwise Precedes := by
  have hpaths : ((riskRows files none).map (·.path)).Nodup := by
    rw [(perm_riskRows.map (·.path)).nodup_iff, h.paths]
    exact files.nodup
  refine pairwise_riskRows.imp₂ (fun r s hbefore hne => ?_) (List.pairwise_map.mp hpaths)
  rcases comesBefore_iff.mp hbefore with hscore | ⟨hscore, hpath⟩
  · exact .inl hscore
  · exact .inr ⟨hscore, lt_of_le_of_ne hpath hne⟩

end Order

/-! ## Levels -/

section Levels

variable {files : FileMap} {r : FileRecord}

theorem isAtLeast_iff {least level : RiskLevel} (h : r.risk = .known level) :
    isAtLeast (some least) r = true ↔ least.ordinal ≤ level.ordinal := by
  simp [isAtLeast, h]

theorem riskRows_cut (h : Risk.IsScored files) {least most : Option RiskLevel}
    (hlevels : ∀ r, isAtLeast most r = true → isAtLeast least r = true) :
    riskRows files most <+: riskRows files least := by
  rw [riskRows_eq_filter most, riskRows_eq_filter least]
  refine filter_prefix_filter ?_ hlevels
  refine List.Pairwise.imp_of_mem (fun {r s} hr hs hbefore hmost => ?_) pairwise_riskRows
  cases most with
  | none => rfl
  | some most =>
    obtain ⟨path, hr⟩ := mem_riskRows hr
    obtain ⟨path', hs⟩ := mem_riskRows hs
    rw [isAtLeast_iff (h.risk hs)] at hmost
    rw [isAtLeast_iff (h.risk hr)]
    exact hmost.trans (ordinal_le_of_comesBefore hbefore)

theorem isAtLeast_mono {least most : RiskLevel} (h : least.ordinal ≤ most.ordinal)
    (hr : isAtLeast (some most) r = true) : isAtLeast (some least) r = true := by
  cases hrisk : r.risk with
  | known level =>
    rw [isAtLeast_iff hrisk] at hr ⊢
    exact h.trans hr
  | other word => simp [isAtLeast, hrisk] at hr

theorem length_riskRows (least : Option RiskLevel) :
    (riskRows files least).length = files.values.countP (isAtLeast least) := by
  rw [riskRows_eq_filter, ← List.countP_eq_length_filter, perm_riskRows.countP_eq]

theorem isAtLeast_high :
    isAtLeast (some .high) r = decide (r.risk = .known .high || r.risk = .known .critical) := by
  rcases hrisk : r.risk with level | word
  · cases level <;> simp [isAtLeast, hrisk, RiskLevel.ordinal]
  · simp [isAtLeast, hrisk]

theorem isAtLeast_critical : isAtLeast (some .critical) r = (r.risk == .known .critical) := by
  rcases hrisk : r.risk with level | word
  · cases level <;> simp [isAtLeast, hrisk, RiskLevel.ordinal]
  · simp [isAtLeast, hrisk]

theorem length_riskRows_high :
    (riskRows files (some .high)).length = (Risk.summarize files).highRiskFiles := by
  change _ = (files.values.map (·.risk)).countP _
  rw [length_riskRows, List.countP_map]
  exact List.countP_congr fun r _ => by simp [isAtLeast_high]

theorem length_riskRows_critical :
    (riskRows files (some .critical)).length = (Risk.summarize files).criticalFiles := by
  change _ = (files.values.map (·.risk)).count (.known .critical)
  rw [length_riskRows, List.count_eq_countP, List.countP_map]
  exact List.countP_congr fun r _ => by simp [isAtLeast_critical]

end Levels

/-! ## Rows -/

def styleOf : RiskLevel → String
  | .low => "green"
  | .medium => "yellow"
  | .high => "red"
  | .critical => "bold red"

def rowOf (r : FileRecord) : List String :=
  [r.path, Text.count r.fanIn, Text.count r.fanOut, Text.count r.exports.length,
    Text.count (Risk.score r), styled (styleOf (Risk.levelOf r)) (Vocabulary.word (Risk.levelOf r))]

theorem riskCells_eq_rowOf {r : FileRecord} (h : r.risk = .known (Risk.levelOf r)) :
    riskCells r = .ok (rowOf r) := by
  have hlabel (level : RiskLevel) : riskLabel (.known level) =
      .ok (styled (styleOf level) (Vocabulary.word level)) := by
    cases level <;> rfl
  rw [riskCells, h, hlabel]
  rfl

/-- The rows for each least level of risk, and for none. -/
structure IsCutTable (files : FileMap) (rows : Option RiskLevel → List (List String)) : Prop where
  /-- The rows are those of all files, ordered, or of the ones among them that reach the level. -/
  ranked : ∃ records : List FileRecord, records.Perm files.values ∧ records.Pairwise Precedes ∧
    rows none = records.map rowOf ∧
    ∀ least : RiskLevel, rows (some least) =
      (records.filter fun r => least.ordinal ≤ (Risk.levelOf r).ordinal).map rowOf
  once : ((rows none).map List.head?).Perm (files.keys.map some)
  cut : ∀ least most : RiskLevel, least.ordinal ≤ most.ordinal →
    rows (some most) <+: rows (some least)
  whole : ∀ least : RiskLevel, rows (some least) <+: rows none
  high : (rows (some .high)).length = (Risk.summarize files).highRiskFiles
  critical : (rows (some .critical)).length = (Risk.summarize files).criticalFiles

theorem isCutTable_riskRows {files : FileMap} (h : Risk.IsScored files) :
    IsCutTable files fun least => (riskRows files least).map rowOf where
  ranked := by
    refine ⟨riskRows files none, perm_riskRows, pairwise_precedes h, rfl, fun least => ?_⟩
    rw [riskRows_eq_filter]
    refine congrArg _ (List.filter_congr fun r hr => ?_)
    obtain ⟨path, hr⟩ := mem_riskRows hr
    rw [Bool.eq_iff_iff, isAtLeast_iff (h.risk hr), decide_eq_true_eq]
  once := by
    rw [← h.paths, List.map_map, List.map_map]
    exact perm_riskRows.map _
  cut least most hlevels := (riskRows_cut h fun _ => isAtLeast_mono hlevels).map rowOf
  whole least := (riskRows_cut h fun _ _ => rfl).map rowOf
  high := by rw [List.length_map, length_riskRows_high]
  critical := by rw [List.length_map, length_riskRows_critical]

/-! ## The command -/

def tableOf (rows : List (List String)) : Event :=
  .table "Dependency Analysis" ["File", "Fan-in", "Fan-out", "Exports", "Score", "Risk"] rows

def panelOf (files : FileMap) : Event :=
  .panel "Summary" (summaryText (Risk.summarize files)) "blue"

/-- The directory is there, the settings can be read, and the analysis yields the files. -/
def Console.Analyzes (c : Console) (root : Option String) (files : FileMap) : Prop :=
  (∀ path ∈ root, c.disk.isDirectory (Path.tidy path) = .ok true) ∧
    ∃ settings, (Settings.load c.locations c.disk none).1 = .ok settings ∧
      (Project.analyze settings c.disk root).1 = .ok files

theorem Console.Analyzes.isScored {c : Console} {root : Option String} {files : FileMap}
    (h : c.Analyzes root files) : Risk.IsScored files := by
  obtain ⟨_, settings, _, hfiles⟩ := h
  exact Project.isScored_analyze hfiles

section Command

open ChangeImpact.CommandLine.Action

variable {c : Console} {root : Option String} {files : FileMap}

theorem on_analyze (h : c.Analyzes root files) :
    ∃ log, (Action.analyze root).on c = (.ok files, { c with log }) := by
  obtain ⟨hroot, settings, hload, hfiles⟩ := h
  have hdisk (c : Console) : disk.on c = (.ok c.disk, c) := rfl
  let c₁ : Console := { c with log := c.log ++ (Settings.load c.locations c.disk none).2 }
  have hsettings : loadSettings.on c = (.ok settings, c₁) := by
    rw [loadSettings, on_bind_ok (on_get c), on_attempt_ok hload]
  have hrest : (do let settings ← loadSettings
                   attempt (Project.analyze settings (← disk) root)).on c =
      (.ok files, { c₁ with log := c₁.log ++ (Project.analyze settings c.disk root).2 }) := by
    rw [on_bind_ok hsettings, on_bind_ok (hdisk c₁), on_attempt_ok hfiles]
  refine ⟨c₁.log ++ (Project.analyze settings c.disk root).2, ?_⟩
  cases root with
  | none => exact hrest
  | some path =>
    have hthere : (demand (c.disk.isDirectory (Path.tidy path))).on c = (.ok true, c) := by
      rw [hroot path rfl, on_demand_ok]
    rw [Action.analyze, on_bind_ok (hdisk c), on_bind_ok hthere]
    exact hrest

theorem on_readThreshold (least : Option RiskLevel) (c : Console) :
    (readThreshold (least.map Vocabulary.word)).on c = (.ok least, c) := by
  cases least with
  | none => rfl
  | some level =>
    rw [Option.map_some, readThreshold, LawfulVocabulary.ofWord?_word]
    rfl

theorem on_analyze_rows (h : c.Analyzes root files) (hsome : files.size ≠ 0)
    (least : Option RiskLevel) :
    ∃ log, (analyze root false (least.map Vocabulary.word)).on c =
      (.ok (), { c with
        log
        events := c.events ++ [tableOf ((riskRows files least).map rowOf)] ++ [panelOf files] }) := by
  obtain ⟨log, hfiles⟩ := on_analyze h
  have hrows : collect riskCells (riskRows files least) =
      .ok ((riskRows files least).map rowOf) := by
    refine collect_eq_map fun r hr => ?_
    obtain ⟨path, hr⟩ := mem_riskRows hr
    exact riskCells_eq_rowOf (h.isScored.risk hr)
  refine ⟨log, ?_⟩
  rw [analyze, on_bind_ok (on_readThreshold least c), on_bind_ok hfiles]
  simp only [Bool.false_eq_true, if_false, hsome, hrows]
  rfl

end Command

/-- A threshold cuts the table of a project off and leaves the order as it is; the summary below it
counts the files at the two highest levels, whatever is shown. -/
theorem analyze_shows_cutTables {c : Console} {root : Option String} {files : FileMap}
    (h : c.Analyzes root files) (hsome : files.size ≠ 0) :
    ∃ rows : Option RiskLevel → List (List String), IsCutTable files rows ∧
      ∀ (s : Surroundings) (words : List String) (verbose : Bool) (least : Option RiskLevel),
        Request.parse? words = some ⟨verbose, .analyze root false (least.map Vocabulary.word)⟩ →
        (run s words c).1 = .exit 0 ∧
        (run s words c).2.events = [tableOf (rows least), panelOf files] := by
  refine ⟨fun least => (riskRows files least).map rowOf, isCutTable_riskRows h.isScored, ?_⟩
  intro s words verbose least hwords
  let start : Console := { c with events := [], log := [] }
  have hstart : start.Analyzes root files := h
  obtain ⟨log, hrun⟩ := on_analyze_rows hstart hsome least
  have hperform : (perform s (.analyze root false (least.map Vocabulary.word))).run.run start =
      (analyze root false (least.map Vocabulary.word)).on start := rfl
  rw [run, hwords]
  dsimp only
  rw [runRequest, hperform, hrun]
  exact ⟨rfl, rfl⟩

namespace Sample

/-- A file that imports a shared handler, which is at a higher level of risk. -/
def handled : Console where
  disk := { top := [("src", .dir [
    ("a.ts", .file "import b from './lib/api/b'".toUTF8),
    ("lib", .dir [("api", .dir [("b.ts", .file .empty)])])])] }

def anytime : Surroundings where
  circumstances := ChangeImpact.Sample.circumstances

end Sample

theorem analyze_shows_cutTables_sample : ∃ files rows,
    Sample.handled.Analyzes none files ∧ files.keys = ["src/a.ts", "src/lib/api/b.ts"] ∧
      IsCutTable files rows ∧
      (run Sample.anytime ["analyze"] Sample.handled).2.events =
        [tableOf (rows none), panelOf files] ∧
      (run Sample.anytime ["analyze", "--risk", "medium"] Sample.handled).2.events =
        [tableOf (rows (some .medium)), panelOf files] := by
  have hkeys : (Project.analyze {} Sample.handled.disk none).1.toOption.map (·.keys) =
      some ["src/a.ts", "src/lib/api/b.ts"] := by decide +kernel
  cases hfiles : (Project.analyze {} Sample.handled.disk none).1 with
  | error e =>
    rw [hfiles] at hkeys
    cases hkeys
  | ok files =>
    rw [hfiles] at hkeys
    have hkeys : files.keys = ["src/a.ts", "src/lib/api/b.ts"] := Option.some.inj hkeys
    have hanalyzes : Sample.handled.Analyzes none files := ⟨by simp, {}, rfl, hfiles⟩
    have hsome : files.size ≠ 0 := by
      rw [Keyed.size, ← List.length_map Prod.fst, ← Keyed.keys, hkeys]
      decide
    obtain ⟨rows, htable, hshows⟩ := analyze_shows_cutTables hanalyzes hsome
    exact ⟨files, rows, hanalyzes, hkeys, htable,
      (hshows Sample.anytime ["analyze"] false none (by decide)).2,
      (hshows Sample.anytime ["analyze", "--risk", "medium"] false (some .medium) (by decide)).2⟩

end CommandLine

end ChangeImpact
