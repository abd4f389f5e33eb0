import ChangeImpact.Proofs.Graph.Rebuild
import ChangeImpact.Proofs.Impact.Deletion
import ChangeImpact.Proofs.Source.Workers

/-!
# Proofs.Project.FailedFiles

Files that the extractor fails on.

* `Keyed.without`        — sources without the files at some paths.
* `Extractor.FailsOn`    — the extractor fails at these paths, and finds what the textual one does
  elsewhere.
* `Graph.Falls`          — an import beside the same import where those files are missing.
* `Project.CountAsAbsent` — the analysis of all sources is that of the sources without those files,
  whatever the number of workers.
* `Project.countAsAbsent` — so it is wherever the extractor fails.
-/

namespace ChangeImpact

namespace Keyed

variable {α : Type}

/-- The entries under all other keys. -/
def without (m : Keyed α) (keys : List String) : Keyed α :=
  m.filterMap fun k a => if keys.contains k then none else some a

theorem get?_without (m : Keyed α) (keys : List String) (k : String) :
    (m.without keys).get? k = if keys.contains k then none else m.get? k := by
  rw [without, get?_filterMap]
  cases m.get? k <;> simp

theorem contains_without (m : Keyed α) (keys : List String) :
    (m.without keys).contains = fun k => m.contains k && !keys.contains k := by
  funext k
  rw [contains, get?_without, contains]
  cases keys.contains k <;> simp

end Keyed

/-- On every path of the sources the extractor fails or is the textual one. -/
structure Extractor.FailsOn (e : Extractor) (sources : Keyed String) (failing : List String) :
    Prop where
  fails : ∀ path text, sources.get? path = some text → path ∈ failing →
    ∃ cause, e path text = .error cause
  textual : ∀ path text, sources.get? path = some text → path ∉ failing →
    e path text = Extractor.textual path text

theorem Extractor.failsOn_failingOn (sources : Keyed String) (failing : List String)
    (cause : Failure) : (textual.failingOn failing cause).FailsOn sources failing := by
  constructor
  case fails =>
    intro path text _ hfails
    exact ⟨cause, by simp [failingOn, hfails]⟩
  case textual =>
    intro path text _ hfine
    simp [failingOn, hfine]

namespace Source

variable {e : Extractor} {sources : Keyed String} {failing : List String}

/-- What came of a text that the extractor may have failed on. -/
theorem analyzeFile_failsOn (h : e.FailsOn sources failing) {path text : String}
    (hpath : sources.get? path = some text) :
    (path ∈ failing ∧ ∃ cause, analyzeFile e path text = .error cause) ∨
      (path ∉ failing ∧ analyzeFile e path text = .ok (textRecord path text)) := by
  by_cases hfails : path ∈ failing
  · obtain ⟨cause, hcause⟩ := h.fails path text hpath hfails
    exact .inl ⟨hfails, cause, by rw [analyzeFile, hcause]; rfl⟩
  · exact .inr ⟨hfails, by rw [analyzeFile, h.textual path text hpath hfails]; rfl⟩

/-- No record of a failing file is left, and those of the others are there in their order. -/
theorem analyzeFiles_failsOn (h : e.FailsOn sources failing) :
    (analyzeFiles e sources).1 = (analyzeFiles .textual (sources.without failing)).1 := by
  rw [analyzeFiles_textual]
  apply Keyed.ext_entries
  simp only [analyzeFiles, Keyed.filterMap, Keyed.mapValues, Keyed.without, List.filterMap_map,
    List.map_filterMap]
  refine List.filterMap_congr fun entry hentry => ?_
  obtain ⟨hfails, cause, hcause⟩ | ⟨hfails, hok⟩ :=
    analyzeFile_failsOn h (sources.get?_eq_some_iff.mpr hentry)
  · simp [hfails, hcause, Except.toOption]
  · simp [hfails, hok, Except.toOption]

/-- There is a line for each failing file, and no other. -/
theorem log_failsOn (h : e.FailsOn sources failing) :
    (analyzeFiles e sources).2.map (fun line => (line.level, line.text)) =
      (sources.keys.filter failing.contains).map fun path =>
        (.error, "Failed to analyze " ++ path ++ ": ") := by
  simp only [analyzeFiles, Keyed.mapValues, Keyed.keys, List.filterMap_map, List.map_filterMap,
    List.filter_map, List.map_map]
  rw [← List.filterMap_eq_map, List.filterMap_filter]
  refine List.filterMap_congr fun entry hentry => ?_
  obtain ⟨hfails, cause, hcause⟩ | ⟨hfails, hok⟩ :=
    analyzeFile_failsOn h (sources.get?_eq_some_iff.mpr hentry)
  · simp [hfails, hcause]
  · simp [hfails, hok]

end Source

namespace Graph

/-! ## One import with and without the files -/

/-- A search that goes past a path that it found goes on behind it. -/
theorem find?_fallen {isKnown keep : String → Bool} {paths : List String} {t : String}
    (h : paths.find? isKnown = some t) (ht : keep t = false) :
    ∃ before after, paths = before ++ t :: after ∧
      (paths.find? fun k => isKnown k && keep k) = after.find? fun k => isKnown k && keep k := by
  obtain ⟨_, before, after, rfl, hbefore⟩ := List.find?_eq_some_iff_append.mp h
  refine ⟨before, after, rfl, ?_⟩
  have hnone : (before.find? fun k => isKnown k && keep k) = none := by
    rw [List.find?_eq_none]
    intro k hk
    have hunknown := hbefore k hk
    simp at hunknown
    simp [hunknown]
  rw [List.find?_append, hnone, Option.none_or, List.find?_cons_of_neg (by simp [ht])]

/-- The import `i` of the file at `path` among all sources, and the same import `i'` where some of
them are missing. -/
structure Falls (extensions : List String) (sources : Keyed String) (missing : List String)
    (path : String) (i i' : ImportEdge) : Prop where
  same : i' = { i with resolved := i'.resolved }
  kept : (∀ t, i.resolved = some t → t ∉ missing) → i'.resolved = i.resolved
  /-- What led to a missing file leads to the first later candidate that is there, if any. -/
  fallen : ∀ t, i.resolved = some t → t ∈ missing →
    ∃ before after, candidates extensions (target path i.specifier) = before ++ t :: after ∧
      i'.resolved = after.find? (sources.without missing).contains

theorem falls_linkImport (extensions : List String) (sources : Keyed String)
    (missing : List String) (path : String) {edge : ImportEdge} (h : edge.resolved = none) :
    Falls extensions sources missing path (linkImport sources.contains extensions path edge)
      (linkImport (sources.without missing).contains extensions path edge) := by
  constructor
  case same => rw [linkImport_eq sources.contains, linkImport_eq (sources.without missing).contains]
  case kept =>
    intro hkept
    rw [Keyed.contains_without, linkImport_kept fun t ht => by simpa using hkept t ht]
  case fallen =>
    intro t ht hmissing
    have hrelative : isRelative edge = true := by
      by_contra hother
      rw [linkImport, if_neg hother, h] at ht
      cases ht
    have hspecifier : (linkImport sources.contains extensions path edge).specifier =
        edge.specifier := by
      rw [linkImport_eq]
    rw [resolved_linkImport hrelative] at ht ⊢
    rw [hspecifier, Keyed.contains_without]
    exact find?_fallen ht (by simpa using hmissing)

/-- The dependencies of a file are those of its imports, once these are linked. -/
theorem linkFile_congr {isKnown isKnown' : String → Bool} {extensions : List String}
    {path : String} {record : FileRecord}
    (h : record.imports.map (linkImport isKnown extensions path) =
      record.imports.map (linkImport isKnown' extensions path)) :
    linkFile isKnown extensions path record = linkFile isKnown' extensions path record := by
  have hfold : ∀ known : String → Bool, linkFile known extensions path record =
      (record.imports.map (linkImport known extensions path)).foldl (Links.add path) {} := by
    intro known
    rw [linkFile, List.foldl_map]
  rw [hfold, hfold, h]

end Graph

namespace Project

open ChangeImpact.Graph
open ChangeImpact.Source (Pool)

/-! ## The whole analysis -/

/-- The records that a pool of workers leaves behind. -/
def pooledRecords (p : Pool (Except Failure FileRecord)) (sources : Keyed String) : FileMap :=
  (p.collect sources).filterMap fun _ r => r.toOption

/-- The analysis with an extractor that fails on some files, beside the textual analysis of the
sources without them and that of all sources. -/
structure CountAsAbsent (extensions : List String) (e : Extractor) (sources : Keyed String)
    (failing : List String) : Prop where
  /-- The same map in the same order, with the same scores, impacts and counts. -/
  same : (graphOf extensions e sources).1 =
    (graphOf extensions .textual (sources.without failing)).1
  /-- Every number of workers comes to this graph, in whatever order they finish. -/
  ends : ∀ maxWorkers : Int, ∃ p,
    Pool.Run (max 1 maxWorkers).toNat (Source.analyzeFile e) (.submit sources) p ∧ p.IsDone
  pooled : ∀ (maxWorkers : Int) (p : Pool (Except Failure FileRecord)),
    Pool.Run (max 1 maxWorkers).toNat (Source.analyzeFile e) (.submit sources) p → p.IsDone →
      evaluate extensions (pooledRecords p sources) =
        (graphOf extensions .textual (sources.without failing)).1
  reported : ∃ reports,
    (graphOf extensions e sources).2 =
      reports ++ (graphOf extensions .textual (sources.without failing)).2 ∧
    reports.map (fun line => (line.level, line.text)) =
      (sources.keys.filter failing.contains).map fun path =>
        (.error, "Failed to analyze " ++ path ++ ": ")
  /-- The imports of the other files, beside those of an analysis in which nothing fails. -/
  falls : ∀ {path r r'}, (analyzeSources extensions .textual sources).get? path = some r →
    (analyzeSources extensions e sources).get? path = some r' →
      r'.path = r.path ∧ r'.exports = r.exports ∧
        List.Forall₂ (Falls extensions sources failing path) r.imports r'.imports
  /-- Where no import led to a failing file, all of them and the dependencies are as they were. -/
  unaffected : ∀ {path r r'}, (analyzeSources extensions .textual sources).get? path = some r →
    (analyzeSources extensions e sources).get? path = some r' →
      (∀ i ∈ r.imports, ∀ t, i.resolved = some t → t ∉ failing) →
        r'.imports = r.imports ∧ r'.dependencies = r.dependencies

variable {extensions : List String} {e : Extractor} {sources : Keyed String}
  {failing : List String}

theorem pooledRecords_of_run {workers : Nat} {p : Pool (Except Failure FileRecord)}
    (hrun : Pool.Run workers (Source.analyzeFile e) (.submit sources) p) (hdone : p.IsDone) :
    pooledRecords p sources = (Source.analyzeFiles e sources).1 := by
  rw [pooledRecords, Pool.collect_of_run hrun hdone]
  rfl

theorem log_graphOf (extensions : List String) (e : Extractor) (sources : Keyed String) :
    (graphOf extensions e sources).2 = (Source.analyzeFiles e sources).2 ++
      [(graphOf extensions e sources).1.log] := by
  simp only [graphOf, Built.log, Risk.scoreAll, Keyed.size, Keyed.mapValues, List.length_map]

theorem log_textual (sources : Keyed String) :
    (Source.analyzeFiles .textual sources).2 = [] := by
  simp only [Source.analyzeFiles, Keyed.mapValues, List.filterMap_map]
  exact List.filterMap_eq_nil_iff.mpr fun _ _ => rfl

/-- A file of which there are records both with and without the others. -/
theorem falls_textual {missing : List String} {path : String} {r r' : FileRecord}
    (h : (analyzeSources extensions .textual sources).get? path = some r)
    (h' : (analyzeSources extensions .textual (sources.without missing)).get? path = some r') :
    r'.path = r.path ∧ r'.exports = r.exports ∧
      List.Forall₂ (Falls extensions sources missing path) r.imports r'.imports ∧
      (r'.imports = r.imports → r'.dependencies = r.dependencies) := by
  obtain ⟨text, htext, rfl⟩ := get?_textual.mp h
  obtain ⟨text', htext', rfl⟩ := get?_textual.mp h'
  obtain rfl : text' = text := by
    rw [Keyed.get?_without, htext] at htext'
    split at htext'
    · cases htext'
    · exact (Option.some.inj htext').symm
  refine ⟨rfl, rfl, ?_, ?_⟩
  · rw [Risk.imports_scored, Risk.imports_scored, settled, settled, Keyed.contains_mapValues,
      Keyed.contains_mapValues, List.forall₂_map_left_iff, List.forall₂_map_right_iff,
      List.forall₂_same]
    exact fun edge hedge => falls_linkImport extensions sources missing path
      (Source.resolved_importsOf edge hedge)
  · intro himports
    exact congrArg Links.dependencies (linkFile_congr himports)

theorem countAsAbsent {e : Extractor} {sources : Keyed String} {failing : List String}
    (extensions : List String) (h : e.FailsOn sources failing) :
    CountAsAbsent extensions e sources failing := by
  have hsame : (graphOf extensions e sources).1 =
      (graphOf extensions .textual (sources.without failing)).1 := by
    rw [graphOf_eq_evaluate, graphOf_eq_evaluate, Source.analyzeFiles_failsOn h]
  have hfiles : analyzeSources extensions e sources =
      analyzeSources extensions .textual (sources.without failing) := congrArg Built.files hsame
  constructor
  case same => exact hsame
  case ends => exact fun maxWorkers => Pool.exists_run (by omega) _ _
  case pooled =>
    intro maxWorkers p hrun hdone
    rw [pooledRecords_of_run hrun hdone, ← graphOf_eq_evaluate, hsame]
  case reported =>
    refine ⟨_, ?_, Source.log_failsOn h⟩
    rw [log_graphOf, log_graphOf extensions .textual, log_textual, List.nil_append, hsame]
  case falls =>
    intro path r r' hr hr'
    rw [hfiles] at hr'
    obtain ⟨hpath, hexports, himports, _⟩ := falls_textual hr hr'
    exact ⟨hpath, hexports, himports⟩
  case unaffected =>
    intro path r r' hr hr' hkept
    rw [hfiles] at hr'
    obtain ⟨_, _, himports, hdependencies⟩ := falls_textual hr hr'
    have hall : r'.imports = r.imports := by
      have hboth := (List.forall₂_and_left _ _).mpr ⟨hkept, himports⟩
      have heq : List.Forall₂ (· = ·) r.imports r'.imports :=
        hboth.imp fun i i' hi => by rw [hi.2.same, hi.2.kept hi.1]
      exact (List.forall₂_eq_eq_eq ▸ heq).symm
    exact ⟨hall, hdependencies hall⟩

namespace Sample

/-- A specifier that is tried as a file first and then as a directory. -/
def candidates : Keyed String := .ofList [("src/a.ts", "import b from './b'"),
  ("src/b.ts", "export const b = 1;"), ("src/b/index.ts", "export const b = 2;")]

def failsOnFirst : Extractor := Extractor.textual.failingOn ["src/b.ts"] (.refused "boom")

end Sample

theorem countAsAbsent_sample :
    Sample.failsOnFirst.FailsOn Sample.candidates ["src/b.ts"] ∧
      CountAsAbsent [".ts"] Sample.failsOnFirst Sample.candidates ["src/b.ts"] := by
  have h : Sample.failsOnFirst.FailsOn Sample.candidates ["src/b.ts"] :=
    Extractor.failsOn_failingOn _ _ _
  exact ⟨h, countAsAbsent [".ts"] h⟩

end Project

end ChangeImpact
