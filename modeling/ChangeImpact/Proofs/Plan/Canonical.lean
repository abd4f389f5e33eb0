import ChangeImpact.Plan.Planner
import ChangeImpact.Proofs.Graph.Passes
import ChangeImpact.Proofs.Plan.FileForm

/-!
# Proofs.Plan.Canonical

Plans that come from an analysis hold nothing but members of the vocabularies.

* `Project.canonical_analyze`  — the records of an analyzed project.
* `Impact.canonical_predict`   — the impacts of a change.
* `Planner.canonical_draft`    — a new plan.
-/

namespace ChangeImpact

open Label

/-! ## Extraction -/

namespace Source

theorem canonical_lineImports {path : String} {number : Nat} {line : List Char} :
    ∀ e ∈ lineImports path number line, e.Canonical := by
  intro e he
  rw [lineImports, List.mem_append] at he
  rcases he with he | he
  · split at he
    · rw [List.mem_singleton] at he
      rw [he]
      exact canonical_known _
    · contradiction
  · split at he
    · rw [List.mem_singleton] at he
      rw [he]
      exact canonical_known _
    · contradiction

theorem canonical_lineExports {number : Nat} {line : List Char} :
    ∀ s ∈ lineExports number line, s.Canonical := by
  intro s hs
  rw [lineExports] at hs
  split at hs
  · rw [List.mem_singleton] at hs
    rw [hs]
    exact canonical_known _
  · split at hs
    · rw [List.mem_singleton] at hs
      rw [hs]
      exact canonical_known _
    · contradiction

theorem canonical_analyzeFile {path text : String} {r : FileRecord}
    (h : analyzeFile .textual path text = .ok r) : r.Canonical := by
  rw [analyzeFile, Extractor.textual, Except.map, Except.ok.injEq] at h
  subst h
  refine ⟨?_, ?_, canonical_known _, by simp⟩
  · intro e he
    obtain ⟨line, _, he⟩ := List.mem_flatMap.mp he
    exact canonical_lineImports e he
  · intro s hs
    obtain ⟨line, _, hs⟩ := List.mem_flatMap.mp hs
    exact canonical_lineExports s hs

theorem canonical_analyzeFiles {sources : Keyed String} {path : String} {r : FileRecord}
    (h : (analyzeFiles .textual sources).1.get? path = some r) : r.Canonical := by
  simp only [analyzeFiles, Keyed.get?_filterMap, Keyed.get?_mapValues, Option.bind_eq_some_iff,
    Option.map_eq_some_iff] at h
  obtain ⟨result, ⟨text, _, rfl⟩, hr⟩ := h
  cases hfile : analyzeFile .textual path text with
  | error e => simp [hfile, Except.toOption] at hr
  | ok record =>
    simp only [hfile, Except.toOption, Option.some.injEq] at hr
    exact hr ▸ canonical_analyzeFile hfile

end Source

/-! ## Linking and scoring -/

theorem Graph.canonical_settled {extensions : List String} {files : FileMap} {path : String}
    {r : FileRecord} (h : r.Canonical) : (settled extensions files path r).Canonical := by
  refine ⟨?_, h.exports, h.risk, h.impacts⟩
  intro e he
  obtain ⟨edge, hedge, rfl⟩ := List.mem_map.mp he
  rw [linkImport]
  split
  · exact h.imports edge hedge
  · exact h.imports edge hedge

theorem Risk.canonical_scored {r : FileRecord} (h : r.Canonical) : (scored r).Canonical := by
  refine ⟨h.imports, h.exports, canonical_known _, ?_⟩
  intro i hi
  obtain ⟨d, _, rfl⟩ := List.mem_map.mp hi
  exact ⟨canonical_known _, canonical_known _⟩

namespace Project

theorem canonical_graphOf {extensions : List String} {sources : Keyed String} {path : String}
    {r : FileRecord} (h : (graphOf extensions .textual sources).1.files.get? path = some r) :
    r.Canonical := by
  simp only [graphOf, Risk.scoreAll, Graph.build_files, Keyed.get?_mapValues,
    Option.map_eq_some_iff] at h
  obtain ⟨linked, ⟨record, hrecord, rfl⟩, rfl⟩ := h
  exact Risk.canonical_scored (Graph.canonical_settled (Source.canonical_analyzeFiles hrecord))

/-- An analysis is one of the files that are found and can be read. -/
theorem result_analyze (s : ScanSettings) (d : Disk) (root : Option String) :
    (analyze s d root).1 = (readSources d (scan (scanOptions s root none) d).files).1.map
      (analyzeSources s.extensions .textual) := by
  -- the equation lemma of `build` is slow to derive
  delta analyze build
  dsimp only
  rcases readSources d (scan (scanOptions s root none) d).files with ⟨_ | sources, log⟩
  · rfl
  · rfl

theorem exists_sources_of_analyze {s : ScanSettings} {d : Disk} {root : Option String}
    {files : FileMap} (h : (analyze s d root).1 = .ok files) :
    ∃ sources, files = analyzeSources s.extensions .textual sources := by
  rw [result_analyze] at h
  cases hread : (readSources d (scan (scanOptions s root none) d).files).1 with
  | error e =>
    rw [hread] at h
    cases h
  | ok sources =>
    rw [hread] at h
    cases h
    exact ⟨sources, rfl⟩

theorem canonical_analyze {s : ScanSettings} {d : Disk} {root : Option String} {files : FileMap}
    (h : (analyze s d root).1 = .ok files) {path : String} {r : FileRecord}
    (hr : files.get? path = some r) : r.Canonical := by
  obtain ⟨sources, rfl⟩ := exists_sources_of_analyze h
  exact canonical_graphOf hr

end Project

/-! ## Plans -/

theorem Impact.canonical_predict {files : FileMap} {target : String} {kind : ChangeKind} :
    ∀ i ∈ predict files target kind, i.Canonical := by
  intro i hi
  rw [predict, List.mem_append, List.mem_map, List.mem_map] at hi
  rcases hi with ⟨file, _, rfl⟩ | ⟨file, _, rfl⟩
  · exact ⟨canonical_known _, canonical_known _⟩
  · exact ⟨canonical_known _, canonical_known _⟩

theorem Planner.canonical_draft {id now path description : String} {type : ChangeType}
    {record : FileRecord} {impacts : List Impact} (hrecord : record.Canonical)
    (himpacts : ∀ i ∈ impacts, i.Canonical) :
    (draft id now path description type record impacts).Canonical where
  changeType := canonical_known _
  status := canonical_known _
  step := canonical_known _
  analysis _ hr := Option.some.inj hr ▸ hrecord
  impacts := himpacts

end ChangeImpact
