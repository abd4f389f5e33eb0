import ChangeImpact.Proofs.Graph.Rebuild
import ChangeImpact.Proofs.Path.Segments
import ChangeImpact.Proofs.Source.LineLaws

/-!
# Proofs.Project.Growth

Text at the end of a file.

* `Source.importsOf_append`, `Source.exportsOf_append` — what was found before is still found, in
  front.
* `Graph.MoreText`       — maps of the same files, with further imports and exports.
* `Graph.NoLess`         — graphs in which no file has lost an edge or has less risk.
* `Graph.noLess_evaluate` — an evaluation keeps all that it had of less text.
* `Project.noLess_append` — so an analysis does when a text goes on.
-/

namespace ChangeImpact

/-! ## Lines -/

namespace Source

theorem numberedLines_append (text more : String) :
    numberedLines text <+: numberedLines (text ++ "\n" ++ more) := by
  rw [numberedLines_join]
  exact List.prefix_append _ _

theorem importsOf_append (path text more : String) :
    importsOf path text <+: importsOf path (text ++ "\n" ++ more) := by
  obtain ⟨rest, hrest⟩ := numberedLines_append text more
  rw [importsOf, importsOf, ← hrest, List.flatMap_append]
  exact List.prefix_append _ _

theorem exportsOf_append (text more : String) :
    exportsOf text <+: exportsOf (text ++ "\n" ++ more) := by
  obtain ⟨rest, hrest⟩ := numberedLines_append text more
  rw [exportsOf, exportsOf, ← hrest, List.flatMap_append]
  exact List.prefix_append _ _

end Source

/-! ## Risk -/

namespace Risk

/-- The thresholds of the levels are in order. -/
theorem ordinal_classify_mono {low high : Int} (h : low ≤ high) :
    (classify low).ordinal ≤ (classify high).ordinal := by
  -- one case for each pair of levels
  unfold classify
  split_ifs <;> simp only [RiskLevel.ordinal] <;> omega

theorem score_mono {r r' : FileRecord} (path : r'.path = r.path)
    (dependencies : r.dependencies.length ≤ r'.dependencies.length)
    (dependents : r.dependents.length ≤ r'.dependents.length)
    (exports : r.exports.length ≤ r'.exports.length) : score r ≤ score r' := by
  rw [score, score, path]
  omega

end Risk

/-! ## Edges -/

/-- The record `r'` has all that `r` has, and no less risk. -/
structure NoLessThan (r' r : FileRecord) : Prop where
  path : r'.path = r.path
  imports : r.imports <+: r'.imports
  exports : r.exports <+: r'.exports
  dependencies : r.dependencies <+: r'.dependencies
  dependents : r.dependents.Sublist r'.dependents
  score : Risk.score r ≤ Risk.score r'
  risk : ∃ level level', r.risk = .known level ∧ r'.risk = .known level' ∧
    level.ordinal ≤ level'.ordinal

namespace Graph

/-- The same files, each with further imports and exports after its own. -/
structure MoreText (files' files : FileMap) : Prop where
  keys : files'.keys = files.keys
  records : ∀ path r, files.get? path = some r → ∃ r', files'.get? path = some r' ∧
    r'.path = r.path ∧ r.imports <+: r'.imports ∧ r.exports <+: r'.exports

/-- The same files, none of them with less than it had. -/
structure NoLess (files' files : FileMap) : Prop where
  keys : files'.keys = files.keys
  records : ∀ path r, files.get? path = some r →
    ∃ r', files'.get? path = some r' ∧ NoLessThan r' r

theorem dependencies_add (path : String) (l : Links) (edge : ImportEdge) :
    l.dependencies <+: (l.add path edge).dependencies := by
  unfold Links.add
  dsimp only
  split
  · split
    · exact List.prefix_refl _
    · split
      · exact List.prefix_refl _
      · exact List.prefix_append _ _
  · exact List.prefix_refl _

/-- Imports that come later take no dependency away. -/
theorem dependencies_foldl_add (link : ImportEdge → ImportEdge) (path : String)
    (imports : List ImportEdge) : ∀ l : Links, l.dependencies <+:
      (imports.foldl (fun l edge => l.add path (link edge)) l).dependencies := by
  induction imports with
  | nil => exact fun l => List.prefix_refl _
  | cons edge rest ih => exact fun l => (dependencies_add path l (link edge)).trans (ih _)

section Build

variable (extensions : List String) {files files' : FileMap}

theorem MoreText.contains (h : MoreText files' files) : files'.contains = files.contains := by
  funext key
  rw [Bool.eq_iff_iff, ← Keyed.mem_keys_iff, ← Keyed.mem_keys_iff, h.keys]

theorem dependenciesOf_mono (h : MoreText files' files) (path : String) {r r' : FileRecord}
    (himports : r.imports <+: r'.imports) :
    dependenciesOf extensions files path r <+: dependenciesOf extensions files' path r' := by
  obtain ⟨more, hmore⟩ := himports
  rw [dependenciesOf, dependenciesOf, h.contains, linkFile, linkFile, ← hmore, List.foldl_append]
  exact dependencies_foldl_add _ path more _

theorem dependsOn_build_iff {path target : String} :
    dependsOn (build extensions files).files path target = true ↔
      ∃ r, files.get? path = some r ∧ target ∈ dependenciesOf extensions files path r := by
  rw [dependsOn_iff]
  constructor
  · rintro ⟨s, hs, htarget⟩
    obtain ⟨r, hr, rfl⟩ := get?_build hs
    exact ⟨r, hr, htarget⟩
  · rintro ⟨r, hr, htarget⟩
    refine ⟨settled extensions files path r, ?_, htarget⟩
    rw [build_files, Keyed.get?_mapValues, hr]
    rfl

/-- The dependents of a file are picked from the paths of the map by its edges. -/
theorem dependentsOf_eq_filter (path : String) : dependentsOf extensions files path =
    files.keys.filter fun other => dependsOn (build extensions files).files other path := by
  rw [dependentsOf, Keyed.keys, List.filter_map]
  refine congrArg _ (List.filter_congr ?_)
  intro e he
  have hrecord : files.get? e.1 = some e.2 := files.get?_eq_some_iff.mpr he
  rw [Bool.eq_iff_iff, Function.comp_apply, dependsOn_build_iff, decide_eq_true_eq]
  simp [hrecord]

theorem dependentsOf_sublist_of_moreText (h : MoreText files' files) (path : String) :
    (dependentsOf extensions files path).Sublist (dependentsOf extensions files' path) := by
  rw [dependentsOf_eq_filter, dependentsOf_eq_filter, h.keys]
  refine List.monotone_filter_right _ fun other hedge => ?_
  obtain ⟨r, hr, htarget⟩ := (dependsOn_build_iff extensions).mp hedge
  obtain ⟨r', hr', _, himports, _⟩ := h.records other r hr
  exact (dependsOn_build_iff extensions).mpr
    ⟨r', hr', (dependenciesOf_mono extensions h other himports).subset htarget⟩

theorem noLessThan_settled (h : MoreText files' files) (path : String) {r r' : FileRecord}
    (hpath : r'.path = r.path) (himports : r.imports <+: r'.imports)
    (hexports : r.exports <+: r'.exports) :
    NoLessThan (Risk.scored (settled extensions files' path r'))
      (Risk.scored (settled extensions files path r)) := by
  have hdependencies := dependenciesOf_mono extensions h path himports
  have hdependents := dependentsOf_sublist_of_moreText extensions h path
  have hscore : Risk.score (settled extensions files path r) ≤
      Risk.score (settled extensions files' path r') :=
    Risk.score_mono hpath hdependencies.length_le hdependents.length_le hexports.length_le
  constructor
  case path => exact hpath
  case imports =>
    simp only [Risk.imports_scored, settled, h.contains]
    exact himports.map _
  case exports => exact hexports
  case dependencies => exact hdependencies
  case dependents => exact hdependents
  case score => exact hscore
  case risk => exact ⟨_, _, rfl, rfl, Risk.ordinal_classify_mono (Int.ofNat_le.mpr hscore)⟩

end Build

theorem noLess_evaluate (extensions : List String) {files files' : FileMap}
    (h : MoreText files' files) :
    NoLess (evaluate extensions files').files (evaluate extensions files).files := by
  constructor
  case keys => rw [keys_evaluate, keys_evaluate, h.keys]
  case records =>
    intro path s hs
    rw [get?_evaluate, Option.map_eq_some_iff] at hs
    obtain ⟨r, hr, rfl⟩ := hs
    obtain ⟨r', hr', hpath, himports, hexports⟩ := h.records path r hr
    refine ⟨_, ?_, noLessThan_settled extensions h path hpath himports hexports⟩
    rw [get?_evaluate, hr']
    rfl

end Graph

namespace Project

open Source (textRecord)

/-- The records of texts, one of which goes on. -/
theorem moreText_append {sources : Keyed String} {path text : String}
    (h : sources.get? path = some text) (more : String) :
    Graph.MoreText ((sources.insert path (text ++ "\n" ++ more)).mapValues textRecord)
      (sources.mapValues textRecord) := by
  constructor
  case keys =>
    have hkey : path ∈ sources.keys := by rw [Keyed.mem_keys_iff, Keyed.contains, h]; rfl
    rw [Keyed.keys_mapValues, Keyed.keys_mapValues, Keyed.keys_insert, if_pos hkey]
  case records =>
    intro other r hr
    rw [Keyed.get?_mapValues, Option.map_eq_some_iff] at hr
    obtain ⟨source, hsource, rfl⟩ := hr
    by_cases hother : path = other
    · obtain rfl : text = source := by rw [hother, hsource] at h; exact (Option.some.inj h).symm
      refine ⟨textRecord other (text ++ "\n" ++ more), ?_, rfl, Source.importsOf_append _ _ _,
        Source.exportsOf_append _ _⟩
      simp [hother]
    · refine ⟨textRecord other source, ?_, rfl, List.prefix_refl _, List.prefix_refl _⟩
      simp [hother, hsource]

/-- Where a text goes on after a line break, no file loses an edge and none is less at risk. -/
theorem noLess_append (extensions : List String) {sources : Keyed String} {path text : String}
    (h : sources.get? path = some text) (more : String) :
    Graph.NoLess
      (analyzeSources extensions .textual (sources.insert path (text ++ "\n" ++ more)))
      (analyzeSources extensions .textual sources) := by
  simp only [analyzeSources, Graph.graphOf_eq_evaluate, Source.analyzeFiles_textual]
  exact Graph.noLess_evaluate extensions (moreText_append h more)

namespace Sample

def tools : Keyed String :=
  .ofList [("src/utils/date.ts", "export const day = 1;"), ("src/page.ts", "/* to do")]

end Sample

theorem noLess_append_sample : Sample.tools.get? "src/page.ts" = some "/* to do" ∧
    Graph.NoLess
      (analyzeSources [".ts"] .textual
        (Sample.tools.insert "src/page.ts" ("/* to do" ++ "\n" ++ "import './utils/date' */")))
      (analyzeSources [".ts"] .textual Sample.tools) := by
  have h : Sample.tools.get? "src/page.ts" = some "/* to do" := by decide
  exact ⟨h, noLess_append [".ts"] h "import './utils/date' */"⟩

end Project

end ChangeImpact
