import ChangeImpact.Impact
import ChangeImpact.Project
import ChangeImpact.Proofs.Graph.DependencyLaw
import ChangeImpact.Proofs.Source.Textual

/-!
# Proofs.Graph.Edges

The edges of an analyzed project, as a relation between paths.

* `dependsOn`  — one file names the other among its dependencies.
* `Chain`      — one file leads to another over a number of such edges.
* `TwoEnded`   — the edges of a map are known at both of their ends, and none is entered twice.
* `TwoEnded.mem_dependentsIn` — then the files that the prediction of impact goes to are those that
  depend on the one it comes from.
* `Project.twoEnded_analyzeSources` — the map of an analyzed project is one of these.
* `Project.dependsOn_textual`       — where the textual extractor is used, the edges of a file are
  those of its imports.
-/

namespace ChangeImpact

theorem Keyed.contains_mapValues {α β : Type} (f : String → α → β) (m : Keyed α) :
    (m.mapValues f).contains = m.contains := by
  funext k
  rw [contains, contains, get?_mapValues, Option.isSome_map]

namespace Graph

/-- The file at `path` names `target` among its dependencies. -/
def dependsOn (files : FileMap) (path target : String) : Bool :=
  ((files.get? path).map fun r => r.dependencies.contains target).getD false

theorem dependsOn_iff {files : FileMap} {path target : String} :
    dependsOn files path target = true ↔
      ∃ r, files.get? path = some r ∧ target ∈ r.dependencies := by
  rw [dependsOn]
  cases files.get? path <;> simp

inductive Chain (files : FileMap) : Nat → String → String → Prop
  | here (path : String) : Chain files 0 path path
  | step {n : Nat} {path next target : String} (edge : dependsOn files path next = true)
      (rest : Chain files n next target) : Chain files (n + 1) path target

theorem chain_zero {files : FileMap} {path target : String} :
    Chain files 0 path target ↔ path = target := by
  constructor
  · rintro ⟨⟩
    rfl
  · rintro rfl
    exact .here path

theorem chain_succ {files : FileMap} {n : Nat} {path target : String} :
    Chain files (n + 1) path target ↔
      ∃ next, dependsOn files path next = true ∧ Chain files n next target := by
  constructor
  · rintro (_ | ⟨edge, rest⟩)
    exact ⟨_, edge, rest⟩
  · rintro ⟨next, edge, rest⟩
    exact .step edge rest

structure TwoEnded (files : FileMap) : Prop where
  symmetric : ∀ {p q r s}, files.get? p = some r → files.get? q = some s →
    (q ∈ r.dependents ↔ p ∈ s.dependencies)
  dependencies_known : ∀ {q s}, files.get? q = some s →
    ∀ d ∈ s.dependencies, d ∈ files.keys ∧ d ≠ q
  dependents_known : ∀ {q s}, files.get? q = some s →
    ∀ d ∈ s.dependents, d ∈ files.keys ∧ d ≠ q
  dependents_nodup : ∀ {q s}, files.get? q = some s → s.dependents.Nodup

namespace TwoEnded

variable {files : FileMap} {path target : String}

theorem mem_dependentsIn (h : TwoEnded files) :
    path ∈ Impact.dependentsIn files target ↔ dependsOn files path target = true := by
  rw [dependsOn_iff, Impact.dependentsIn]
  constructor
  · intro hpath
    cases htarget : files.get? target with
    | none => simp [htarget] at hpath
    | some r =>
      have hpath : path ∈ r.dependents := by simpa [htarget] using hpath
      obtain ⟨s, hs⟩ := exists_of_mem_keys (h.dependents_known htarget path hpath).1
      exact ⟨s, hs, (h.symmetric htarget hs).mp hpath⟩
  · rintro ⟨s, hs, hdependency⟩
    obtain ⟨r, hr⟩ := exists_of_mem_keys (h.dependencies_known hs target hdependency).1
    simpa [hr] using (h.symmetric hr hs).mpr hdependency

theorem nodup_dependentsIn (h : TwoEnded files) (target : String) :
    (Impact.dependentsIn files target).Nodup := by
  rw [Impact.dependentsIn]
  cases htarget : files.get? target with
  | none => exact .nil
  | some r => exact h.dependents_nodup htarget

theorem not_dependsOn_self (h : TwoEnded files) (path : String) :
    dependsOn files path path = false := by
  rw [Bool.eq_false_iff, ne_eq, dependsOn_iff]
  rintro ⟨r, hr, hself⟩
  exact (h.dependencies_known hr path hself).2 rfl

end TwoEnded

/-- A file depends on every other file that one of its imports leads to. -/
theorem mem_dependenciesOf {extensions : List String} {files : FileMap} {path target : String}
    {record : FileRecord} (hne : path ≠ target) :
    target ∈ dependenciesOf extensions files path record ↔
      ∃ i ∈ record.imports.map (linkImport files.contains extensions path),
        leadsTo target i = true := by
  have hsound := sound_linkFile files.contains extensions path record
  rw [← imports_linkFile]
  constructor
  · exact hsound.founded target
  · rintro ⟨i, hi, hleads⟩
    obtain ⟨hrelative, hresolved⟩ := leadsTo_iff.mp hleads
    exact (hsound.covered i hi hrelative target hresolved).resolve_left hne.symm

theorem mem_keys_of_dependsOn {files : FileMap} {path target : String}
    (h : dependsOn files path target = true) : path ∈ files.keys := by
  obtain ⟨r, hr, _⟩ := dependsOn_iff.mp h
  rw [Keyed.mem_keys_iff, Keyed.contains, hr]
  rfl

end Graph

/-! ## Analyzed projects -/

namespace Risk

/-! A score leaves the links of a record alone. -/

variable (r : FileRecord)

@[simp] theorem imports_scored : (scored r).imports = r.imports := rfl

@[simp] theorem dependencies_scored : (scored r).dependencies = r.dependencies := rfl

@[simp] theorem dependents_scored : (scored r).dependents = r.dependents := rfl

end Risk

namespace Project

variable {extensions : List String} {extractor : Extractor} {sources : Keyed String}

/-- The record of an analyzed file: linked with the others, and scored. -/
theorem get?_analyzeSources {path : String} {r : FileRecord}
    (h : (analyzeSources extensions extractor sources).get? path = some r) :
    ∃ s, (Graph.build extensions (Source.analyzeFiles extractor sources).1).files.get? path =
      some s ∧ r = Risk.scored s := by
  simp only [analyzeSources, graphOf, Risk.scoreAll, Keyed.get?_mapValues,
    Option.map_eq_some_iff] at h
  obtain ⟨s, hs, rfl⟩ := h
  exact ⟨s, hs, rfl⟩

theorem keys_analyzeSources : (analyzeSources extensions extractor sources).keys =
    (Source.analyzeFiles extractor sources).1.keys := by
  simp only [analyzeSources, graphOf, Risk.scoreAll, Keyed.keys_mapValues, Graph.keys_build]

theorem twoEnded_analyzeSources : Graph.TwoEnded (analyzeSources extensions extractor sources) := by
  constructor
  case symmetric =>
    intro p q r s hp hq
    obtain ⟨r, hr, rfl⟩ := get?_analyzeSources hp
    obtain ⟨s, hs, rfl⟩ := get?_analyzeSources hq
    rw [Risk.dependents_scored, Risk.dependencies_scored]
    exact Graph.symmetric_build hr hs
  case dependencies_known =>
    intro q s hq d hd
    obtain ⟨s, hs, rfl⟩ := get?_analyzeSources hq
    rw [Risk.dependencies_scored] at hd
    rw [keys_analyzeSources, ← Graph.keys_build]
    exact Graph.dependencies_known_build hs hd
  case dependents_known =>
    intro q s hq d hd
    obtain ⟨s, hs, rfl⟩ := get?_analyzeSources hq
    rw [Risk.dependents_scored] at hd
    rw [keys_analyzeSources, ← Graph.keys_build]
    exact Graph.dependents_known_build hs hd
  case dependents_nodup =>
    intro q s hq
    obtain ⟨s, hs, rfl⟩ := get?_analyzeSources hq
    obtain ⟨s₀, _, rfl⟩ := Graph.get?_build hs
    rw [Risk.dependents_scored]
    exact (Graph.dependentsOf_sublist _).nodup (Source.analyzeFiles extractor sources).1.nodup

/-! ## The textual extractor -/

open Source (textRecord)

theorem get?_textual {path : String} {r : FileRecord} :
    (analyzeSources extensions .textual sources).get? path = some r ↔
      ∃ text, sources.get? path = some text ∧
        r = Risk.scored (Graph.settled extensions (sources.mapValues textRecord) path
          (textRecord path text)) := by
  simp only [analyzeSources, graphOf, Risk.scoreAll, Graph.build_files, Source.analyzeFiles_textual,
    Keyed.get?_mapValues, Option.map_map, Option.map_eq_some_iff, Function.comp_apply]
  exact exists_congr fun text => and_congr_right fun _ => eq_comm

theorem keys_textual : (analyzeSources extensions .textual sources).keys = sources.keys := by
  rw [keys_analyzeSources, Source.analyzeFiles_textual, Keyed.keys_mapValues]

/-- The imports of an analyzed file are those of its text, resolved among the sources. -/
theorem imports_textual {path : String} {r : FileRecord}
    (h : (analyzeSources extensions .textual sources).get? path = some r) :
    ∃ text, sources.get? path = some text ∧ r.imports = (Source.importsOf path text).map
      (Graph.linkImport sources.contains extensions path) := by
  obtain ⟨text, htext, rfl⟩ := get?_textual.mp h
  refine ⟨text, htext, ?_⟩
  rw [← Keyed.contains_mapValues textRecord sources, Risk.imports_scored]
  rfl

/-- Its dependencies are what those lead to. -/
theorem mem_dependencies_textual {path target : String} {r : FileRecord} (hne : path ≠ target)
    (h : (analyzeSources extensions .textual sources).get? path = some r) :
    target ∈ r.dependencies ↔ ∃ i ∈ r.imports, Graph.leadsTo target i = true := by
  obtain ⟨text, _, rfl⟩ := get?_textual.mp h
  rw [Risk.imports_scored, Risk.dependencies_scored]
  exact Graph.mem_dependenciesOf hne

/-- An import that is not relative is not resolved at all. -/
theorem leadsTo_textual {path target : String} {r : FileRecord}
    (h : (analyzeSources extensions .textual sources).get? path = some r) :
    ∀ i ∈ r.imports, Graph.leadsTo target i = true ↔ i.resolved = some target := by
  intro i hi
  obtain ⟨text, _, himports⟩ := imports_textual h
  rw [himports] at hi
  obtain ⟨edge, hedge, rfl⟩ := List.mem_map.mp hi
  rw [Graph.leadsTo_iff, and_iff_right_iff_imp]
  intro hresolved
  by_contra hother
  rw [Graph.isRelative_linkImport] at hother
  rw [Graph.linkImport, if_neg hother, Source.resolved_importsOf edge hedge] at hresolved
  cases hresolved

theorem dependsOn_textual {path target : String} {r : FileRecord} (hne : path ≠ target)
    (h : (analyzeSources extensions .textual sources).get? path = some r) :
    Graph.dependsOn (analyzeSources extensions .textual sources) path target = true ↔
      ∃ i ∈ r.imports, i.resolved = some target := by
  calc Graph.dependsOn (analyzeSources extensions .textual sources) path target = true
      ↔ target ∈ r.dependencies := by simp [Graph.dependsOn_iff, h]
    _ ↔ ∃ i ∈ r.imports, Graph.leadsTo target i = true := mem_dependencies_textual hne h
    _ ↔ ∃ i ∈ r.imports, i.resolved = some target :=
        exists_congr fun i => and_congr_right fun hi => leadsTo_textual h i hi

end Project

end ChangeImpact
