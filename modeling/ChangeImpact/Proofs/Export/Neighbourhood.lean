import ChangeImpact.Proofs.Export.DotReadBack
import ChangeImpact.Proofs.Export.Page
import ChangeImpact.Proofs.Impact.BlastRadius
import Mathlib.Data.List.Sort
import Mathlib.Data.String.Basic

/-!
# Proofs.Export.Neighbourhood

What a focus leaves of the graph of an analyzed project.

* `Names`, `HasFocus`      — a path that a focus names, and a map in which there is one.
* `IsNeighbourhood`        — the files that are named, their neighbours and the edges between them.
* `IsWhole`                — the whole graph, with the edges that a summary counts.
* `select_neighbourhood`, `select_whole` — a selection is one of the two.
* `exported_neighbourhood` — every export succeeds and shows just that.
-/

namespace ChangeImpact

theorem Project.nodup_dependencies {extensions : List String} {extractor : Extractor}
    {sources : Keyed String} {path : String} {r : FileRecord}
    (h : (analyzeSources extensions extractor sources).get? path = some r) :
    r.dependencies.Nodup := by
  obtain ⟨s, hs, rfl⟩ := get?_analyzeSources h
  obtain ⟨s₀, _, rfl⟩ := Graph.get?_build hs
  exact (Graph.sound_linkFile _ _ _ _).nodup

namespace Export

open ChangeImpact.Graph

/-- The path contains the focus. -/
def Names (focus path : String) : Prop := focus.toList <:+: path.toList

/-- There is a focus, and it names a file of the map. -/
def HasFocus (files : FileMap) (focus : String) : Prop :=
  focus ≠ "" ∧ ∃ p ∈ files.keys, Names focus p

/-- The edges are in the order of the whole graph, the nodes in that of their paths, and none is
there twice. -/
structure IsNeighbourhood (files : FileMap) (focus : String) (s : Selection) : Prop where
  mem_edges_iff : ∀ e, e ∈ s.edges ↔
    dependsOn files e.1 e.2 = true ∧ (Names focus e.1 ∨ Names focus e.2)
  edges_nodup : s.edges.Nodup
  edges_ordered : s.edges.Sublist (select files "").edges
  mem_nodes_iff : ∀ p, p ∈ s.nodes ↔
    (p ∈ files.keys ∧ Names focus p) ∨ ∃ e ∈ s.edges, p = e.1 ∨ p = e.2
  nodes_ascending : s.nodes.Pairwise (· < ·)

/-- All files and all edges in the order of the map. -/
structure IsWhole (files : FileMap) (s : Selection) : Prop where
  nodes : s.nodes = files.keys
  edges : s.edges = files.entries.flatMap fun (path, r) => r.dependencies.map fun d => (path, d)
  edges_nodup : s.edges.Nodup
  edges_counted : s.edges.length = (Risk.summarize files).edges

section Selection

variable {files : FileMap} {focus : String}

theorem occursIn_iff {p : String} : Text.occursIn focus p = true ↔ Names focus p :=
  Text.contains_iff

theorem sorted_ascending {texts : List String} (h : texts.Nodup) :
    (sorted texts).Pairwise (· < ·) := by
  have hle : (sorted texts).Pairwise (· ≤ ·) := List.pairwise_mergeSort' (· ≤ ·) texts
  have hne : (sorted texts).Nodup := (List.mergeSort_perm texts _).nodup_iff.mpr h
  exact hle.imp₂ (fun _ _ hab hne => lt_of_le_of_ne hab hne) hne

/-- No file is there twice, nor is one among its dependencies. -/
theorem nodup_edges (h : ∀ {path r}, files.get? path = some r → r.dependencies.Nodup) :
    (edges files).Nodup := by
  rw [edges, List.nodup_flatMap]
  constructor
  · rintro ⟨path, r⟩ hmem
    exact (h ((Keyed.get?_eq_some_iff files).mpr hmem)).map (fun _ _ hsame => congrArg Prod.snd hsame)
  · have hpaths : files.entries.Pairwise fun a b => a.1 ≠ b.1 := List.pairwise_map.mp files.nodup
    refine hpaths.imp fun {a b} hne => List.disjoint_left.mpr fun e ha hb => ?_
    obtain ⟨_, _, rfl⟩ := List.mem_map.mp ha
    obtain ⟨_, _, hb⟩ := List.mem_map.mp hb
    exact hne (congrArg Prod.fst hb).symm

theorem length_edges : (edges files).length = (Risk.summarize files).edges := by
  rw [edges, List.length_flatMap, Risk.summarize]
  simp [Keyed.total_eq_sum, Keyed.values, Function.comp_def]

theorem isWhole_whole (h : (edges files).Nodup) : IsWhole files (whole files) where
  nodes := rfl
  edges := rfl
  edges_nodup := h
  edges_counted := length_edges

theorem select_whole (h : (edges files).Nodup) (hfocus : ¬ HasFocus files focus) :
    IsWhole files (select files focus) := by
  have hselect : select files focus = whole files := by
    rw [select, if_pos]
    rw [Bool.or_eq_true, decide_eq_true_eq, List.isEmpty_iff, List.filter_eq_nil_iff]
    by_cases hempty : focus = ""
    · exact .inl hempty
    · refine .inr fun p hp hoccurs => hfocus ⟨hempty, p, hp, occursIn_iff.mp hoccurs⟩
  rw [hselect]
  exact isWhole_whole h

theorem select_neighbourhood (h : (edges files).Nodup) (hends : TwoEnded files)
    (hfocus : HasFocus files focus) : IsNeighbourhood files focus (select files focus) := by
  obtain ⟨hne, p, hp, hnames⟩ := hfocus
  let named := files.keys.filter fun p => Text.occursIn focus p
  have hnamed : ∀ p, p ∈ named ↔ p ∈ files.keys ∧ Names focus p := by
    simp [named, occursIn_iff]
  let near := (edges files).filter fun e => named.contains e.1 || named.contains e.2
  have hselect : select files focus =
      { nodes := sorted (named ++ near.flatMap fun e => [e.1, e.2]).eraseDups, edges := near } := by
    rw [select, if_neg]
    rw [Bool.or_eq_true, decide_eq_true_eq, List.isEmpty_iff, not_or]
    exact ⟨hne, List.ne_nil_of_mem ((hnamed p).mpr ⟨hp, hnames⟩)⟩
  rw [hselect]
  constructor
  case mem_edges_iff =>
    intro e
    rw [List.mem_filter, mem_edges, Bool.or_eq_true, List.contains_iff_mem, List.contains_iff_mem,
      hnamed, hnamed]
    refine and_congr_right fun hedge => ?_
    obtain ⟨hsource, htarget⟩ := ends_of_mem_whole hends (mem_edges.mpr hedge)
    rw [and_iff_right hsource, and_iff_right htarget]
  case edges_nodup => exact h.filter _
  case edges_ordered => exact List.filter_sublist
  case mem_nodes_iff =>
    intro p
    rw [mem_sorted, List.mem_eraseDups, List.mem_append, hnamed, List.mem_flatMap]
    simp
  case nodes_ascending => exact sorted_ascending (nodup_eraseDups _)

end Selection

/-- Every export of an analyzed project succeeds. With a focus that names one of its files it shows
the neighbourhood of those, and without one the whole graph; either way each edge has its ends among
the nodes that are shown. -/
theorem exported_neighbourhood (extensions : List String) (extractor : Extractor)
    (sources : Keyed String) (focus : String) :
    let files := Project.analyzeSources extensions extractor sources
    let s := select files focus
    ((HasFocus files focus ∧ IsNeighbourhood files focus s) ∨
      (¬ HasFocus files focus ∧ IsWhole files s)) ∧
    (∀ e ∈ s.edges, e.1 ∈ s.nodes ∧ e.2 ∈ s.nodes) ∧
    (∃ level, (∀ p ∈ s.nodes, ∃ r, files.get? p = some r ∧ r.risk = .known (level p)) ∧
      dot files focus = .ok (Dot.textOf s.nodes level s.edges)) ∧
    ∃ nodes, List.Forall₂ (Draws files) s.nodes nodes ∧
      html files focus = .ok (page (graphObject nodes s)) := by
  intro files s
  have hends : TwoEnded files := Project.twoEnded_analyzeSources
  have hedges : (edges files).Nodup := nodup_edges fun hr => Project.nodup_dependencies hr
  refine ⟨?_, fun e he => ends_of_mem_edges hends he,
    Dot.exists_dot extensions extractor sources focus, ?_⟩
  · by_cases hfocus : HasFocus files focus
    · exact .inl ⟨hfocus, select_neighbourhood hedges hends hfocus⟩
    · exact .inr ⟨hfocus, select_whole hedges hfocus⟩
  · obtain ⟨nodes, hgraph, hdraws⟩ :=
      graphValue_of_shown files focus fun p hp => shown_analyzeSources hp
    refine ⟨nodes, hdraws, ?_⟩
    rw [html, hgraph]
    rfl

end Export

end ChangeImpact
