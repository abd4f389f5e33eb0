import ChangeImpact.Plan.Basic
import ChangeImpact.Proofs.Graph.Edges

/-!
# Proofs.Impact.Deletion

A predicted deletion and an actual one: the graph of some sources beside the graph of the same
sources without one file.

* `Graph.linkImport_kept` — without some files, an import that led to none of them leads where it
  did.
* `Impact.Survives`         — an import in both graphs.
* `Impact.Foretold`         — what the prediction says about the second graph.
* `Impact.delete_foretold`  — it is right for all sources.
-/

namespace ChangeImpact

theorem Keyed.contains_erase {α : Type} (m : Keyed α) (key : String) :
    (m.erase key).contains = fun k => m.contains k && k != key := by
  funext k
  rw [contains, get?_erase]
  by_cases hk : key = k
  · simp [hk]
  · have hk' : k ≠ key := fun he => hk he.symm
    simp [hk, hk', contains]

namespace Graph

/-! ## Resolution without one of the files -/

/-- A search that goes past some of the known paths finds what it found, if that is none of
these. -/
theorem find?_kept {isKnown keep : String → Bool} {paths : List String}
    (h : ∀ t, paths.find? isKnown = some t → keep t = true) :
    (paths.find? fun k => isKnown k && keep k) = paths.find? isKnown := by
  induction paths with
  | nil => rfl
  | cons path rest ih =>
    cases hpath : isKnown path with
    | false =>
      rw [List.find?_cons_of_neg (by simp [hpath])] at h
      rw [List.find?_cons_of_neg (by simp [hpath]), List.find?_cons_of_neg (by simp [hpath]), ih h]
    | true =>
      rw [List.find?_cons_of_pos hpath] at h
      rw [List.find?_cons_of_pos (by simp [hpath, h path rfl]), List.find?_cons_of_pos hpath]

section Linking

variable {isKnown keep : String → Bool} {extensions : List String} {path target : String}
  {edge : ImportEdge}

theorem linkImport_kept
    (h : ∀ t, (linkImport isKnown extensions path edge).resolved = some t → keep t = true) :
    linkImport (fun k => isKnown k && keep k) extensions path edge =
      linkImport isKnown extensions path edge := by
  by_cases hrelative : isRelative edge = true
  · rw [resolved_linkImport hrelative] at h
    have hresolve : resolve (fun k => isKnown k && keep k) extensions path edge.specifier =
        resolve isKnown extensions path edge.specifier := find?_kept h
    rw [linkImport, linkImport, if_pos hrelative, if_pos hrelative, hresolve]
  · rw [linkImport, linkImport, if_neg hrelative, if_neg hrelative]

theorem linkImport_except_ne (h : edge.resolved = none) :
    (linkImport (fun k => isKnown k && k != target) extensions path edge).resolved ≠
      some target := by
  intro hresolved
  by_cases hrelative : isRelative edge = true
  · rw [resolved_linkImport hrelative] at hresolved
    have hfound := List.find?_some hresolved
    simp at hfound
  · rw [linkImport, if_neg hrelative, h] at hresolved
    cases hresolved

/-- Linking touches nothing of an import but where it leads. -/
theorem linkImport_eq (isKnown : String → Bool) (extensions : List String) (path : String)
    (edge : ImportEdge) : linkImport isKnown extensions path edge =
      { edge with resolved := (linkImport isKnown extensions path edge).resolved } := by
  by_cases hrelative : isRelative edge = true
  · rw [linkImport, if_pos hrelative]
  · rw [linkImport, if_neg hrelative]

end Linking

end Graph

namespace Impact

open ChangeImpact.Graph

/-! ## One import in both graphs -/

/-- The import `i` of a graph with `target` and the same import in the graph without it. -/
structure Survives (target : String) (i i' : ImportEdge) : Prop where
  same : i' = { i with resolved := i'.resolved }
  kept : i.resolved ≠ some target → i'.resolved = i.resolved
  lost : i'.resolved ≠ some target

theorem survives_linkImport (isKnown : String → Bool) (extensions : List String)
    (path target : String) {edge : ImportEdge} (h : edge.resolved = none) :
    Survives target (linkImport isKnown extensions path edge)
      (linkImport (fun k => isKnown k && k != target) extensions path edge) where
  same := by
    rw [linkImport_eq isKnown, linkImport_eq fun k => isKnown k && k != target]
  kept hkept := by
    rw [linkImport_kept fun t ht => ?_]
    rw [bne_iff_ne]
    rintro rfl
    exact hkept ht
  lost := linkImport_except_ne h

/-- The paths that imports lead to differ where one of them led to the target. -/
theorem resolved_ne_iff {target : String} {is is' : List ImportEdge}
    (h : List.Forall₂ (Survives target) is is') :
    is'.map (·.resolved) ≠ is.map (·.resolved) ↔ ∃ i ∈ is, i.resolved = some target := by
  induction h with
  | nil => simp
  | @cons i i' rest rest' hi _ ih =>
    by_cases hresolved : i.resolved = some target
    · have hlost : i'.resolved ≠ some target := hi.lost
      simp [hresolved, hlost]
    · simp [hi.kept hresolved, hresolved, ← ih]

/-! ## The prediction -/

/-- The files that a change is said to break. -/
def breakingFiles (impacts : List Impact) : List String :=
  (impacts.filter Plan.isBreaking).map (·.file)

/-- Those are the direct dependents. -/
theorem breakingFiles_delete (files : FileMap) (target : String) :
    breakingFiles (predict files target .delete) = dependentsIn files target := by
  have hnear : ((dependentsIn files target).map (direct .delete)).filter Plan.isBreaking =
      (dependentsIn files target).map (direct .delete) := by
    rw [List.filter_eq_self]
    intro i hi
    obtain ⟨path, _, rfl⟩ := List.mem_map.mp hi
    rfl
  have hfar : (((dependentsIn files target).flatMap (dependentsIn files)).map
      (indirect .delete)).filter Plan.isBreaking = [] := by
    rw [List.filter_eq_nil_iff]
    intro i hi
    obtain ⟨path, _, rfl⟩ := List.mem_map.mp hi
    simp [Plan.isBreaking, indirect]
  rw [breakingFiles, predict, List.filter_append, hnear, hfar, List.append_nil, List.map_map]
  exact List.map_id' _

/-- What the deletion of `target`, predicted from the graph `before`, says about the graph `after`
of the same sources without it. -/
structure Foretold (sources : Keyed String) (target : String) (before after : FileMap) : Prop where
  before_keys : before.keys = sources.keys
  after_keys : after.keys = sources.keys.filter (· != target)
  /-- Every import of every other file that did not lead to the target leads where it did. -/
  survive : ∀ {path r r'}, before.get? path = some r → after.get? path = some r' →
    List.Forall₂ (Survives target) r.imports r'.imports
  /-- The files that break are those for which some import leads elsewhere. -/
  breaking : ∀ {path r r'}, before.get? path = some r → after.get? path = some r' →
    (path ∈ breakingFiles (predict before target .delete) ↔
      r'.imports.map (·.resolved) ≠ r.imports.map (·.resolved))
  breaking_known : ∀ path ∈ breakingFiles (predict before target .delete),
    path ∈ sources.keys ∧ path ≠ target
  once : (breakingFiles (predict before target .delete)).Nodup

section Sources

variable {extensions : List String} {sources : Keyed String} {path target : String}
  {r r' : FileRecord}

theorem ne_of_get?_erase
    (h : (Project.analyzeSources extensions .textual (sources.erase target)).get? path = some r) :
    path ≠ target := by
  obtain ⟨text, htext, _⟩ := Project.get?_textual.mp h
  rw [Keyed.get?_erase] at htext
  split at htext
  · cases htext
  · next hne => exact Ne.symm hne

theorem survive_textual
    (h : (Project.analyzeSources extensions .textual sources).get? path = some r)
    (h' : (Project.analyzeSources extensions .textual (sources.erase target)).get? path =
      some r') : List.Forall₂ (Survives target) r.imports r'.imports := by
  have hne : target ≠ path := (ne_of_get?_erase h').symm
  obtain ⟨text, htext, himports⟩ := Project.imports_textual h
  obtain ⟨text', htext', himports'⟩ := Project.imports_textual h'
  rw [Keyed.get?_erase, if_neg hne, htext] at htext'
  cases htext'
  rw [himports, himports', Keyed.contains_erase, List.forall₂_map_left_iff,
    List.forall₂_map_right_iff, List.forall₂_same]
  exact fun edge hedge => survives_linkImport _ extensions path target
    (Source.resolved_importsOf edge hedge)

end Sources

/-- For all sources and extensions, the files that the prediction calls broken are those that the
deletion breaks. -/
theorem delete_foretold (extensions : List String) (sources : Keyed String) (target : String) :
    Foretold sources target (Project.analyzeSources extensions .textual sources)
      (Project.analyzeSources extensions .textual (sources.erase target)) := by
  have htwo : TwoEnded (Project.analyzeSources extensions .textual sources) :=
    Project.twoEnded_analyzeSources
  constructor
  case before_keys => exact Project.keys_textual
  case after_keys => exact Project.keys_textual.trans (Keyed.keys_erase sources target)
  case survive => exact survive_textual
  case breaking =>
    intro path r r' h h'
    rw [breakingFiles_delete, htwo.mem_dependentsIn,
      Project.dependsOn_textual (ne_of_get?_erase h') h, resolved_ne_iff (survive_textual h h')]
  case breaking_known =>
    intro path hpath
    rw [breakingFiles_delete, htwo.mem_dependentsIn] at hpath
    have hkeys : (Project.analyzeSources extensions .textual sources).keys = sources.keys :=
      Project.keys_textual
    refine ⟨hkeys ▸ mem_keys_of_dependsOn hpath, ?_⟩
    rintro rfl
    rw [htwo.not_dependsOn_self] at hpath
    cases hpath
  case once =>
    rw [breakingFiles_delete]
    exact htwo.nodup_dependentsIn target

end Impact

end ChangeImpact
