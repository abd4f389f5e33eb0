import ChangeImpact.Graph.Build
import Mathlib.Algebra.GroupWithZero.Nat
import Mathlib.Data.List.Nodup

/-!
# Proofs.Graph.Passes

What the two passes of the graph builder compute.

* `Links.Sound`  — what holds of the links of a file after any number of its imports:
  `sound_add` is one import, `sound_linkFile` is all of them.
* `build_files`  — the second pass enters with each file the ones that depend on it, in map order,
  so that a built map is the given one with `settled` records.
-/

namespace ChangeImpact

theorem Keyed.total_eq_sum {α : Type} (f : α → Nat) (m : Keyed α) :
    m.total f = (m.values.map f).sum := by
  rw [total, values, List.map_map, List.sum_eq_foldr, List.foldr_map]
  rfl

namespace Graph

/-- The import is one of those that make `target` a dependency. -/
def leadsTo (target : String) (edge : ImportEdge) : Bool :=
  isRelative edge && edge.resolved == some target

theorem leadsTo_iff {target : String} {edge : ImportEdge} :
    leadsTo target edge = true ↔ isRelative edge = true ∧ edge.resolved = some target := by
  simp [leadsTo]

/-- The place of the first import that leads to `target`. -/
def firstLink (target : String) (imports : List ImportEdge) : Nat :=
  imports.findIdx (leadsTo target)

def isUnresolved (edge : ImportEdge) : Bool := isRelative edge && edge.resolved.isNone

@[simp] theorem isRelative_linkImport (isKnown : String → Bool) (extensions : List String)
    (path : String) (edge : ImportEdge) :
    isRelative (linkImport isKnown extensions path edge) = isRelative edge := by
  unfold linkImport
  split <;> rfl

theorem resolved_linkImport {isKnown : String → Bool} {extensions : List String} {path : String}
    {edge : ImportEdge} (h : isRelative edge = true) :
    (linkImport isKnown extensions path edge).resolved =
      resolve isKnown extensions path edge.specifier := by
  rw [linkImport, if_pos h]

/-! ## The first pass -/

/-- What holds of the links of the file at `path` after any number of its imports. -/
structure Links.Sound (path : String) (l : Links) : Prop where
  nodup : l.dependencies.Nodup
  notSelf : path ∉ l.dependencies
  count : l.edgeCount = l.dependencies.length
  unresolved : l.unresolved = l.imports.filter isUnresolved
  covered : ∀ e ∈ l.imports, isRelative e = true → ∀ t, e.resolved = some t →
    t = path ∨ t ∈ l.dependencies
  founded : ∀ t ∈ l.dependencies, ∃ e ∈ l.imports, leadsTo t e = true
  ordered : l.dependencies.Pairwise fun s t => firstLink s l.imports < firstLink t l.imports

theorem sound_empty (path : String) : Links.Sound path {} where
  nodup := .nil
  notSelf := List.not_mem_nil
  count := rfl
  unresolved := rfl
  covered _ h := absurd h List.not_mem_nil
  founded _ h := absurd h List.not_mem_nil
  ordered := .nil

theorem firstLink_lt {t : String} {imports : List ImportEdge}
    (h : ∃ e ∈ imports, leadsTo t e = true) : firstLink t imports < imports.length :=
  List.findIdx_lt_length.mpr h

theorem firstLink_append {t : String} {imports more : List ImportEdge}
    (h : ∃ e ∈ imports, leadsTo t e = true) :
    firstLink t (imports ++ more) = firstLink t imports := by
  rw [firstLink, List.findIdx_append]
  exact if_pos (firstLink_lt h)

theorem length_le_firstLink {t : String} {imports more : List ImportEdge}
    (h : ∀ e ∈ imports, leadsTo t e = false) : imports.length ≤ firstLink t (imports ++ more) := by
  have hlen : imports.findIdx (leadsTo t) = imports.length :=
    List.findIdx_eq_length.mpr h
  rw [firstLink, List.findIdx_append, hlen, if_neg (Nat.lt_irrefl _)]
  exact Nat.le_add_left _ _

/-- The order of the dependencies is not disturbed by one more import. -/
theorem ordered_append {l : Links} {path : String} (h : l.Sound path) (edge : ImportEdge) :
    l.dependencies.Pairwise fun s t =>
      firstLink s (l.imports ++ [edge]) < firstLink t (l.imports ++ [edge]) := by
  refine h.ordered.imp_of_mem ?_
  intro s t hs ht hst
  rw [firstLink_append (h.founded s hs), firstLink_append (h.founded t ht)]
  exact hst

/-- One more import that is no new dependency. -/
theorem sound_append {l : Links} {path : String} (h : l.Sound path) (edge : ImportEdge)
    (old : ∀ t, leadsTo t edge = true → t = path ∨ t ∈ l.dependencies) :
    Links.Sound path { l with
      imports := l.imports ++ [edge]
      unresolved := l.unresolved ++ [edge].filter isUnresolved } where
  nodup := h.nodup
  notSelf := h.notSelf
  count := h.count
  unresolved := by rw [h.unresolved, List.filter_append]
  covered e he hr t ht := by
    rcases List.mem_append.mp he with he | he
    · exact h.covered e he hr t ht
    · rw [List.mem_singleton.mp he] at hr ht
      exact old t (leadsTo_iff.mpr ⟨hr, ht⟩)
  founded t ht := by
    obtain ⟨e, he, hl⟩ := h.founded t ht
    exact ⟨e, List.mem_append_left _ he, hl⟩
  ordered := ordered_append h edge

/-- One more import that leads to a file for the first time. -/
theorem sound_append_new {l : Links} {path target : String} (h : l.Sound path)
    {edge : ImportEdge} (leads : leadsTo target edge = true) (other : target ≠ path)
    (new : target ∉ l.dependencies) :
    Links.Sound path { l with
      imports := l.imports ++ [edge]
      dependencies := l.dependencies ++ [target]
      edgeCount := l.edgeCount + 1 } where
  nodup := by
    rw [List.nodup_append]
    refine ⟨h.nodup, List.nodup_singleton _, ?_⟩
    rintro s hs t ht rfl
    exact new (List.mem_singleton.mp ht ▸ hs)
  notSelf := by
    intro hp
    rcases List.mem_append.mp hp with hp | hp
    · exact h.notSelf hp
    · exact other (List.mem_singleton.mp hp).symm
  count := by simp [h.count]
  unresolved := by
    have hu : isUnresolved edge = false := by
      simp [isUnresolved, (leadsTo_iff.mp leads).2]
    simp [h.unresolved, List.filter_append, hu]
  covered e he hr t ht := by
    rcases List.mem_append.mp he with he | he
    · exact (h.covered e he hr t ht).imp_right (List.mem_append_left _)
    · rw [List.mem_singleton.mp he, (leadsTo_iff.mp leads).2] at ht
      rw [← Option.some.inj ht]
      exact .inr (List.mem_append_right _ (List.mem_singleton_self _))
  founded t ht := by
    rcases List.mem_append.mp ht with ht | ht
    · obtain ⟨e, he, hl⟩ := h.founded t ht
      exact ⟨e, List.mem_append_left _ he, hl⟩
    · rw [List.mem_singleton.mp ht]
      exact ⟨edge, List.mem_append_right _ (List.mem_singleton_self _), leads⟩
  ordered := by
    -- no import before this one leads to the new dependency
    have before : ∀ e ∈ l.imports, leadsTo target e = false := by
      intro e he
      cases hl : leadsTo target e with
      | false => rfl
      | true =>
        obtain ⟨hr, ht⟩ := leadsTo_iff.mp hl
        exact absurd (h.covered e he hr target ht) (by simp [other, new])
    rw [List.pairwise_append]
    refine ⟨ordered_append h edge, List.pairwise_singleton _ _, ?_⟩
    intro s hs t ht
    rw [List.mem_singleton.mp ht, firstLink_append (h.founded s hs)]
    exact Nat.lt_of_lt_of_le (firstLink_lt (h.founded s hs)) (length_le_firstLink before)

theorem sound_add {l : Links} {path : String} (h : l.Sound path) (edge : ImportEdge) :
    (l.add path edge).Sound path := by
  unfold Links.add
  dsimp only
  split
  · next hr =>
    split
    · next hn =>
      have hu : [edge].filter isUnresolved = [edge] := by simp [isUnresolved, hr, hn]
      have := sound_append h edge (by simp [leadsTo, hn])
      rwa [hu] at this
    · next target ht =>
      have hu : [edge].filter isUnresolved = [] := by simp [isUnresolved, ht]
      have leads : ∀ t, leadsTo t edge = true → t = target := by
        intro t hl
        rw [leadsTo_iff, ht] at hl
        exact (Option.some.inj hl.2).symm
      split
      · next hold =>
        simp only [Bool.or_eq_true, decide_eq_true_eq, List.contains_iff_mem] at hold
        have := sound_append h edge (fun t hl => leads t hl ▸ hold)
        rwa [hu, List.append_nil] at this
      · next hnew =>
        simp only [Bool.or_eq_true, decide_eq_true_eq, List.contains_iff_mem, not_or] at hnew
        exact sound_append_new h (leadsTo_iff.mpr ⟨hr, ht⟩) hnew.1 hnew.2
  · next hr =>
    have hu : [edge].filter isUnresolved = [] := by simp [isUnresolved, hr]
    have := sound_append h edge (by simp [leadsTo, hr])
    rwa [hu, List.append_nil] at this

@[simp] theorem imports_add (l : Links) (path : String) (edge : ImportEdge) :
    (l.add path edge).imports = l.imports ++ [edge] := by
  unfold Links.add
  dsimp only
  split
  · split
    · rfl
    · split <;> rfl
  · rfl

theorem sound_foldl_add (link : ImportEdge → ImportEdge) (path : String)
    (imports : List ImportEdge) :
    ∀ l : Links, l.Sound path →
      (imports.foldl (fun l edge => l.add path (link edge)) l).Sound path := by
  induction imports with
  | nil => exact fun l h => h
  | cons edge rest ih => exact fun l h => ih _ (sound_add h (link edge))

theorem imports_foldl_add (link : ImportEdge → ImportEdge) (path : String)
    (imports : List ImportEdge) : ∀ l : Links,
      (imports.foldl (fun l edge => l.add path (link edge)) l).imports =
        l.imports ++ imports.map link := by
  induction imports with
  | nil => simp
  | cons edge rest ih =>
    intro l
    rw [List.foldl_cons, ih, imports_add, List.map_cons, List.append_assoc]
    rfl

section FirstPass

variable (isKnown : String → Bool) (extensions : List String) (path : String) (record : FileRecord)

theorem sound_linkFile : (linkFile isKnown extensions path record).Sound path :=
  sound_foldl_add _ path record.imports {} (sound_empty path)

@[simp] theorem imports_linkFile : (linkFile isKnown extensions path record).imports =
    record.imports.map (linkImport isKnown extensions path) := by
  rw [linkFile, imports_foldl_add]
  rfl

theorem isKnown_of_mem_dependencies {target : String}
    (h : target ∈ (linkFile isKnown extensions path record).dependencies) :
    isKnown target = true := by
  obtain ⟨e, he, hl⟩ := (sound_linkFile isKnown extensions path record).founded target h
  obtain ⟨hr, ht⟩ := leadsTo_iff.mp hl
  rw [imports_linkFile, List.mem_map] at he
  obtain ⟨edge, _, rfl⟩ := he
  rw [isRelative_linkImport] at hr
  rw [resolved_linkImport hr] at ht
  exact List.find?_some ht

end FirstPass

/-! ## The second pass -/

/-- The files whose dependencies name `target`, in map order. -/
def dependentsIn (entries : List (String × FileRecord)) (target : String) : List String :=
  (entries.filter fun e => decide (target ∈ e.2.dependencies)).map (·.1)

def withDependents (record : FileRecord) (more : List String) : FileRecord :=
  { record with dependents := record.dependents ++ more }

@[simp] theorem withDependents_nil (record : FileRecord) : withDependents record [] = record := by
  simp [withDependents]

@[simp] theorem withDependents_append (record : FileRecord) (some more : List String) :
    withDependents (withDependents record some) more = withDependents record (some ++ more) := by
  simp [withDependents]

theorem entries_addDependent (path target : String) (files : FileMap) :
    (addDependent path files target).entries = files.entries.map fun e =>
      (e.1, withDependents e.2 (if e.1 = target then [path] else [])) := by
  refine List.map_congr_left ?_
  intro e _
  dsimp only
  split <;> simp [withDependents]

/-- The dependencies of one file, none of which is named twice. -/
theorem entries_foldl_addDependent (path : String) {targets : List String} (h : targets.Nodup) :
    ∀ files : FileMap, (targets.foldl (addDependent path) files).entries =
      files.entries.map fun e =>
        (e.1, withDependents e.2 (if e.1 ∈ targets then [path] else [])) := by
  induction targets with
  | nil => simp
  | cons target rest ih =>
    intro files
    obtain ⟨hnew, hrest⟩ := List.nodup_cons.mp h
    rw [List.foldl_cons, ih hrest, entries_addDependent, List.map_map]
    refine List.map_congr_left ?_
    intro e _
    by_cases he : e.1 = target
    · simp [he, hnew]
    · simp [he]

/-- All dependencies of a list of files. -/
theorem entries_foldl_invert {entries : List (String × FileRecord)}
    (h : ∀ e ∈ entries, e.2.dependencies.Nodup) :
    ∀ files : FileMap,
      (entries.foldl (fun inverted (path, record) =>
          record.dependencies.foldl (addDependent path) inverted) files).entries =
        files.entries.map fun e => (e.1, withDependents e.2 (dependentsIn entries e.1)) := by
  induction entries with
  | nil => simp [dependentsIn]
  | cons entry rest ih =>
    intro files
    rw [List.forall_mem_cons] at h
    rw [List.foldl_cons, ih h.2, entries_foldl_addDependent _ h.1, List.map_map]
    refine List.map_congr_left ?_
    intro e _
    by_cases he : e.1 ∈ entry.2.dependencies <;> simp [dependentsIn, he]

/-! ## Both passes -/

section Build

variable (extensions : List String) (files : FileMap)

/-- The dependencies of a file, given by its path and its record. -/
def dependenciesOf (path : String) (record : FileRecord) : List String :=
  (linkFile files.contains extensions path record).dependencies

/-- The files that depend on the one at `path`, in map order. -/
def dependentsOf (path : String) : List String :=
  (files.entries.filter fun e => decide (path ∈ dependenciesOf extensions files e.1 e.2)).map (·.1)

/-- The record that a build leaves of one that it was given. -/
def settled (path : String) (record : FileRecord) : FileRecord :=
  { record with
    imports := record.imports.map (linkImport files.contains extensions path)
    dependencies := dependenciesOf extensions files path record
    dependents := dependentsOf extensions files path }

theorem build_files :
    (build extensions files).files = files.mapValues (settled extensions files) := by
  have hlinked : ∀ path record, linked record (linkFile files.contains extensions path record) =
      { record with
        imports := record.imports.map (linkImport files.contains extensions path)
        dependencies := dependenciesOf extensions files path record
        dependents := [] } := by
    intro path record
    simp [linked, dependenciesOf]
  have hnodup : ∀ e ∈ ((linkFiles extensions files).mapValues fun _ rl => linked rl.1 rl.2).entries,
      e.2.dependencies.Nodup := by
    intro e he
    simp only [linkFiles, Keyed.mapValues, List.map_map, List.mem_map] at he
    obtain ⟨e, _, rfl⟩ := he
    exact (sound_linkFile files.contains extensions e.1 e.2).nodup
  have hentries : (build extensions files).files.entries =
      (files.mapValues (settled extensions files)).entries := by
    rw [build, invert, entries_foldl_invert hnodup]
    simp only [linkFiles, Keyed.mapValues, List.map_map, Function.comp_def, hlinked, settled,
      dependentsOf, dependentsIn, withDependents, List.filter_map, List.nil_append]
  exact Keyed.ext_entries hentries

theorem build_edgeCount : (build extensions files).edgeCount =
    (files.entries.map fun e => (dependenciesOf extensions files e.1 e.2).length).sum := by
  simp only [build, Keyed.total_eq_sum, linkFiles, Keyed.values, Keyed.mapValues, List.map_map,
    Function.comp_def, (sound_linkFile _ _ _ _).count, dependenciesOf]

theorem build_unresolved : (build extensions files).unresolved =
    files.entries.flatMap fun e =>
      (e.2.imports.map (linkImport files.contains extensions e.1)).filter isUnresolved := by
  simp only [build, linkFiles, Keyed.values, Keyed.mapValues, List.map_map, Function.comp_def,
    List.flatMap_map, (sound_linkFile _ _ _ _).unresolved, imports_linkFile]

end Build

end Graph

end ChangeImpact
