import ChangeImpact.Proofs.Graph.Passes
import ChangeImpact.Risk
import Mathlib.Algebra.BigOperators.Group.List.Basic

/-!
# Proofs.Graph.DependencyLaw

The law of the dependency graph, for every map of records and whatever they held before.

* `LinkedFrom`       — what a built graph owes to the map that it was built from.
* `build_linkedFrom` — every build pays it.
-/

namespace ChangeImpact.Graph

/-- What a graph that was built from `files` satisfies. In each statement `q` is the path of a
file and `s` its record in the built map. -/
structure LinkedFrom (extensions : List String) (files : FileMap) (b : Built) : Prop where
  keys : b.files.keys = files.keys
  /-- A relative import is resolved among the files of the map; nothing else changes in it. -/
  imports : ∀ {q s}, b.files.get? q = some s → ∃ s₀, files.get? q = some s₀ ∧
    s.imports = s₀.imports.map (linkImport files.contains extensions q)
  symmetric : ∀ {p q r s}, b.files.get? p = some r → b.files.get? q = some s →
    (q ∈ r.dependents ↔ p ∈ s.dependencies)
  dependencies_nodup : ∀ {q s}, b.files.get? q = some s → s.dependencies.Nodup
  dependents_nodup : ∀ {q s}, b.files.get? q = some s → s.dependents.Nodup
  dependencies_known : ∀ {q s}, b.files.get? q = some s →
    ∀ d ∈ s.dependencies, d ∈ b.files.keys ∧ d ≠ q
  dependents_known : ∀ {q s}, b.files.get? q = some s →
    ∀ d ∈ s.dependents, d ∈ b.files.keys ∧ d ≠ q
  noAsymmetries : asymmetries b.files = []
  dependents_ordered : ∀ {q s}, b.files.get? q = some s → s.dependents.Sublist b.files.keys
  dependencies_ordered : ∀ {q s}, b.files.get? q = some s →
    s.dependencies.Pairwise fun d e => firstLink d s.imports < firstLink e s.imports
  resolved : ∀ {q s}, b.files.get? q = some s → ∀ i ∈ s.imports, isRelative i = true →
    i.resolved = none ∨ ∃ k ∈ b.files.keys, i.resolved = some k ∧ (k = q ∨ k ∈ s.dependencies)
  /-- Each relative import that leads nowhere, once, in the order of the map and of the imports. -/
  unresolved : b.unresolved = b.files.values.flatMap fun s => s.imports.filter isUnresolved
  founded : ∀ {q s}, b.files.get? q = some s → ∀ d ∈ s.dependencies,
    ∃ i ∈ s.imports, isRelative i = true ∧ i.resolved = some d
  edges_dependencies : b.edgeCount = (b.files.values.map (·.dependencies.length)).sum
  edges_dependents : b.edgeCount = (b.files.values.map (·.dependents.length)).sum
  edges_summary : b.edgeCount = (Risk.summarize b.files).edges

/-! ## Counting the edges from both ends -/

theorem sum_indicator (ks : List String) (p : String → Bool) :
    (ks.map fun k => if p k then 1 else 0).sum = (ks.filter p).length := by
  induction ks with
  | nil => rfl
  | cons k rest ih => cases h : p k <;> simp [h, ih, Nat.add_comm]

theorem length_filter_mem {ks ds : List String} (hks : ks.Nodup) (hds : ds.Nodup)
    (h : ∀ d ∈ ds, d ∈ ks) : (ks.filter fun k => decide (k ∈ ds)).length = ds.length := by
  refine List.Perm.length_eq ?_
  rw [List.perm_ext_iff_of_nodup (hks.filter _) hds]
  intro k
  simp only [List.mem_filter, decide_eq_true_eq, and_iff_right_iff_imp]
  exact h k

/-- An edge has one end in the list of a dependent and the other one in a list of dependencies. -/
theorem sum_length_dependents {α : Type} (targets : α → List String) {ks : List String}
    (hks : ks.Nodup) (es : List α) (h : ∀ e ∈ es, (targets e).Nodup ∧ ∀ d ∈ targets e, d ∈ ks) :
    (ks.map fun k => (es.filter fun e => decide (k ∈ targets e)).length).sum =
      (es.map fun e => (targets e).length).sum := by
  induction es with
  | nil => simp
  | cons e rest ih =>
    rw [List.forall_mem_cons] at h
    have hsplit : ∀ k, ((e :: rest).filter fun e => decide (k ∈ targets e)).length =
        (if decide (k ∈ targets e) then 1 else 0)
          + (rest.filter fun e => decide (k ∈ targets e)).length := by
      intro k
      by_cases hk : k ∈ targets e <;> simp [hk, Nat.add_comm]
    simp only [hsplit, List.sum_map_add, ih h.2, List.map_cons, List.sum_cons]
    rw [sum_indicator ks fun k => decide (k ∈ targets e), length_filter_mem hks h.1.1 h.1.2]

/-! ## The law -/

section Law

variable {extensions : List String} {files : FileMap}

theorem get?_build {q : String} {s : FileRecord}
    (h : (build extensions files).files.get? q = some s) :
    ∃ s₀, files.get? q = some s₀ ∧ s = settled extensions files q s₀ := by
  rw [build_files, Keyed.get?_mapValues, Option.map_eq_some_iff] at h
  obtain ⟨s₀, hs, rfl⟩ := h
  exact ⟨s₀, hs, rfl⟩

theorem keys_build : (build extensions files).files.keys = files.keys := by
  rw [build_files, Keyed.keys_mapValues]

theorem mem_dependentsOf {p q : String} {s₀ : FileRecord} (h : files.get? q = some s₀) :
    q ∈ dependentsOf extensions files p ↔ p ∈ dependenciesOf extensions files q s₀ := by
  simp only [dependentsOf, List.mem_map, List.mem_filter, decide_eq_true_eq]
  constructor
  · rintro ⟨⟨k, r⟩, ⟨hm, hp⟩, rfl⟩
    rw [(Keyed.get?_eq_some_iff files).mpr hm] at h
    rwa [← Option.some.inj h]
  · intro hp
    exact ⟨(q, s₀), ⟨(Keyed.get?_eq_some_iff files).mp h, hp⟩, rfl⟩

theorem dependentsOf_sublist (q : String) :
    (dependentsOf extensions files q).Sublist files.keys :=
  List.filter_sublist.map Prod.fst

theorem mem_keys_of_mem_dependenciesOf {q d : String} {s₀ : FileRecord}
    (h : d ∈ dependenciesOf extensions files q s₀) : d ∈ files.keys :=
  (Keyed.mem_keys_iff files).mpr (isKnown_of_mem_dependencies _ _ _ _ h)

theorem ne_of_mem_dependenciesOf {q d : String} {s₀ : FileRecord}
    (h : d ∈ dependenciesOf extensions files q s₀) : d ≠ q := by
  rintro rfl
  exact (sound_linkFile files.contains extensions d s₀).notSelf h

theorem exists_of_mem_keys {k : String} (h : k ∈ files.keys) : ∃ r, files.get? k = some r :=
  Option.isSome_iff_exists.mp ((Keyed.mem_keys_iff files).mp h)

/-- An edge is known at both of its ends. -/
theorem symmetric_build {p q : String} {r s : FileRecord}
    (hp : (build extensions files).files.get? p = some r)
    (hq : (build extensions files).files.get? q = some s) :
    q ∈ r.dependents ↔ p ∈ s.dependencies := by
  obtain ⟨r₀, _, rfl⟩ := get?_build hp
  obtain ⟨s₀, hs, rfl⟩ := get?_build hq
  exact mem_dependentsOf hs

theorem dependencies_known_build {q d : String} {s : FileRecord}
    (hq : (build extensions files).files.get? q = some s) (hd : d ∈ s.dependencies) :
    d ∈ (build extensions files).files.keys ∧ d ≠ q := by
  obtain ⟨s₀, _, rfl⟩ := get?_build hq
  rw [keys_build]
  exact ⟨mem_keys_of_mem_dependenciesOf hd, ne_of_mem_dependenciesOf hd⟩

theorem dependents_known_build {q d : String} {s : FileRecord}
    (hq : (build extensions files).files.get? q = some s) (hd : d ∈ s.dependents) :
    d ∈ (build extensions files).files.keys ∧ d ≠ q := by
  obtain ⟨s₀, _, rfl⟩ := get?_build hq
  have hk : d ∈ files.keys := (dependentsOf_sublist q).subset hd
  obtain ⟨d₀, hd₀⟩ := exists_of_mem_keys hk
  rw [keys_build]
  exact ⟨hk, (ne_of_mem_dependenciesOf ((mem_dependentsOf hd₀).mp hd)).symm⟩

/-- A line is written for an edge that one of its ends does not know. -/
theorem asymmetries_eq_nil {files : FileMap}
    (dependencies : ∀ {q s}, files.get? q = some s → ∀ d ∈ s.dependencies,
      ∃ r, files.get? d = some r ∧ q ∈ r.dependents)
    (dependents : ∀ {q s}, files.get? q = some s → ∀ d ∈ s.dependents,
      ∃ r, files.get? d = some r ∧ q ∈ r.dependencies) : asymmetries files = [] := by
  rw [asymmetries, List.flatMap_eq_nil_iff]
  rintro ⟨q, s⟩ hm
  have hq := (Keyed.get?_eq_some_iff files).mpr hm
  simp only [List.append_eq_nil_iff, List.map_eq_nil_iff, List.filter_eq_nil_iff]
  refine ⟨fun d hd => ?_, fun d hd => ?_⟩
  · obtain ⟨r, hr, hmem⟩ := dependencies hq d hd
    simp [hr, hmem]
  · obtain ⟨r, hr, hmem⟩ := dependents hq d hd
    simp [hr, hmem]

theorem noAsymmetries_build : asymmetries (build extensions files).files = [] := by
  refine asymmetries_eq_nil (fun {q s} hq d hd => ?_) (fun {q s} hq d hd => ?_)
  · obtain ⟨r, hr⟩ := exists_of_mem_keys (dependencies_known_build hq hd).1
    exact ⟨r, hr, (symmetric_build hr hq).mpr hd⟩
  · obtain ⟨r, hr⟩ := exists_of_mem_keys (dependents_known_build hq hd).1
    exact ⟨r, hr, (symmetric_build hq hr).mp hd⟩

theorem resolved_build {q : String} {s : FileRecord}
    (hq : (build extensions files).files.get? q = some s) {i : ImportEdge} (hi : i ∈ s.imports)
    (hr : isRelative i = true) : i.resolved = none ∨
      ∃ k ∈ (build extensions files).files.keys,
        i.resolved = some k ∧ (k = q ∨ k ∈ s.dependencies) := by
  obtain ⟨s₀, hs₀, rfl⟩ := get?_build hq
  cases hk : i.resolved with
  | none => exact .inl rfl
  | some k =>
    have hi' : i ∈ (linkFile files.contains extensions q s₀).imports := by
      rw [imports_linkFile]
      exact hi
    have hcov := (sound_linkFile files.contains extensions q s₀).covered i hi' hr k hk
    refine .inr ⟨k, ?_, rfl, hcov⟩
    rw [keys_build]
    rcases hcov with rfl | hd
    · exact List.mem_map.mpr ⟨(k, s₀), (Keyed.get?_eq_some_iff files).mp hs₀, rfl⟩
    · exact mem_keys_of_mem_dependenciesOf hd

theorem edgeCount_build_dependencies : (build extensions files).edgeCount =
    ((build extensions files).files.values.map (·.dependencies.length)).sum := by
  rw [build_edgeCount, build_files]
  simp [Keyed.values, Keyed.mapValues, settled, Function.comp_def]

theorem edgeCount_build_dependents : (build extensions files).edgeCount =
    ((build extensions files).files.values.map (·.dependents.length)).sum := by
  let targets (e : String × FileRecord) := dependenciesOf extensions files e.1 e.2
  have hcount := sum_length_dependents targets files.nodup files.entries fun e _ =>
    ⟨(sound_linkFile files.contains extensions e.1 e.2).nodup,
      fun _ hd => mem_keys_of_mem_dependenciesOf hd⟩
  calc (build extensions files).edgeCount
      = (files.entries.map fun e => (dependenciesOf extensions files e.1 e.2).length).sum :=
        build_edgeCount extensions files
    _ = (files.keys.map fun k => (dependentsOf extensions files k).length).sum := by
        refine hcount.symm.trans ?_
        simp [dependentsOf, Keyed.keys, targets]
    _ = ((build extensions files).files.values.map (·.dependents.length)).sum := by
        rw [build_files]
        simp [Keyed.values, Keyed.mapValues, Keyed.keys, settled, Function.comp_def]

/-- Every build obeys the law, whatever the records held before it. -/
theorem build_linkedFrom (extensions : List String) (files : FileMap) :
    LinkedFrom extensions files (build extensions files) where
  keys := keys_build
  imports hq := by
    obtain ⟨s₀, hs₀, rfl⟩ := get?_build hq
    exact ⟨s₀, hs₀, rfl⟩
  symmetric := symmetric_build
  dependencies_nodup hq := by
    obtain ⟨s₀, _, rfl⟩ := get?_build hq
    exact (sound_linkFile _ _ _ _).nodup
  dependents_nodup hq := by
    obtain ⟨s₀, _, rfl⟩ := get?_build hq
    exact (dependentsOf_sublist _).nodup files.nodup
  dependencies_known hq _ hd := dependencies_known_build hq hd
  dependents_known hq _ hd := dependents_known_build hq hd
  noAsymmetries := noAsymmetries_build
  dependents_ordered hq := by
    obtain ⟨s₀, _, rfl⟩ := get?_build hq
    rw [keys_build]
    exact dependentsOf_sublist _
  dependencies_ordered {q s} hq := by
    obtain ⟨s₀, _, rfl⟩ := get?_build hq
    have h := (sound_linkFile files.contains extensions q s₀).ordered
    rwa [imports_linkFile] at h
  resolved hq _ hi hr := resolved_build hq hi hr
  unresolved := by
    rw [build_unresolved, build_files]
    simp [Keyed.values, Keyed.mapValues, settled, List.flatMap_map]
  founded {q s} hq d hd := by
    obtain ⟨s₀, _, rfl⟩ := get?_build hq
    obtain ⟨i, hi, hl⟩ := (sound_linkFile files.contains extensions q s₀).founded d hd
    rw [imports_linkFile] at hi
    exact ⟨i, hi, leadsTo_iff.mp hl⟩
  edges_dependencies := edgeCount_build_dependencies
  edges_dependents := edgeCount_build_dependents
  edges_summary := edgeCount_build_dependencies.trans (Keyed.total_eq_sum _ _).symm

end Law

end ChangeImpact.Graph
