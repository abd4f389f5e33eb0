import ChangeImpact.Proofs.Graph.Edges

/-!
# Proofs.Impact.BlastRadius

How far a change reaches. Impact is predicted along the dependents of files; here it is told by
their dependencies.

* `Impact.count_near`, `Impact.count_far` — how often a file is named, directly and indirectly.
* `Impact.mem_affectedFiles_predict`      — the files that are named at all.
* `Impact.BlastRadius`                    — what a prediction owes to the dependencies of the files.
* `Impact.predict_blastRadius`            — in an analyzed project every prediction pays it.
-/

namespace ChangeImpact

theorem nodup_eraseDups {α : Type} [BEq α] [LawfulBEq α] : ∀ l : List α, l.eraseDups.Nodup
  | [] => .nil
  | a :: rest => by
    rw [List.eraseDups_cons, List.nodup_cons]
    have hlength : (rest.filter fun b => !b == a).length ≤ rest.length :=
      List.length_filter_le _ rest
    refine ⟨?_, nodup_eraseDups _⟩
    rw [List.mem_eraseDups]
    simp
  termination_by l => l.length

namespace Impact

open ChangeImpact.Graph

/-- Every kind of change can be asked for. -/
theorem predictFor_word (files : FileMap) (target : String) (kind : ChangeKind) :
    predictFor files target (Vocabulary.word kind) = .ok (predict files target kind) := by
  cases kind <;> rfl

/-- What a prediction owes to the dependencies of the files; `near` are its direct entries and
`far` its indirect ones. -/
structure BlastRadius (files : FileMap) (target : String) (kind : ChangeKind)
    (near far : List Impact) : Prop where
  near_count : ∀ path, (near.map (·.file)).count path =
    if dependsOn files path target then 1 else 0
  /-- A file has an indirect entry for each file between itself and the target. -/
  far_count : ∀ path, (far.map (·.file)).count path =
    files.keys.countP fun between => dependsOn files between target && dependsOn files path between
  near_entry : ∀ i ∈ near,
    i.type = .known (if kind = .delete then .breaking else .undecided) ∧
      i.severity = .known (if kind = .delete then .critical else .medium)
  far_entry : ∀ i ∈ far, i.type = .known .undecided ∧ i.severity = .known .low
  affected_nodup : (affectedFiles (near ++ far)).Nodup
  affected : ∀ path, path ∈ affectedFiles (near ++ far) ↔
    ∃ n, 1 ≤ n ∧ n ≤ 2 ∧ Chain files n path target
  /-- A change of the target reaches itself over a second file that it depends on and that
  depends on it. -/
  affected_target : target ∈ affectedFiles (near ++ far) ↔
    ∃ other, other ≠ target ∧ dependsOn files target other = true ∧
      dependsOn files other target = true
  sameFiles : ∀ other, affectedFiles (predict files target other) = affectedFiles (near ++ far)
  nothing : target ∉ files.keys → near ++ far = []

section Counting

variable {files : FileMap} {target : String}

theorem map_file_direct (kind : ChangeKind) (paths : List String) :
    (paths.map (direct kind)).map (·.file) = paths := by
  rw [List.map_map]
  exact List.map_id' paths

theorem map_file_indirect (kind : ChangeKind) (paths : List String) :
    (paths.map (indirect kind)).map (·.file) = paths := by
  rw [List.map_map]
  exact List.map_id' paths

theorem affectedFiles_predict (files : FileMap) (target : String) (kind : ChangeKind) :
    affectedFiles (predict files target kind) = (dependentsIn files target ++
      (dependentsIn files target).flatMap (dependentsIn files)).eraseDups := by
  rw [affectedFiles, predict, List.map_append, map_file_direct, map_file_indirect]

/-- The files that the prediction starts with, in some order. -/
theorem perm_dependentsIn (h : TwoEnded files) : (dependentsIn files target).Perm
    (files.keys.filter fun path => dependsOn files path target) := by
  have hkeys : files.keys.Nodup := files.nodup
  rw [List.perm_ext_iff_of_nodup (h.nodup_dependentsIn target) (hkeys.filter _)]
  intro path
  rw [h.mem_dependentsIn, List.mem_filter]
  constructor
  · exact fun hedge => ⟨mem_keys_of_dependsOn hedge, hedge⟩
  · exact fun hedge => hedge.2

theorem count_near (h : TwoEnded files) (path : String) :
    (dependentsIn files target).count path = if dependsOn files path target then 1 else 0 := by
  rw [(h.nodup_dependentsIn target).count]
  simp only [h.mem_dependentsIn]

/-- Every file in between contributes one entry, since nothing depends on it twice. -/
theorem count_far (h : TwoEnded files) (path : String) :
    ((dependentsIn files target).flatMap (dependentsIn files)).count path =
      files.keys.countP fun between =>
        dependsOn files between target && dependsOn files path between := by
  calc ((dependentsIn files target).flatMap (dependentsIn files)).count path
      = ((dependentsIn files target).map fun between =>
          if dependsOn files path between then 1 else 0).sum := by
        rw [List.count_flatMap]
        exact congrArg List.sum (List.map_congr_left fun between _ => count_near h path)
    _ = (dependentsIn files target).countP (dependsOn files path) := by
        rw [sum_indicator, List.countP_eq_length_filter]
    _ = (files.keys.filter fun between => dependsOn files between target).countP
          (dependsOn files path) := (perm_dependentsIn h).countP_eq _
    _ = files.keys.countP fun between =>
          dependsOn files between target && dependsOn files path between := by
        rw [List.countP_filter]
        exact List.countP_congr fun between _ => by rw [Bool.and_comm]

theorem mem_affectedFiles_predict (h : TwoEnded files) {kind : ChangeKind} {path : String} :
    path ∈ affectedFiles (predict files target kind) ↔ dependsOn files path target = true ∨
      ∃ between, dependsOn files path between = true ∧ dependsOn files between target = true := by
  rw [affectedFiles_predict, List.mem_eraseDups, List.mem_append, List.mem_flatMap]
  simp only [h.mem_dependentsIn]
  refine or_congr Iff.rfl (exists_congr fun between => ?_)
  exact and_comm

theorem chain_upTo_two {path : String} :
    (∃ n, 1 ≤ n ∧ n ≤ 2 ∧ Chain files n path target) ↔ dependsOn files path target = true ∨
      ∃ between, dependsOn files path between = true ∧ dependsOn files between target = true := by
  have hone : Chain files 1 path target ↔ dependsOn files path target = true := by
    simp [chain_succ, chain_zero]
  have htwo : Chain files 2 path target ↔ ∃ between, dependsOn files path between = true ∧
      dependsOn files between target = true := by
    simp [chain_succ, chain_zero]
  rw [← hone, ← htwo]
  constructor
  · rintro ⟨n, hlow, hhigh, hchain⟩
    obtain rfl | rfl : n = 1 ∨ n = 2 := by omega
    · exact .inl hchain
    · exact .inr hchain
  · rintro (hchain | hchain)
    · exact ⟨1, Nat.le_refl 1, by decide, hchain⟩
    · exact ⟨2, by decide, Nat.le_refl 2, hchain⟩

theorem affected_target_iff (h : TwoEnded files) {kind : ChangeKind} :
    target ∈ affectedFiles (predict files target kind) ↔ ∃ other, other ≠ target ∧
      dependsOn files target other = true ∧ dependsOn files other target = true := by
  rw [mem_affectedFiles_predict h, h.not_dependsOn_self]
  constructor
  · rintro (hself | ⟨other, hout, hback⟩)
    · cases hself
    · refine ⟨other, ?_, hout, hback⟩
      rintro rfl
      rw [h.not_dependsOn_self] at hout
      cases hout
  · rintro ⟨other, _, hout, hback⟩
    exact .inr ⟨other, hout, hback⟩

theorem predict_eq_nil {kind : ChangeKind} (htarget : target ∉ files.keys) :
    predict files target kind = [] := by
  have hnone : files.get? target = none := by
    simpa [Keyed.mem_keys_iff, Keyed.contains] using htarget
  simp [predict, dependentsIn, hnone]

end Counting

/-- Whatever the sources, the extensions and the extractor: a change of any kind reaches exactly
what depends on the target in one or two steps. -/
theorem predict_blastRadius (extensions : List String) (extractor : Extractor)
    (sources : Keyed String) (target : String) (kind : ChangeKind) :
    ∃ near far,
      predictFor (Project.analyzeSources extensions extractor sources) target
        (Vocabulary.word kind) = .ok (near ++ far) ∧
      BlastRadius (Project.analyzeSources extensions extractor sources) target kind near far := by
  have h : TwoEnded (Project.analyzeSources extensions extractor sources) :=
    Project.twoEnded_analyzeSources
  generalize Project.analyzeSources extensions extractor sources = files at h ⊢
  refine ⟨(dependentsIn files target).map (direct kind),
    ((dependentsIn files target).flatMap (dependentsIn files)).map (indirect kind), ?_, ?_⟩
  · exact predictFor_word files target kind
  · constructor
    case near_count =>
      intro path
      rw [map_file_direct]
      exact count_near h path
    case far_count =>
      intro path
      rw [map_file_indirect]
      exact count_far h path
    case near_entry =>
      intro i hi
      obtain ⟨path, _, rfl⟩ := List.mem_map.mp hi
      exact ⟨rfl, rfl⟩
    case far_entry =>
      intro i hi
      obtain ⟨path, _, rfl⟩ := List.mem_map.mp hi
      exact ⟨rfl, rfl⟩
    case affected_nodup => exact nodup_eraseDups _
    case affected => exact fun path => (mem_affectedFiles_predict h).trans chain_upTo_two.symm
    case affected_target => exact affected_target_iff h
    case sameFiles =>
      intro other
      exact (affectedFiles_predict files target other).trans
        (affectedFiles_predict files target kind).symm
    case nothing => exact predict_eq_nil

end Impact

end ChangeImpact
