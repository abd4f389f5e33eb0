import ChangeImpact.Export.Focus
import ChangeImpact.Proofs.Graph.Edges

/-!
# Proofs.Export.Selection

What an export of an analyzed project selects, and what it can tell of it.

* `known_of_mem_nodes`, `ends_of_mem_edges` — only files are selected, and both ends of every edge.
* `RiskLevel.colour`, `shown_analyzeSources` — every selected file has a record and a colour.
* `exists_collect` — a computation that succeeds on every element of a list succeeds on the list.
-/

namespace ChangeImpact

theorem exists_collect {α β : Type} {f : α → Except Failure β} {R : α → β → Prop} {as : List α}
    (h : ∀ a ∈ as, ∃ b, f a = .ok b ∧ R a b) :
    ∃ bs, collect f as = .ok bs ∧ List.Forall₂ R as bs := by
  induction as with
  | nil => exact ⟨[], rfl, .nil⟩
  | cons a as ih =>
    rw [List.forall_mem_cons] at h
    obtain ⟨b, hb, hab⟩ := h.1
    obtain ⟨bs, hbs, hrest⟩ := ih h.2
    exact ⟨b :: bs, by rw [collect, hb, hbs], .cons hab hrest⟩

theorem collect_eq_map {α β : Type} {f : α → Except Failure β} {g : α → β} {as : List α}
    (h : ∀ a ∈ as, f a = .ok (g a)) : collect f as = .ok (as.map g) := by
  induction as with
  | nil => rfl
  | cons a as ih =>
    rw [List.forall_mem_cons] at h
    rw [collect, h.1, ih h.2]
    rfl

/-- The colour that a level of risk is drawn in. -/
def RiskLevel.colour : RiskLevel → String
  | low => "#8bc34a"
  | medium => "#ffc107"
  | high => "#ff7043"
  | critical => "#e53935"

namespace Export

variable {files : FileMap} {focus : String}

theorem mem_sorted {texts : List String} {s : String} : s ∈ sorted texts ↔ s ∈ texts :=
  List.mem_mergeSort

theorem mem_edges {e : String × String} :
    e ∈ edges files ↔ Graph.dependsOn files e.1 e.2 = true := by
  obtain ⟨path, target⟩ := e
  rw [Graph.dependsOn_iff]
  simp [edges, Keyed.get?_eq_some_iff]

theorem ends_of_mem_whole (h : Graph.TwoEnded files) {e : String × String}
    (he : e ∈ edges files) : e.1 ∈ files.keys ∧ e.2 ∈ files.keys := by
  rw [mem_edges] at he
  obtain ⟨r, hr, htarget⟩ := Graph.dependsOn_iff.mp he
  exact ⟨Graph.mem_keys_of_dependsOn he, (h.dependencies_known hr _ htarget).1⟩

/-- An export shows the whole graph, or what is near to the files that the focus names. -/
theorem select_cases (files : FileMap) (focus : String) :
    select files focus = whole files ∨
      ∃ named : List String, (∀ p ∈ named, p ∈ files.keys) ∧
        let near := (edges files).filter fun e => named.contains e.1 || named.contains e.2
        select files focus =
          { nodes := sorted (named ++ near.flatMap fun e => [e.1, e.2]).eraseDups, edges := near }
    := by
  rw [select]
  dsimp only
  split
  · exact .inl rfl
  · exact .inr ⟨_, fun p hp => (List.mem_filter.mp hp).1, rfl⟩

theorem known_of_mem_nodes (h : Graph.TwoEnded files) {p : String}
    (hp : p ∈ (select files focus).nodes) : p ∈ files.keys := by
  rcases select_cases files focus with hwhole | ⟨named, hnamed, hselect⟩
  · rwa [hwhole] at hp
  · rw [hselect, mem_sorted, List.mem_eraseDups, List.mem_append, List.mem_flatMap] at hp
    rcases hp with hp | ⟨e, he, hp⟩
    · exact hnamed p hp
    · have hends := ends_of_mem_whole h (List.mem_filter.mp he).1
      simp only [List.mem_cons, List.not_mem_nil, or_false] at hp
      rcases hp with rfl | rfl
      · exact hends.1
      · exact hends.2

theorem ends_of_mem_edges (h : Graph.TwoEnded files) {e : String × String}
    (he : e ∈ (select files focus).edges) :
    e.1 ∈ (select files focus).nodes ∧ e.2 ∈ (select files focus).nodes := by
  rcases select_cases files focus with hwhole | ⟨named, _, hselect⟩
  · rw [hwhole] at he ⊢
    exact ends_of_mem_whole h he
  · rw [hselect] at he ⊢
    have hends : ∀ p ∈ [e.1, e.2], p ∈ ((edges files).filter fun e =>
        named.contains e.1 || named.contains e.2).flatMap fun e => [e.1, e.2] :=
      fun p hp => List.mem_flatMap.mpr ⟨e, he, hp⟩
    simp only [mem_sorted, List.mem_eraseDups, List.mem_append]
    exact ⟨.inr (hends e.1 (by simp)), .inr (hends e.2 (by simp))⟩

theorem shown_of_known {path : String} {r : FileRecord} {level : RiskLevel}
    (hr : files.get? path = some r) (hlevel : r.risk = .known level) :
    shown files path = .ok (r, level.colour) := by
  rw [shown, hr]
  cases level <;> simp only [hlevel] <;> rfl

variable {extensions : List String} {extractor : Extractor} {sources : Keyed String}

/-- Every file that is selected in an analyzed project is shown. -/
theorem shown_analyzeSources {path : String}
    (h : path ∈ (select (Project.analyzeSources extensions extractor sources) focus).nodes) :
    ∃ r level, (Project.analyzeSources extensions extractor sources).get? path = some r ∧
      r.risk = .known level ∧
      shown (Project.analyzeSources extensions extractor sources) path = .ok (r, level.colour) := by
  obtain ⟨r, hr⟩ := Graph.exists_of_mem_keys
    (known_of_mem_nodes Project.twoEnded_analyzeSources h)
  obtain ⟨s, _, rfl⟩ := Project.get?_analyzeSources hr
  exact ⟨_, Risk.levelOf s, hr, rfl, shown_of_known hr rfl⟩

end Export

end ChangeImpact
