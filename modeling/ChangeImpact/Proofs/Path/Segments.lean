import ChangeImpact.Path.Slash

/-!
# Proofs.Path.Segments

Segments of paths that are put together.

* `Text.splitOn_append`       — what is separated falls into the pieces of both sides.
* `Text.splitOn_intercalate`  — pieces that were put together come apart again.
* `Path.segments_append`      — a path below another one has the segments of both.
* `Path.intercalate_segments` — a path is its segments with slashes between them.
* `Path.child_cases`          — how an entry of a directory is named.
-/

namespace ChangeImpact

theorem Text.splitOn_append (sep : Char) (a b : List Char) :
    splitOn sep (a ++ sep :: b) = splitOn sep a ++ splitOn sep b := by
  induction a with
  | nil => simp [splitOn]
  | cons c rest ih =>
    by_cases hc : c = sep
    · simp [splitOn, hc, ih]
    · obtain ⟨piece, pieces, hpieces⟩ := List.exists_cons_of_ne_nil (splitOn_ne_nil sep rest)
      simp [splitOn, hc, ih, hpieces]

theorem Text.splitOn_eq_singleton {sep : Char} {s : List Char} (h : sep ∉ s) :
    splitOn sep s = [s] := by
  induction s with
  | nil => rfl
  | cons c rest ih =>
    rw [List.mem_cons, not_or] at h
    have hc : c ≠ sep := fun he => h.1 he.symm
    simp [splitOn, hc, ih h.2]

theorem Text.splitOn_intercalate {sep : Char} {pieces : List (List Char)} (hne : pieces ≠ [])
    (h : ∀ piece ∈ pieces, sep ∉ piece) : splitOn sep (List.intercalate [sep] pieces) = pieces := by
  induction pieces with
  | nil => exact absurd rfl hne
  | cons piece rest ih =>
    rw [List.forall_mem_cons] at h
    cases rest with
    | nil => rw [List.intercalate_singleton, splitOn_eq_singleton h.1]
    | cons next rest =>
      rw [List.intercalate_cons_cons, List.append_assoc, List.singleton_append, splitOn_append,
        splitOn_eq_singleton h.1, ih (by simp) h.2]
      rfl

namespace Path

theorem segments_ne_nil (p : String) : segments p ≠ [] := by
  rw [segments, ne_eq, List.map_eq_nil_iff]
  exact Text.splitOn_ne_nil '/' p.toList

theorem segments_append (p q : String) : segments (p ++ "/" ++ q) = segments p ++ segments q := by
  have hlist : (p ++ "/" ++ q).toList = p.toList ++ '/' :: q.toList := by simp
  rw [segments, hlist, Text.splitOn_append, List.map_append]
  rfl

theorem segments_undivided {name : String} (h : '/' ∉ name.toList) : segments name = [name] := by
  rw [segments, Text.splitOn_eq_singleton h]
  simp

theorem segments_slash (p : String) : segments (p ++ "/") = segments p ++ [""] := by
  have hempty := segments_append p ""
  rwa [String.append_empty, segments_undivided (by simp : '/' ∉ "".toList)] at hempty

theorem segments_rooted (q : String) : segments ("/" ++ q) = "" :: segments q := by
  have hempty := segments_append "" q
  rwa [String.empty_append, segments_undivided (by simp : '/' ∉ "".toList)] at hempty

theorem not_mem_of_mem_segments {p s : String} (h : s ∈ segments p) : '/' ∉ s.toList := by
  obtain ⟨piece, hpiece, rfl⟩ := List.mem_map.mp h
  rw [String.toList_ofList]
  exact Text.not_mem_of_mem_splitOn hpiece

theorem intercalate_segments (p : String) : String.intercalate "/" (segments p) = p := by
  rw [← String.toList_inj, String.toList_intercalate, segments, List.map_map]
  have hback : String.toList ∘ String.ofList = id := funext fun _ => String.toList_ofList
  rw [hback, List.map_id]
  exact Text.intercalate_splitOn '/' p.toList

theorem isRooted_append {p : String} (h : p ≠ "") (more : String) :
    isRooted (p ++ more) = isRooted p := by
  have hp : p.toList ≠ [] := by simpa using h
  obtain ⟨c, cs, hcs⟩ := List.exists_cons_of_ne_nil hp
  simp [isRooted, hcs]

/-- A path that starts with a slash. -/
theorem exists_of_isRooted {p : String} (h : isRooted p = true) : ∃ q, p = "/" ++ q := by
  have hfirst : p.toList.head? = some '/' := by simpa [isRooted] using h
  obtain ⟨cs, hcs⟩ := List.head?_eq_some_iff.mp hfirst
  refine ⟨.ofList cs, ?_⟩
  rw [← String.toList_inj, hcs]
  simp

/-- A path that ends in a slash. -/
theorem exists_of_endsInSlash {p : String} (h : endsInSlash p = true) : ∃ q, p = q ++ "/" := by
  have hlast : p.toList.getLast? = some '/' := by simpa [endsInSlash] using h
  obtain ⟨cs, hcs⟩ := List.getLast?_eq_some_iff.mp hlast
  refine ⟨.ofList cs, ?_⟩
  rw [← String.toList_inj, hcs]
  simp

theorem child_cases {name : String} (h : isRooted name = false) (directory : String) :
    child directory name = name ∨ child directory name = directory ++ name ∨
      child directory name = directory ++ "/" ++ name := by
  rw [child, join, h]
  split
  · exact .inl rfl
  · right
    simp only [Bool.false_eq_true, if_false]
    split
    · exact .inl rfl
    · exact .inr rfl

end Path

end ChangeImpact
