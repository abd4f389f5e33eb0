import ChangeImpact.Proofs.Disk.Walk

/-!
# Proofs.Disk.Tree

Trees of files, and the paths of what stands in them.

* `Entries.IsTree` — in every directory the names ascend, and entries can have them.
* `Entries.exists_dir_of_at?` — the way to a node leads through directories.
* `Path.below`     — the path of what stands below a directory, segment by segment.
* `Path.steps_below`, `Path.not_long_of_below` — the segments of such a path, and its length.
-/

namespace ChangeImpact

/-! ## Trees -/

mutual

def Node.IsTree : Node → Prop
  | .dir es => Entries.IsTree es
  | _ => True

/-- In every directory the names ascend, and entries can have them. -/
def Entries.IsTree : Entries → Prop
  | [] => True
  | (name, node) :: rest =>
    Disk.IsName name ∧ (∀ e ∈ rest, name < e.1) ∧ Node.IsTree node ∧ Entries.IsTree rest

end

namespace Entries

variable {es sub : Entries} {name : String} {node : Node}

theorem IsTree.ascending (h : IsTree es) : es.Ascending := by
  induction es with
  | nil => exact .nil
  | cons entry rest ih =>
    obtain ⟨_, hfirst, _, hrest⟩ := h
    exact .cons hfirst (ih hrest)

theorem IsTree.of_mem (h : IsTree es) (hnode : (name, node) ∈ es) :
    Disk.IsName name ∧ node.IsTree := by
  induction es with
  | nil => cases hnode
  | cons entry rest ih =>
    obtain ⟨hname, _, htree, hrest⟩ := h
    rcases List.mem_cons.mp hnode with rfl | hnode
    · exact ⟨hname, htree⟩
    · exact ih hrest hnode

theorem IsTree.of_find? (h : IsTree es) (hnode : es.find? name = some node) :
    Disk.IsName name ∧ node.IsTree :=
  h.of_mem ((find?_eq_some_iff h.ascending).mp hnode)

theorem exists_dir_of_at? {rest : List String} (hrest : rest ≠ [])
    (h : es.at? (name :: rest) = some node) :
    ∃ sub, es.find? name = some (.dir sub) ∧ Entries.at? rest sub = some node := by
  cases rest with
  | nil => exact absurd rfl hrest
  | cons m more =>
    simp only [at?] at h
    split at h
    · next sub hsub => exact ⟨sub, hsub, h⟩
    · cases h

theorem IsTree.of_at? {location : List String} : ∀ {es : Entries} {node : Node}, es.IsTree →
    es.at? location = some node → node.IsTree := by
  induction location with
  | nil =>
    intro es node htree hat
    cases hat
    exact htree
  | cons name rest ih =>
    intro es node htree hat
    by_cases hrest : rest = []
    · subst hrest
      exact (htree.of_find? hat).2
    · obtain ⟨sub, hsub, hat⟩ := exists_dir_of_at? hrest hat
      exact ih (htree.of_find? hsub).2 hat

/-- What stands in a directory has one to stand in. -/
theorem exists_dir_of_concat {parents : List String} : ∀ {es : Entries},
    es.at? (parents ++ [name]) = some node → ∃ sub, es.at? parents = some (.dir sub) := by
  induction parents with
  | nil => exact fun {es} _ => ⟨es, rfl⟩
  | cons dir rest ih =>
    intro es hat
    obtain ⟨sub, hsub, hat⟩ := exists_dir_of_at? (by simp) hat
    rw [at?_cons_dir hsub]
    exact ih hat

/-- All names on the way to a node of a tree are names of entries. -/
theorem IsTree.names {location : List String} : ∀ {es : Entries} {node : Node}, es.IsTree →
    es.at? location = some node → ∀ s ∈ location, Disk.IsName s := by
  induction location with
  | nil => exact fun _ _ _ hs => nomatch hs
  | cons name rest ih =>
    intro es node htree hat
    by_cases hrest : rest = []
    · subst hrest
      exact List.forall_mem_singleton.mpr (htree.of_find? hat).1
    · obtain ⟨sub, hsub, hat⟩ := exists_dir_of_at? hrest hat
      obtain ⟨hname, hsubtree⟩ := htree.of_find? hsub
      exact List.forall_mem_cons.mpr ⟨hname, ih hsubtree hat⟩

end Entries

/-! ## Paths below a directory -/

namespace Path

def below (root : String) (segments : List String) : String := segments.foldl child root

theorem below_cons (root name : String) (rest : List String) :
    below root (name :: rest) = below (child root name) rest := rfl

/-- The segments of a path that lead further. -/
def steps (p : String) : List String := (segments p).filter fun s => !isDot s

theorem steps_child (directory : String) {name : String} (h : Disk.IsName name) :
    steps (child directory name) = steps directory ++ [name] := by
  have hname : segments name = [name] := segments_undivided h.noSlash
  have hdot : isDot name = false := h.notDot
  have hrooted := h.not_rooted
  by_cases hhere : directory = "."
  · subst hhere
    have hnone : steps "." = [] := by decide
    rw [hnone, child, if_pos rfl, steps, hname, List.filter_singleton, hdot]
    rfl
  · by_cases hempty : directory = ""
    · subst hempty
      have hchild : child "" name = name := by
        simp [child, join, hrooted]
      have hnone : steps "" = [] := by decide
      rw [hchild, hnone, steps, hname, List.filter_singleton, hdot]
      rfl
    · by_cases hslash : endsInSlash directory = true
      · obtain ⟨q, rfl⟩ := exists_of_endsInSlash hslash
        have hchild : child (q ++ "/") name = q ++ "/" ++ name := by
          simp [child, join, hhere, hrooted, hslash]
        have hnone : isDot "" = true := rfl
        simp [hchild, steps, segments_append, segments_slash, hname, hdot, hnone]
      · have hchild : child directory name = directory ++ "/" ++ name := by
          simp [child, join, hhere, hempty, hrooted, hslash]
        simp [hchild, steps, segments_append, hname, hdot]

theorem steps_below (root : String) {segments : List String}
    (h : ∀ s ∈ segments, Disk.IsName s) : steps (below root segments) = steps root ++ segments := by
  induction segments generalizing root with
  | nil => simp [below]
  | cons name rest ih =>
    rw [List.forall_mem_cons] at h
    rw [below_cons, ih (child root name) h.2, steps_child root h.1, List.append_assoc]
    rfl

theorem size_add_le_child {directory : String} (hhere : directory ≠ ".") {name : String}
    (h : Disk.IsName name) :
    directory.utf8ByteSize + name.utf8ByteSize ≤ (child directory name).utf8ByteSize := by
  rw [child, if_neg hhere, join, h.not_rooted]
  simp only [Bool.false_eq_true, if_false]
  split
  · rw [String.utf8ByteSize_append]
  · rw [String.utf8ByteSize_append, String.utf8ByteSize_append]
    omega

/-- A path below another one is not shorter. -/
theorem size_le_child (directory : String) {name : String} (h : Disk.IsName name) :
    directory.utf8ByteSize ≤ (child directory name).utf8ByteSize := by
  by_cases hhere : directory = "."
  · subst hhere
    have hsize : ".".utf8ByteSize = 1 := rfl
    have hname : name.utf8ByteSize ≠ 0 := by simpa using h.ne_empty
    rw [child, if_pos rfl, hsize]
    omega
  · have hsize := size_add_le_child hhere h
    omega

/-- Where a path below a directory is short enough, that of the directory is. -/
theorem not_long_of_below {directory : String} {segments : List String}
    (h : ∀ s ∈ segments, Disk.IsName s)
    (hshort : Disk.isLongPath (below directory segments) = false) :
    Disk.isLongPath directory = false := by
  induction segments generalizing directory with
  | nil => exact hshort
  | cons name rest ih =>
    rw [List.forall_mem_cons] at h
    have hchild := ih h.2 hshort
    have hsize := size_le_child directory h.1
    simp only [Disk.isLongPath, decide_eq_false_iff_not] at hchild ⊢
    omega

end Path

end ChangeImpact
