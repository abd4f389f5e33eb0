import ChangeImpact.Proofs.Path.Landing

/-!
# Proofs.Path.NormalForm

What a normalization comes to.

* `IsClimbed`           — the segments that are left: names, below double dots that lead out.
* `normalize_normalize` — a normal form is left alone.
* `normalize_child`     — so is an entry of a directory in normal form.
-/

namespace ChangeImpact.Path

/-- Names that were gone down to, the last one first, and before them the directories that were
left, for which there is no room below a leading slash. -/
def IsClimbed (rooted : Bool) (before : List String) : Prop :=
  ∃ names ups, before = names ++ List.replicate ups ".." ∧ (∀ s ∈ names, IsProper s) ∧
    (rooted = true → ups = 0)

variable {rooted : Bool}

theorem isClimbed_climb {before : List String} (h : IsClimbed rooted before) {segment : String}
    (hsegment : '/' ∉ segment.toList) : IsClimbed rooted (climb rooted before segment) := by
  obtain ⟨names, ups, rfl, hnames, hups⟩ := h
  by_cases hdot : isDot segment = true
  · simp only [climb, hdot, if_true]
    exact ⟨names, ups, rfl, hnames, hups⟩
  · by_cases hup : segment = ".."
    · subst hup
      simp only [climb, hdot, Bool.false_eq_true, if_false, if_true]
      cases names with
      | cons name names =>
        rw [List.forall_mem_cons] at hnames
        simp only [List.cons_append, hnames.1.notUp, if_false]
        exact ⟨names, ups, rfl, hnames.2, hups⟩
      | nil =>
        cases rooted with
        | true =>
          rw [hups rfl]
          exact ⟨[], 0, rfl, hnames, fun _ => rfl⟩
        | false =>
          refine ⟨[], ups + 1, ?_, hnames, by simp⟩
          cases ups with
          | zero => rfl
          | succ ups => rfl
    · simp only [climb, hdot, hup, Bool.false_eq_true, if_false]
      refine ⟨segment :: names, ups, rfl, ?_, hups⟩
      exact List.forall_mem_cons.mpr ⟨⟨hsegment, by simpa using hdot, hup⟩, hnames⟩

theorem isClimbed_foldl_climb {segments : List String} (h : ∀ s ∈ segments, '/' ∉ s.toList) :
    ∀ {before : List String}, IsClimbed rooted before →
      IsClimbed rooted (segments.foldl (climb rooted) before) := by
  induction segments with
  | nil => exact fun hbefore => hbefore
  | cons segment rest ih =>
    rw [List.forall_mem_cons] at h
    exact fun hbefore => ih h.2 (isClimbed_climb hbefore h.1)

theorem isClimbed_segments (p : String) :
    IsClimbed rooted ((segments p).foldl (climb rooted) []) :=
  isClimbed_foldl_climb (fun _ hs => not_mem_of_mem_segments hs)
    ⟨[], 0, rfl, fun _ hs => (nomatch hs), fun _ => rfl⟩

theorem foldl_climb_ups (ups : Nat) :
    (List.replicate ups "..").foldl (climb false) [] = List.replicate ups ".." := by
  induction ups with
  | zero => rfl
  | succ ups ih =>
    rw [List.replicate_succ', List.foldl_append, ih]
    cases ups with
    | zero => rfl
    | succ ups =>
      rw [← List.replicate_succ']
      rfl

/-- Going through what is left once more changes nothing. -/
theorem IsClimbed.foldl_climb {before : List String} (h : IsClimbed rooted before) :
    before.reverse.foldl (climb rooted) [] = before := by
  obtain ⟨names, ups, rfl, hnames, hups⟩ := h
  have hout : (List.replicate ups "..").foldl (climb rooted) [] = List.replicate ups ".." := by
    cases rooted with
    | true =>
      rw [hups rfl]
      rfl
    | false => exact foldl_climb_ups ups
  have hdown : ∀ s ∈ names.reverse, IsProper s := fun s hs => hnames s (List.mem_reverse.mp hs)
  rw [List.reverse_append, List.foldl_append, List.reverse_replicate, hout, foldl_climb_down hdown,
    List.reverse_reverse]

theorem IsClimbed.isKept {before : List String} (h : IsClimbed rooted before) :
    ∀ s ∈ before, IsKept s := by
  obtain ⟨names, ups, rfl, hnames, _⟩ := h
  intro s hs
  rcases List.mem_append.mp hs with hs | hs
  · exact (hnames s hs).isKept
  · rw [List.eq_of_mem_replicate hs]
    exact ⟨by decide, by decide⟩

/-! ## Putting the segments together -/

theorem segments_intercalate {parts : List String} (hne : parts ≠ [])
    (h : ∀ s ∈ parts, '/' ∉ s.toList) : segments (String.intercalate "/" parts) = parts := by
  obtain ⟨dirs, name, rfl⟩ := (List.eq_nil_or_concat' parts).resolve_left hne
  rw [List.forall_mem_append, List.forall_mem_singleton] at h
  rw [intercalate_concat, segments_under h.1, segments_undivided h.2]

theorem isRooted_intercalate {parts : List String} (hne : parts ≠ [])
    (h : ∀ s ∈ parts, IsKept s) : isRooted (String.intercalate "/" parts) = false := by
  rw [Bool.eq_false_iff]
  intro hrooted
  obtain ⟨q, hq⟩ := exists_of_isRooted hrooted
  -- then the first segment is empty
  have hsegments := segments_intercalate hne fun s hs => (h s hs).undivided
  rw [hq, segments_rooted] at hsegments
  exact (h "" (hsegments ▸ List.mem_cons_self)).ne_empty rfl

/-- The path `top` that has only what a path starts with: a dot, a slash, or two of them. -/
structure IsTop (lead top : String) : Prop where
  ne_empty : top ≠ ""
  entrance : entrance top = lead
  leading : leading top = lead
  rooted : isRooted top = decide (lead ≠ "")
  nothing : (segments top).foldl (climb (decide (lead ≠ ""))) [] = []

theorem isTop_assemble {lead : String} (h : lead = "" ∨ lead = "/" ∨ lead = "//") :
    IsTop lead (assemble lead []) := by
  rcases h with rfl | rfl | rfl <;> constructor <;> decide

theorem isRooted_eq (p : String) : isRooted p = decide (leading p ≠ "") := by
  rw [leading_eq, isRooted]
  cases p.toList with
  | nil => rfl
  | cons c cs =>
    by_cases hc : c = '/'
    · simp only [hc, List.head?_cons, decide_true, List.takeWhile_cons_of_pos, List.length_cons]
      split
      · omega
      · split <;> decide
    · simp [hc]

theorem normalize_assemble {lead : String} (hlead : lead = "" ∨ lead = "/" ∨ lead = "//")
    {before : List String} (h : IsClimbed (decide (lead ≠ "")) before) :
    normalize (assemble lead before.reverse) = assemble lead before.reverse := by
  by_cases hnil : before = []
  · subst hnil
    rcases hlead with rfl | rfl | rfl <;> decide
  · have htop := isTop_assemble hlead
    have hparts : before.reverse ≠ [] := by simpa using hnil
    have hkept : ∀ s ∈ before.reverse, IsKept s := fun s hs =>
      h.isKept s (List.mem_reverse.mp hs)
    have hmore := isRooted_intercalate hparts hkept
    have hsegments := segments_intercalate hparts fun s hs => (hkept s hs).undivided
    have hfull : assemble lead before.reverse =
        entrance (assemble lead []) ++ String.intercalate "/" before.reverse := by
      rw [htop.entrance, assemble, if_neg]
      intro hempty
      rw [(String.append_eq_empty_iff.mp hempty).2] at hsegments
      have hlast : "" ∈ before.reverse := hsegments ▸ List.mem_singleton.mpr (by decide)
      exact (hkept "" hlast).ne_empty rfl
    rw [hfull, normalize, leading_entrance htop.ne_empty hmore,
      isRooted_entrance htop.ne_empty hmore, htop.leading, htop.rooted, climbAll,
      foldl_climb_entrance htop.ne_empty, htop.nothing, hsegments, h.foldl_climb, ← hfull]

/-- A path in normal form is left alone. -/
theorem normalize_normalize (p : String) : normalize (normalize p) = normalize p := by
  refine normalize_assemble (leading_cases p) ?_
  rw [← isRooted_eq]
  exact isClimbed_segments p

/-- So is an entry of a directory in normal form. -/
theorem normalize_child {directory name : String} (hdirectory : normalize directory = directory)
    (hname : IsProper name) : normalize (child directory name) = child directory name := by
  have hne : directory ≠ "" := by
    rintro rfl
    exact absurd hdirectory (by decide)
  have hnames : ∀ s ∈ [name], IsProper s := List.forall_mem_singleton.mpr hname
  obtain ⟨hrooted, hlead, hclimb⟩ := climbed_below hnames hne
  have hkept : ∀ s ∈ climbAll (isRooted directory) (segments directory), IsKept s := fun s hs =>
    (isClimbed_segments directory).isKept s (List.mem_reverse.mp hs)
  calc normalize (child directory name)
      = assemble (leading directory)
          (climbAll (isRooted directory) (segments directory) ++ [name]) := by
        have hbelow : child directory name = below directory [name] := rfl
        rw [hbelow, normalize, hrooted, hlead, climbAll, hclimb, climbAll, List.reverse_append]
        rfl
    _ = child (normalize directory) name :=
        (child_assemble (leading_cases directory) hkept hname).symm
    _ = child directory name := by rw [hdirectory]

end ChangeImpact.Path
