import ChangeImpact.Proofs.Disk.Tree
import ChangeImpact.Proofs.Path.Route
import Mathlib.Data.List.TakeWhile

/-!
# Proofs.Path.Landing

Where a relative specifier leads from a file below a root.

* `entrance`            — what stands in front of the names below a directory.
* `landing`             — the names below the root that a specifier leads to, if it never climbs
  above the root.
* `Graph.target_below`  — the specifier denotes what has these names below the normal root.
-/

namespace ChangeImpact

theorem Disk.IsName.isProper {name : String} (h : Disk.IsName name) : Path.IsProper name :=
  ⟨h.noSlash, h.notDot, h.notUp⟩

namespace Path

/-! ## Directories and what stands in them -/

/-- What stands in front of the name of an entry of a directory. -/
def entrance (directory : String) : String :=
  if directory = "." then ""
  else if directory = "" || endsInSlash directory then directory
  else directory ++ "/"

/-- The path of a directory that a slash leads into. -/
structure IsPlain (directory : String) : Prop where
  notHere : directory ≠ "."
  ne_empty : directory ≠ ""
  notSlash : endsInSlash directory = false

theorem IsPlain.entrance {directory : String} (h : IsPlain directory) :
    entrance directory = directory ++ "/" := by
  simp [Path.entrance, h.notHere, h.ne_empty, h.notSlash]

theorem entrance_cases (directory : String) :
    directory = "." ∧ entrance directory = "" ∨ directory = "" ∧ entrance directory = "" ∨
      endsInSlash directory = true ∧ entrance directory = directory ∨ IsPlain directory := by
  by_cases hhere : directory = "."
  · exact .inl ⟨hhere, by rw [entrance, if_pos hhere]⟩
  · by_cases hempty : directory = ""
    · exact .inr (.inl ⟨hempty, by rw [hempty]; decide⟩)
    · by_cases hslash : endsInSlash directory = true
      · exact .inr (.inr (.inl ⟨hslash, by simp [entrance, hhere, hslash]⟩))
      · exact .inr (.inr (.inr ⟨hhere, hempty, by simpa using hslash⟩))

theorem child_eq_entrance {name : String} (h : isRooted name = false) (directory : String) :
    child directory name = entrance directory ++ name := by
  rcases entrance_cases directory with ⟨rfl, hentrance⟩ | ⟨rfl, hentrance⟩ |
    ⟨hslash, hentrance⟩ | hplain
  · rw [child, if_pos rfl, hentrance, String.empty_append]
  · have hempty : ("" : String) ≠ "." := by decide
    rw [child, if_neg hempty, join, h, hentrance]
    simp
  · have hhere : directory ≠ "." := by
      rintro rfl
      exact absurd hslash (by decide)
    simp [child, join, hhere, h, hslash, hentrance]
  · rw [hplain.entrance]
    simp [child, join, hplain.notHere, hplain.ne_empty, hplain.notSlash, h]

theorem IsProper.not_rooted {s : String} (h : IsProper s) : isRooted s = false := by
  rw [Bool.eq_false_iff]
  intro hrooted
  obtain ⟨q, rfl⟩ := exists_of_isRooted hrooted
  exact h.undivided (by simp)

/-- A segment as paths are put together from: a double dot may be one. -/
structure IsKept (s : String) : Prop where
  undivided : '/' ∉ s.toList
  notDot : isDot s = false

theorem IsKept.ne_empty {s : String} (h : IsKept s) : s ≠ "" := by
  rintro rfl
  exact absurd h.notDot (by decide)

theorem IsKept.not_endsInSlash {s : String} (h : IsKept s) : endsInSlash s = false := by
  rw [Bool.eq_false_iff]
  intro hend
  obtain ⟨q, rfl⟩ := exists_of_endsInSlash hend
  exact h.undivided (by simp)

theorem IsProper.isKept {s : String} (h : IsProper s) : IsKept s := ⟨h.undivided, h.notDot⟩

theorem isPlain_append {name : String} (h : IsKept name) {pre : String}
    (hpre : pre = "" ∨ endsInSlash pre = true) : IsPlain (pre ++ name) := by
  refine ⟨?_, by simp [String.append_eq_empty_iff, h.ne_empty], ?_⟩
  · intro hdot
    rcases hpre with rfl | hslash
    · rw [String.empty_append] at hdot
      rw [hdot] at h
      exact absurd h.notDot (by decide)
    · obtain ⟨q, rfl⟩ := exists_of_endsInSlash hslash
      have hmem : '/' ∈ (".":String).toList := by simp [← hdot]
      exact absurd hmem (by decide)
  · rw [endsInSlash_append h.ne_empty, h.not_endsInSlash]

theorem entrance_ends (directory : String) :
    entrance directory = "" ∨ endsInSlash (entrance directory) = true := by
  rcases entrance_cases directory with ⟨_, h⟩ | ⟨_, h⟩ | ⟨hslash, h⟩ | h
  · exact .inl h
  · exact .inl h
  · exact .inr (by rwa [h])
  · exact .inr (by simp [h.entrance, endsInSlash])

theorem isPlain_child {name : String} (h : IsProper name) (directory : String) :
    IsPlain (child directory name) := by
  rw [child_eq_entrance h.not_rooted]
  exact isPlain_append h.isKept (entrance_ends directory)

theorem below_child (root : String) (dirs : List String) (name : String) :
    below root (dirs ++ [name]) = child (below root dirs) name := by
  rw [below, below, List.foldl_append]
  rfl

/-- The names below a directory, from the outermost on. -/
theorem below_concat {dirs : List String} {name : String} (hdirs : ∀ dir ∈ dirs, IsProper dir)
    (hname : IsProper name) (root : String) :
    below root (dirs ++ [name]) = entrance root ++ under dirs name := by
  induction dirs generalizing root with
  | nil => exact child_eq_entrance hname.not_rooted root
  | cons dir dirs ih =>
    rw [List.forall_mem_cons] at hdirs
    rw [List.cons_append, below_cons, ih hdirs.2, (isPlain_child hdirs.1 root).entrance,
      child_eq_entrance hdirs.1.not_rooted, under, String.append_assoc, String.append_assoc,
      String.append_assoc]

theorem below_eq_entrance {segments : List String} (hne : segments ≠ [])
    (h : ∀ s ∈ segments, IsProper s) (root : String) :
    below root segments = entrance root ++ String.intercalate "/" segments := by
  obtain ⟨dirs, name, rfl⟩ := (List.eq_nil_or_concat' segments).resolve_left hne
  rw [List.forall_mem_append, List.forall_mem_singleton] at h
  rw [below_concat h.1 h.2, intercalate_concat]

theorem isPlain_below {segments : List String} (hne : segments ≠ [])
    (h : ∀ s ∈ segments, IsProper s) (root : String) : IsPlain (below root segments) := by
  obtain ⟨dirs, name, rfl⟩ := (List.eq_nil_or_concat' segments).resolve_left hne
  rw [List.forall_mem_append, List.forall_mem_singleton] at h
  rw [below_child]
  exact isPlain_child h.2 _

/-! ## What a longer path keeps -/

/-- Only the number of slashes at the start counts. -/
theorem leading_eq (p : String) : leading p =
    if (p.toList.takeWhile (· = '/')).length = 0 then ""
    else if (p.toList.takeWhile (· = '/')).length = 2 then "//" else "/" := by
  rw [leading]
  rcases p.toList with _ | ⟨a, _ | ⟨b, _ | ⟨c, rest⟩⟩⟩
  · rfl
  · by_cases ha : a = '/' <;> simp [ha]
  · by_cases ha : a = '/' <;> by_cases hb : b = '/' <;> simp [ha, hb]
  · by_cases ha : a = '/' <;> by_cases hb : b = '/' <;> by_cases hc : c = '/' <;>
      simp [ha, hb, hc]

section Longer

variable {directory more : String} (hne : directory ≠ "") (hmore : isRooted more = false)

include hne hmore

theorem isRooted_entrance : isRooted (entrance directory ++ more) = isRooted directory := by
  rcases entrance_cases directory with ⟨rfl, h⟩ | ⟨hempty, _⟩ | ⟨_, h⟩ | hplain
  · rw [h, String.empty_append, hmore]
    decide
  · exact absurd hempty hne
  · rw [h, isRooted_append hne]
  · rw [hplain.entrance, String.append_assoc, isRooted_append hne]

theorem leading_entrance : leading (entrance directory ++ more) = leading directory := by
  have hnone : more.toList.takeWhile (· = '/') = [] := by
    have hfirst : more.toList.head? ≠ some '/' := by simpa [isRooted] using hmore
    cases hlist : more.toList with
    | nil => rfl
    | cons c rest =>
      have hc : c ≠ '/' := by simpa [hlist] using hfirst
      simp [hc]
  suffices hcount : ((entrance directory ++ more).toList.takeWhile (· = '/')).length =
      (directory.toList.takeWhile (· = '/')).length by rw [leading_eq, leading_eq, hcount]
  rcases entrance_cases directory with ⟨rfl, h⟩ | ⟨hempty, _⟩ | ⟨_, h⟩ | hplain
  · rw [h, String.empty_append, hnone]
    decide
  · exact absurd hempty hne
  · rw [h, String.toList_append, List.takeWhile_append, hnone]
    split
    · next hall => rw [List.append_nil, (List.takeWhile_prefix _).eq_of_length hall]
    · rfl
  · rw [hplain.entrance, String.append_assoc, String.toList_append, List.takeWhile_append, if_neg]
    intro hall
    -- the last character is none
    have hslashes := List.takeWhile_eq_self_iff.mp ((List.takeWhile_prefix _).eq_of_length hall)
    have hnil : directory.toList ≠ [] := by simpa using hplain.ne_empty
    have hlast : directory.toList.getLast hnil = '/' :=
      of_decide_eq_true (hslashes _ (List.getLast_mem hnil))
    have hend := hplain.notSlash
    rw [endsInSlash, List.getLast?_eq_some_getLast hnil, hlast] at hend
    exact absurd hend (by decide)

omit hmore in
/-- The names that a path has come to, the last one first. -/
theorem foldl_climb_entrance {rooted : Bool} :
    (segments (entrance directory ++ more)).foldl (climb rooted) [] =
      (segments more).foldl (climb rooted) ((segments directory).foldl (climb rooted) []) := by
  have hdot (before : List String) : climb rooted before "" = before := by simp [climb, isDot]
  rcases entrance_cases directory with ⟨rfl, h⟩ | ⟨hempty, _⟩ | ⟨hslash, h⟩ | hplain
  · have hsegments : segments "." = ["."] := by decide
    rw [h, String.empty_append, hsegments]
    rfl
  · exact absurd hempty hne
  · obtain ⟨q, rfl⟩ := exists_of_endsInSlash hslash
    rw [h, segments_append, segments_slash, List.foldl_append, List.foldl_append, List.foldl_cons,
      List.foldl_nil, hdot]
  · rw [hplain.entrance, segments_append, List.foldl_append]

end Longer

/-- What stands below a root keeps its start, and its names come after those of the root. -/
theorem climbed_below {dirs : List String} (hdirs : ∀ dir ∈ dirs, IsProper dir) {root : String}
    (hne : root ≠ "") :
    isRooted (below root dirs) = isRooted root ∧ leading (below root dirs) = leading root ∧
      ∀ rooted, (segments (below root dirs)).foldl (climb rooted) [] =
        dirs.reverse ++ (segments root).foldl (climb rooted) [] := by
  induction dirs generalizing root with
  | nil => exact ⟨rfl, rfl, fun _ => rfl⟩
  | cons dir dirs ih =>
    rw [List.forall_mem_cons] at hdirs
    have hrooted := hdirs.1.not_rooted
    obtain ⟨hstart, hlead, hnames⟩ := ih hdirs.2 (isPlain_child hdirs.1 root).ne_empty
    rw [child_eq_entrance hrooted] at hstart hlead hnames
    rw [below_cons, child_eq_entrance hrooted]
    refine ⟨hstart.trans (isRooted_entrance hne hrooted),
      hlead.trans (leading_entrance hne hrooted), fun rooted => ?_⟩
    have hstep (before : List String) : climb rooted before dir = dir :: before := by
      simp [climb, hdirs.1.notDot, hdirs.1.notUp]
    rw [hnames, foldl_climb_entrance hne, segments_undivided hdirs.1.undivided,
      List.foldl_cons, List.foldl_nil, hstep]
    simp

/-! ## Landing -/

/-- Goes through the segments of a specifier from below some directories, the innermost of which
stands first; nothing is left when it climbs above them all. -/
def descend : List String → List String → Option (List String)
  | before, [] => some before
  | before, segment :: rest =>
    if isDot segment then descend before rest
    else if segment = ".." then
      match before with
      | [] => none
      | _ :: above => descend above rest
    else descend (segment :: before) rest

/-- The names below the root that a specifier leads to from a file in some directories below
it. -/
def landing (dirs : List String) (specifier : String) : Option (List String) :=
  if isRooted specifier then none
  else (descend dirs.reverse (segments specifier)).map List.reverse

example : landing ["lib"] "../src/./b" = some ["src", "b"] := by decide

example : landing ["lib"] "../../b" = none := by decide

theorem foldl_climb_descend (rooted : Bool) (base : List String) : ∀ {rest before after},
    (∀ s ∈ before, IsProper s) → (∀ s ∈ rest, '/' ∉ s.toList) → descend before rest = some after →
      rest.foldl (climb rooted) (before ++ base) = after ++ base ∧ ∀ s ∈ after, IsProper s := by
  intro rest
  induction rest with
  | nil =>
    intro before after hbefore _ h
    cases h
    exact ⟨rfl, hbefore⟩
  | cons segment rest ih =>
    intro before after hbefore hrest h
    rw [List.forall_mem_cons] at hrest
    rw [List.foldl_cons]
    by_cases hdot : isDot segment = true
    · have hstep : climb rooted (before ++ base) segment = before ++ base := by simp [climb, hdot]
      rw [descend.eq_def] at h
      simp only [hdot, if_true] at h
      rw [hstep]
      exact ih hbefore hrest.2 h
    · by_cases hup : segment = ".."
      · subst hup
        cases before with
        | nil => simp [descend, hdot] at h
        | cons last above =>
          rw [List.forall_mem_cons] at hbefore
          have hstep : climb rooted (last :: above ++ base) ".." = above ++ base := by
            simp [climb, hdot, hbefore.1.notUp]
          simp only [descend, hdot, Bool.false_eq_true, if_false, if_true] at h
          rw [hstep]
          exact ih hbefore.2 hrest.2 h
      · have hstep : climb rooted (before ++ base) segment = segment :: before ++ base := by
          simp [climb, hdot, hup]
        simp only [descend, hdot, hup, Bool.false_eq_true, if_false] at h
        rw [hstep]
        have hsegment : IsProper segment := ⟨hrest.1, by simpa using hdot, hup⟩
        exact ih (List.forall_mem_cons.mpr ⟨hsegment, hbefore⟩) hrest.2 h

/-! ## Paths from their parts -/

theorem leading_cases (p : String) : leading p = "" ∨ leading p = "/" ∨ leading p = "//" := by
  rw [leading]
  split <;> simp

theorem isKept_climb {rooted : Bool} {before : List String} {segment : String}
    (hbefore : ∀ s ∈ before, IsKept s) (h : '/' ∉ segment.toList) :
    ∀ s ∈ climb rooted before segment, IsKept s := by
  have hup : IsKept ".." := ⟨by decide, by decide⟩
  unfold climb
  split
  · exact hbefore
  · next hdot =>
    split
    · cases before with
      | nil => cases rooted <;> simp [hup]
      | cons last above =>
        dsimp only
        split
        · exact List.forall_mem_cons.mpr ⟨hup, hbefore⟩
        · exact (List.forall_mem_cons.mp hbefore).2
    · exact List.forall_mem_cons.mpr ⟨⟨h, by simpa using hdot⟩, hbefore⟩

theorem isKept_foldl_climb {rooted : Bool} {segments : List String}
    (h : ∀ s ∈ segments, '/' ∉ s.toList) : ∀ {before : List String}, (∀ s ∈ before, IsKept s) →
      ∀ s ∈ segments.foldl (climb rooted) before, IsKept s := by
  induction segments with
  | nil => exact fun hbefore => hbefore
  | cons segment rest ih =>
    rw [List.forall_mem_cons] at h
    exact fun hbefore => ih h.2 (isKept_climb hbefore h.1)

theorem child_assemble {lead : String} (hlead : lead = "" ∨ lead = "/" ∨ lead = "//")
    {parts : List String} (hparts : ∀ s ∈ parts, IsKept s) {name : String} (hname : IsProper name) :
    child (assemble lead parts) name = assemble lead (parts ++ [name]) := by
  rw [child_eq_entrance hname.not_rooted]
  have hfull : assemble lead (parts ++ [name]) = lead ++ under parts name := by
    rw [assemble, intercalate_concat, if_neg]
    rw [under_eq_append]
    simp [String.append_eq_empty_iff, hname.ne_empty]
  rw [hfull]
  rcases List.eq_nil_or_concat' parts with rfl | ⟨outer, dir, rfl⟩
  · have hentrance : entrance (assemble lead []) = lead := by
      rcases hlead with rfl | rfl | rfl <;> decide
    rw [hentrance, under]
  · have hdir : IsKept dir := hparts dir (by simp)
    have hdirs : assemble lead (outer ++ [dir]) = lead ++ under outer "" ++ dir := by
      rw [assemble, intercalate_concat, under_eq_append, ← String.append_assoc, if_neg]
      simp [String.append_eq_empty_iff, hdir.ne_empty]
    have hpre : lead ++ under outer "" = "" ∨ endsInSlash (lead ++ under outer "") = true := by
      rcases List.eq_nil_or_concat' outer with rfl | ⟨more, last, rfl⟩
      · rcases hlead with rfl | rfl | rfl <;> decide
      · right
        rw [under_append, under_eq_append, under, under, String.append_empty,
          ← String.append_assoc, ← String.append_assoc]
        simp [endsInSlash]
    have hplain := isPlain_append hdir hpre
    rw [hdirs, hplain.entrance, under_append, under, under,
      under_eq_append outer (dir ++ "/" ++ name)]
    simp only [String.append_assoc]

theorem below_assemble {lead : String} (hlead : lead = "" ∨ lead = "/" ∨ lead = "//")
    {names : List String} (hnames : ∀ s ∈ names, IsProper s) : ∀ {parts : List String},
      (∀ s ∈ parts, IsKept s) →
        below (assemble lead parts) names = assemble lead (parts ++ names) := by
  induction names with
  | nil => simp [below]
  | cons name names ih =>
    intro parts hparts
    rw [List.forall_mem_cons] at hnames
    have hmore : ∀ s ∈ parts ++ [name], IsKept s := List.forall_mem_append.mpr
      ⟨hparts, List.forall_mem_singleton.mpr hnames.1.isKept⟩
    rw [below_cons, child_assemble hlead hparts hnames.1, ih hnames.2 hmore]
    simp

/-- A tidy path ends in a slash only if it is made of slashes. -/
theorem tidy_endsInSlash {p : String} (h : endsInSlash (tidy p) = true) :
    tidy p = "/" ∨ tidy p = "//" := by
  have hkept : ∀ s ∈ (segments p).filter fun s => !isDot s, IsKept s := by
    intro s hs
    obtain ⟨hmem, hdot⟩ := List.mem_filter.mp hs
    exact ⟨not_mem_of_mem_segments hmem, by simpa using hdot⟩
  rw [tidy] at h ⊢
  rcases List.eq_nil_or_concat' ((segments p).filter fun s => !isDot s) with
    hnone | ⟨outer, dir, hall⟩
  · rw [hnone] at h ⊢
    rcases leading_cases p with hlead | hlead | hlead <;> rw [hlead] at h ⊢
    · exact absurd h (by decide)
    · exact .inl (by decide)
    · exact .inr (by decide)
  · rw [hall] at h hkept
    have hdir : IsKept dir := hkept dir (by simp)
    rw [assemble, intercalate_concat, under_eq_append, ← String.append_assoc, if_neg,
      endsInSlash_append hdir.ne_empty, hdir.not_endsInSlash] at h
    · cases h
    · simp [String.append_eq_empty_iff, hdir.ne_empty]

theorem tidy_ne_empty (p : String) : tidy p ≠ "" := by
  rw [tidy, assemble]
  split
  · decide
  · assumption

/-! ## Targets -/

/-- What a file is continued by takes the place of its name. -/
theorem join_directory_child {directory name more : String}
    (hdirectory : IsPlain directory ∨ directory = "." ∨ directory = "/" ∨ directory = "//")
    (hname : IsProper name) (hmore : isRooted more = false) :
    join (Path.directory (child directory name)) more = entrance directory ++ more := by
  rw [child_eq_entrance hname.not_rooted,
    directory_append hname.undivided (entrance_ends directory)]
  rcases hdirectory with hplain | rfl | rfl | rfl
  · rw [hplain.entrance, directory_slash hplain.ne_empty hplain.notSlash]
    simp [join, hmore, hplain.ne_empty, hplain.notSlash]
  · have hentrance : entrance "." = "" := by decide
    have hnone : Path.directory "" = "" := by decide
    rw [hentrance, hnone]
    simp [join, hmore]
  · have hentrance : entrance "/" = "/" := by decide
    have hroot : Path.directory "/" = "/" := by decide
    have hslash : endsInSlash "/" = true := by decide
    rw [hentrance, hroot]
    simp [join, hmore, hslash]
  · have hentrance : entrance "//" = "//" := by decide
    have hroot : Path.directory "//" = "//" := by decide
    have hslash : endsInSlash "//" = true := by decide
    rw [hentrance, hroot]
    simp [join, hmore, hslash]

theorem isPlain_tidy (p : String) :
    IsPlain (tidy p) ∨ tidy p = "." ∨ tidy p = "/" ∨ tidy p = "//" := by
  rcases entrance_cases (tidy p) with ⟨h, _⟩ | ⟨h, _⟩ | ⟨h, _⟩ | h
  · exact .inr (.inl h)
  · exact absurd h (tidy_ne_empty p)
  · exact .inr (.inr (tidy_endsInSlash h))
  · exact .inl h

end Path

open ChangeImpact.Path in
/-- Below a tidy root, a specifier denotes what it lands at below the normal root. -/
theorem Graph.target_below (r : String) {dirs : List String} (hdirs : ∀ dir ∈ dirs, IsProper dir)
    {name specifier : String} (hname : IsProper name) {rest : List String}
    (h : landing dirs specifier = some rest) :
    Graph.target (below (tidy r) (dirs ++ [name])) specifier =
        below (Path.normalize (tidy r)) rest ∧
      ∀ s ∈ rest, IsProper s := by
  have hrooted : isRooted specifier = false := by
    by_contra hrooted
    simp [landing, hrooted] at h
  rw [landing, if_neg (by simp [hrooted]), Option.map_eq_some_iff] at h
  obtain ⟨after, hdescend, rfl⟩ := h
  have hne := tidy_ne_empty r
  obtain ⟨hstart, hlead, hnames⟩ := climbed_below hdirs hne
  have hbase : IsPlain (below (tidy r) dirs) ∨ below (tidy r) dirs = "." ∨
      below (tidy r) dirs = "/" ∨ below (tidy r) dirs = "//" := by
    by_cases hnil : dirs = []
    · subst hnil
      exact isPlain_tidy r
    · exact .inl (isPlain_below hnil hdirs _)
  have hbelow_ne : below (tidy r) dirs ≠ "" := by
    rcases hbase with hplain | h | h | h
    · exact hplain.ne_empty
    all_goals rw [h]; decide
  have hkept : ∀ s ∈ (segments (tidy r)).foldl (climb (isRooted (tidy r))) [], IsKept s :=
    isKept_foldl_climb (fun s hs => not_mem_of_mem_segments hs) (by simp)
  obtain ⟨hclimb, hproper⟩ := foldl_climb_descend (isRooted (tidy r))
    ((segments (tidy r)).foldl (climb (isRooted (tidy r))) [])
    (fun s hs => hdirs s (List.mem_reverse.mp hs)) (fun s hs => not_mem_of_mem_segments hs) hdescend
  have hafter : ∀ s ∈ after.reverse, IsProper s := fun s hs => hproper s (List.mem_reverse.mp hs)
  refine ⟨?_, hafter⟩
  calc Graph.target (below (tidy r) (dirs ++ [name])) specifier
      = Path.normalize (entrance (below (tidy r) dirs) ++ specifier) := by
        rw [Graph.target, below_child, join_directory_child hbase hname hrooted]
    _ = assemble (leading (tidy r)) (((segments (tidy r)).foldl
          (climb (isRooted (tidy r))) []).reverse ++ after.reverse) := by
        rw [Path.normalize, climbAll, isRooted_entrance hbelow_ne hrooted,
          leading_entrance hbelow_ne hrooted, foldl_climb_entrance hbelow_ne, hstart, hlead,
          hnames, hclimb, List.reverse_append]
    _ = below (Path.normalize (tidy r)) after.reverse := by
        rw [Path.normalize, climbAll, below_assemble (leading_cases _) hafter]
        exact fun s hs => hkept s (List.mem_reverse.mp hs)

end ChangeImpact
