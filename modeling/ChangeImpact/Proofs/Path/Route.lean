import ChangeImpact.Graph.Resolve
import ChangeImpact.Proofs.Path.Segments
import Mathlib.Data.List.Basic

/-!
# Proofs.Path.Route

Relative specifiers: how one file is written down in another one.

* `IsNormal`            — no segment of the path is empty, a dot or a double dot.
* `route`, `IsRoute`    — up from the directory of one file, and down to another one.
* `normalize_route`     — going there cancels what was gone up.
* `Graph.target_of_isRoute` — between normal paths a specifier like this denotes the file it is for.
-/

namespace ChangeImpact

namespace Path

/-! ## Normal paths -/

/-- The segments of a path, apart from the empty one in front of a leading slash. -/
def parts (p : String) : List String := if isRooted p then (segments p).tail else segments p

def IsNormal (p : String) : Prop := ∀ s ∈ parts p, isDot s = false ∧ s ≠ ".."

instance (p : String) : Decidable (IsNormal p) := inferInstanceAs (Decidable (∀ s ∈ parts p, _))

/-- A segment that is there in its own right. -/
structure IsProper (s : String) : Prop where
  undivided : '/' ∉ s.toList
  notDot : isDot s = false
  notUp : s ≠ ".."

theorem IsProper.ne_empty {s : String} (h : IsProper s) : s ≠ "" := by
  rintro rfl
  exact absurd h.notDot (by decide)

theorem IsNormal.isProper {p : String} (h : IsNormal p) : ∀ s ∈ parts p, IsProper s := by
  intro s hs
  have hsegment : s ∈ segments p := by
    rw [parts] at hs
    split at hs
    · exact List.mem_of_mem_tail hs
    · exact hs
  exact ⟨not_mem_of_mem_segments hsegment, (h s hs).1, (h s hs).2⟩

/-- What a path starts with. -/
def root (rooted : Bool) : String := if rooted then "/" else ""

theorem parts_slash (q : String) : parts ("/" ++ q) = segments q := by
  have hrooted : isRooted ("/" ++ q) = true := by simp [isRooted]
  rw [parts, if_pos hrooted, segments_rooted]
  rfl

theorem parts_ne_nil (p : String) : parts p ≠ [] := by
  by_cases hrooted : isRooted p = true
  · obtain ⟨q, rfl⟩ := exists_of_isRooted hrooted
    rw [parts_slash]
    exact segments_ne_nil q
  · rw [parts, if_neg hrooted]
    exact segments_ne_nil p

theorem eq_root_append (p : String) :
    p = root (isRooted p) ++ String.intercalate "/" (parts p) := by
  by_cases hrooted : isRooted p = true
  · obtain ⟨q, rfl⟩ := exists_of_isRooted hrooted
    rw [hrooted, parts_slash, intercalate_segments]
    rfl
  · rw [parts, if_neg hrooted, intercalate_segments]
    simp [root, hrooted]

theorem IsNormal.ne_empty {p : String} (h : IsNormal p) : p ≠ "" := by
  rintro rfl
  exact absurd h (by decide)

theorem IsNormal.assemble_parts {p : String} (h : IsNormal p) :
    assemble (root (isRooted p)) (parts p) = p := by
  rw [assemble, ← eq_root_append, if_neg h.ne_empty]

/-! ## Directories one inside the other -/

/-- What stands below some directories, the first of which is the outermost. -/
def under : List String → String → String
  | [], more => more
  | dir :: rest, more => dir ++ "/" ++ under rest more

theorem under_append (dirs rest : List String) (more : String) :
    under (dirs ++ rest) more = under dirs (under rest more) := by
  induction dirs with
  | nil => rfl
  | cons dir dirs ih => rw [List.cons_append, under, under, ih]

theorem under_eq_append (dirs : List String) (more : String) :
    under dirs more = under dirs "" ++ more := by
  induction dirs with
  | nil => simp [under]
  | cons dir dirs ih => rw [under, under, ih, ← String.append_assoc]

theorem segments_under {dirs : List String} (h : ∀ dir ∈ dirs, '/' ∉ dir.toList) (more : String) :
    segments (under dirs more) = dirs ++ segments more := by
  induction dirs with
  | nil => rfl
  | cons dir dirs ih =>
    rw [List.forall_mem_cons] at h
    rw [under, segments_append, segments_undivided h.1, ih h.2]
    rfl

theorem intercalate_concat (dirs : List String) (name : String) :
    String.intercalate "/" (dirs ++ [name]) = under dirs name := by
  induction dirs with
  | nil => exact String.intercalate_singleton
  | cons dir dirs ih =>
    obtain ⟨next, rest, hrest⟩ := List.exists_cons_of_ne_nil
      (List.append_ne_nil_of_right_ne_nil dirs (List.cons_ne_nil name []))
    rw [List.cons_append, hrest, String.intercalate_cons_cons, ← hrest, ih, under]

/-- A normal path is a name below its directories. -/
theorem IsNormal.exists_under {p : String} (h : IsNormal p) :
    ∃ name, IsProper name ∧ p = root (isRooted p) ++ under (parts p).dropLast name := by
  have hne := parts_ne_nil p
  refine ⟨(parts p).getLast hne, h.isProper _ (List.getLast_mem hne), ?_⟩
  rw [← intercalate_concat, List.dropLast_concat_getLast]
  exact eq_root_append p

/-! ## The directory of a file -/

theorem dropWhile_reverse {pre : String} (h : pre = "" ∨ endsInSlash pre = true) :
    pre.toList.reverse.dropWhile (· != '/') = pre.toList.reverse := by
  rcases h with rfl | h
  · rfl
  · obtain ⟨q, rfl⟩ := exists_of_endsInSlash h
    simp

theorem directory_append {pre name : String} (hname : '/' ∉ name.toList)
    (hpre : pre = "" ∨ endsInSlash pre = true) : directory (pre ++ name) = directory pre := by
  have hstart : (pre ++ name).toList.reverse.dropWhile (· != '/') = pre.toList.reverse := by
    rw [String.toList_append, List.reverse_append, List.dropWhile_append_of_pos,
      dropWhile_reverse hpre]
    intro c hc
    have hne : c ≠ '/' := fun he => hname (by simpa [he] using hc)
    simp [hne]
  rw [directory, directory, hstart, dropWhile_reverse hpre]

theorem directory_slash {q : String} (h : q ≠ "") (hend : endsInSlash q = false) :
    directory (q ++ "/") = q := by
  have hq : q.toList ≠ [] := by simpa using h
  obtain ⟨cs, c, hcs⟩ := (List.eq_nil_or_concat' q.toList).resolve_left hq
  have hc : c ≠ '/' := by
    rintro rfl
    simp [endsInSlash, hcs] at hend
  rw [← String.toList_inj]
  simp [directory, hcs, hc]

theorem endsInSlash_append {s : String} (h : s ≠ "") (p : String) :
    endsInSlash (p ++ s) = endsInSlash s := by
  have hs : s.toList ≠ [] := by simpa using h
  obtain ⟨cs, c, hcs⟩ := (List.eq_nil_or_concat' s.toList).resolve_left hs
  simp [endsInSlash, hcs]

theorem IsProper.not_endsInSlash {s : String} (h : IsProper s) : endsInSlash s = false := by
  rw [Bool.eq_false_iff]
  intro hend
  obtain ⟨q, rfl⟩ := exists_of_endsInSlash hend
  exact h.undivided (by simp)

theorem isRooted_under {dirs : List String} {more : String} (h : ∀ dir ∈ dirs, IsProper dir)
    (hmore : isRooted more = false) : isRooted (under dirs more) = false := by
  cases dirs with
  | nil => exact hmore
  | cons dir dirs =>
    have hdir : IsProper dir := h dir List.mem_cons_self
    rw [under, String.append_assoc, isRooted_append hdir.ne_empty, Bool.eq_false_iff]
    intro hrooted
    obtain ⟨q, rfl⟩ := exists_of_isRooted hrooted
    exact hdir.undivided (by simp)

/-- What a file with these directories is continued by takes the place of its name. -/
theorem join_directory {dirs : List String} {name more : String}
    (hdirs : ∀ dir ∈ dirs, IsProper dir) (hname : IsProper name) (hmore : isRooted more = false)
    (rooted : Bool) :
    join (directory (root rooted ++ under dirs name)) more = root rooted ++ under dirs more := by
  rw [under_eq_append dirs name, under_eq_append dirs more, ← String.append_assoc,
    ← String.append_assoc]
  rcases List.eq_nil_or_concat' dirs with rfl | ⟨outer, dir, rfl⟩
  · rw [under, String.append_empty, directory_append hname.undivided (by cases rooted <;> decide)]
    cases rooted
    · simp [directory, root, join, hmore]
    · have hroot : directory (root true) = root true := by decide
      have hend : endsInSlash (root true) = true := by decide
      rw [hroot, join, hmore, hend]
      simp
  · have hdir : IsProper dir := hdirs dir (by simp)
    have hpre : root rooted ++ under (outer ++ [dir]) "" =
        root rooted ++ under outer "" ++ dir ++ "/" := by
      rw [under_append, under_eq_append outer, under, under, String.append_empty,
        ← String.append_assoc, ← String.append_assoc]
    have hne : root rooted ++ under outer "" ++ dir ≠ "" := by
      simp [String.append_eq_empty_iff, hdir.ne_empty]
    have hend : endsInSlash (root rooted ++ under outer "" ++ dir) = false := by
      rw [endsInSlash_append hdir.ne_empty, hdir.not_endsInSlash]
    rw [hpre, directory_append hname.undivided (.inr (by simp [endsInSlash])),
      directory_slash hne hend, join, hmore, hend]
    simp [hne]

/-! ## Going up and down again -/

variable {rooted : Bool}

theorem foldl_climb_down {dirs : List String} (h : ∀ dir ∈ dirs, IsProper dir)
    (before : List String) : dirs.foldl (climb rooted) before = dirs.reverse ++ before := by
  induction dirs generalizing before with
  | nil => rfl
  | cons dir dirs ih =>
    rw [List.forall_mem_cons] at h
    have hstep : climb rooted before dir = dir :: before := by
      simp [climb, h.1.notDot, h.1.notUp]
    rw [List.foldl_cons, hstep, ih h.2, List.reverse_cons, List.append_assoc]
    rfl

theorem foldl_climb_up {inner : List String} (h : ∀ dir ∈ inner, IsProper dir)
    (before : List String) :
    (List.replicate inner.length "..").foldl (climb rooted) (inner ++ before) = before := by
  induction inner with
  | nil => rfl
  | cons dir inner ih =>
    rw [List.forall_mem_cons] at h
    have hstep : climb rooted (dir :: (inner ++ before)) ".." = inner ++ before := by
      have hup : isDot ".." = false := by decide
      simp [climb, hup, h.1.notUp]
    rw [List.length_cons, List.replicate_succ, List.foldl_cons, List.cons_append, hstep, ih h.2]

/-- Nothing is there to go down to where the path is written out as an empty segment. -/
theorem foldl_climb_written {parts : List String} (h : ∀ s ∈ parts, IsProper s)
    (before : List String) :
    (segments (String.intercalate "/" parts)).foldl (climb rooted) before =
      parts.reverse ++ before := by
  rcases List.eq_nil_or_concat' parts with rfl | ⟨dirs, name, rfl⟩
  · rfl
  · have hall : ∀ s ∈ dirs ++ [name], '/' ∉ s.toList := fun s hs => (h s hs).undivided
    rw [List.forall_mem_append, List.forall_mem_singleton] at hall
    rw [intercalate_concat, segments_under hall.1, segments_undivided hall.2, foldl_climb_down h]

theorem normalize_root {p : String} (h : isRooted p = false) :
    normalize (root rooted ++ p) = assemble (root rooted) (climbAll rooted (segments p)) := by
  have hfirst : p.toList.head? ≠ some '/' := by simpa [isRooted] using h
  cases rooted with
  | false =>
    have hlead : leading p = "" := by
      rw [leading]
      split <;> simp_all
    rw [root, if_neg (by decide), String.empty_append, normalize, hlead, h]
  | true =>
    have hlead : leading ("/" ++ p) = "/" := by
      have hlist : ("/" ++ p).toList = '/' :: p.toList := by simp
      rw [leading, hlist]
      split <;> simp_all
    have hrooted : isRooted ("/" ++ p) = true := by simp [isRooted]
    rw [root, if_pos rfl, normalize, hlead, hrooted, segments_rooted]
    rfl

/-! ## Routes -/

/-- A double dot for each of `ups` levels, or a single one for none, and the segments that lead down
again. -/
def route (ups : Nat) (downs : List String) : String :=
  under (if ups = 0 then ["."] else List.replicate ups "..") (String.intercalate "/" downs)

/-- The specifier `s` leads from the directory of `source` up to a directory above both files, and
from there to `target`. -/
def IsRoute (source target s : String) : Prop :=
  isRooted source = isRooted target ∧ ∃ common inner downs : List String,
    (parts source).dropLast = common ++ inner ∧ parts target = common ++ downs ∧
      s = route inner.length downs

example : route 2 ["x", "b.ts"] = "../../x/b.ts" := by decide

example : route 0 ["b.ts"] = "./b.ts" := by decide

/-- A route starts with a dot. -/
theorem exists_toList_route (ups : Nat) (downs : List String) :
    ∃ rest, (route ups downs).toList = '.' :: rest := by
  rw [route]
  cases ups with
  | zero => simp [under]
  | succ n => simp [under, List.replicate_succ]

theorem isRooted_route (ups : Nat) (downs : List String) : isRooted (route ups downs) = false := by
  obtain ⟨rest, hrest⟩ := exists_toList_route ups downs
  simp [isRooted, hrest]

theorem segments_route (ups : Nat) (downs : List String) : segments (route ups downs) =
    (if ups = 0 then ["."] else List.replicate ups "..") ++
      segments (String.intercalate "/" downs) := by
  refine segments_under (fun dir hdir => ?_) _
  split at hdir
  · rw [List.mem_singleton.mp hdir]
    decide
  · rw [List.eq_of_mem_replicate hdir]
    decide

/-- What is gone up on a route cancels the directories that it starts in. -/
theorem foldl_climb_route {inner downs : List String} (hinner : ∀ dir ∈ inner, IsProper dir)
    (hdowns : ∀ s ∈ downs, IsProper s) (before : List String) :
    (segments (route inner.length downs)).foldl (climb rooted) (inner.reverse ++ before) =
      downs.reverse ++ before := by
  have hups : (if inner.length = 0 then ["."] else List.replicate inner.length "..").foldl
      (climb rooted) (inner.reverse ++ before) = before := by
    split
    · next hzero =>
      rw [List.length_eq_zero_iff.mp hzero]
      rfl
    · rw [← List.length_reverse]
      exact foldl_climb_up (fun dir hdir => hinner dir (List.mem_reverse.mp hdir)) before
  rw [segments_route, List.foldl_append, hups, foldl_climb_written hdowns]

theorem normalize_route {common inner downs : List String}
    (hsource : ∀ s ∈ common ++ inner, IsProper s) (htarget : ∀ s ∈ common ++ downs, IsProper s) :
    normalize (root rooted ++ under (common ++ inner) (route inner.length downs)) =
      assemble (root rooted) (common ++ downs) := by
  have hundivided : ∀ s ∈ common ++ inner, '/' ∉ s.toList := fun s hs => (hsource s hs).undivided
  have hinner : ∀ s ∈ inner, IsProper s := fun s hs => hsource s (by simp [hs])
  have hdowns : ∀ s ∈ downs, IsProper s := fun s hs => htarget s (by simp [hs])
  rw [normalize_root (isRooted_under hsource (isRooted_route _ _)), segments_under hundivided,
    climbAll, List.foldl_append, foldl_climb_down hsource, List.reverse_append, List.append_assoc,
    foldl_climb_route hinner hdowns]
  simp

end Path

open ChangeImpact.Path in
/-- Between normal paths, a route is a specifier of what it leads to. -/
theorem Graph.target_of_isRoute {source target s : String} (hsource : IsNormal source)
    (htarget : IsNormal target) (h : IsRoute source target s) : Graph.target source s = target := by
  obtain ⟨hrooted, common, inner, downs, hup, hdown, rfl⟩ := h
  obtain ⟨name, hname, hpath⟩ := hsource.exists_under
  have hdirs : ∀ dir ∈ common ++ inner, IsProper dir := by
    rw [← hup]
    exact fun dir hdir => hsource.isProper dir ((List.dropLast_sublist _).subset hdir)
  have hparts : ∀ s ∈ common ++ downs, IsProper s := by
    rw [← hdown]
    exact htarget.isProper
  calc Graph.target source (route inner.length downs)
      = normalize (join (directory (root (isRooted source) ++ under (common ++ inner) name))
          (route inner.length downs)) := by rw [Graph.target, ← hup, ← hpath]
    _ = normalize (root (isRooted source) ++
          under (common ++ inner) (route inner.length downs)) := by
        rw [join_directory hdirs hname (isRooted_route _ _)]
    _ = assemble (root (isRooted target)) (parts target) := by
        rw [normalize_route hdirs hparts, hrooted, hdown]
    _ = target := htarget.assemble_parts

end ChangeImpact
