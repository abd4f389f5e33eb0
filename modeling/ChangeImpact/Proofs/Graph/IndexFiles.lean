import ChangeImpact.Graph.Resolve
import ChangeImpact.Proofs.Path.NormalForm

/-!
# Proofs.Graph.IndexFiles

Imports that lead to a directory, and the index file in it.

* `indexKey`       — the path of an index file, in normal form.
* `meanings`       — all that a path may stand for, in order.
* `FindsIndex`     — a specifier is resolved to the first of these that is known, and an index file
  that is known is enough.
* `Overlooks`      — an index file next to the paths themselves, which is not found.
* `findsIndex_iff` — there is no other case.
-/

namespace ChangeImpact.Graph

open ChangeImpact.Path

/-- The path of the index file with an extension in a directory. -/
def indexKey (directory extension : String) : String :=
  normalize (join directory ("index" ++ extension))

/-- A path as it is, with each extension, and as a directory with an index file. -/
def meanings (extensions : List String) (path : String) : List String :=
  path :: extensions.map (path ++ ·) ++ extensions.map (indexKey path)

structure FindsIndex (isKnown : String → Bool) (extensions : List String)
    (fromPath specifier : String) : Prop where
  found : ∀ e ∈ extensions, isKnown (indexKey (target fromPath specifier) e) = true →
    ∃ key, resolve isKnown extensions fromPath specifier = some key
  earliest : ∀ key, resolve isKnown extensions fromPath specifier = some key →
    (meanings extensions (target fromPath specifier)).find? isKnown = some key

/-- The specifier leads to the directory that all paths start from, and only an index file is known
there that it could stand for. -/
structure Overlooks (isKnown : String → Bool) (extensions : List String)
    (fromPath specifier : String) : Prop where
  leads : target fromPath specifier = "."
  noFile : ∀ key ∈ "." :: extensions.map ("." ++ ·), isKnown key = false
  index : ∃ e ∈ extensions, isKnown ("index" ++ e) = true

section Index

variable {extensions : List String} {directory extension : String}

theorem isProper_index (h : '/' ∉ extension.toList) : IsProper ("index" ++ extension) := by
  have hne : ∀ s : String, s.length < 5 → "index" ++ extension ≠ s := by
    rintro s hs rfl
    have hindex : "index".length = 5 := rfl
    rw [String.length_append] at hs
    omega
  refine ⟨by simpa using h, ?_, hne ".." (by decide)⟩
  rw [isDot, Bool.or_eq_false_iff]
  exact ⟨decide_eq_false (hne "" (by decide)), decide_eq_false (hne "." (by decide))⟩

/-- Whether the extension is put to the name or to the path makes no difference. -/
theorem join_index (h : '/' ∉ extension.toList) (directory : String) :
    join directory ("index" ++ extension) = join directory "index" ++ extension := by
  have hrooted : isRooted "index" = false := by decide
  simp only [join, (isProper_index h).not_rooted, hrooted, Bool.false_eq_true, if_false]
  split
  · rw [String.append_assoc]
  · rw [String.append_assoc, String.append_assoc, String.append_assoc]

/-- In the directory that all paths start from, the name of the file is its path. -/
theorem indexKey_here (h : '/' ∉ extension.toList) :
    indexKey "." extension = "index" ++ extension := by
  have hname := isProper_index h
  have hdots : isRooted "." = false ∧ endsInSlash "." = false := by decide
  have hjoin : join "." ("index" ++ extension) = "." ++ "/" ++ ("index" ++ extension) := by
    rw [join, hname.not_rooted, hdots.2]
    simp
  have hrooted : isRooted ("." ++ "/" ++ ("index" ++ extension)) = false := by
    rw [String.append_assoc, isRooted_append (by decide), hdots.1]
  have hhere : segments "." = ["."] := by decide
  have hsegments : segments ("." ++ "/" ++ ("index" ++ extension)) =
      [".", "index" ++ extension] := by
    rw [segments_append, segments_undivided hname.undivided, hhere]
    rfl
  have hclimb : climbAll false [".", "index" ++ extension] = ["index" ++ extension] := by
    have hdot : isDot "." = true := by decide
    simp [climbAll, climb, hdot, hname.notDot, hname.notUp]
  have hnormal : normalize (root false ++ ("." ++ "/" ++ ("index" ++ extension))) =
      assemble (root false) (climbAll false (segments ("." ++ "/" ++ ("index" ++ extension)))) :=
    normalize_root hrooted
  rw [hsegments, hclimb] at hnormal
  rw [indexKey, hjoin]
  simpa [root, assemble, hname.ne_empty] using hnormal

theorem indexKey_eq (hdirectory : normalize directory = directory) (hhere : directory ≠ ".")
    (h : '/' ∉ extension.toList) :
    indexKey directory extension = join directory "index" ++ extension := by
  have hchild : join directory ("index" ++ extension) = child directory ("index" ++ extension) := by
    rw [child, if_neg hhere]
  rw [indexKey, hchild, normalize_child hdirectory (isProper_index h), ← hchild, join_index h]

end Index

section Finding

variable {isKnown : String → Bool} {extensions : List String} {fromPath specifier : String}

theorem normalize_target (fromPath specifier : String) :
    normalize (target fromPath specifier) = target fromPath specifier :=
  normalize_normalize _

/-- In all other directories the index files are tried by their paths. -/
theorem candidates_eq_meanings (hnames : ∀ e ∈ extensions, '/' ∉ e.toList)
    (hhere : target fromPath specifier ≠ ".") :
    candidates extensions (target fromPath specifier) =
      meanings extensions (target fromPath specifier) := by
  have hindex : extensions.map (indexKey (target fromPath specifier)) =
      extensions.map (join (target fromPath specifier) "index" ++ ·) :=
    List.map_congr_left fun e he =>
      indexKey_eq (normalize_target fromPath specifier) hhere (hnames e he)
  rw [candidates, meanings, hindex]

/-- No path in normal form starts with the dot that is put in front of an index file here. -/
theorem isKnown_here (hkeys : ∀ key, isKnown key = true → normalize key = key) {e : String}
    (he : '/' ∉ e.toList) : isKnown (join "." "index" ++ e) = false := by
  rw [Bool.eq_false_iff]
  intro hknown
  have hkey : "index" ++ e = "./index" ++ e := by
    rw [← indexKey_here he, indexKey, join_index he]
    exact hkeys _ hknown
  have hlength := congrArg String.length hkey
  have hlengths : "index".length = 5 ∧ "./index".length = 7 := by decide
  rw [String.length_append, String.length_append] at hlength
  omega

/-- In this directory, index files are not found. -/
theorem resolve_here (hkeys : ∀ key, isKnown key = true → normalize key = key)
    (hnames : ∀ e ∈ extensions, '/' ∉ e.toList) (hhere : target fromPath specifier = ".") :
    resolve isKnown extensions fromPath specifier =
      ("." :: extensions.map ("." ++ ·)).find? isKnown := by
  have hindex : (extensions.map (join "." "index" ++ ·)).find? isKnown = none := by
    rw [List.find?_eq_none]
    intro key hkey
    obtain ⟨e, he, rfl⟩ := List.mem_map.mp hkey
    simp [isKnown_here hkeys (hnames e he)]
  rw [resolve, hhere, candidates, List.find?_append, hindex, Option.or_none]

theorem findsIndex_of_ne (hnames : ∀ e ∈ extensions, '/' ∉ e.toList)
    (hhere : target fromPath specifier ≠ ".") :
    FindsIndex isKnown extensions fromPath specifier := by
  have hresolve : resolve isKnown extensions fromPath specifier =
      (meanings extensions (target fromPath specifier)).find? isKnown := by
    rw [resolve, candidates_eq_meanings hnames hhere]
  constructor
  case found =>
    intro e he hknown
    have hmem : indexKey (target fromPath specifier) e ∈
        meanings extensions (target fromPath specifier) :=
      List.mem_append_right _ (List.mem_map_of_mem he)
    rw [hresolve]
    exact Option.isSome_iff_exists.mp (List.find?_isSome.mpr ⟨_, hmem, hknown⟩)
  case earliest =>
    intro key hkey
    rwa [hresolve] at hkey

theorem Overlooks.resolve_eq_none (h : Overlooks isKnown extensions fromPath specifier)
    (hkeys : ∀ key, isKnown key = true → normalize key = key)
    (hnames : ∀ e ∈ extensions, '/' ∉ e.toList) :
    resolve isKnown extensions fromPath specifier = none := by
  rw [resolve_here hkeys hnames h.leads, List.find?_eq_none]
  exact fun key hkey => by simp [h.noFile key hkey]

theorem findsIndex_of_not_overlooks (hkeys : ∀ key, isKnown key = true → normalize key = key)
    (hnames : ∀ e ∈ extensions, '/' ∉ e.toList) (hhere : target fromPath specifier = ".")
    (h : ¬ Overlooks isKnown extensions fromPath specifier) :
    FindsIndex isKnown extensions fromPath specifier := by
  have hresolve := resolve_here hkeys hnames hhere
  cases hfile : ("." :: extensions.map ("." ++ ·)).find? isKnown with
  | none =>
    rw [hfile] at hresolve
    constructor
    case found =>
      intro e he hknown
      rw [hhere, indexKey_here (hnames e he)] at hknown
      refine absurd ⟨hhere, fun key hkey => ?_, e, he, hknown⟩ h
      simpa using List.find?_eq_none.mp hfile key hkey
    case earliest => simp [hresolve]
  | some key =>
    rw [hfile] at hresolve
    constructor
    case found => exact fun _ _ _ => ⟨key, hresolve⟩
    case earliest =>
      intro other hother
      rw [hhere, meanings, List.find?_append, hfile, ← hresolve, hother]
      rfl

/-- Where all known paths are in normal form, an index file is found wherever a specifier leads to
its directory; in the one directory that has no name of its own it is not, and the import stays
unresolved unless a file with the name of the directory is known. -/
theorem findsIndex_iff (hkeys : ∀ key, isKnown key = true → normalize key = key)
    (hnames : ∀ e ∈ extensions, '/' ∉ e.toList) (fromPath specifier : String) :
    (FindsIndex isKnown extensions fromPath specifier ↔
        ¬ Overlooks isKnown extensions fromPath specifier) ∧
      (Overlooks isKnown extensions fromPath specifier →
        resolve isKnown extensions fromPath specifier = none) := by
  refine ⟨⟨fun hfinds hoverlooks => ?_, fun hnot => ?_⟩,
    fun hoverlooks => hoverlooks.resolve_eq_none hkeys hnames⟩
  · obtain ⟨e, he, hknown⟩ := hoverlooks.index
    rw [← indexKey_here (hnames e he), ← hoverlooks.leads] at hknown
    obtain ⟨key, hkey⟩ := hfinds.found e he hknown
    rw [hoverlooks.resolve_eq_none hkeys hnames] at hkey
    cases hkey
  · by_cases hhere : target fromPath specifier = "."
    · exact findsIndex_of_not_overlooks hkeys hnames hhere hnot
    · exact findsIndex_of_ne hnames hhere

end Finding

namespace Sample

/-- Two index files, one of them next to the file that imports it. -/
def indexed : List String := ["a.ts", "index.ts", "src/index.ts", "src/lib/b.ts"]

theorem normal_indexed : ∀ key, indexed.contains key = true → normalize key = key := by
  have hall : ∀ key ∈ indexed, normalize key = key := by decide
  exact fun key hkey => hall key (List.contains_iff_mem.mp hkey)

end Sample

theorem findsIndex_iff_sample :
    FindsIndex Sample.indexed.contains [".ts", ".js"] "src/lib/b.ts" ".." := by
  refine ((findsIndex_iff Sample.normal_indexed (by decide) "src/lib/b.ts" "..").1).mpr ?_
  intro hoverlooks
  exact absurd hoverlooks.leads (by decide)

/-- The index file of the directory that all paths start from is not found. -/
theorem not_findsIndex_here : (∀ key, Sample.indexed.contains key = true → normalize key = key) ∧
    Sample.indexed.contains (indexKey (target "a.ts" "./") ".ts") = true ∧
    resolve Sample.indexed.contains [".ts"] "a.ts" "./" = none ∧
    ¬ FindsIndex Sample.indexed.contains [".ts"] "a.ts" "./" := by
  refine ⟨Sample.normal_indexed, by decide, by decide, fun hfinds => ?_⟩
  obtain ⟨key, hkey⟩ := hfinds.found ".ts" (by decide) (by decide)
  have hnone : resolve Sample.indexed.contains [".ts"] "a.ts" "./" = none := by decide
  rw [hnone] at hkey
  cases hkey

end ChangeImpact.Graph
