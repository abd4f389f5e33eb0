import ChangeImpact.Proofs.Disk.Found
import ChangeImpact.Proofs.Disk.Listing
import Mathlib.Data.List.Nodup

/-!
# Proofs.Disk.ScanLaw

The files of a scan that follows no links.

* `Collects`      — the files are the sources below a root, each once and in order.
* `SeenAlike`     — two roots below which links and directories make no difference.
* `scan_collects` — so it is for every scan, and the name of the root makes no other difference.
* `not_collected_all` — what lies too deep is passed over, and a link may lead elsewhere.
-/

namespace ChangeImpact

/-! ## A whole scan -/

/-- The files are the sources below a root, each once and in the order of their segments. -/
structure Collects (o : ScanOptions) (d : Disk) (root : String) (es : Entries)
    (found : List (List String)) (files : List String) : Prop where
  paths : files = found.map (Path.below root)
  ordered : found.Pairwise (· < ·)
  sources : ∀ segments, segments ∈ found ↔
    ∃ parents name, segments = parents ++ [name] ∧ IsSource o d root es parents name
  once : files.Nodup

/-- Below two roots the same links lead to files, and the system can be asked for the same
directories. -/
structure SeenAlike (es : Entries) (d : Disk) (root : String) (d' : Disk) (root' : String) :
    Prop where
  links : ∀ parents name target, es.at? (parents ++ [name]) = some (.link target) →
    d'.leadsToFile (entryPath (Path.below root' parents) name) =
      d.leadsToFile (entryPath (Path.below root parents) name)
  directories : ∀ parents sub, es.at? parents = some (.dir sub) →
    Disk.isLongPath (Path.below root' parents) = Disk.isLongPath (Path.below root parents)

section Whole

variable {o : ScanOptions} {d d' : Disk} {root root' : String} {es : Entries}
  {location : List String}

theorem SeenAlike.isSource_iff (h : SeenAlike es d root d' root') (other : String)
    {parents : List String} {name : String} :
    IsSource { o with root := other } d' root' es parents name ↔
      IsSource o d root es parents name := by
  have hnode : ∀ node, es.at? (parents ++ [name]) = some node →
      Disk.isLongPath (Path.below root' parents) = Disk.isLongPath (Path.below root parents) := by
    intro node hat
    obtain ⟨sub, hsub⟩ := Entries.exists_dir_of_concat hat
    exact h.directories parents sub hsub
  constructor
  · intro hsource
    obtain ⟨node, hat⟩ := hsource.exists_node
    refine ⟨hsource.node.imp_right ?_, hsource.unignored, hsource.wanted,
      hnode node hat ▸ hsource.reached⟩
    rintro ⟨target, hlink, hleads⟩
    exact ⟨target, hlink, h.links parents name target hlink ▸ hleads⟩
  · intro hsource
    obtain ⟨node, hat⟩ := hsource.exists_node
    refine ⟨hsource.node.imp_right ?_, hsource.unignored, hsource.wanted,
      (hnode node hat).trans hsource.reached⟩
    rintro ⟨target, hlink, hleads⟩
    exact ⟨target, hlink, (h.links parents name target hlink).trans hleads⟩

theorem collects_found (htree : es.IsTree) (hroot : Disk.isLongPath root = false) :
    Collects o d root es (foundEntries o d root es)
      ((foundEntries o d root es).map (Path.below root)) := by
  have hordered := pairwise_foundEntries o d root es htree
  have hsources : ∀ segments, segments ∈ foundEntries o d root es ↔
      ∃ parents name, segments = parents ++ [name] ∧ IsSource o d root es parents name := by
    intro segments
    constructor
    · intro hfound
      obtain ⟨name, _, rest, hcons, _⟩ := exists_cons_of_mem o d hfound
      obtain ⟨parents, last, rfl⟩ : ∃ parents last, segments = parents ++ [last] :=
        (List.eq_nil_or_concat' segments).resolve_left (by simp [hcons])
      exact ⟨parents, last, rfl, (mem_foundEntries htree hroot).mp hfound⟩
    · rintro ⟨parents, name, rfl, hsource⟩
      exact (mem_foundEntries htree hroot).mpr hsource
  have hnames : ∀ segments ∈ foundEntries o d root es, ∀ s ∈ segments, Disk.IsName s := by
    intro segments hfound
    obtain ⟨parents, name, rfl, hsource⟩ := (hsources segments).mp hfound
    obtain ⟨node, hat⟩ := hsource.exists_node
    exact htree.names hat
  refine ⟨rfl, hordered, hsources, ?_⟩
  refine List.Nodup.map_on ?_ (hordered.imp fun hlt => ne_of_lt hlt)
  intro a ha b hb heq
  have hsteps := congrArg Path.steps heq
  rwa [Path.steps_below root (hnames a ha), Path.steps_below root (hnames b hb),
    List.append_cancel_left_eq] at hsteps

theorem files_scan (hfollow : o.followLinks = false) (hcancel : o.cancelAfter = none)
    (hroot : d.status (Path.tidy o.root) (Path.tidy o.root) = .ok (location, .dir es)) :
    (scan o d).files =
      (foundEntries o d (Path.tidy o.root) es).map (Path.below (Path.tidy o.root)) := by
  have hgo : ({ checks := o.cancelAfter } : Scan).checkpoint (Path.tidy o.root) =
      (false, { checks := o.cancelAfter }) := by
    rw [Scan.checkpoint, hcancel]
  have hfiles := (gathers_scanEntries o d (Path.tidy o.root) es { checks := o.cancelAfter }
    hcancel).files
  simp only [scan, hroot, startScan, hfollow, Bool.false_eq_true, if_false, hgo, hfiles,
    List.nil_append]

/-- What is found stands in the tree. -/
theorem Collects.exists_node {found : List (List String)} {files : List String}
    (h : Collects o d root es found files) {segments : List String} (hfound : segments ∈ found) :
    ∃ parents name node, segments = parents ++ [name] ∧
      es.at? (parents ++ [name]) = some node := by
  obtain ⟨parents, name, rfl, hsource⟩ := (h.sources segments).mp hfound
  obtain ⟨node, hat⟩ := hsource.exists_node
  exact ⟨parents, name, node, rfl, hat⟩

theorem SeenAlike.foundEntries_eq (h : SeenAlike es d root d' root') (htree : es.IsTree)
    (hhere : Disk.isLongPath root = false) (hthere : Disk.isLongPath root' = false)
    (other : String) :
    foundEntries { o with root := other } d' root' es = foundEntries o d root es := by
  have hfound : Collects o d root es _ _ := collects_found htree hhere
  have hfound' : Collects { o with root := other } d' root' es _ _ := collects_found htree hthere
  -- both lists are in order, so their members say all
  have hperm : (foundEntries { o with root := other } d' root' es).Perm
      (foundEntries o d root es) := by
    rw [List.perm_ext_iff_of_nodup (hfound'.ordered.imp fun hlt => ne_of_lt hlt)
      (hfound.ordered.imp fun hlt => ne_of_lt hlt)]
    intro segments
    simp only [hfound'.sources, hfound.sources, h.isSource_iff]
  exact hperm.eq_of_pairwise (fun a b _ _ hab hba => absurd hba (lt_asymm hab)) hfound'.ordered
    hfound.ordered

/-- A scan that follows no links and is not stopped collects the sources below its root. Below
another root it finds the same, whatever that one is called. -/
theorem scan_collects (hfollow : o.followLinks = false) (hcancel : o.cancelAfter = none)
    (hroot : d.status (Path.tidy o.root) (Path.tidy o.root) = .ok (location, .dir es))
    (htree : es.IsTree) :
    ∃ found, Collects o d (Path.tidy o.root) es found (scan o d).files ∧
      ∀ d' root' location', d'.status (Path.tidy root') (Path.tidy root') =
        .ok (location', .dir es) → SeenAlike es d (Path.tidy o.root) d' (Path.tidy root') →
          (scan { o with root := root' } d').files = found.map (Path.below (Path.tidy root')) := by
  have hshort {d : Disk} {root : String} {location : List String}
      (h : d.status root root = .ok (location, .dir es)) : Disk.isLongPath root = false := by
    obtain ⟨_, hplace, _⟩ := (Disk.Lists.of_status h).found
    exact (Disk.placeOf_eq_walk hplace).1
  refine ⟨foundEntries o d (Path.tidy o.root) es, ?_, ?_⟩
  · rw [files_scan hfollow hcancel hroot]
    exact collects_found htree (hshort hroot)
  · intro d' root' location' hroot' halike
    rw [files_scan (o := { o with root := root' }) hfollow hcancel hroot',
      halike.foundEntries_eq htree (hshort hroot) (hshort hroot') root']

end Whole

/-! ## Samples -/

namespace Sample

/-- Two files, one of them in a directory of its own, and a link to the other. -/
def grove : Entries :=
  [("a.js", .file ⟨#[]⟩), ("b.js", .link "a.js"), ("lib", .dir [("c.js", .file ⟨#[]⟩)])]

def groveDisk (root : String) : Disk := { top := [(root, .dir grove)] }

def groveScan : ScanOptions := { root := "src", extensions := [".js"], ignore := ["node_modules"] }

theorem isName_of_grove {name : String} (h : name ∈ ["a.js", "b.js", "lib", "c.js"]) :
    Disk.IsName name := by
  simp only [List.mem_cons, List.not_mem_nil, or_false] at h
  rcases h with rfl | rfl | rfl | rfl <;> exact ⟨by decide, by decide, by decide, by decide⟩

theorem isTree_grove : grove.IsTree :=
  ⟨isName_of_grove (by decide), by decide, trivial, isName_of_grove (by decide), by decide,
    trivial, isName_of_grove (by decide), by decide,
    ⟨isName_of_grove (by decide), by decide, trivial, trivial⟩, trivial⟩

theorem find?_grove {name : String} {node : Node} (h : grove.find? name = some node) :
    name = "a.js" ∧ node = .file ⟨#[]⟩ ∨ name = "b.js" ∧ node = .link "a.js" ∨
      name = "lib" ∧ node = .dir [("c.js", .file ⟨#[]⟩)] := by
  simpa [grove] using (Entries.find?_eq_some_iff isTree_grove.ascending).mp h

/-- Below its directory the tree has one file. -/
theorem at?_lib {dir : String} {rest : List String} {sub : Entries} {node : Node} (hne : rest ≠ [])
    (hsub : grove.find? dir = some (.dir sub)) (hat : sub.at? rest = some node) :
    node = .file ⟨#[]⟩ := by
  obtain ⟨_, hsub⟩ | ⟨_, hsub⟩ | ⟨_, hsub⟩ := find?_grove hsub
  · cases hsub
  · cases hsub
  cases hsub
  have htree : Node.IsTree (.dir [("c.js", .file ⟨#[]⟩)]) :=
    (isTree_grove.of_find? (show grove.find? "lib" = some _ from rfl)).2
  have hfind {name : String} {node : Node}
      (h : Entries.find? name [("c.js", .file ⟨#[]⟩)] = some node) : node = .file ⟨#[]⟩ :=
    (Prod.mk.inj (List.mem_singleton.mp ((Entries.find?_eq_some_iff htree.ascending).mp h))).2
  obtain ⟨name, rest, rfl⟩ := List.exists_cons_of_ne_nil hne
  cases rest with
  | nil => exact hfind hat
  | cons next rest =>
    obtain ⟨deeper, hdeeper, _⟩ := Entries.exists_dir_of_at? (by simp) hat
    cases hfind hdeeper

theorem seenAlike_grove : SeenAlike grove (groveDisk "src") "src" (groveDisk "app") "app" := by
  constructor
  case links =>
    intro parents name target hat
    cases parents with
    | nil =>
      obtain ⟨_, hnode⟩ | ⟨rfl, _⟩ | ⟨_, hnode⟩ := find?_grove hat
      · cases hnode
      · rfl
      · cases hnode
    | cons dir parents =>
      obtain ⟨sub, hsub, hat⟩ := Entries.exists_dir_of_at? (by simp) hat
      cases at?_lib (by simp) hsub hat
  case directories =>
    intro parents sub hat
    cases parents with
    | nil => decide
    | cons dir rest =>
      by_cases hrest : rest = []
      · subst hrest
        obtain ⟨_, hnode⟩ | ⟨_, hnode⟩ | ⟨rfl, _⟩ := find?_grove hat
        · cases hnode
        · cases hnode
        · decide
      · obtain ⟨below, hbelow, hat⟩ := Entries.exists_dir_of_at? hrest hat
        cases at?_lib hrest hbelow hat

end Sample

theorem scan_collects_sample : ∃ found,
    Collects Sample.groveScan (Sample.groveDisk "src") "src" Sample.grove found
      (scan Sample.groveScan (Sample.groveDisk "src")).files ∧
    (scan { Sample.groveScan with root := "app" } (Sample.groveDisk "app")).files =
      found.map (Path.below "app") := by
  have hroot : (Sample.groveDisk "src").status (Path.tidy "src") (Path.tidy "src") =
      .ok (["src"], .dir Sample.grove) := rfl
  obtain ⟨found, hfound, hrenamed⟩ :=
    scan_collects (o := Sample.groveScan) rfl rfl hroot Sample.isTree_grove
  exact ⟨found, hfound, hrenamed (Sample.groveDisk "app") "app" ["app"] rfl Sample.seenAlike_grove⟩

example : (scan Sample.groveScan (Sample.groveDisk "src")).files =
    ["src/a.js", "src/b.js", "src/lib/c.js"] := by decide

/-! ## A directory that the system cannot be asked for -/

namespace Sample

/-- A path that goes in and out of a directory before it stays there. -/
def around : Nat → String
  | 0 => "d"
  | n + 1 => "d" ++ "/" ++ (".." ++ "/" ++ around n)

def hollow : Entries := [("deeper", .dir [("f.js", .file ⟨#[]⟩)])]

def hollowDisk : Disk := { top := [("d", .dir hollow)] }

theorem segments_around (n : Nat) :
    Path.segments (around (n + 1)) = "d" :: ".." :: Path.segments (around n) := by
  rw [around, Path.segments_append, Path.segments_append, Path.segments_undivided (by decide),
    Path.segments_undivided (by decide)]
  rfl

theorem size_around (n : Nat) : (around n).utf8ByteSize = 5 * n + 1 := by
  induction n with
  | zero => rfl
  | succ n ih =>
    have hd : "d".utf8ByteSize = 1 := rfl
    have hslash : "/".utf8ByteSize = 1 := rfl
    have hup : "..".utf8ByteSize = 2 := rfl
    rw [around]
    simp only [String.utf8ByteSize_append, hd, hslash, hup, ih]
    omega

theorem toList_around (n : Nat) : ∃ rest, (around n).toList = 'd' :: rest := by
  cases n with
  | zero => exact ⟨[], rfl⟩
  | succ n => exact ⟨_, by rw [around, String.toList_append, String.toList_append]; rfl⟩

theorem not_rooted_around (n : Nat) : Path.isRooted (around n) = false := by
  obtain ⟨rest, hrest⟩ := toList_around n
  rw [Path.isRooted, hrest]
  rfl

theorem hasNull_around (n : Nat) : Disk.hasNull (around n) = false := by
  have hnull : '\x00' ∉ (around n).toList := by
    induction n with
    | zero => decide
    | succ n ih =>
      simp only [around, String.toList_append, List.mem_append, not_or]
      exact ⟨⟨by decide, by decide⟩, ⟨by decide, by decide⟩, ih⟩
  simpa [Disk.hasNull] using hnull

theorem steps_around (n : Nat) :
    (Path.segments (around n)).filter (fun s => !Path.isDot s) = Path.segments (around n) := by
  induction n with
  | zero => decide
  | succ n ih =>
    have hd : Path.isDot "d" = false := by decide
    have hup : Path.isDot ".." = false := by decide
    simp [segments_around, hd, hup, ih]

theorem tidy_around (n : Nat) : Path.tidy (around n) = around n := by
  obtain ⟨rest, hrest⟩ := toList_around n
  have hleading : Path.leading (around n) = "" := by
    rw [Path.leading, hrest]
    rfl
  have hne : around n ≠ "" := fun hempty => by simp [hempty] at hrest
  rw [Path.tidy, steps_around, hleading, Path.assemble, Path.intercalate_segments,
    String.empty_append, if_neg hne]

theorem walk_around (n hops : Nat) :
    hollowDisk.walk true hops [] (Path.segments (around n)) = .ok (.taken ["d"]) := by
  have hstep (follow : List String → List String → Except Fault Place) (rest : List String) :
      Disk.walkFrom hollowDisk true follow [] ("d" :: rest) =
        Disk.walkFrom hollowDisk true follow ["d"] rest := rfl
  have hback (follow : List String → List String → Except Fault Place) (rest : List String) :
      Disk.walkFrom hollowDisk true follow ["d"] (".." :: rest) =
        Disk.walkFrom hollowDisk true follow [] rest := rfl
  have hwalk (follow : List String → List String → Except Fault Place) :
      Disk.walkFrom hollowDisk true follow [] (Path.segments (around n)) = .ok (.taken ["d"]) := by
    induction n with
    | zero => 
      have hsegments : Path.segments (around 0) = ["d"] := by decide
      rw [hsegments, hstep]
      rfl
    | succ n ih => rw [segments_around, hstep, hback, ih]
  cases hops <;> exact hwalk _

theorem status_around {n : Nat} (h : n ≤ 818) :
    hollowDisk.status (around n) (around n) = .ok (["d"], .dir hollow) := by
  have hsize := size_around n
  have hshort : Disk.isLongPath (around n) = false := by
    simp only [Disk.isLongPath, decide_eq_false_iff_not]
    omega
  have hne : around n ≠ "" := fun hempty => by
    rw [hempty] at hsize
    simp at hsize
  have hplace : hollowDisk.placeOf true (around n) = .ok (.taken ["d"]) := by
    rw [Disk.placeOf, if_neg (by simp [hshort]), if_neg hne, not_rooted_around]
    exact walk_around n Disk.maxHops
  simp only [Disk.status, Disk.place, hasNull_around, hplace, Bool.false_eq_true, if_false]
  rfl

def hollowScan : ScanOptions := { root := around 818, extensions := [".js"], ignore := [] }

theorem isTree_hollow : hollow.IsTree :=
  ⟨⟨by decide, by decide, by decide, by decide⟩, by decide,
    ⟨⟨by decide, by decide, by decide, by decide⟩, by decide, trivial, trivial⟩, trivial⟩

theorem status_hollow : hollowDisk.status (Path.tidy hollowScan.root) (Path.tidy hollowScan.root) =
    .ok (["d"], .dir hollow) := by
  rw [hollowScan, tidy_around]
  exact status_around (Nat.le_refl _)

/-- The path of the root is short enough for the system, that of the directory in it is not. -/
theorem files_hollow : (scan hollowScan hollowDisk).files = [] := by
  have hsize := size_around 818
  have hhere : around 818 ≠ "." := fun hdot => by
    rw [hdot] at hsize
    revert hsize
    decide
  have hname : "deeper".utf8ByteSize = 6 := rfl
  have hlong : Disk.isLongPath (Path.child (around 818) "deeper") = true := by
    have hchild := Path.size_add_le_child hhere isTree_hollow.1
    simp only [Disk.isLongPath, decide_eq_true_eq]
    omega
  have hignored : hollowScan.isIgnored "deeper" = false := rfl
  rw [files_scan rfl rfl status_hollow]
  simp only [hollowScan, tidy_around, hollow, foundEntries, foundNode] at hignored ⊢
  simp [hignored, hlong]

/-- A link that leads back into the directory it is in, by the name of that directory. -/
def burrow : Entries := [("a.js", .link "../src/b.js"), ("b.js", .file ⟨#[]⟩)]

def burrowDisk (root : String) : Disk := { top := [(root, .dir burrow)] }

def burrowScan (root : String) : ScanOptions := { root, extensions := [".js"], ignore := [] }

end Sample

/-- A file in a directory whose path is too long is not collected, and a link that leads to a file
below one root may not do so below another. -/
theorem not_collected_all :
    (Sample.hollowDisk.status (Path.tidy Sample.hollowScan.root)
        (Path.tidy Sample.hollowScan.root) = .ok (["d"], .dir Sample.hollow) ∧
      Sample.hollow.IsTree ∧
      Sample.hollow.at? ["deeper", "f.js"] = some (.file ⟨#[]⟩) ∧
      extension "f.js" ∈ Sample.hollowScan.extensions ∧ Sample.hollowScan.ignore = [] ∧
      (scan Sample.hollowScan Sample.hollowDisk).files = []) ∧
    (scan (Sample.burrowScan "src") (Sample.burrowDisk "src")).files = ["src/a.js", "src/b.js"] ∧
    (scan (Sample.burrowScan "lib") (Sample.burrowDisk "lib")).files = ["lib/b.js"] :=
  ⟨⟨Sample.status_hollow, Sample.isTree_hollow, rfl, by decide, rfl, Sample.files_hollow⟩,
    by decide, by decide⟩

end ChangeImpact
