import ChangeImpact.Disk.Scan
import ChangeImpact.Proofs.Disk.Tree
import Mathlib.Data.List.Lex

/-!
# Proofs.Disk.Found

What a scan that follows no links comes upon below a directory.

* `foundEntries`          — the segments of all files, in the order of the scan.
* `gathers_scanEntries`   — their paths are what the scan collects.
* `pairwise_foundEntries` — they ascend.
* `IsSource`              — a file that is asked for, in directories that the system lists.
* `mem_foundEntries`      — all of these are found, and nothing else.
-/

namespace ChangeImpact

/-! ## What is found -/

/-- The system leads from a path to a file. -/
def Disk.leadsToFile (d : Disk) (path : String) : Bool :=
  match d.status path path with
  | .ok (_, .file _) => true
  | _ => false

section Found

variable (o : ScanOptions) (d : Disk)

mutual

/-- The segments below an entry of the directory at a path. -/
def foundNode (directory name : String) : Node → List (List String)
  | .file _ => if o.isWanted name then [[]] else []
  | .link _ =>
    if d.leadsToFile (entryPath directory name) && o.isWanted name then [[]] else []
  | .dir sub =>
    if Disk.isLongPath (Path.child directory name) then []
    else foundEntries (Path.child directory name) sub

/-- The segments below the directory at a path, of all files that a scan comes upon. -/
def foundEntries (directory : String) : List (String × Node) → List (List String)
  | [] => []
  | (name, node) :: rest =>
    (if o.isIgnored name then [] else (foundNode directory name node).map (name :: ·))
      ++ foundEntries directory rest

end

end Found

namespace Scan

/-- The second state has these paths more than the first, and no stop is asked for in either. -/
structure Gathers (s s' : Scan) (paths : List String) : Prop where
  files : s'.files = s.files ++ paths
  checks : s.checks = none → s'.checks = none

variable {s s' s'' : Scan} {paths more : List String}

theorem Gathers.refl (s : Scan) : Gathers s s [] := ⟨by rw [List.append_nil], id⟩

theorem Gathers.trans (h : Gathers s s' paths) (h' : Gathers s' s'' more) :
    Gathers s s'' (paths ++ more) :=
  ⟨by rw [h'.files, h.files, List.append_assoc], h'.checks ∘ h.checks⟩

theorem gathers_addFile (s : Scan) (path : String) : Gathers s (s.addFile path) [path] :=
  ⟨rfl, id⟩

theorem gathers_addProblem (s : Scan) (path cause : String) :
    Gathers s (s.addProblem path cause) [] :=
  ⟨by rw [List.append_nil]; rfl, id⟩

end Scan

section Gathered

variable (o : ScanOptions) (d : Disk)

theorem gathers_scanLink (directory name target : String) (s : Scan) :
    s.Gathers (scanLink o d directory name s)
      ((foundNode o d directory name (.link target)).map
        (Path.below (Path.child directory name))) := by
  rw [scanLink, foundNode, Disk.leadsToFile]
  rcases d.status (entryPath directory name) (entryPath directory name) with e | ⟨l, node⟩
  · dsimp only
    split
    · next hok => cases hok
    · next hok => cases hok
    · exact .refl s
    · exact s.gathers_addProblem _ _
  · cases node with
    | file bytes =>
      cases o.isWanted name with
      | true => exact s.gathers_addFile _
      | false => exact .refl s
    | link target => exact .refl s
    | dir sub => exact .refl s

mutual

theorem gathers_scanNode : ∀ (directory name : String) (node : Node) (s : Scan), s.checks = none →
    s.Gathers (scanNode o d directory name node s)
      ((foundNode o d directory name node).map (Path.below (Path.child directory name)))
  | directory, name, .file bytes, s, _ => by
    rw [scanNode, foundNode]
    cases o.isWanted name with
    | true => exact s.gathers_addFile _
    | false => exact .refl s
  | directory, name, .link target, s, _ => by
    rw [scanNode]
    exact gathers_scanLink o d directory name target s
  | directory, name, .dir sub, s, hs => by
    have hgo : s.checkpoint (Path.child directory name) = (false, s) := by
      rw [Scan.checkpoint, hs]
    simp only [scanNode, hgo, foundNode]
    split
    · exact s.gathers_addProblem _ _
    · exact gathers_scanEntries (Path.child directory name) sub s hs

/-- A scan that is not stopped collects what is found below its directory. -/
theorem gathers_scanEntries : ∀ (directory : String) (es : List (String × Node)) (s : Scan),
    s.checks = none →
      s.Gathers (scanEntries o d directory es s)
        ((foundEntries o d directory es).map (Path.below directory))
  | _, [], s, _ => by
    rw [scanEntries]
    exact .refl s
  | directory, (name, node) :: rest, s, hs => by
    rw [scanEntries, foundEntries, List.map_append]
    split
    · exact gathers_scanEntries directory rest s hs
    · have hnode := gathers_scanNode directory name node s hs
      have hrest := gathers_scanEntries directory rest _ (hnode.checks hs)
      rw [List.map_map]
      exact hnode.trans hrest

end

end Gathered

/-! ## The order -/

section Order

variable (o : ScanOptions) (d : Disk)

theorem exists_cons_of_mem {directory : String} {es : Entries} {segments : List String}
    (h : segments ∈ foundEntries o d directory es) :
    ∃ name node rest, segments = name :: rest ∧ (name, node) ∈ es ∧ o.isIgnored name = false ∧
      rest ∈ foundNode o d directory name node := by
  induction es with
  | nil =>
    rw [foundEntries] at h
    cases h
  | cons entry more ih =>
    obtain ⟨name, node⟩ := entry
    rw [foundEntries, List.mem_append] at h
    rcases h with h | h
    · split at h
      · cases h
      · next hignored =>
        obtain ⟨rest, hrest, rfl⟩ := List.mem_map.mp h
        exact ⟨name, node, rest, rfl, List.mem_cons_self, by simpa using hignored, hrest⟩
    · obtain ⟨name', node', rest, rfl, hmem, hignored, hrest⟩ := ih h
      exact ⟨name', node', rest, rfl, List.mem_cons_of_mem _ hmem, hignored, hrest⟩

mutual

theorem pairwise_foundNode : ∀ (directory name : String) (node : Node), node.IsTree →
    (foundNode o d directory name node).Pairwise (· < ·)
  | directory, name, .file bytes, _ => by
    rw [foundNode]
    split
    · exact List.pairwise_singleton _ _
    · exact .nil
  | directory, name, .link target, _ => by
    rw [foundNode]
    split
    · exact List.pairwise_singleton _ _
    · exact .nil
  | directory, name, .dir sub, h => by
    rw [foundNode]
    split
    · exact .nil
    · exact pairwise_foundEntries (Path.child directory name) sub h

/-- What is found comes in the order of its segments. -/
theorem pairwise_foundEntries : ∀ (directory : String) (es : List (String × Node)),
    Entries.IsTree es → (foundEntries o d directory es).Pairwise (· < ·)
  | _, [], _ => by
    rw [foundEntries]
    exact .nil
  | directory, (name, node) :: rest, ⟨_, hfirst, hnode, hrest⟩ => by
    rw [foundEntries]
    refine List.pairwise_append.mpr ⟨?_, pairwise_foundEntries directory rest hrest, ?_⟩
    · split
      · exact .nil
      · exact (pairwise_foundNode directory name node hnode).map _
          fun _ _ hlt => List.cons_lt_cons_iff.mpr (.inr ⟨rfl, hlt⟩)
    · intro segments hsegments later hlater
      obtain ⟨name', node', tail', rfl, hmem, _⟩ := exists_cons_of_mem o d hlater
      split at hsegments
      · cases hsegments
      · obtain ⟨tail, _, rfl⟩ := List.mem_map.mp hsegments
        exact List.cons_lt_cons_iff.mpr (.inl (hfirst _ hmem))

end

end Order

/-! ## The files -/

section Members

namespace ScanOptions

theorem isIgnored_eq_false_iff {o : ScanOptions} {name : String} :
    o.isIgnored name = false ↔ ∀ pattern ∈ o.ignore, ¬ pattern.toList <:+: name.toList := by
  simp [isIgnored, Text.occursIn, ← Text.contains_iff]

theorem isWanted_iff {o : ScanOptions} {name : String} :
    o.isWanted name = true ↔ extension name ∈ o.extensions := by
  simp [isWanted]

end ScanOptions

variable {o : ScanOptions} {d : Disk} {directory name : String} {es sub : Entries}

theorem cons_mem_foundEntries {rest : List String} : name :: rest ∈ foundEntries o d directory es ↔
    ∃ node, (name, node) ∈ es ∧ o.isIgnored name = false ∧
      rest ∈ foundNode o d directory name node := by
  constructor
  · intro h
    obtain ⟨name', node, rest', heq, hfound⟩ := exists_cons_of_mem o d h
    cases heq
    exact ⟨node, hfound⟩
  · rintro ⟨node, hmem, hignored, hrest⟩
    induction es with
    | nil => cases hmem
    | cons entry more ih =>
      rw [foundEntries, List.mem_append]
      rcases List.mem_cons.mp hmem with rfl | hmem
      · left
        rw [hignored]
        exact List.mem_map.mpr ⟨rest, hrest, rfl⟩
      · exact .inr (ih hmem)

/-- A file of the tree below the root, or a link there that leads to a file, that is asked for. -/
structure IsSource (o : ScanOptions) (d : Disk) (root : String) (es : Entries)
    (parents : List String) (name : String) : Prop where
  node : (∃ bytes, es.at? (parents ++ [name]) = some (.file bytes)) ∨
    ∃ target, es.at? (parents ++ [name]) = some (.link target) ∧
      d.leadsToFile (entryPath (Path.below root parents) name) = true
  unignored : ∀ s ∈ parents ++ [name], ∀ pattern ∈ o.ignore, ¬ pattern.toList <:+: s.toList
  wanted : extension name ∈ o.extensions
  /-- The system can be asked for the directory. -/
  reached : Disk.isLongPath (Path.below root parents) = false

theorem nil_mem_foundNode {node : Node} : [] ∈ foundNode o d directory name node ↔
    ((∃ bytes, node = .file bytes) ∨
      ∃ target, node = .link target ∧ d.leadsToFile (entryPath directory name) = true) ∧
        extension name ∈ o.extensions := by
  rw [← ScanOptions.isWanted_iff]
  cases node with
  | file bytes => simp [foundNode]
  | link target => simp [foundNode]
  | dir sub =>
    have hnil : [] ∉ foundEntries o d (Path.child directory name) sub := by
      intro h
      obtain ⟨_, _, _, hcons, _⟩ := exists_cons_of_mem o d h
      cases hcons
    simp [foundNode, hnil]

theorem mem_foundNode_of_ne_nil {node : Node} {segments : List String} (hne : segments ≠ []) :
    segments ∈ foundNode o d directory name node ↔
      ∃ sub, node = .dir sub ∧ Disk.isLongPath (Path.child directory name) = false ∧
        segments ∈ foundEntries o d (Path.child directory name) sub := by
  cases node with
  | file bytes => simp [foundNode, hne]
  | link target => simp [foundNode, hne]
  | dir sub => simp [foundNode]

/-- A source in a directory below is one of the directory above it. -/
theorem isSource_cons {dir : String} {parents : List String} (htree : es.IsTree) :
    IsSource o d directory es (dir :: parents) name ↔
      ∃ sub, es.find? dir = some (.dir sub) ∧ o.isIgnored dir = false ∧
        Disk.isLongPath (Path.child directory dir) = false ∧
          IsSource o d (Path.child directory dir) sub parents name := by
  have hne : parents ++ [name] ≠ [] := by simp
  constructor
  · intro h
    obtain ⟨sub, hsub, hnames⟩ : ∃ sub, es.find? dir = some (.dir sub) ∧
        ∀ s ∈ parents ++ [name], Disk.IsName s := by
      obtain ⟨bytes, hat⟩ | ⟨target, hat, _⟩ := h.node
      · obtain ⟨sub, hsub, hat⟩ := Entries.exists_dir_of_at? hne hat
        exact ⟨sub, hsub, (htree.of_find? hsub).2.names hat⟩
      · obtain ⟨sub, hsub, hat⟩ := Entries.exists_dir_of_at? hne hat
        exact ⟨sub, hsub, (htree.of_find? hsub).2.names hat⟩
    have hbelow : ∀ s ∈ parents, Disk.IsName s := fun s hs =>
      hnames s (List.mem_append_left _ hs)
    obtain ⟨hdir, hrest⟩ := List.forall_mem_cons.mp h.unignored
    refine ⟨sub, hsub, ScanOptions.isIgnored_eq_false_iff.mpr hdir,
      Path.not_long_of_below hbelow h.reached, ?_, hrest, h.wanted, h.reached⟩
    rw [← Entries.at?_cons_dir hsub]
    exact h.node
  · rintro ⟨sub, hsub, hdir, _, hsource⟩
    refine ⟨?_, List.forall_mem_cons.mpr
      ⟨ScanOptions.isIgnored_eq_false_iff.mp hdir, hsource.unignored⟩, hsource.wanted,
      hsource.reached⟩
    rw [List.cons_append, Entries.at?_cons_dir hsub]
    exact hsource.node

/-- All sources are found, and nothing else is. -/
theorem mem_foundEntries {parents : List String} : ∀ {directory : String} {es : Entries},
    es.IsTree → Disk.isLongPath directory = false →
      (parents ++ [name] ∈ foundEntries o d directory es ↔
        IsSource o d directory es parents name) := by
  induction parents with
  | nil =>
    intro directory es htree hdirectory
    rw [List.nil_append, cons_mem_foundEntries]
    constructor
    · rintro ⟨node, hmem, hignored, hfound⟩
      obtain ⟨hnode, hwanted⟩ := nil_mem_foundNode.mp hfound
      have hat : es.at? [name] = some node := (Entries.find?_eq_some_iff htree.ascending).mpr hmem
      refine ⟨?_, List.forall_mem_singleton.mpr (ScanOptions.isIgnored_eq_false_iff.mp hignored),
        hwanted, hdirectory⟩
      rw [List.nil_append, hat]
      simpa [Path.below] using hnode
    · intro h
      have hignored : o.isIgnored name = false :=
        ScanOptions.isIgnored_eq_false_iff.mpr (h.unignored name (by simp))
      obtain ⟨bytes, hat⟩ | ⟨target, hat, hleads⟩ := h.node
      · exact ⟨_, (Entries.find?_eq_some_iff htree.ascending).mp hat, hignored,
          nil_mem_foundNode.mpr ⟨.inl ⟨bytes, rfl⟩, h.wanted⟩⟩
      · exact ⟨_, (Entries.find?_eq_some_iff htree.ascending).mp hat, hignored,
          nil_mem_foundNode.mpr ⟨.inr ⟨target, rfl, hleads⟩, h.wanted⟩⟩
  | cons dir parents ih =>
    intro directory es htree hdirectory
    rw [List.cons_append, cons_mem_foundEntries, isSource_cons htree]
    constructor
    · rintro ⟨node, hmem, hignored, hfound⟩
      obtain ⟨sub, rfl, hshort, hfound⟩ := (mem_foundNode_of_ne_nil (by simp)).mp hfound
      have hsub := (htree.of_mem hmem).2
      exact ⟨sub, (Entries.find?_eq_some_iff htree.ascending).mpr hmem, hignored, hshort,
        (ih hsub hshort).mp hfound⟩
    · rintro ⟨sub, hfind, hignored, hshort, hsource⟩
      have hsub := (htree.of_find? hfind).2
      exact ⟨.dir sub, (Entries.find?_eq_some_iff htree.ascending).mp hfind, hignored,
        (mem_foundNode_of_ne_nil (by simp)).mpr ⟨sub, rfl, hshort, (ih hsub hshort).mpr hsource⟩⟩

theorem IsSource.exists_node {root : String} {parents : List String}
    (h : IsSource o d root es parents name) :
    ∃ node, es.at? (parents ++ [name]) = some node := by
  obtain ⟨bytes, hat⟩ | ⟨target, hat, _⟩ := h.node
  · exact ⟨_, hat⟩
  · exact ⟨_, hat⟩

end Members

end ChangeImpact
