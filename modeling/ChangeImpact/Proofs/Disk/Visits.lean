import ChangeImpact.Proofs.Disk.Found
import ChangeImpact.Proofs.Disk.Hops
import Mathlib.Data.List.Nodup
import Mathlib.Data.List.Perm.Subperm

/-!
# Proofs.Disk.Visits

A scan that follows links, without a bound on its depth.

* `EntryUse`        — what a scan does with an entry.
* `ScanRun`         — a scan of a directory, or of some entries, that comes to an end, with the
  directories whose entries it lists.
* `ScanRun.unique`  — there is only one.
* `exists_scanRun`  — the bound of `scanLinked` never cuts it short: every step down finds a
  directory that was not entered before, and there are only so many.
* `ScanRun.done`    — every directory that is met has been entered.
* `ScanRun.files`   — the files are those of the listed directories.
-/

namespace ChangeImpact

/-! ## The directories of a tree -/

mutual

/-- The locations of the directories in a tree, its own included. -/
def Node.directoryLocations : Node → List (List String)
  | .dir entries => [] :: Entries.directoryLocations entries
  | _ => []

def Entries.directoryLocations : List (String × Node) → List (List String)
  | [] => []
  | (name, node) :: rest =>
    (Node.directoryLocations node).map (name :: ·) ++ Entries.directoryLocations rest

end

mutual

theorem Node.length_directoryLocations : ∀ node : Node,
    node.directoryLocations.length = node.directories
  | .file _ => rfl
  | .link _ => rfl
  | .dir entries => by
    rw [Node.directoryLocations, Node.directories, List.length_cons,
      Entries.length_directoryLocations entries]

theorem Entries.length_directoryLocations : ∀ es : List (String × Node),
    (Entries.directoryLocations es).length = Entries.directories es
  | [] => rfl
  | (_, node) :: rest => by
    rw [Entries.directoryLocations, Entries.directories, List.length_append, List.length_map,
      Node.length_directoryLocations node, Entries.length_directoryLocations rest]

end

namespace Entries

theorem mem_directoryLocations_of_find? {es : Entries} {name : String} {node : Node}
    {location : List String} (hfind : es.find? name = some node)
    (h : location ∈ node.directoryLocations) :
    name :: location ∈ Entries.directoryLocations es := by
  induction es with
  | nil => cases hfind
  | cons entry rest ih =>
    obtain ⟨n, found⟩ := entry
    rw [find?] at hfind
    rw [directoryLocations, List.mem_append]
    split at hfind
    · next hname =>
      cases hfind
      exact .inl (hname ▸ List.mem_map_of_mem h)
    · exact .inr (ih hfind)

theorem mem_directoryLocations {location : List String} : ∀ {es sub : Entries},
    es.at? location = some (.dir sub) → location ∈ (Node.dir es).directoryLocations := by
  induction location with
  | nil => exact fun _ => List.mem_cons_self
  | cons name rest ih =>
    intro es sub h
    obtain ⟨below, hbelow⟩ := find?_of_at?_cons h
    rw [at?_cons_dir hbelow] at h
    exact List.mem_cons_of_mem _ (mem_directoryLocations_of_find? hbelow (ih h))

end Entries

/-! ## Entries -/

/-- What a scan that follows links does with an entry. -/
inductive EntryUse where
  | pass
  | take
  | enter
  | report (cause : String)
  deriving DecidableEq

namespace EntryUse

/-- The state after an entry at a path that is not entered. -/
def settle (path : String) (s : Scan) : EntryUse → Scan
  | .take => s.addFile path
  | .report cause => s.addProblem path cause
  | _ => s

@[simp] theorem visited_settle (path : String) (s : Scan) (use : EntryUse) :
    (use.settle path s).visited = s.visited := by
  cases use <;> rfl

@[simp] theorem checks_settle (path : String) (s : Scan) (use : EntryUse) :
    (use.settle path s).checks = s.checks := by
  cases use <;> rfl

theorem files_settle (path : String) (s : Scan) (use : EntryUse) :
    (use.settle path s).files = s.files ++ if use = .take then [path] else [] := by
  cases use <;> simp [settle, Scan.addFile, Scan.addProblem]

end EntryUse

section Use

variable (o : ScanOptions) (d : Disk)

def ScanOptions.useOf (directory name : String) (node : Node) : EntryUse :=
  if o.isIgnored name then .pass
  else
    match node with
    | .file _ => if o.isWanted name then .take else .pass
    | .dir _ => .enter
    | .link _ =>
      match d.status (entryPath directory name) (entryPath directory name) with
      | .ok (_, .dir _) => .enter
      | .ok (_, .file _) => if o.isWanted name then .take else .pass
      | .ok _ => .pass
      | .error (.disk .noEntry _) => .pass
      | .error e => .report e.message

theorem scanEach_cons (directory : String) (enter : String → Scan → Scan) (name : String)
    (node : Node) (rest : Entries) (s : Scan) :
    scanEach o d directory enter ((name, node) :: rest) s =
      scanEach o d directory enter rest
        (if o.useOf d directory name node = .enter then enter (Path.child directory name) s
          else (o.useOf d directory name node).settle (Path.child directory name) s) := by
  rw [scanEach, List.foldl_cons, ← scanEach]
  congr 1
  by_cases hignored : o.isIgnored name = true
  · simp [ScanOptions.useOf, hignored, EntryUse.settle]
  · cases node with
    | file bytes => cases hwanted : o.isWanted name <;>
        simp [ScanOptions.useOf, hignored, hwanted, EntryUse.settle]
    | dir sub => simp [ScanOptions.useOf, hignored]
    | link target =>
      rcases hstatus : d.status (entryPath directory name) (entryPath directory name) with
        e | ⟨l, node⟩
      · simp only [ScanOptions.useOf, hignored, hstatus, Bool.false_eq_true, if_false]
        cases e with
        | disk fault path => cases fault <;> rfl
        | _ => rfl
      · cases node with
        | file bytes => cases hwanted : o.isWanted name <;>
            simp [ScanOptions.useOf, hignored, hstatus, hwanted, EntryUse.settle]
        | link target => simp [ScanOptions.useOf, hignored, hstatus, EntryUse.settle]
        | dir sub => simp [ScanOptions.useOf, hignored, hstatus]

/-- The paths of the files that a scan takes from some entries of the directory at a path. -/
def taken (directory : String) (entries : Entries) : List String :=
  (entries.filter fun e => o.useOf d directory e.1 e.2 = .take).map
    fun e => Path.child directory e.1

end Use

/-! ## Runs -/

/-- A directory whose entries are listed, with the path by which it is met. -/
structure Visit where
  path : String
  location : List String
  entries : Entries

inductive ScanTask where
  | directory (path : String)
  /-- Some entries of the directory at a path. -/
  | entries (directory : String) (rest : Entries)

/-- Why the system does not list the entries of what is at a path. -/
def Disk.refusal (d : Disk) (path : String) : String :=
  match d.status path path with
  | .ok _ => Fault.notDirectory.message path
  | .error e => e.message

/-- A scan that follows links and is not stopped comes from one state to another, and on its way
lists the entries of these directories. -/
inductive ScanRun (o : ScanOptions) (d : Disk) : ScanTask → Scan → List Visit → Scan → Prop
  | refused {path s} (h : ∀ location entries, d.status path path ≠ .ok (location, .dir entries)) :
    ScanRun o d (.directory path) s [] (s.addProblem path (d.refusal path))
  | again {path s location entries} (h : d.status path path = .ok (location, .dir entries))
      (hvisited : location ∈ s.visited) :
    ScanRun o d (.directory path) s [] s
  | list {path s location entries visits s'}
      (h : d.status path path = .ok (location, .dir entries)) (hvisited : location ∉ s.visited)
      (hentries : ScanRun o d (.entries path entries)
        { s with visited := location :: s.visited } visits s') :
    ScanRun o d (.directory path) s (⟨path, location, entries⟩ :: visits) s'
  | done {directory s} : ScanRun o d (.entries directory []) s [] s
  | settled {directory name node rest s visits s'} (h : o.useOf d directory name node ≠ .enter)
      (hrest : ScanRun o d (.entries directory rest)
        ((o.useOf d directory name node).settle (Path.child directory name) s) visits s') :
    ScanRun o d (.entries directory ((name, node) :: rest)) s visits s'
  | enter {directory name node rest s visits s' more s''}
      (h : o.useOf d directory name node = .enter)
      (hbelow : ScanRun o d (.directory (Path.child directory name)) s visits s')
      (hrest : ScanRun o d (.entries directory rest) s' more s'') :
    ScanRun o d (.entries directory ((name, node) :: rest)) s (visits ++ more) s''

section Runs

variable {o : ScanOptions} {d : Disk} {t : ScanTask} {s s' : Scan} {visits : List Visit}

theorem ScanRun.unique (h : ScanRun o d t s visits s') : ∀ {visits' : List Visit} {s'' : Scan},
    ScanRun o d t s visits' s'' → visits' = visits ∧ s'' = s' := by
  induction h with
  | refused h =>
    intro visits' s'' h'
    cases h' with
    | refused => exact ⟨rfl, rfl⟩
    | again h' => exact absurd h' (h _ _)
    | list h' => exact absurd h' (h _ _)
  | again h hvisited =>
    intro visits' s'' h'
    cases h' with
    | refused h' => exact absurd h (h' _ _)
    | again => exact ⟨rfl, rfl⟩
    | list h' hnew =>
      cases h.symm.trans h'
      exact absurd hvisited hnew
  | list h hnew _ ih =>
    intro visits' s'' h'
    cases h' with
    | refused h' => exact absurd h (h' _ _)
    | again h' hvisited =>
      cases h.symm.trans h'
      exact absurd hvisited hnew
    | list h' _ hentries =>
      cases h.symm.trans h'
      obtain ⟨rfl, rfl⟩ := ih hentries
      exact ⟨rfl, rfl⟩
  | done =>
    intro visits' s'' h'
    cases h'
    exact ⟨rfl, rfl⟩
  | settled h _ ih =>
    intro visits' s'' h'
    cases h' with
    | settled _ hrest => exact ih hrest
    | enter h' => exact absurd h' h
  | enter h _ _ ihbelow ihrest =>
    intro visits' s'' h'
    cases h' with
    | settled h' => exact absurd h h'
    | enter _ hbelow hrest =>
      obtain ⟨rfl, rfl⟩ := ihbelow hbelow
      obtain ⟨rfl, rfl⟩ := ihrest hrest
      exact ⟨rfl, rfl⟩

/-- The directories that are entered are those whose entries are listed. -/
theorem ScanRun.visited (h : ScanRun o d t s visits s') :
    s'.visited = (visits.map (·.location)).reverse ++ s.visited := by
  induction h with
  | refused => rfl
  | again => rfl
  | list _ _ _ ih => simp [ih]
  | done => rfl
  | settled _ _ ih => rw [ih, EntryUse.visited_settle]
  | enter _ _ _ ihbelow ihrest => simp [ihrest, ihbelow]

theorem ScanRun.status (h : ScanRun o d t s visits s') :
    ∀ v ∈ visits, d.status v.path v.path = .ok (v.location, .dir v.entries) := by
  induction h with
  | refused => simp
  | again => simp
  | list h _ _ ih => exact List.forall_mem_cons.mpr ⟨h, ih⟩
  | done => simp
  | settled _ _ ih => exact ih
  | enter _ _ _ ihbelow ihrest => exact List.forall_mem_append.mpr ⟨ihbelow, ihrest⟩

/-! ## The bound -/

/-- A scan on its way: it is not stopped, and it has entered no directory twice. -/
structure Scan.Ongoing (d : Disk) (s : Scan) : Prop where
  unstopped : s.checks = none
  once : s.visited.Nodup
  directories : ∀ location ∈ s.visited, ∃ es, d.at? location = some (.dir es)

namespace Scan.Ongoing

theorem length_le (h : s.Ongoing d) : s.visited.length ≤ Entries.directories d.top + 1 := by
  have hsubset : s.visited ⊆ (Node.dir d.top).directoryLocations := by
    intro location hlocation
    obtain ⟨es, hes⟩ := h.directories location hlocation
    exact Entries.mem_directoryLocations hes
  have hlength := (h.once.subperm hsubset).length_le
  rwa [Node.length_directoryLocations, Node.directories] at hlength

theorem checkpoint (h : s.Ongoing d) (path : String) : s.checkpoint path = (false, s) := by
  rw [Scan.checkpoint, h.unstopped]

theorem settle (h : s.Ongoing d) (path : String) (use : EntryUse) :
    (use.settle path s).Ongoing d := by
  constructor
  · rw [EntryUse.checks_settle, h.unstopped]
  · rw [EntryUse.visited_settle]
    exact h.once
  · rw [EntryUse.visited_settle]
    exact h.directories

theorem enter (h : s.Ongoing d) {path : String} {location : List String} {es : Entries}
    (hstatus : d.status path path = .ok (location, .dir es)) (hnew : location ∉ s.visited) :
    Scan.Ongoing d { s with visited := location :: s.visited } :=
  ⟨h.unstopped, List.nodup_cons.mpr ⟨hnew, h.once⟩,
    List.forall_mem_cons.mpr ⟨⟨es, (Disk.status_eq_ok_iff.mp hstatus).2.2⟩, h.directories⟩⟩

end Scan.Ongoing

theorem ScanRun.ongoing (h : ScanRun o d t s visits s') (hs : s.Ongoing d) : s'.Ongoing d := by
  induction h with
  | refused => exact ⟨hs.unstopped, hs.once, hs.directories⟩
  | again => exact hs
  | list h hnew _ ih => exact ih (hs.enter h hnew)
  | done => exact hs
  | settled _ _ ih => exact ih (hs.settle _ _)
  | enter _ _ _ ihbelow ihrest => exact ihrest (ihbelow hs)

/-- If a function for directories is one of runs, so is the one for their entries. -/
theorem exists_scanRun_entries {bound : Nat} {enter : String → Scan → Scan}
    (henter : ∀ path s, Scan.Ongoing d s → bound ≤ s.visited.length →
      ∃ visits, ScanRun o d (.directory path) s visits (enter path s)) (directory : String) :
    ∀ entries s, Scan.Ongoing d s → bound ≤ s.visited.length →
      ∃ visits, ScanRun o d (.entries directory entries) s visits
        (scanEach o d directory enter entries s) := by
  intro entries
  induction entries with
  | nil => exact fun s _ _ => ⟨[], .done⟩
  | cons entry rest ih =>
    intro s hs hbound
    obtain ⟨name, node⟩ := entry
    rw [scanEach_cons]
    by_cases huse : o.useOf d directory name node = .enter
    · obtain ⟨visits, hbelow⟩ := henter (Path.child directory name) s hs hbound
      have hlonger : bound ≤ (enter (Path.child directory name) s).visited.length := by
        rw [hbelow.visited, List.length_append]
        omega
      obtain ⟨more, hrest⟩ := ih _ (hbelow.ongoing hs) hlonger
      rw [if_pos huse]
      exact ⟨visits ++ more, .enter huse hbelow hrest⟩
    · obtain ⟨visits, hrest⟩ := ih _
        (hs.settle (Path.child directory name) (o.useOf d directory name node))
        (by rwa [EntryUse.visited_settle])
      rw [if_neg huse]
      exact ⟨visits, .settled huse hrest⟩

/-- The bound on the depth is not reached: all directories that a step down could enter would have
been entered before. -/
theorem exists_scanRun (o : ScanOptions) (d : Disk) : ∀ fuel path s, Scan.Ongoing d s →
    Entries.directories d.top + 2 - fuel ≤ s.visited.length →
      ∃ visits, ScanRun o d (.directory path) s visits (scanLinked o d fuel path s) := by
  intro fuel
  induction fuel with
  | zero =>
    intro path s hs hbound
    have hmost := hs.length_le
    omega
  | succ fuel ih =>
    intro path s hs hbound
    rw [scanLinked, hs.checkpoint path]
    dsimp only
    split
    · next location entries hstatus =>
      split
      · next hvisited => exact ⟨[], .again hstatus (List.contains_iff_mem.mp hvisited)⟩
      · next hnew =>
        have hnew : location ∉ s.visited := fun hmem => hnew (List.contains_iff_mem.mpr hmem)
        obtain ⟨visits, hentries⟩ := exists_scanRun_entries ih path entries _
          (hs.enter hstatus hnew) (by rw [List.length_cons]; omega)
        exact ⟨_, .list hstatus hnew hentries⟩
    · next found hother hstatus =>
      have hrefusal : d.refusal path = Fault.notDirectory.message path := by
        rw [Disk.refusal, hstatus]
      rw [← hrefusal]
      exact ⟨[], .refused fun location entries h =>
        hother location entries (Except.ok.inj (hstatus.symm.trans h))⟩
    · next e hstatus =>
      have hrefusal : d.refusal path = e.message := by rw [Disk.refusal, hstatus]
      rw [← hrefusal]
      exact ⟨[], .refused fun location entries h => by simp [hstatus] at h⟩

/-! ## What a run leaves behind -/

/-- All directories that are met in this are among those that were entered. -/
def ScanTask.IsDone (o : ScanOptions) (d : Disk) (visited : List (List String)) : ScanTask → Prop
  | .directory path =>
    ∀ location entries, d.status path path = .ok (location, .dir entries) → location ∈ visited
  | .entries parent rest =>
    ∀ name node, (name, node) ∈ rest → o.useOf d parent name node = .enter →
      ∀ location entries, d.status (Path.child parent name) (Path.child parent name) =
        .ok (location, .dir entries) → location ∈ visited

theorem ScanTask.IsDone.mono {visited more : List (List String)} (hsub : visited ⊆ more) :
    ∀ {t : ScanTask}, t.IsDone o d visited → t.IsDone o d more
  | .directory _, h => fun location entries hstatus => hsub (h location entries hstatus)
  | .entries _ _, h => fun name node hmem huse location entries hstatus =>
    hsub (h name node hmem huse location entries hstatus)

theorem ScanRun.visited_subset (h : ScanRun o d t s visits s') : s.visited ⊆ s'.visited := by
  rw [h.visited]
  exact List.subset_append_right _ _

theorem ScanRun.done_tasks (h : ScanRun o d t s visits s') :
    t.IsDone o d s'.visited ∧
      ∀ v ∈ visits, ScanTask.IsDone o d s'.visited (.entries v.path v.entries) := by
  induction h with
  | refused h => exact ⟨fun location entries hstatus => absurd hstatus (h _ _), by simp⟩
  | again h hvisited =>
    refine ⟨fun location entries hstatus => ?_, by simp⟩
    cases h.symm.trans hstatus
    exact hvisited
  | list h _ hentries ih =>
    refine ⟨fun location entries hstatus => ?_, List.forall_mem_cons.mpr ih⟩
    cases h.symm.trans hstatus
    exact hentries.visited_subset List.mem_cons_self
  | done => exact ⟨fun _ _ hmem => absurd hmem List.not_mem_nil, by simp⟩
  | settled h _ ih =>
    refine ⟨fun name node hmem huse => ?_, ih.2⟩
    rcases List.mem_cons.mp hmem with heq | hmem
    · cases heq
      exact absurd huse h
    · exact ih.1 name node hmem huse
  | enter h _ hrest ihbelow ihrest =>
    refine ⟨fun name node hmem huse => ?_, List.forall_mem_append.mpr ⟨?_, ihrest.2⟩⟩
    · rcases List.mem_cons.mp hmem with heq | hmem
      · cases heq
        exact ihbelow.1.mono hrest.visited_subset
      · exact ihrest.1 name node hmem huse
    · exact fun v hv => (ihbelow.2 v hv).mono hrest.visited_subset

/-- The files that are taken from the entries themselves. -/
def ScanTask.own (o : ScanOptions) (d : Disk) : ScanTask → List String
  | .directory _ => []
  | .entries parent rest => taken o d parent rest

theorem ScanRun.files (h : ScanRun o d t s visits s') :
    s'.files.Perm
      (s.files ++ (t.own o d ++ visits.flatMap fun v => taken o d v.path v.entries)) := by
  induction h with
  | refused => simp [ScanTask.own, Scan.addProblem]
  | again => simp [ScanTask.own]
  | list _ _ _ ih => exact ih
  | done => simp [ScanTask.own, taken]
  | @settled directory name node rest s visits s' _ _ ih =>
    refine ih.trans (.of_eq ?_)
    rw [EntryUse.files_settle, ScanTask.own, ScanTask.own, taken, taken, List.filter_cons]
    by_cases htake : o.useOf d directory name node = .take
    · simp [htake]
    · simp [htake]
  | @enter directory name node rest s visits s' more s'' h _ _ ihbelow ihrest =>
    have htaken : taken o d directory ((name, node) :: rest) = taken o d directory rest := by
      simp [taken, h]
    rw [ScanTask.own, htaken, List.flatMap_append]
    refine ihrest.trans ((ihbelow.append_right _).trans ?_)
    rw [List.append_assoc]
    refine List.Perm.append_left _ ?_
    exact List.perm_append_comm_assoc _ _ _

end Runs

end ChangeImpact
