import ChangeImpact.Proofs.Disk.Visits

/-!
# Proofs.Disk.LinkLaw

The files of a scan that follows links.

* `IsReached`       — directories that entries lead to from the root, through any number of links.
* `IsFileEntry`     — a file that is asked for, or a link to one.
* `ListsOnce`       — these directories are listed once each, and these files are taken once each.
* `scan_links_once` — so it is when links are followed, also where they lead in circles.
-/

namespace ChangeImpact

/-! ## What can be reached -/

/-- The directory at a location is the root, or an entry that is not ignored leads to it from
another such directory. -/
inductive IsReached (o : ScanOptions) (d : Disk) : List String → Prop
  | root {location entries}
      (h : d.status (Path.tidy o.root) (Path.tidy o.root) = .ok (location, .dir entries)) :
    IsReached o d location
  | entry {location entries name node target below} (h : IsReached o d location)
      (hdir : d.at? location = some (.dir entries)) (hmem : (name, node) ∈ entries)
      (hname : ∀ pattern ∈ o.ignore, ¬ pattern.toList <:+: name.toList)
      (hleads : d.EntryLeads location name target) (htarget : d.at? target = some (.dir below)) :
    IsReached o d target

/-- A file in the directory at a location, or a link there that leads to one, that is asked
for. -/
structure IsFileEntry (o : ScanOptions) (d : Disk) (location : List String) (entries : Entries)
    (name : String) : Prop where
  node : ∃ node, (name, node) ∈ entries ∧ ((∃ bytes, node = .file bytes) ∨
    ∃ link target bytes, node = .link link ∧ d.EntryLeads location name target ∧
      d.at? target = some (.file bytes))
  unignored : ∀ pattern ∈ o.ignore, ¬ pattern.toList <:+: name.toList
  wanted : extension name ∈ o.extensions

/-- The system can be asked for all entries of a directory that are not ignored and lead
somewhere. -/
def Visit.InLimits (o : ScanOptions) (d : Disk) (v : Visit) : Prop :=
  ∀ name node, (name, node) ∈ v.entries → o.isIgnored name = false →
    (∃ target, d.EntryLeads v.location name target) → d.WithinLimits v.path name

/-- The listed directories are those that can be reached, and the files are theirs; nothing comes
twice. -/
structure ListsOnce (o : ScanOptions) (d : Disk) (visits : List Visit) (files : List String) :
    Prop where
  once : (visits.map (·.location)).Nodup
  reached : ∀ v ∈ visits, IsReached o d v.location ∧ d.at? v.location = some (.dir v.entries)
  all : (∀ v ∈ visits, v.InLimits o d) →
    ∀ location, IsReached o d location → location ∈ visits.map (·.location)
  filesOnce : files.Nodup
  source : ∀ path ∈ files, ∃ v ∈ visits, ∃ name,
    path = Path.child v.path name ∧ IsFileEntry o d v.location v.entries name
  allFiles : (∀ v ∈ visits, v.InLimits o d) →
    ∀ v ∈ visits, ∀ name, IsFileEntry o d v.location v.entries name →
      Path.child v.path name ∈ files
  /-- A path stands for one entry. -/
  apart : ∀ v ∈ visits, ∀ w ∈ visits, ∀ name name', IsFileEntry o d v.location v.entries name →
    IsFileEntry o d w.location w.entries name' →
      Path.child v.path name = Path.child w.path name' → v = w ∧ name = name'

/-! ## Uses of entries -/

section Use

variable {o : ScanOptions} {d : Disk} {directory name : String} {location target : List String}
  {es : Entries} {node found : Node}

theorem isIgnored_of_useOf {use : EntryUse} (huse : o.useOf d directory name node = use)
    (h : use ≠ .pass) : o.isIgnored name = false := by
  by_contra hignored
  exact h (by simp [← huse, ScanOptions.useOf, hignored])

/-- An entry that is no link leads nowhere but to itself. -/
theorem eq_of_entryLeads (hdir : d.at? location = some (.dir es))
    (hfind : es.find? name = some node) (hname : Disk.IsName name)
    (hlink : ∀ link, node ≠ .link link) (hleads : d.EntryLeads location name target)
    (hfound : d.at? target = some found) : found = node := by
  obtain ⟨hops, hwalk⟩ := hleads
  have hnolink : es.NoLink name := fun link hl => hlink link (Option.some.inj (hfind.symm.trans hl))
  rw [Disk.walk_name hdir hnolink hname, Disk.entryPlace, hfind] at hwalk
  split at hwalk
  · cases hwalk
  · cases hwalk
    have hat : d.at? (location ++ [name]) = es.find? name := Entries.at?_append hdir name
    exact Option.some.inj (hfound.symm.trans (hat.trans hfind))

/-- What an entry leads to decides what is done with it. -/
theorem useOf_of_leads (hdirectory : d.status directory directory = .ok (location, .dir es))
    (htree : es.IsTree) (hmem : (name, node) ∈ es) (hignored : o.isIgnored name = false)
    (hwithin : d.WithinLimits directory name) (hleads : d.EntryLeads location name target)
    (hfound : d.at? target = some found) :
    o.useOf d directory name node =
      match found with
      | .dir _ => .enter
      | .file _ => if o.isWanted name then .take else .pass
      | .link _ => .pass := by
  have hdir := (Disk.status_eq_ok_iff.mp hdirectory).2.2
  have hname := (htree.of_mem hmem).1
  have hfind := (Entries.find?_eq_some_iff htree.ascending).mpr hmem
  unfold ScanOptions.useOf
  rw [if_neg (by simp [hignored])]
  cases node with
  | file bytes =>
    cases eq_of_entryLeads hdir hfind hname (by simp) hleads hfound
    rfl
  | dir sub =>
    cases eq_of_entryLeads hdir hfind hname (by simp) hleads hfound
    rfl
  | link link =>
    have hstatus := Disk.status_way hdirectory hname (List.mem_cons_self) hwithin hleads hfound
    rw [hstatus]
    cases found <;> rfl

theorem isFileEntry_of_take (hdirectory : d.status directory directory = .ok (location, .dir es))
    (htree : es.IsTree) (hmem : (name, node) ∈ es)
    (htake : o.useOf d directory name node = .take) : IsFileEntry o d location es name := by
  have hignored := isIgnored_of_useOf htake (by decide)
  have hunignored := ScanOptions.isIgnored_eq_false_iff.mp hignored
  unfold ScanOptions.useOf at htake
  rw [if_neg (by simp [hignored])] at htake
  cases node with
  | file bytes =>
    have hwanted : o.isWanted name = true := by simpa using htake
    exact ⟨⟨_, hmem, .inl ⟨bytes, rfl⟩⟩, hunignored, ScanOptions.isWanted_iff.mp hwanted⟩
  | dir sub => cases htake
  | link link =>
    dsimp only at htake
    split at htake
    · cases htake
    · next target bytes hstatus =>
      have hwanted : o.isWanted name = true := by simpa using htake
      obtain ⟨hleads, hfile⟩ := Disk.entryLeads_of_status hdirectory (htree.of_mem hmem).1
        List.mem_cons_self hstatus
      exact ⟨⟨_, hmem, .inr ⟨link, target, bytes, rfl, hleads, hfile⟩⟩, hunignored,
        ScanOptions.isWanted_iff.mp hwanted⟩
    · cases htake
    · cases htake
    · cases htake

theorem take_of_isFileEntry (hdirectory : d.status directory directory = .ok (location, .dir es))
    (htree : es.IsTree) (h : IsFileEntry o d location es name)
    (hlimits : Visit.InLimits o d ⟨directory, location, es⟩) :
    ∃ node, (name, node) ∈ es ∧ o.useOf d directory name node = .take := by
  have hignored := ScanOptions.isIgnored_eq_false_iff.mpr h.unignored
  have hwanted := ScanOptions.isWanted_iff.mpr h.wanted
  obtain ⟨node, hmem, ⟨bytes, rfl⟩ | ⟨link, target, bytes, rfl, hleads, hfile⟩⟩ := h.node
  · exact ⟨_, hmem, by simp [ScanOptions.useOf, hignored, hwanted]⟩
  · have hwithin := hlimits name _ hmem hignored ⟨target, hleads⟩
    refine ⟨_, hmem, ?_⟩
    rw [useOf_of_leads hdirectory htree hmem hignored hwithin hleads hfile, if_pos hwanted]

theorem mem_taken {path : String} {entries : Entries} : path ∈ taken o d directory entries ↔
    ∃ name node, (name, node) ∈ entries ∧ o.useOf d directory name node = .take ∧
      path = Path.child directory name := by
  constructor
  · intro h
    obtain ⟨⟨name, node⟩, hentry, rfl⟩ := List.mem_map.mp h
    obtain ⟨hmem, htake⟩ := List.mem_filter.mp hentry
    exact ⟨name, node, hmem, of_decide_eq_true htake, rfl⟩
  · rintro ⟨name, node, hmem, htake, rfl⟩
    exact List.mem_map.mpr ⟨(name, node), List.mem_filter.mpr ⟨hmem, decide_eq_true htake⟩, rfl⟩

end Use

/-! ## Paths that are met -/

/-- A path that is put together on the way from the root. -/
inductive IsMet (o : ScanOptions) (d : Disk) : String → Prop
  | root : IsMet o d (Path.tidy o.root)
  | child {path location entries name node} (h : IsMet o d path)
      (hstatus : d.status path path = .ok (location, .dir entries)) (hmem : (name, node) ∈ entries)
      (hignored : o.isIgnored name = false) :
    IsMet o d (Path.child path name)

section Met

variable {o : ScanOptions} {d : Disk} (htree : d.top.IsTree)

include htree in
theorem isTree_of_status {path : String} {location : List String} {es : Entries}
    (h : d.status path path = .ok (location, .dir es)) : es.IsTree :=
  htree.of_at? (Disk.status_eq_ok_iff.mp h).2.2

include htree in
theorem IsMet.isReached {path : String} (h : IsMet o d path) {location : List String}
    {es : Entries} (hstatus : d.status path path = .ok (location, .dir es)) :
    IsReached o d location := by
  induction h generalizing location es with
  | root => exact .root hstatus
  | @child path above entries name node _ habove hmem hignored ih =>
    obtain ⟨hleads, htarget⟩ := Disk.entryLeads_of_status habove
      ((isTree_of_status htree habove).of_mem hmem).1 (by simp [Disk.ways]) hstatus
    exact .entry (ih habove) (Disk.status_eq_ok_iff.mp habove).2.2 hmem
      (ScanOptions.isIgnored_eq_false_iff.mp hignored) hleads htarget

include htree in
theorem IsMet.exists_below {path : String} (h : IsMet o d path) :
    ∃ segments, (∀ s ∈ segments, Disk.IsName s) ∧
      path = Path.below (Path.tidy o.root) segments := by
  induction h with
  | root => exact ⟨[], by simp, rfl⟩
  | @child path above entries name node _ habove hmem _ ih =>
    obtain ⟨segments, hsegments, rfl⟩ := ih
    refine ⟨segments ++ [name], List.forall_mem_append.mpr ⟨hsegments, ?_⟩, ?_⟩
    · exact List.forall_mem_singleton.mpr ((isTree_of_status htree habove).of_mem hmem).1
    · rw [Path.below, Path.below, List.foldl_append]
      rfl

include htree in
/-- Entries of two directories have one path only if they are one. -/
theorem eq_of_child_eq {path path' name name' : String} (h : IsMet o d path)
    (h' : IsMet o d path') (hname : Disk.IsName name) (hname' : Disk.IsName name')
    (heq : Path.child path name = Path.child path' name') : path = path' ∧ name = name' := by
  obtain ⟨segments, hsegments, rfl⟩ := h.exists_below htree
  obtain ⟨segments', hsegments', rfl⟩ := h'.exists_below htree
  have hsteps := congrArg Path.steps heq
  rw [Path.steps_child _ hname, Path.steps_child _ hname', Path.steps_below _ hsegments,
    Path.steps_below _ hsegments', List.append_assoc, List.append_assoc,
    List.append_cancel_left_eq] at hsteps
  obtain ⟨rfl, hlast⟩ := List.append_inj' hsteps rfl
  exact ⟨rfl, List.head_eq_of_cons_eq hlast⟩

/-- The paths from which a task starts are met. -/
def ScanTask.Starts (o : ScanOptions) (d : Disk) : ScanTask → Prop
  | .directory path => IsMet o d path
  | .entries parent rest => IsMet o d parent ∧
    ∃ location entries, d.status parent parent = .ok (location, .dir entries) ∧ rest ⊆ entries

theorem ScanTask.Starts.tail {parent : String} {entry : String × Node} {rest : Entries}
    (h : ScanTask.Starts o d (.entries parent (entry :: rest))) :
    ScanTask.Starts o d (.entries parent rest) := by
  obtain ⟨hmet, location, entries, hstatus, hsub⟩ := h
  exact ⟨hmet, location, entries, hstatus, fun e he => hsub (List.mem_cons_of_mem _ he)⟩

theorem ScanRun.met {t : ScanTask} {s s' : Scan} {visits : List Visit}
    (h : ScanRun o d t s visits s') (ht : t.Starts o d) : ∀ v ∈ visits, IsMet o d v.path := by
  induction h with
  | refused => simp
  | again => simp
  | list h _ _ ih =>
    exact List.forall_mem_cons.mpr ⟨ht, ih ⟨ht, _, _, h, List.Subset.refl _⟩⟩
  | done => simp
  | settled _ _ ih => exact ih ht.tail
  | enter huse _ _ ihbelow ihrest =>
    have htail := ht.tail
    obtain ⟨hmet, location, entries, hstatus, hsub⟩ := ht
    have hignored := isIgnored_of_useOf huse (by decide)
    exact List.forall_mem_append.mpr
      ⟨ihbelow (hmet.child hstatus (hsub List.mem_cons_self) hignored), ihrest htail⟩

end Met

/-! ## A whole scan -/

section Whole

variable {o : ScanOptions} {d : Disk} {visits : List Visit} {s : Scan}

theorem Scan.ongoing_start (d : Disk) : Scan.Ongoing d {} :=
  ⟨rfl, List.nodup_nil, fun _ h => absurd h List.not_mem_nil⟩

theorem exists_run_scan (hfollow : o.followLinks = true) (hcancel : o.cancelAfter = none) :
    ∃ visits s, ScanRun o d (.directory (Path.tidy o.root)) {} visits s ∧
      (scan o d).files = s.files ∧ (scan o d).visited = s.visited := by
  rw [scan]
  split
  · next location entries hstatus =>
    have hstart : startScan o d (Path.tidy o.root) entries =
        scanLinked o d (Entries.directories d.top + 2) (Path.tidy o.root) {} := by
      rw [startScan, hcancel, if_pos hfollow]
    obtain ⟨visits, hrun⟩ := exists_scanRun o d (Entries.directories d.top + 2) (Path.tidy o.root)
      {} (Scan.ongoing_start d) (by omega)
    rw [← hstart] at hrun
    exact ⟨visits, _, hrun, rfl, rfl⟩
  · next found hother hstatus =>
    exact ⟨[], _, .refused fun location entries h =>
      hother location entries (Except.ok.inj (hstatus.symm.trans h)), rfl, rfl⟩
  · next e hstatus =>
    exact ⟨[], _, .refused fun location entries h => by simp [hstatus] at h, rfl, rfl⟩

variable (hrun : ScanRun o d (.directory (Path.tidy o.root)) {} visits s)

include hrun

theorem ScanRun.mem_visited {location : List String} :
    location ∈ s.visited ↔ location ∈ visits.map (·.location) := by
  rw [hrun.visited, List.append_nil, List.mem_reverse]

theorem ScanRun.isMet : ∀ v ∈ visits, IsMet o d v.path := hrun.met .root

theorem ScanRun.nodup_locations : (visits.map (·.location)).Nodup := by
  have honce := (hrun.ongoing (Scan.ongoing_start d)).once
  rwa [hrun.visited, List.append_nil, List.nodup_reverse] at honce

theorem ScanRun.mem_files {path : String} :
    path ∈ s.files ↔ ∃ v ∈ visits, path ∈ taken o d v.path v.entries := by
  rw [hrun.files.mem_iff, List.nil_append, List.mem_append, List.mem_flatMap]
  exact or_iff_right (List.not_mem_nil)

variable (htree : d.top.IsTree)

include htree

theorem ScanRun.mem_of_isReached (hlimits : ∀ v ∈ visits, v.InLimits o d) {location : List String}
    (h : IsReached o d location) : location ∈ visits.map (·.location) := by
  induction h with
  | root h => exact hrun.mem_visited.mp (hrun.done_tasks.1 _ _ h)
  | @entry location entries name node target below _ hdir hmem hname hleads htarget ih =>
    obtain ⟨v, hv, rfl⟩ := List.mem_map.mp ih
    have hstatus := hrun.status v hv
    have hentries : v.entries = entries := by
      have hat := (Disk.status_eq_ok_iff.mp hstatus).2.2.symm.trans hdir
      simpa using hat
    subst hentries
    have hignored := ScanOptions.isIgnored_eq_false_iff.mpr hname
    have htreeHere := isTree_of_status htree hstatus
    have hwithin := hlimits v hv name node hmem hignored ⟨target, hleads⟩
    have huse := useOf_of_leads hstatus htreeHere hmem hignored hwithin hleads htarget
    have hchild := Disk.status_way hstatus (htreeHere.of_mem hmem).1
      (by simp [Disk.ways] : Path.child v.path name ∈ Disk.ways v.path name) hwithin hleads htarget
    exact hrun.mem_visited.mp (hrun.done_tasks.2 v hv name node hmem huse _ _ hchild)

/-- Two visits with a path in common are one. -/
theorem ScanRun.eq_of_child_eq {v w : Visit} (hv : v ∈ visits) (hw : w ∈ visits)
    {name name' : String} {node node' : Node} (hname : (name, node) ∈ v.entries)
    (hname' : (name', node') ∈ w.entries)
    (heq : Path.child v.path name = Path.child w.path name') : v = w ∧ name = name' := by
  have hstatus := hrun.status v hv
  have hstatus' := hrun.status w hw
  obtain ⟨hpath, rfl⟩ := ChangeImpact.eq_of_child_eq htree (hrun.isMet v hv) (hrun.isMet w hw)
    ((isTree_of_status htree hstatus).of_mem hname).1
    ((isTree_of_status htree hstatus').of_mem hname').1 heq
  refine ⟨?_, rfl⟩
  obtain ⟨path, location, entries⟩ := v
  obtain ⟨path', location', entries'⟩ := w
  subst hpath
  cases hstatus.symm.trans hstatus'
  rfl

theorem nodup_taken {v : Visit} (hv : v ∈ visits) : (taken o d v.path v.entries).Nodup := by
  have hhere := isTree_of_status htree (hrun.status v hv)
  have hnames : (v.entries.map (·.1)).Nodup := Entries.nodup_names hhere.ascending
  refine List.Nodup.map_on ?_ (hnames.of_map.filter _)
  intro e he e' he' heq
  have hmem := List.mem_of_mem_filter he
  have hmem' := List.mem_of_mem_filter he'
  obtain ⟨_, hname⟩ := hrun.eq_of_child_eq htree hv hv hmem hmem' heq
  exact List.inj_on_of_nodup_map hnames hmem hmem' hname

theorem ScanRun.nodup_files : s.files.Nodup := by
  refine hrun.files.nodup_iff.mpr ?_
  show (visits.flatMap fun v => taken o d v.path v.entries).Nodup
  refine List.nodup_flatMap.mpr ⟨fun v hv => nodup_taken hrun htree hv, ?_⟩
  refine List.Nodup.pairwise_of_forall_ne hrun.nodup_locations.of_map ?_
  intro v hv w hw hne path hpath hpath'
  obtain ⟨name, node, hmem, _, rfl⟩ := mem_taken.mp hpath
  obtain ⟨name', node', hmem', _, heq⟩ := mem_taken.mp hpath'
  exact hne (hrun.eq_of_child_eq htree hv hw hmem hmem' heq).1

theorem ScanRun.listsOnce : ListsOnce o d visits s.files where
  once := hrun.nodup_locations
  reached v hv :=
    ⟨(hrun.isMet v hv).isReached htree (hrun.status v hv),
      (Disk.status_eq_ok_iff.mp (hrun.status v hv)).2.2⟩
  all hlimits _ h := hrun.mem_of_isReached htree hlimits h
  filesOnce := hrun.nodup_files htree
  source path hpath := by
    obtain ⟨v, hv, htaken⟩ := hrun.mem_files.mp hpath
    obtain ⟨name, node, hmem, htake, rfl⟩ := mem_taken.mp htaken
    have hstatus := hrun.status v hv
    exact ⟨v, hv, name, rfl,
      isFileEntry_of_take hstatus (isTree_of_status htree hstatus) hmem htake⟩
  allFiles hlimits v hv name h := by
    have hstatus := hrun.status v hv
    obtain ⟨node, hmem, htake⟩ := take_of_isFileEntry hstatus (isTree_of_status htree hstatus) h
      (hlimits v hv)
    exact hrun.mem_files.mpr ⟨v, hv, mem_taken.mpr ⟨name, node, hmem, htake, rfl⟩⟩
  apart v hv w hw name name' h h' heq := by
    obtain ⟨node, hmem, _⟩ := h.node
    obtain ⟨node', hmem', _⟩ := h'.node
    exact hrun.eq_of_child_eq htree hv hw hmem hmem' heq

omit hrun in
/-- A scan that follows links comes to an end, whatever circles they lead in. It lists every
directory that can be reached once and no other one, and so it takes every file there once. -/
theorem scan_links_once (hfollow : o.followLinks = true) (hcancel : o.cancelAfter = none) :
    ∃ visits s, ScanRun o d (.directory (Path.tidy o.root)) {} visits s ∧
      (scan o d).visited = s.visited ∧ (scan o d).files = s.files ∧
      ListsOnce o d visits (scan o d).files := by
  obtain ⟨visits, s, hrun, hfiles, hvisited⟩ := exists_run_scan (d := d) hfollow hcancel
  exact ⟨visits, s, hrun, hvisited, hfiles, hfiles ▸ hrun.listsOnce htree⟩

end Whole

/-! ## Samples -/

namespace Sample

def ringLib : Entries := [("b.js", .file ⟨#[]⟩), ("up", .link "../..")]

/-- A directory that is met under another name first, and that leads back above the root. -/
def ring : Entries :=
  [("a.js", .file ⟨#[]⟩), ("again", .link "lib"), ("lib", .dir ringLib)]

def ringDisk : Disk := { top := [("src", .dir ring)] }

def ringScan : ScanOptions :=
  { root := "src", extensions := [".js"], ignore := ["node_modules"], followLinks := true }

def ringAgain : Visit := ⟨Path.child "src" "again", ["src", "lib"], ringLib⟩

def ringTop : Visit := ⟨Path.child (Path.child "src" "again") "up", [], [("src", .dir ring)]⟩

def ringVisits : List Visit := [⟨"src", ["src"], ring⟩, ringAgain, ringTop]

theorem isName_of_ring {name : String} (h : name ∈ ["src", "a.js", "again", "lib", "b.js", "up"]) :
    Disk.IsName name := by
  simp only [List.mem_cons, List.not_mem_nil, or_false] at h
  rcases h with rfl | rfl | rfl | rfl | rfl | rfl <;>
    exact ⟨by decide, by decide, by decide, by decide⟩

theorem isTree_ringDisk : ringDisk.top.IsTree :=
  ⟨isName_of_ring (by decide), by decide,
    ⟨isName_of_ring (by decide), by decide, trivial, isName_of_ring (by decide), by decide, trivial,
      isName_of_ring (by decide), by decide,
      ⟨isName_of_ring (by decide), by decide, trivial, isName_of_ring (by decide), by decide,
        trivial, trivial⟩, trivial⟩, trivial⟩

section Run

variable {s : Scan}

theorem run_ringTop (hnew : [] ∉ s.visited) (hroot : ["src"] ∈ s.visited) :
    ScanRun ringScan ringDisk (.directory ringTop.path) s [ringTop]
      { s with visited := [] :: s.visited } := by
  have hstatus : ringDisk.status ringTop.path ringTop.path = .ok ([], .dir [("src", .dir ring)]) :=
    Disk.status_eq_ok_iff.mpr ⟨by decide, by decide +kernel, rfl⟩
  have hback : ringDisk.status (Path.child ringTop.path "src") (Path.child ringTop.path "src") =
      .ok (["src"], .dir ring) :=
    Disk.status_eq_ok_iff.mpr ⟨by decide, by decide +kernel, rfl⟩
  have huse : ringScan.useOf ringDisk ringTop.path "src" (.dir ring) = .enter := by decide +kernel
  exact .list hstatus hnew (.enter huse (.again hback (List.mem_cons_of_mem _ hroot)) .done)

theorem run_ringAgain (hnew : ["src", "lib"] ∉ s.visited) (htop : [] ∉ s.visited)
    (hroot : ["src"] ∈ s.visited) :
    ∃ s', ScanRun ringScan ringDisk (.directory ringAgain.path) s [ringAgain, ringTop] s' ∧
      ["src", "lib"] ∈ s'.visited := by
  have hstatus : ringDisk.status ringAgain.path ringAgain.path =
      .ok (["src", "lib"], .dir ringLib) :=
    Disk.status_eq_ok_iff.mpr ⟨by decide, by decide +kernel, rfl⟩
  have hfile : ringScan.useOf ringDisk ringAgain.path "b.js" (.file ⟨#[]⟩) ≠ .enter := by
    decide +kernel
  have hup : ringScan.useOf ringDisk ringAgain.path "up" (.link "../..") = .enter := by
    decide +kernel
  have hbelow := run_ringTop
    (s := (ringScan.useOf ringDisk ringAgain.path "b.js" (.file ⟨#[]⟩)).settle
      (Path.child ringAgain.path "b.js") { s with visited := ["src", "lib"] :: s.visited })
    (by simp [htop]) (by simp [hroot])
  have hrun := ScanRun.list hstatus hnew (.settled hfile (.enter hup hbelow .done))
  exact ⟨_, hrun, by simp⟩

theorem run_ring :
    ∃ s, ScanRun ringScan ringDisk (.directory (Path.tidy ringScan.root)) {} ringVisits s := by
  have htidy : Path.tidy ringScan.root = "src" := by decide
  have hstatus : ringDisk.status "src" "src" = .ok (["src"], .dir ring) :=
    Disk.status_eq_ok_iff.mpr ⟨by decide, by decide +kernel, rfl⟩
  have hlib : ringDisk.status (Path.child "src" "lib") (Path.child "src" "lib") =
      .ok (["src", "lib"], .dir ringLib) :=
    Disk.status_eq_ok_iff.mpr ⟨by decide, by decide +kernel, rfl⟩
  have hfile : ringScan.useOf ringDisk "src" "a.js" (.file ⟨#[]⟩) ≠ .enter := by decide +kernel
  have hagain : ringScan.useOf ringDisk "src" "again" (.link "lib") = .enter := by decide +kernel
  have hdir : ringScan.useOf ringDisk "src" "lib" (.dir ringLib) = .enter := by decide +kernel
  obtain ⟨s, hbelow, hvisited⟩ := run_ringAgain
    (s := (ringScan.useOf ringDisk "src" "a.js" (.file ⟨#[]⟩)).settle (Path.child "src" "a.js")
      { visited := [["src"]] }) (by simp) (by simp) (by simp)
  rw [htidy]
  have hrun := ScanRun.list (s := {}) hstatus List.not_mem_nil
    (.settled hfile (.enter hagain hbelow (.enter hdir (.again hlib hvisited) .done)))
  exact ⟨s, hrun⟩

end Run

theorem withinLimits_of_isOk {d : Disk} {directory name : String}
    (h : ∀ way ∈ Disk.ways directory name, (d.placeOf true way).isOk = true) :
    d.WithinLimits directory name := by
  intro way hway
  have hok := h way hway
  constructor <;> intro he <;> simp [he, Except.isOk, Except.toBool] at hok

theorem inLimits_ring : ∀ v ∈ ringVisits, v.InLimits ringScan ringDisk := by
  have hall : ∀ v ∈ ringVisits, ∀ name ∈ v.entries.map (·.1), ∀ way ∈ Disk.ways v.path name,
      (ringDisk.placeOf true way).isOk = true := by decide +kernel
  intro v hv name node hmem _ _
  exact withinLimits_of_isOk (hall v hv name (List.mem_map_of_mem hmem))

end Sample

theorem scan_links_once_sample :
    (scan Sample.ringScan Sample.ringDisk).files = ["src/a.js", "src/again/b.js"] ∧
    ListsOnce Sample.ringScan Sample.ringDisk Sample.ringVisits ["src/a.js", "src/again/b.js"] ∧
    ∀ v ∈ Sample.ringVisits, v.InLimits Sample.ringScan Sample.ringDisk := by
  have hfiles : (scan Sample.ringScan Sample.ringDisk).files = ["src/a.js", "src/again/b.js"] := by
    decide +kernel
  obtain ⟨visits, s, hrun, -, -, honce⟩ :=
    scan_links_once (o := Sample.ringScan) Sample.isTree_ringDisk rfl rfl
  obtain ⟨s', hring⟩ := Sample.run_ring
  obtain ⟨rfl, rfl⟩ := hring.unique hrun
  rw [hfiles] at honce
  exact ⟨hfiles, honce, Sample.inLimits_ring⟩

end ChangeImpact
