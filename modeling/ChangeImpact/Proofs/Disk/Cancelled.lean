import ChangeImpact.Proofs.Disk.Tour
import ChangeImpact.Proofs.Disk.Visits

/-!
# Proofs.Disk.Cancelled

Scans that are told to stop.

* `entriesTour`, `linkedTour` — the tours of the two kinds of scan.
* `ScanOptions.tour`          — every scan runs through one tour, wherever it is told to stop.
* `ScanOptions.collected`     — what has been collected when it is told to stop.
* `ScanOptions.CutOff`        — what it returns: all files of the directories it has entered.
* `not_stopsThere`            — some of them are met later, in the directories further up.
-/

namespace ChangeImpact

/-! ## Entries -/

/-- What is done with an entry, with the tour below it and that of the entries after it. -/
def EntryUse.tour (path : String) (below rest : Tour) : EntryUse → Tour
  | .pass => rest
  | .take => .take path rest
  | .enter => .enter path below rest
  | .report cause => .report path cause rest

theorem EntryUse.run_tour {use : EntryUse} (h : use ≠ .enter) (path : String) (below rest : Tour)
    (s : Scan) : (use.tour path below rest).run s = rest.run (use.settle path s) := by
  cases use with
  | enter => exact absurd rfl h
  | pass | take | report => rfl

/-- The same search, told to stop after some questions. -/
def ScanOptions.told (o : ScanOptions) (checks : Option Nat) : ScanOptions :=
  { o with cancelAfter := checks }

section Plain

variable (o : ScanOptions) (d : Disk)

/-- What becomes of a link where links are not followed. -/
def linkUse (directory name : String) : EntryUse :=
  match d.status (entryPath directory name) (entryPath directory name) with
  | .ok (_, .file _) => if o.isWanted name then .take else .pass
  | .ok _ => .pass
  | .error (.disk .noEntry _) => .pass
  | .error e => .report e.message

mutual

def nodeTour (directory name : String) : Node → Tour → Tour
  | .file _, rest => if o.isWanted name then .take (Path.child directory name) rest else rest
  | .link _, rest => (linkUse o d directory name).tour (Path.child directory name) .done rest
  | .dir sub, rest =>
    let path := Path.child directory name
    .enter path
      (if Disk.isLongPath path then .report path (Fault.nameTooLong.message path) .done
        else entriesTour path sub) rest

/-- The tour of a scan that follows no links. -/
def entriesTour (directory : String) : List (String × Node) → Tour
  | [] => .done
  | (name, node) :: more =>
    if o.isIgnored name then entriesTour directory more
    else nodeTour directory name node (entriesTour directory more)

end

theorem linkUse_ne_enter (directory name : String) : linkUse o d directory name ≠ .enter := by
  unfold linkUse
  split
  · split <;> simp
  all_goals simp

theorem scanLink_eq_settle (checks : Option Nat) (directory name : String) (s : Scan) :
    scanLink (o.told checks) d directory name s =
      (linkUse o d directory name).settle (Path.child directory name) s := by
  have hwanted : (o.told checks).isWanted name = o.isWanted name := rfl
  unfold scanLink linkUse
  dsimp only
  rw [hwanted]
  rcases d.status (entryPath directory name) (entryPath directory name) with e | ⟨l, node⟩
  · cases e with
    | disk fault path => cases fault <;> rfl
    | _ => rfl
  · cases node with
    | file bytes => cases o.isWanted name <;> rfl
    | link target => rfl
    | dir sub => rfl

mutual

theorem run_nodeTour (checks : Option Nat) : ∀ (directory name : String) (node : Node) (rest : Tour)
    (s : Scan), (nodeTour o d directory name node rest).run s =
      rest.run (scanNode (o.told checks) d directory name node s)
  | directory, name, .file bytes, rest, s => by
    have hwanted : (o.told checks).isWanted name = o.isWanted name := rfl
    rw [nodeTour, scanNode, hwanted]
    split <;> rfl
  | directory, name, .link target, rest, s => by
    rw [nodeTour, scanNode, EntryUse.run_tour (linkUse_ne_enter o d directory name),
      scanLink_eq_settle]
  | directory, name, .dir sub, rest, s => by
    rw [nodeTour, scanNode, Tour.run]
    rcases s.checkpoint (Path.child directory name) with ⟨_ | _, s'⟩
    · dsimp only
      split
      · rfl
      · rw [run_entriesTour checks (Path.child directory name) sub s']
    · rfl

/-- The tour is that of the scan, however often the question will be answered with no. -/
theorem run_entriesTour (checks : Option Nat) : ∀ (directory : String) (es : List (String × Node))
    (s : Scan), (entriesTour o d directory es).run s =
      scanEntries (o.told checks) d directory es s
  | _, [], s => by
    rw [entriesTour, scanEntries, Tour.run]
  | directory, (name, node) :: more, s => by
    have hignored : (o.told checks).isIgnored name = o.isIgnored name := rfl
    rw [entriesTour, scanEntries, hignored]
    split
    · rw [run_entriesTour checks directory more]
    · rw [run_nodeTour checks directory name node, run_entriesTour checks directory more]

end

end Plain

/-! ## Links -/

/-- A tour, and the locations that have been entered then. -/
abbrev Trail := Tour × List (List String)

section Linked

variable (o : ScanOptions) (d : Disk)

/-- The tour of some entries, from one of the directories among them. -/
def eachTour (directory : String) (enter : String → List (List String) → Trail) :
    List (String × Node) → List (List String) → Trail
  | [], visited => (.done, visited)
  | (name, node) :: more, visited =>
    let path := Path.child directory name
    if o.useOf d directory name node = .enter then
      let first := enter path visited
      let others := eachTour directory enter more first.2
      (first.1.andThen others.1, others.2)
    else
      let others := eachTour directory enter more visited
      ((o.useOf d directory name node).tour path .done others.1, others.2)

/-- The tour of a scan that follows links. -/
def linkedTour : Nat → String → List (List String) → Trail
  | 0, _, visited => (.done, visited)
  | fuel + 1, path, visited =>
    let below : Trail :=
      match d.status path path with
      | .ok (location, .dir entries) =>
        if visited.contains location then (.done, visited)
        else eachTour o d path (linkedTour fuel) entries (location :: visited)
      | .ok _ => (.report path (Fault.notDirectory.message path) .done, visited)
      | .error e => (.report path e.message .done, visited)
    (.enter path below.1 .done, below.2)

end Linked

namespace Scan

/-- What can be told of a scan from outside: not which directories were entered. -/
def shown (s : Scan) : Scan := { s with visited := [] }

/-- The entered directories are these; once the scan has been stopped they do not matter. -/
def Knows (s : Scan) (visited : List (List String)) : Prop :=
  s.checks ≠ some 0 → s.visited = visited

/-- Running through the tour leads from one state to the other. -/
structure Takes (s s' : Scan) (t : Trail) : Prop where
  run : t.1.run s.shown = s'.shown
  visited : s'.Knows t.2

theorem shown_checkpoint (s : Scan) (path : String) :
    s.shown.checkpoint path = ((s.checkpoint path).1, (s.checkpoint path).2.shown) := by
  obtain ⟨files, problems, log, checks, visited⟩ := s
  rcases checks with _ | _ | n <;> rfl

theorem shown_settle (use : EntryUse) (path : String) (s : Scan) :
    use.settle path s.shown = (use.settle path s).shown := by
  cases use <;> rfl

/-- A question that is answered with yes, and one that is answered with no. -/
theorem checkpoint_cases (s : Scan) (path : String) :
    (∃ s', s.checkpoint path = (true, s') ∧ s'.checks = some 0) ∨
      ∃ checks, s.checkpoint path = (false, { s with checks }) ∧ s.checks ≠ some 0 := by
  obtain ⟨files, problems, log, checks, visited⟩ := s
  rcases checks with _ | _ | n
  · exact .inr ⟨none, rfl, by simp⟩
  · exact .inl ⟨_, rfl, rfl⟩
  · exact .inr ⟨some n, rfl, by simp⟩

variable {s s' : Scan} {visited : List (List String)}

/-- A directory at which the scan is told to stop is not entered. -/
theorem takes_of_stopped {path : String} (h : s.checkpoint path = (true, s'))
    (hstopped : s'.checks = some 0) (below : Tour) :
    s.Takes s' (.enter path below .done, visited) := by
  refine ⟨?_, fun hgoes => absurd hstopped hgoes⟩
  rw [Tour.run, shown_checkpoint, h]
  rfl

theorem takes_enter {path : String} {checks : Option Nat} {below : Trail}
    (h : s.checkpoint path = (false, { s with checks }))
    (hbelow : Takes { s with checks } s' below) :
    s.Takes s' (.enter path below.1 .done, below.2) := by
  refine ⟨?_, hbelow.visited⟩
  rw [Tour.run, shown_checkpoint, h]
  exact hbelow.run

end Scan

section Linked

variable (o : ScanOptions) (d : Disk) (checks : Option Nat)

theorem takes_scanEach {enter : String → Scan → Scan}
    {enterTour : String → List (List String) → Trail}
    (henter : ∀ (path : String) (s : Scan) (visited : List (List String)), s.Knows visited →
      s.Takes (enter path s) (enterTour path visited))
    (directory : String) (es : List (String × Node)) :
    ∀ (s : Scan) (visited : List (List String)), s.Knows visited →
      s.Takes (scanEach (o.told checks) d directory enter es s)
        (eachTour o d directory enterTour es visited) := by
  induction es with
  | nil => exact fun s visited hs => ⟨rfl, hs⟩
  | cons entry more ih =>
    obtain ⟨name, node⟩ := entry
    intro s visited hs
    have huse : (o.told checks).useOf d directory name node = o.useOf d directory name node := rfl
    rw [scanEach_cons, huse, eachTour]
    split
    · have hfirst := henter (Path.child directory name) s visited hs
      have hothers := ih _ _ hfirst.visited
      refine ⟨?_, hothers.visited⟩
      rw [Tour.run_andThen, hfirst.run, hothers.run]
    · next hsettled =>
      have hknows : ((o.useOf d directory name node).settle (Path.child directory name) s).Knows
          visited := by
        rw [Scan.Knows, EntryUse.checks_settle, EntryUse.visited_settle]
        exact hs
      have hothers := ih _ visited hknows
      refine ⟨?_, hothers.visited⟩
      rw [EntryUse.run_tour hsettled, Scan.shown_settle, hothers.run]

/-- A scan that has not been stopped knows what it has entered, and one that has been stopped
enters nothing more. -/
theorem takes_scanLinked (fuel : Nat) : ∀ (path : String) (s : Scan)
    (visited : List (List String)), s.Knows visited →
      s.Takes (scanLinked (o.told checks) d fuel path s) (linkedTour o d fuel path visited) := by
  induction fuel with
  | zero => exact fun path s visited hs => ⟨rfl, hs⟩
  | succ fuel ih =>
    intro path s visited hs
    rw [scanLinked, linkedTour]
    rcases s.checkpoint_cases path with ⟨s', hstop, hstopped⟩ | ⟨left, hgo, hgoes⟩
    · rw [hstop]
      exact Scan.takes_of_stopped hstop hstopped _
    · obtain rfl := hs hgoes
      rw [hgo]
      refine Scan.takes_enter hgo ?_
      rcases d.status path path with e | ⟨location, node⟩
      · exact ⟨rfl, fun _ => rfl⟩
      · cases node with
        | file bytes => exact ⟨rfl, fun _ => rfl⟩
        | link target => exact ⟨rfl, fun _ => rfl⟩
        | dir entries =>
          dsimp only
          split
          · exact ⟨rfl, fun _ => rfl⟩
          · have hentered : Scan.Knows { s with checks := left, visited := location :: s.visited }
                (location :: s.visited) := fun _ => rfl
            have hentries := takes_scanEach o d checks ih path entries _ _ hentered
            exact ⟨hentries.run, hentries.visited⟩

end Linked

/-! ## Whole scans -/

namespace ScanOptions

variable (o : ScanOptions) (d : Disk)

/-- The tour of a scan. -/
def tour : Tour :=
  let root := Path.tidy o.root
  match d.status root root with
  | .ok (_, .dir entries) =>
    if o.followLinks then (linkedTour o d (Entries.directories d.top + 2) root []).1
    else .enter root (entriesTour o d root entries) .done
  | .ok _ => .report root "not a directory" .done
  | .error e =>
    .report root (if Disk.meansAbsent e then "not a directory" else e.message) .done

/-- The files of a scan, in the order in which they are met. -/
def finds : List Find := (o.tour d).finds 0 0

/-- What has been collected when the question whether to stop is answered with yes for the first
time, after `n` times no. -/
def collected (n : Nat) : List String := ((o.tour d).halt { checks := some n }).2.files

/-- The scan returns what has been collected then, and that is where the list of a scan that is
never told to stop begins. -/
def StopsThere (n : Nat) : Prop :=
  (scan (o.told (some n)) d).files = o.collected d n ∧
    (scan (o.told (some n)) d).files <+: (scan (o.told none) d).files

/-- What comes of a scan that is told to stop after `n` questions. -/
structure CutOff (n : Nat) : Prop where
  /-- The tour is the same wherever the scan is told to stop. -/
  run : ∀ checks, (scan (o.told checks) d).files = ((o.tour d).run { checks }).files ∧
    (scan (o.told checks) d).problems = ((o.tour d).run { checks }).problems
  numbered : (o.finds d).Pairwise (fun f g => f.asked ≤ g.asked) ∧
    ∀ f ∈ o.finds d, f.directory ≤ f.asked
  whole : (scan (o.told none) d).files = (o.finds d).map (·.path)
  collected : o.collected d n = Tour.pathsOf (·.asked ≤ n) (o.finds d)
  returned : (scan (o.told (some n)) d).files = Tour.pathsOf (·.directory ≤ n) (o.finds d)
  begins : o.collected d n <+: (scan (o.told (some n)) d).files ∧
    o.collected d n <+: (scan (o.told none) d).files
  sublist : (scan (o.told (some n)) d).files.Sublist (scan (o.told none) d).files
  stopsThere_iff : o.StopsThere d n ↔ ∀ f ∈ o.finds d, f.directory ≤ n → f.asked ≤ n

end ScanOptions

section Whole

variable (o : ScanOptions) (d : Disk)

theorem run_tour (checks : Option Nat) :
    (scan (o.told checks) d).files = ((o.tour d).run { checks }).files ∧
      (scan (o.told checks) d).problems = ((o.tour d).run { checks }).problems := by
  have hroot : (o.told checks).root = o.root := rfl
  have hfollow : (o.told checks).followLinks = o.followLinks := rfl
  have hchecks : (o.told checks).cancelAfter = checks := rfl
  unfold scan ScanOptions.tour
  dsimp only
  rw [hroot]
  rcases d.status (Path.tidy o.root) (Path.tidy o.root) with e | ⟨location, node⟩
  · exact ⟨rfl, rfl⟩
  · cases node with
    | file bytes => exact ⟨rfl, rfl⟩
    | link target => exact ⟨rfl, rfl⟩
    | dir entries =>
      dsimp only
      rw [startScan, hfollow, hchecks]
      split
      · have hknows : Scan.Knows { checks } [] := fun _ => rfl
        have hrun := (takes_scanLinked o d checks (Entries.directories d.top + 2)
          (Path.tidy o.root) _ _ hknows).run
        have hfiles := congrArg Scan.files hrun.symm
        have hproblems := congrArg Scan.problems hrun.symm
        exact ⟨hfiles, hproblems⟩
      · rw [Tour.run]
        rcases Scan.checkpoint { checks } (Path.tidy o.root) with ⟨_ | _, s⟩
        · dsimp only
          rw [run_entriesTour o d checks, Tour.run]
          exact ⟨rfl, rfl⟩
        · exact ⟨rfl, rfl⟩

namespace ScanOptions

theorem files_untold : (scan (o.told none) d).files = (o.finds d).map (·.path) := by
  obtain ⟨hfiles, _⟩ := Tour.run_untold (o.tour d) { checks := none } 0 0 rfl
  exact ((run_tour o d none).1.trans hfiles).trans (List.nil_append _)

theorem files_told (n : Nat) :
    (scan (o.told (some n)) d).files = Tour.pathsOf (·.directory ≤ n) (o.finds d) := by
  obtain ⟨hfiles, _⟩ := Tour.run_told (o.tour d) n { checks := some n } 0 0 (Nat.zero_le n) rfl
  exact ((run_tour o d (some n)).1.trans hfiles).trans (List.nil_append _)

theorem collected_eq (n : Nat) :
    o.collected d n = Tour.pathsOf (·.asked ≤ n) (o.finds d) := by
  have hhalts := Tour.halt_told (o.tour d) n { checks := some n } 0 0 (Nat.zero_le n) rfl
  exact hhalts.files.trans (List.nil_append _)

theorem collected_early (n : Nat) : o.collected d n =
    Tour.pathsOf (·.asked ≤ n) ((o.finds d).filter (·.directory ≤ n)) := by
  rw [collected_eq, Tour.pathsOf, Tour.pathsOf, List.filter_filter]
  refine congrArg (List.map Find.path) (List.filter_congr fun f hf => ?_)
  have hle : f.directory ≤ f.asked := (o.tour d).directory_le_asked (Nat.le_refl 0) hf
  rw [Bool.eq_iff_iff, Bool.and_eq_true, decide_eq_true_eq, decide_eq_true_eq]
  omega

/-- What had been collected when the scan was told to stop comes first, and all that is returned
comes in the order of a scan that is not told. -/
theorem cutOff (n : Nat) : o.CutOff d n := by
  have hordered : (o.finds d).Pairwise fun f g => f.asked ≤ g.asked :=
    (o.tour d).pairwise_finds 0 0
  have hnumbers : ∀ f ∈ o.finds d, f.directory ≤ f.asked := fun f hf =>
    (o.tour d).directory_le_asked (Nat.le_refl 0) hf
  have hbegins : o.collected d n <+: (scan (o.told (some n)) d).files := by
    rw [collected_early, files_told]
    exact Tour.pathsOf_prefix n (hordered.filter _)
  have hfront : o.collected d n <+: (scan (o.told none) d).files := by
    rw [collected_eq, files_untold]
    exact Tour.pathsOf_prefix n hordered
  refine ⟨run_tour o d, ⟨hordered, hnumbers⟩, files_untold o d, collected_eq o d n,
    files_told o d n, ⟨hbegins, hfront⟩, ?_, ?_⟩
  · rw [files_told, files_untold]
    exact List.filter_sublist.map _
  · constructor
    · rintro ⟨heq, _⟩ f hf hdirectory
      rw [collected_early, files_told] at heq
      have hlength := congrArg List.length heq
      simp only [Tour.pathsOf, List.length_map] at hlength
      rw [eq_comm, List.length_filter_eq_length_iff] at hlength
      exact of_decide_eq_true (hlength f (List.mem_filter.mpr ⟨hf, decide_eq_true hdirectory⟩))
    · intro h
      have heq : (scan (o.told (some n)) d).files = o.collected d n := by
        rw [collected_eq, files_told, Tour.pathsOf, Tour.pathsOf]
        refine congrArg (List.map Find.path) (List.filter_congr fun f hf => ?_)
        exact decide_eq_decide.mpr ⟨h f hf, fun hle => Nat.le_trans (hnumbers f hf) hle⟩
      refine ⟨heq, ?_⟩
      rw [heq]
      exact hfront

end ScanOptions

end Whole

/-! ## A scan that does not stop -/

namespace Sample

def clearing : Entries :=
  [("a.ts", .file ⟨#[]⟩), ("lib", .dir [("x.ts", .file ⟨#[]⟩)]), ("z.ts", .file ⟨#[]⟩)]

def clearingDisk : Disk := { top := [("src", .dir clearing)] }

def clearingScan : ScanOptions := { root := "src", extensions := [".ts"], ignore := [] }

end Sample

/-- The scan is told to stop at the second directory and then goes on in the first one. -/
theorem not_stopsThere :
    (scan (Sample.clearingScan.told none) Sample.clearingDisk).files =
        ["src/a.ts", "src/lib/x.ts", "src/z.ts"] ∧
      Sample.clearingScan.collected Sample.clearingDisk 1 = ["src/a.ts"] ∧
      (scan (Sample.clearingScan.told (some 1)) Sample.clearingDisk).files =
        ["src/a.ts", "src/z.ts"] ∧
      ¬ (scan (Sample.clearingScan.told (some 1)) Sample.clearingDisk).files <+:
        (scan (Sample.clearingScan.told none) Sample.clearingDisk).files ∧
      ¬ Sample.clearingScan.StopsThere Sample.clearingDisk 1 := by
  have hnone : (scan (Sample.clearingScan.told none) Sample.clearingDisk).files =
      ["src/a.ts", "src/lib/x.ts", "src/z.ts"] := by decide
  have hone : (scan (Sample.clearingScan.told (some 1)) Sample.clearingDisk).files =
      ["src/a.ts", "src/z.ts"] := by decide
  have hcollected : Sample.clearingScan.collected Sample.clearingDisk 1 = ["src/a.ts"] := by decide
  have hprefix : ¬ (["src/a.ts", "src/z.ts"] : List String) <+:
      ["src/a.ts", "src/lib/x.ts", "src/z.ts"] := by decide
  refine ⟨hnone, hcollected, hone, ?_, fun h => ?_⟩
  · rw [hone, hnone]
    exact hprefix
  · rw [ScanOptions.StopsThere, hone, hnone] at h
    exact hprefix h.2

end ChangeImpact
