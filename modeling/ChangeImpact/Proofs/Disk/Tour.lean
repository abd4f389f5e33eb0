import ChangeImpact.Disk.Scan

/-!
# Proofs.Disk.Tour

What a scan does, one thing after another, whether or not it is told to stop on the way.

* `Tour`               — the files and problems that are met, and the directories with the tour
  below each.
* `Tour.run`           — going on behind a directory that is not entered.
* `Tour.halt`          — going no further than the first such directory.
* `Find`, `Tour.finds` — the files, with the numbers of the questions whether to stop.
* `Tour.run_told`, `Tour.halt_told` — the files of either way, told to stop after some questions.
-/

namespace ChangeImpact

/-- Before a directory is entered comes the question whether to stop. -/
inductive Tour where
  | done
  | take (path : String) (rest : Tour)
  | report (path cause : String) (rest : Tour)
  | enter (path : String) (below rest : Tour)

namespace Tour

def run : Tour → Scan → Scan
  | done, s => s
  | take path rest, s => run rest (s.addFile path)
  | report path cause rest, s => run rest (s.addProblem path cause)
  | enter path below rest, s =>
    match s.checkpoint path with
    | (true, s) => run rest s
    | (false, s) => run rest (run below s)

/-- Also tells whether the tour has been stopped. -/
def halt : Tour → Scan → Bool × Scan
  | done, s => (false, s)
  | take path rest, s => halt rest (s.addFile path)
  | report path cause rest, s => halt rest (s.addProblem path cause)
  | enter path below rest, s =>
    match s.checkpoint path with
    | (true, s) => (true, s)
    | (false, s) =>
      match halt below s with
      | (true, s) => (true, s)
      | (false, s) => halt rest s

def andThen : Tour → Tour → Tour
  | done, more => more
  | take path rest, more => take path (andThen rest more)
  | report path cause rest, more => report path cause (andThen rest more)
  | enter path below rest, more => enter path below (andThen rest more)

theorem run_andThen (t more : Tour) (s : Scan) : (t.andThen more).run s = more.run (t.run s) := by
  induction t generalizing s with
  | done => rfl
  | take path rest ih => exact ih _
  | report path cause rest ih => exact ih _
  | enter path below rest _ ih =>
    rw [andThen, run, run]
    split <;> exact ih _

/-- How often the question is asked where it is always answered with no. -/
def asks : Tour → Nat
  | done => 0
  | take _ rest => rest.asks
  | report _ _ rest => rest.asks
  | enter _ below rest => below.asks + 1 + rest.asks

theorem add_asks_enter (asked : Nat) (path : String) (below rest : Tour) :
    asked + (enter path below rest).asks = asked + 1 + below.asks + rest.asks := by
  rw [asks]
  omega

end Tour

/-- A file that is met. The question whether to stop is asked once for each directory, which gives
the directories numbers from one on. -/
structure Find where
  path : String
  /-- The number of the directory of the file. -/
  directory : Nat
  /-- How many questions have been asked when the file is met. -/
  asked : Nat
  deriving DecidableEq, Repr

namespace Tour

/-- The files of a tour in the directory with the number `here`, after `asked` questions. -/
def finds (here asked : Nat) : Tour → List Find
  | done => []
  | take path rest => ⟨path, here, asked⟩ :: finds here asked rest
  | report _ _ rest => finds here asked rest
  | enter _ below rest =>
    finds (asked + 1) (asked + 1) below ++ finds here (asked + 1 + below.asks) rest

/-! ## Numbers -/

section Numbers

variable {f : Find}

theorem asked_bounds (t : Tour) : ∀ {here asked : Nat}, f ∈ t.finds here asked →
    asked ≤ f.asked ∧ f.asked ≤ asked + t.asks := by
  induction t with
  | done => exact fun h => absurd h List.not_mem_nil
  | take path rest ih =>
    intro here asked h
    rcases List.mem_cons.mp h with rfl | h
    · exact ⟨Nat.le_refl _, Nat.le_add_right _ _⟩
    · exact ih h
  | report path cause rest ih => exact fun h => ih h
  | enter path below rest ihbelow ihrest =>
    intro here asked h
    rw [add_asks_enter]
    rcases List.mem_append.mp h with h | h
    · have hbounds := ihbelow h
      omega
    · have hbounds := ihrest h
      omega

/-- A file is in the directory where the tour starts or in a later one. -/
theorem directory_cases (t : Tour) : ∀ {here asked : Nat}, f ∈ t.finds here asked →
    f.directory = here ∨ asked < f.directory := by
  induction t with
  | done => exact fun h => absurd h List.not_mem_nil
  | take path rest ih =>
    intro here asked h
    rcases List.mem_cons.mp h with rfl | h
    · exact .inl rfl
    · exact ih h
  | report path cause rest ih => exact fun h => ih h
  | enter path below rest ihbelow ihrest =>
    intro here asked h
    rcases List.mem_append.mp h with h | h
    · have hcases := ihbelow h
      omega
    · have hcases := ihrest h
      omega

theorem directory_le_asked (t : Tour) : ∀ {here asked : Nat}, here ≤ asked →
    f ∈ t.finds here asked → f.directory ≤ f.asked := by
  induction t with
  | done => exact fun _ h => absurd h List.not_mem_nil
  | take path rest ih =>
    intro here asked hle h
    rcases List.mem_cons.mp h with rfl | h
    · exact hle
    · exact ih hle h
  | report path cause rest ih => exact fun hle h => ih hle h
  | enter path below rest ihbelow ihrest =>
    intro here asked hle h
    rcases List.mem_append.mp h with h | h
    · exact ihbelow (Nat.le_refl _) h
    · exact ihrest (by omega) h

theorem pairwise_finds (t : Tour) : ∀ here asked : Nat,
    (t.finds here asked).Pairwise fun f g => f.asked ≤ g.asked := by
  induction t with
  | done => exact fun _ _ => .nil
  | take path rest ih =>
    exact fun here asked => .cons (fun f hf => (rest.asked_bounds hf).1) (ih here asked)
  | report path cause rest ih => exact ih
  | enter path below rest ihbelow ihrest =>
    intro here asked
    refine List.pairwise_append.mpr ⟨ihbelow _ _, ihrest _ _, fun f hf g hg => ?_⟩
    exact Nat.le_trans (below.asked_bounds hf).2 (rest.asked_bounds hg).1

end Numbers

/-! ## Files -/

section Files

/-- The paths of the files of which something is true. -/
def pathsOf (p : Find → Prop) [DecidablePred p] (found : List Find) : List String :=
  (found.filter p).map (·.path)

variable {p : Find → Prop} [DecidablePred p] {found more : List Find}

theorem pathsOf_append : pathsOf p (found ++ more) = pathsOf p found ++ pathsOf p more := by
  rw [pathsOf, List.filter_append, List.map_append]
  rfl

theorem pathsOf_eq_nil (h : ∀ f ∈ found, ¬ p f) : pathsOf p found = [] := by
  rw [pathsOf, List.filter_eq_nil_iff.mpr (by simpa using h)]
  rfl

theorem pathsOf_cons {f : Find} :
    pathsOf p (f :: found) = (if p f then [f.path] else []) ++ pathsOf p found := by
  by_cases hf : p f <;> simp [pathsOf, hf]

/-- Of files in the order in which they are met, those before some question are the first ones. -/
theorem pathsOf_prefix (n : Nat) (h : found.Pairwise fun f g => f.asked ≤ g.asked) :
    pathsOf (·.asked ≤ n) found <+: found.map (·.path) := by
  induction h with
  | nil => exact List.prefix_rfl
  | @cons f rest hlater _ ih =>
    rw [pathsOf_cons, List.map_cons]
    split
    · exact (List.prefix_cons_inj f.path).mpr ih
    · have hnone : pathsOf (·.asked ≤ n) rest = [] := by
        refine pathsOf_eq_nil fun g hg => ?_
        have hle := hlater g hg
        omega
      rw [hnone]
      exact List.nil_prefix

theorem run_untold (t : Tour) : ∀ (s : Scan) (here asked : Nat), s.checks = none →
    (t.run s).files = s.files ++ (t.finds here asked).map (·.path) ∧ (t.run s).checks = none := by
  induction t with
  | done => exact fun s _ _ hs => ⟨by rw [finds, List.map_nil, List.append_nil, run], hs⟩
  | take path rest ih =>
    intro s here asked hs
    obtain ⟨hfiles, hchecks⟩ := ih (s.addFile path) here asked hs
    refine ⟨?_, hchecks⟩
    rw [run, hfiles, finds, List.map_cons, Scan.addFile, List.append_assoc, List.singleton_append]
  | report path cause rest ih => exact fun s here asked hs => ih _ here asked hs
  | enter path below rest ihbelow ihrest =>
    intro s here asked hs
    have hgo : s.checkpoint path = (false, s) := by rw [Scan.checkpoint, hs]
    obtain ⟨hbelow, hs'⟩ := ihbelow s (asked + 1) (asked + 1) hs
    obtain ⟨hrest, hchecks⟩ := ihrest (below.run s) here (asked + 1 + below.asks) hs'
    rw [run, hgo]
    refine ⟨?_, hchecks⟩
    rw [hrest, hbelow, finds, List.map_append, List.append_assoc]

theorem checkpoint_of_lt {s : Scan} {n asked : Nat} (hs : s.checks = some (n - asked))
    (hlt : asked < n) (path : String) :
    s.checkpoint path = (false, { s with checks := some (n - (asked + 1)) }) := by
  obtain ⟨k, hk⟩ : ∃ k, n - asked = k + 1 := ⟨n - asked - 1, by omega⟩
  have hk' : n - (asked + 1) = k := by omega
  rw [Scan.checkpoint, hs, hk, hk']

/-- What is not entered leaves nothing but a line in the log. -/
theorem checkpoint_of_le {s : Scan} {n asked : Nat} (hs : s.checks = some (n - asked))
    (hle : n ≤ asked) (path : String) :
    ∃ s', s.checkpoint path = (true, s') ∧ s'.files = s.files ∧ s'.checks = some 0 := by
  rw [Nat.sub_eq_zero_of_le hle] at hs
  rw [Scan.checkpoint, hs]
  exact ⟨_, rfl, rfl, rfl⟩

/-- No file that is met after more questions counts. -/
theorem pathsOf_later (t : Tour) {n here asked : Nat} (h : n < asked) :
    pathsOf (·.asked ≤ n) (t.finds here asked) = [] := by
  refine pathsOf_eq_nil fun f hf => ?_
  have hbounds := t.asked_bounds hf
  omega

/-- No file below a later directory counts. -/
theorem pathsOf_below (t : Tour) {n asked : Nat} (h : n ≤ asked) :
    pathsOf (·.directory ≤ n) (t.finds (asked + 1) (asked + 1)) = [] := by
  refine pathsOf_eq_nil fun f hf => ?_
  have hcases := t.directory_cases hf
  omega

/-- After `n` times no, the files of the first `n` directories are taken, all of them. -/
theorem run_told (t : Tour) (n : Nat) : ∀ (s : Scan) (here asked : Nat), here ≤ n →
    s.checks = some (n - asked) →
      (t.run s).files = s.files ++ pathsOf (·.directory ≤ n) (t.finds here asked) ∧
        (t.run s).checks = some (n - (asked + t.asks)) := by
  induction t with
  | done => exact fun s _ _ _ hs => ⟨by simp [run, finds, pathsOf], hs⟩
  | take path rest ih =>
    intro s here asked hhere hs
    obtain ⟨hfiles, hchecks⟩ := ih (s.addFile path) here asked hhere hs
    refine ⟨?_, hchecks⟩
    rw [run, hfiles, finds, pathsOf_cons, if_pos hhere, Scan.addFile, List.append_assoc]
  | report path cause rest ih => exact fun s here asked hhere hs => ih _ here asked hhere hs
  | enter path below rest ihbelow ihrest =>
    intro s here asked hhere hs
    rw [run, finds, pathsOf_append, add_asks_enter]
    by_cases hlt : asked < n
    · obtain ⟨hbelow, hs'⟩ := ihbelow { s with checks := some (n - (asked + 1)) } (asked + 1)
        (asked + 1) hlt rfl
      obtain ⟨hrest, hchecks⟩ := ihrest _ here (asked + 1 + below.asks) hhere hs'
      rw [checkpoint_of_lt hs hlt]
      refine ⟨?_, hchecks⟩
      rw [hrest, hbelow, List.append_assoc]
    · have hle := Nat.le_of_not_lt hlt
      obtain ⟨s', hstop, hfiles, hzero⟩ := checkpoint_of_le hs hle path
      have hs' : s'.checks = some (n - (asked + 1 + below.asks)) := by
        rw [hzero, Nat.sub_eq_zero_of_le (by omega)]
      obtain ⟨hrest, hchecks⟩ := ihrest s' here (asked + 1 + below.asks) hhere hs'
      rw [hstop]
      refine ⟨?_, hchecks⟩
      rw [hrest, hfiles, pathsOf_below below hle, List.nil_append]

/-- What a tour comes to that goes no further after `n` times no: it takes the files that are met
before the next question, and it is stopped if there is one. -/
structure Halts (t : Tour) (n here asked : Nat) (s : Scan) (result : Bool × Scan) : Prop where
  files : result.2.files = s.files ++ pathsOf (·.asked ≤ n) (t.finds here asked)
  goes : result.1 = false →
    asked + t.asks ≤ n ∧ result.2.checks = some (n - (asked + t.asks))
  stops : result.1 = true → n < asked + t.asks

theorem halt_told (t : Tour) (n : Nat) : ∀ (s : Scan) (here asked : Nat), asked ≤ n →
    s.checks = some (n - asked) → t.Halts n here asked s (t.halt s) := by
  induction t with
  | done =>
    intro s here asked hle hs
    exact ⟨by simp [halt, finds, pathsOf], fun _ => ⟨hle, hs⟩, fun h => nomatch h⟩
  | take path rest ih =>
    intro s here asked hle hs
    have hhalts := ih (s.addFile path) here asked hle hs
    refine ⟨?_, hhalts.goes, hhalts.stops⟩
    rw [halt, hhalts.files, finds, pathsOf_cons, if_pos hle, Scan.addFile, List.append_assoc]
  | report path cause rest ih =>
    intro s here asked hle hs
    have hhalts := ih (s.addProblem path cause) here asked hle hs
    exact ⟨hhalts.files, hhalts.goes, hhalts.stops⟩
  | enter path below rest ihbelow ihrest =>
    intro s here asked hle hs
    have hasks := add_asks_enter asked path below rest
    rw [halt]
    by_cases hlt : asked < n
    · rw [checkpoint_of_lt hs hlt]
      have hbelow := ihbelow { s with checks := some (n - (asked + 1)) } (asked + 1) (asked + 1)
        hlt rfl
      rcases hhalt : below.halt { s with checks := some (n - (asked + 1)) } with ⟨_ | _, s'⟩
      · rw [hhalt] at hbelow
        obtain ⟨hless, hs'⟩ := hbelow.goes rfl
        have hrest := ihrest s' here (asked + 1 + below.asks) hless hs'
        simp only [hhalt]
        refine ⟨?_, hasks ▸ hrest.goes, hasks ▸ hrest.stops⟩
        rw [hrest.files, hbelow.files, finds, pathsOf_append, List.append_assoc]
      · rw [hhalt] at hbelow
        have hmore := hbelow.stops rfl
        simp only [hhalt]
        refine ⟨?_, fun h => (nomatch h), fun _ => by omega⟩
        rw [hbelow.files, finds, pathsOf_append, pathsOf_later rest hmore, List.append_nil]
    · obtain ⟨s', hstop, hfiles, _⟩ := checkpoint_of_le hs (Nat.le_of_not_lt hlt) path
      rw [hstop]
      refine ⟨?_, fun h => (nomatch h), fun _ => by omega⟩
      rw [hfiles, finds, pathsOf_append, pathsOf_later below (by omega),
        pathsOf_later rest (by omega), List.append_nil, List.append_nil]

end Files

end Tour

end ChangeImpact
