import ChangeImpact.Proofs.CommandLine.Actions
import ChangeImpact.Proofs.Plan.Atomicity

/-!
# Proofs.CommandLine.Histories

Command lines on plans, one after another.

* `Turn`, `Console.after` — command lines, and changes of files that come from elsewhere.
* `Console.Undisturbed`   — the commands are those on plans, and nothing else touches their files.
* `Console.planFile`      — the file of an id.
* `Console.Has`           — the plans that the program finds once it opens their directory.
* `Action.KeepsPlans`     — there are such plans again after an action; `keepsPlans_createPlan`
  and the others say so for each command.
-/

namespace ChangeImpact

namespace CommandLine

/-! ## Histories -/

/-- The commands on plans, and help on them. -/
def Command.isOnPlans : Command → Bool
  | .help => true
  | .createPlan .. => true
  | .showPlan .. => true
  | .listPlans .. => true
  | .executePlan .. => true
  | .deletePlan .. => true
  | .rollbackPlan .. => true
  | _ => false

inductive Turn where
  | run (s : Surroundings) (words : List String)
  /-- Something else changes files. -/
  | change (change : Disk → Disk)

namespace Console

/-- The storage that every command on plans opens first. -/
def opened (c : Console) : Except Failure Storage :=
  Storage.openFolder c.disk c.locations.plans

/-- The directory of the plans, made where it is missing, has no entries. -/
def HasNoPlans (c : Console) : Prop := ∀ s, c.opened = .ok s → s.IsEmpty

/-- The plan is stored under an id. -/
def Finds (c : Console) (id : String) (p : Plan) : Prop :=
  ∃ s, c.opened = .ok s ∧ (s.get id).1 = .ok (some p)

/-- The file of an id in the directory of the plans. -/
def planFile (c : Console) (id : String) : Option Node := do
  let s ← c.opened.toOption
  let es ← (Storage.entriesAt s.disk c.locations.plans).toOption
  es.find? (Storage.fileName id)

def withDisk (c : Console) (change : Disk → Disk) : Console := { c with disk := change c.disk }

/-- The directory of the plans is found as it was. -/
def SparedBy (c : Console) (change : Disk → Disk) : Prop :=
  ∀ s', (c.withDisk change).opened = .ok s' → ∃ s, c.opened = .ok s ∧
    (s'.disk.status c.locations.plans c.locations.plans).map (·.2) =
      (s.disk.status c.locations.plans c.locations.plans).map (·.2)

def after (c : Console) : List Turn → Console
  | [] => c
  | .run s words :: rest => after (CommandLine.run s words c).2 rest
  | .change change :: rest => after (c.withDisk change) rest

def Undisturbed (c : Console) : List Turn → Prop
  | [] => True
  | .run s words :: rest =>
    (∀ r, Request.parse? words = some r → r.command.isOnPlans = true) ∧
      Undisturbed (CommandLine.run s words c).2 rest
  | .change change :: rest => c.SparedBy change ∧ Undisturbed (c.withDisk change) rest

end Console

/-! ## Plans that are kept -/

namespace Console

variable {c c' : Console} {plans : Keyed Plan} {id : String}

/-- Once it is opened, the storage holds the plans. -/
def Has (c : Console) (plans : Keyed Plan) : Prop := ∀ s, c.opened = .ok s → s.Holds plans

theorem has_of_hasNoPlans (h : c.HasNoPlans) : c.Has .empty :=
  fun s hs => Storage.holds_empty (h s hs)

theorem opened_congr (hdisk : c'.disk = c.disk) (hlocations : c'.locations = c.locations) :
    c'.opened = c.opened := by
  rw [opened, opened, hdisk, hlocations]

theorem Has.congr (h : c.Has plans) (hdisk : c'.disk = c.disk)
    (hlocations : c'.locations = c.locations) : c'.Has plans := by
  rw [Has, opened_congr hdisk hlocations]
  exact h

theorem Has.of_shows (h : c.Has plans) (hshows : c.Shows c') : c'.Has plans :=
  h.congr hshows.disk hshows.locations

theorem directory?_of_opened {s : Storage} (h : c.opened = .ok s) :
    s.directory? = some c.locations.plans := by
  rw [opened, Storage.openFolder] at h
  split at h
  · cases h
    rfl
  · cases h

/-- A storage of one place differs from another one in its disk only. -/
theorem eq_of_place {s s' : Storage} {directory : String} {d : Disk}
    (h : s.directory? = some directory) (h' : s'.directory? = some directory)
    (hdisk : d = s'.disk) : ({ s with disk := d } : Storage) = s' := by
  obtain ⟨_, store⟩ := s
  obtain ⟨_, store'⟩ := s'
  subst hdisk
  cases store with
  | memory plans => cases h
  | folder =>
    cases store' with
    | memory plans => cases h'
    | folder =>
      cases h
      cases h'
      rfl

/-- What has been opened is opened again. -/
theorem opened_of_holds {s : Storage} (h : s.Holds plans)
    (hplace : s.directory? = some c.locations.plans) (hdisk : c.disk = s.disk) :
    c.opened = .ok s := by
  rw [opened, hdisk]
  exact h.openFolder hplace

theorem has_of_holds {s : Storage} (h : s.Holds plans)
    (hplace : s.directory? = some c.locations.plans) (hdisk : c.disk = s.disk) :
    c.Has plans := by
  intro s' hs'
  rw [opened_of_holds h hplace hdisk, Except.ok.injEq] at hs'
  exact hs' ▸ h

/-- The file of an id is that of the plan under it. -/
theorem planFile_eq (h : c.Has plans) {s : Storage} (hs : c.opened = .ok s) (id : String) :
    c.planFile id = (plans.get? id).map fun p => .file (Storage.textOfPlan p).toUTF8 := by
  have hplace := directory?_of_opened hs
  rcases (h s hs).kept with hstore | ⟨directory, es, hstore, hfolder, hfiles⟩
  · simp [Storage.directory?, hstore] at hplace
  · obtain rfl : directory = c.locations.plans := by simpa [Storage.directory?, hstore] using hplace
    obtain ⟨location, hstatus⟩ := hfolder.status
    have hfind : c.planFile id = es.find? (Storage.fileName id) := by
      simp [planFile, hs, Storage.entriesAt, hstatus, Except.toOption]
    rw [hfind]
    cases hp : plans.get? id with
    | none => exact hfiles.find?_eq_none hp
    | some p => exact hfiles.file hp

theorem Has.spared (h : c.Has plans) {change : Disk → Disk} (hchange : c.SparedBy change) :
    (c.withDisk change).Has plans := by
  intro s' hs'
  obtain ⟨s, hs, hstatus⟩ := hchange s' hs'
  have hplace := directory?_of_opened hs
  have hplace' : s'.directory? = some c.locations.plans :=
    directory?_of_opened (c := c.withDisk change) hs'
  have hspared : s.SparedBy fun _ => s'.disk := by
    intro directory hdirectory
    obtain rfl : directory = c.locations.plans := by
      rw [hplace, Option.some.injEq] at hdirectory
      exact hdirectory.symm
    exact hstatus
  have hholds := (h s hs).spared hspared
  rwa [eq_of_place hplace hplace' rfl] at hholds

end Console

open ChangeImpact.CommandLine.Action ChangeImpact.CommandLine.Console

/-- From a console that has plans the action leads to one that has plans. -/
def Action.KeepsPlans {α : Type} (a : Action α) : Prop :=
  ∀ c plans, Console.Has c plans → ∃ plans', (a.on c).2.Has plans'

section Keeping

variable {α β : Type}

theorem keepsPlans_of_isQuiet {a : Action α} (h : a.IsQuiet) : a.KeepsPlans :=
  fun c plans hplans => ⟨plans, hplans.of_shows (h c)⟩

/-- A command opens the storage first; what it does then starts from the plans that are held. -/
theorem keepsPlans_openPlanner (root : Option String) {f : Planner → Action β}
    (hf : ∀ pl c plans, pl.storage.Holds plans → Console.opened c = .ok pl.storage →
      c.disk = pl.storage.disk → ∃ plans', ((f pl).on c).2.Has plans') :
    (openPlanner root >>= f).KeepsPlans := by
  intro c plans hplans
  rcases openPlanner_cases root c with ⟨e, c', herror, hshows⟩ |
    ⟨pl, c', hok, hopen, hdisk, hlocations, _⟩
  · rw [on_bind_error herror]
    exact ⟨plans, hplans.of_shows hshows⟩
  · have hholds := hplans pl.storage hopen
    have hplace := directory?_of_opened hopen
    rw [on_bind_ok hok]
    exact hf pl c' plans hholds (opened_of_holds hholds (hlocations ▸ hplace) hdisk) hdisk

theorem keepsPlans_openPlanner_quiet (root : Option String) {f : Planner → Action β}
    (hf : ∀ pl, (f pl).IsQuiet) : (openPlanner root >>= f).KeepsPlans := by
  refine keepsPlans_openPlanner root fun pl c plans hholds hopen hdisk => ?_
  exact keepsPlans_of_isQuiet (hf pl) c plans
    (has_of_holds hholds (directory?_of_opened hopen) hdisk)

/-- An operation of the planner, and what is shown of it. -/
theorem keepsPlans_settled (root : Option String) (r : ChangeImpact.Request)
    {operation : Planner → Outcome α} {f : Planner → Except Failure α → Action β}
    (hr : ∀ change settings root, r ≠ .surroundings change settings root)
    (hoperation : ∀ pl, (operation pl).planner = (pl.handle r).planner)
    (hf : ∀ pl result, (f pl result).IsQuiet) :
    (openPlanner root >>= fun pl => settled (operation pl) >>= f pl).KeepsPlans := by
  refine keepsPlans_openPlanner root fun pl c plans hholds hopen hdisk => ?_
  obtain ⟨_, after, hfollows, _⟩ := Planner.handle_follows hholds r
    fun change settings root he => absurd he (hr change settings root)
  have hplace := Planner.directory?_handle pl r
  rw [directory?_of_opened hopen] at hplace
  rw [on_bind_ok (on_settled (operation pl) c), hoperation pl]
  exact keepsPlans_of_isQuiet (hf pl _) _ after (has_of_holds hfollows.holds hplace rfl)

end Keeping

/-! ## Commands -/

theorem keepsPlans_createPlan (c : Circumstances) (path changeType description : String)
    (root : Option String) (asJson : Bool) :
    (createPlan c path changeType description root asJson).KeepsPlans := by
  rw [createPlan]
  dsimp only
  split
  · refine keepsPlans_settled _ (.create c (Path.tidy path) changeType description)
      (fun _ _ _ he => nomatch he) (fun _ => rfl) fun pl result => ?_
    refine isQuiet_bind (isQuiet_orTell _) fun p => ?_
    split
    · exact isQuiet_echo _
    · refine isQuiet_bind (isQuiet_displayPlan p) fun _ => ?_
      split
      · exact isQuiet_bind (isQuiet_print _) fun _ => isQuiet_print _
      · exact isQuiet_print _
  · exact keepsPlans_of_isQuiet (isQuiet_throw _)

theorem isQuiet_demandPlan (pl : Planner) (id : String) : (demandPlan pl id).IsQuiet := by
  refine isQuiet_bind (isQuiet_attempt _) fun found => ?_
  cases found with
  | none => exact isQuiet_bind (isQuiet_print _) fun _ => isQuiet_throw _
  | some p => exact isQuiet_pure p

theorem keepsPlans_showPlan (id : String) (asJson : Bool) : (showPlan id asJson).KeepsPlans := by
  refine keepsPlans_openPlanner_quiet none fun pl => ?_
  refine isQuiet_bind (isQuiet_demandPlan pl id) fun p => ?_
  split
  · exact isQuiet_echo _
  · exact isQuiet_displayPlan p

theorem keepsPlans_listPlans (asJson : Bool) : (listPlans asJson).KeepsPlans := by
  refine keepsPlans_openPlanner_quiet none fun pl => ?_
  refine isQuiet_bind (isQuiet_attempt _) fun plans => ?_
  refine isQuiet_bind (isQuiet_attempt _) fun counts => ?_
  split
  · exact isQuiet_echo _
  · split
    · exact isQuiet_print _
    · refine isQuiet_bind (isQuiet_demand _) fun rows => ?_
      exact isQuiet_bind (isQuiet_emit rfl) fun _ => isQuiet_print _

theorem keepsPlans_deletePlan (id : String) : (deletePlan id).KeepsPlans := by
  refine keepsPlans_settled none (.delete id) (fun _ _ _ he => nomatch he) (fun _ => rfl)
    fun pl result => ?_
  exact isQuiet_bind (isQuiet_orTell _) fun _ => isQuiet_echo _

theorem keepsPlans_rollbackPlan (c : Circumstances) (id : String) :
    (rollbackPlan c id).KeepsPlans := by
  refine keepsPlans_settled none (.rollBack .reporting c.now id) (fun _ _ _ he => nomatch he)
    (fun _ => rfl) fun pl result => ?_
  refine isQuiet_bind (isQuiet_orTell _) fun r => ?_
  refine isQuiet_bind (isQuiet_print _) fun _ => ?_
  split
  · exact isQuiet_pure ()
  · exact isQuiet_throw _

end CommandLine

end ChangeImpact
