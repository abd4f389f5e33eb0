import ChangeImpact.Proofs.Plan.Operations
import ChangeImpact.Proofs.Plan.Session

/-!
# Proofs.Plan.Refinement

Plans in memory and plans in files: the same session comes to the same.

* `Answer.Agrees`, `Outcome.Agrees` — the same answer; lists may order plans of one time
  differently.
* `Planner.SameProject` — both planners find the same whenever a plan is created.
* `Planner.Mirrors`     — the two storages hold the same plans.
* `Planner.Refines`, `Planner.refines` — whole sessions, also when the program starts afresh on
  the directory in between.
* `Planner.not_refines_mingled` — plan files that are sources themselves tell the planners apart.
-/

namespace ChangeImpact

/-- The ids that are asked for, and those that are made, can be names of files. -/
def Request.Proper : Request → Prop
  | .create c .. => c.millis.natAbs < 10 ^ 15 ∧ ∀ n, PlanId.IsHex (c.token n)
  | .execute _ _ id | .executeAll _ _ id | .rollBack _ _ id | .delete id | .get id =>
    id.length ≤ 200
  | _ => True

/-- The same plans, in the same order if their times tell them apart. -/
def SamePlans (ps qs : List Plan) : Prop :=
  ps.Perm qs ∧ ((ps.map (·.createdAt)).Nodup → ps = qs)

def Answer.Agrees : Answer → Answer → Prop
  | .plans ps, .plans qs => SamePlans ps qs
  | a, b => a = b

structure Outcome.Agrees (o o' : Outcome Answer) : Prop where
  result : match o.result, o'.result with
    | .ok a, .ok b => a.Agrees b
    | .error e, .error e' => e = e'
    | _, _ => False
  calls : o.calls = o'.calls

theorem Answer.Agrees.refl (a : Answer) : a.Agrees a := by
  cases a with
  | plans ps => exact ⟨.refl ps, fun _ => rfl⟩
  | _ => rfl

theorem Outcome.Agrees.isOk_eq {o o' : Outcome Answer} (h : o.Agrees o') :
    o.result.isOk = o'.result.isOk := by
  have hresult := h.result
  revert hresult
  cases o.result <;> cases o'.result <;> simp [Except.isOk, Except.toBool]

theorem Outcome.agrees_of_eq {o o' : Outcome Answer} (h : o.result = o'.result)
    (hcalls : o.calls = o'.calls) : o.Agrees o' := by
  refine ⟨?_, hcalls⟩
  rw [← h]
  cases o.result with
  | error e => rfl
  | ok a => exact .refl a

/-! ## What is analyzed -/

namespace Project

/-- The texts that an analysis is made of. -/
def sources (s : ScanSettings) (d : Disk) (root : Option String) : Except Failure (Keyed String) :=
  (readSources d (scan (scanOptions s root none) d).files).1

theorem isSome_get?_graphOf {extensions : List String} {found : Keyed String} {path : String} :
    ((graphOf extensions .textual found).1.files.get? path).isSome = found.contains path := by
  simp only [graphOf, Risk.scoreAll, Graph.build_files, Source.analyzeFiles, Keyed.get?_mapValues,
    Keyed.get?_filterMap, Keyed.contains]
  cases found.get? path with
  | none => rfl
  | some text => rfl

theorem analyze_of_sources {s : ScanSettings} {d : Disk} {root : Option String}
    {found : Keyed String} (h : sources s d root = .ok found) :
    (analyze s d root).1 = .ok (graphOf s.extensions .textual found).1.files := by
  rw [sources] at h
  rcases hread : readSources d (scan (scanOptions s root none) d).files with ⟨read, log⟩
  rw [hread] at h
  cases h
  simp only [analyze, build, hread, Except.map]

/-- An analysis depends on nothing but its sources. -/
theorem analyze_eq_of_sources {s : ScanSettings} {d d' : Disk} {root : Option String}
    {es : List (String × String)} (h : (sources s d root).toOption.map (·.entries) = some es)
    (h' : (sources s d' root).toOption.map (·.entries) = some es) :
    (analyze s d root).1 = (analyze s d' root).1 := by
  have hfound : ∀ {d}, (sources s d root).toOption.map (·.entries) = some es →
      ∃ found : Keyed String, found.entries = es ∧ sources s d root = .ok found := by
    intro d hd
    cases hsources : sources s d root with
    | error e => simp [hsources, Except.toOption] at hd
    | ok found => exact ⟨found, by simpa [hsources, Except.toOption] using hd, rfl⟩
  obtain ⟨found, hentries, hsources⟩ := hfound h
  obtain ⟨found', hentries', hsources'⟩ := hfound h'
  rw [analyze_of_sources hsources, analyze_of_sources hsources',
    Keyed.ext_entries (hentries.trans hentries'.symm)]

end Project

namespace Planner

theorem analysis_eq_of_sources {pl pl' : Planner} {es : List (String × String)}
    (hsettings : pl.settings = pl'.settings) (hroot : pl.root = pl'.root)
    (h : (Project.sources pl.settings pl.storage.disk pl.root).toOption.map (·.entries) = some es)
    (h' : (Project.sources pl'.settings pl'.storage.disk pl'.root).toOption.map (·.entries) =
      some es) : pl.analysis = pl'.analysis := by
  rw [hsettings, hroot] at h
  rw [analysis, analysis, hsettings, hroot]
  exact Project.analyze_eq_of_sources h h'

/-- At each creation, the analysis of the project comes to the same for both planners. -/
def SameProject (pl pl' : Planner) : List Request → Prop
  | [] => True
  | r :: rest =>
    (∀ c path type description, r = .create c path type description →
      pl.analysis = pl'.analysis) ∧
      SameProject (pl.handle r).planner (pl'.handle r).planner rest

theorem sameProject_append {requests more : List Request} :
    ∀ {pl pl' : Planner}, pl.SameProject pl' (requests ++ more) ↔
      pl.SameProject pl' requests ∧ (pl.after requests).SameProject (pl'.after requests) more := by
  induction requests with
  | nil => simp [SameProject, after]
  | cons r rest ih =>
    intro pl pl'
    rw [List.cons_append, SameProject, SameProject, ih, after, after, and_assoc]

/-- Two planners cannot be told apart by what they say about their plans. -/
structure SaysSame (pl pl' : Planner) : Prop where
  found : ∀ id p, (pl.storage.get id).1 = .ok (some p) ↔ (pl'.storage.get id).1 = .ok (some p)
  asked : ∀ id : String, id.length ≤ 200 → (pl.storage.get id).1 = (pl'.storage.get id).1
  listed : ∃ ps qs, pl.storage.list.1 = .ok ps ∧ pl'.storage.list.1 = .ok qs ∧ SamePlans ps qs

/-- Two sessions of the same requests. -/
structure Refines (pl pl' : Planner) (requests : List Request) : Prop where
  outcomes : List.Forall₂ Outcome.Agrees (pl.outcomes requests) (pl'.outcomes requests)
  calls : pl.calls requests = pl'.calls requests
  states : ∀ before rest, requests = before ++ rest → (pl.after before).SaysSame (pl'.after before)

/-! ## Two storages with the same plans -/

/-- The first planner keeps the plans in memory and the second one in files. -/
structure Mirrors (pl pl' : Planner) (directory : String) (plans : Keyed Plan) : Prop where
  holds : pl.storage.Holds plans
  holds' : pl'.storage.Holds plans
  memory : pl.storage.directory? = none
  folder : pl'.storage.directory? = some directory
  issued : pl.issued = pl'.issued

namespace Mirrors

variable {pl pl' : Planner} {directory : String} {plans : Keyed Plan} {id : String}

theorem reaches (h : pl.Mirrors pl' directory plans) (hroom : Storage.Roomy directory)
    (hid : id.length ≤ 200) : pl.storage.Reaches id ∧ pl'.storage.Reaches id := by
  constructor
  · intro directory hdirectory
    rw [h.memory] at hdirectory
    cases hdirectory
  · intro directory hdirectory hvalid
    rw [h.folder] at hdirectory
    cases hdirectory
    exact Storage.fits_fileName hroom hvalid hid

theorem admits (h : pl.Mirrors pl' directory plans) (hroom : Storage.Roomy directory)
    (hvalid : PlanId.isValid id = true) (hid : id.length ≤ 200) :
    pl.storage.Admits id ∧ pl'.storage.Admits id := by
  constructor
  · intro directory hdirectory
    rw [h.memory] at hdirectory
    cases hdirectory
  · intro directory hdirectory
    rw [h.folder] at hdirectory
    cases hdirectory
    exact ⟨hvalid, Storage.fits_fileName hroom hvalid hid⟩

/-- Two operations that come to the same. -/
def Match {α : Type} (directory : String) (o o' : Outcome α) : Prop :=
  o.result = o'.result ∧ o.calls = o'.calls ∧ ∃ plans, o.planner.Mirrors o'.planner directory plans

theorem of_yields {α : Type} {o o' : Outcome α} {result : Except Failure α} {calls : List Call}
    {after : Keyed Plan} (h : pl.Mirrors pl' directory plans)
    (hyields : pl.Yields o result calls after) (hyields' : pl'.Yields o' result calls after) :
    Match directory o o' := by
  obtain ⟨s, hplanner, hholds, hdirectory⟩ := hyields.storage
  obtain ⟨s', hplanner', hholds', hdirectory'⟩ := hyields'.storage
  refine ⟨hyields.result.trans hyields'.result.symm, hyields.calls.trans hyields'.calls.symm,
    after, ?_⟩
  rw [hplanner, hplanner']
  exact ⟨hholds, hholds', hdirectory.trans h.memory, hdirectory'.trans h.folder, h.issued⟩

theorem transact (h : pl.Mirrors pl' directory plans) (hroom : Storage.Roomy directory)
    (hid : id.length ≤ 200) {move : Plan → Transition}
    (hmove : ∀ p : Plan, p.Moved (move p).calls (move p).stored) :
    Match directory (pl.transact id move) (pl'.transact id move) := by
  obtain ⟨hreach, hreach'⟩ := h.reaches hroom hid
  cases hp : plans.get? id with
  | none =>
    exact h.of_yields (transact_none_of_reaches h.holds hp hreach)
      (transact_none_of_reaches h.holds' hp hreach')
  | some p =>
    exact h.of_yields (transact_some h.holds hp (hmove p)) (transact_some h.holds' hp (hmove p))

theorem executeSteps (hroom : Storage.Roomy directory) (hid : id.length ≤ 200)
    (service : MutationService) (fuel : Nat) :
    ∀ (clock : Clock) {pl pl' : Planner} {plans : Keyed Plan}, pl.Mirrors pl' directory plans →
      Match directory (Planner.executeSteps service id fuel clock pl)
        (Planner.executeSteps service id fuel clock pl') := by
  induction fuel with
  | zero => exact fun clock pl pl' plans h => ⟨rfl, rfl, plans, h⟩
  | succ fuel ih =>
    intro clock pl pl' plans h
    have hfirst : Match directory (execute pl service clock id) (execute pl' service clock id) :=
      h.transact hroom hid (Plan.moved_advance service clock)
    obtain ⟨hresult, hcalls, after, hmirrors⟩ := hfirst
    rw [Planner.executeSteps, Planner.executeSteps]
    simp only [← hresult]
    cases (execute pl service clock id).result with
    | error e => exact ⟨rfl, hcalls, after, hmirrors⟩
    | ok r =>
      simp only
      split
      · obtain ⟨hresult', hcalls', hmore⟩ := ih (clock.later 2) hmirrors
        exact ⟨by simp only [hresult'], by simp only [hcalls, hcalls'], hmore⟩
      · exact ⟨rfl, hcalls, after, hmirrors⟩

theorem delete (h : pl.Mirrors pl' directory plans) (hroom : Storage.Roomy directory)
    (hid : id.length ≤ 200) : Match directory (pl.delete id) (pl'.delete id) := by
  obtain ⟨hreach, hreach'⟩ := h.reaches hroom hid
  cases hp : plans.get? id with
  | none =>
    exact h.of_yields (delete_none_of_reaches h.holds hp hreach)
      (delete_none_of_reaches h.holds' hp hreach')
  | some p => exact h.of_yields (delete_some h.holds hp) (delete_some h.holds' hp)

theorem spent (h : pl.Mirrors pl' directory plans) : pl.spent.Mirrors pl'.spent directory plans :=
  ⟨h.holds, h.holds', h.memory, h.folder, congrArg (· + 1) h.issued⟩

theorem create (h : pl.Mirrors pl' directory plans) (hroom : Storage.Roomy directory)
    (hsame : pl.analysis = pl'.analysis) {c : Circumstances} (hmillis : c.millis.natAbs < 10 ^ 15)
    (htoken : ∀ n, PlanId.IsHex (c.token n)) (path type description : String) :
    Match directory (pl.create c path type description) (pl'.create c path type description) := by
  have hdrafted : drafted pl'.analysis (pl'.issued + 1) c path type description =
      drafted pl.analysis (pl.issued + 1) c path type description := by
    rw [hsame, h.issued]
  cases hdraft : drafted pl.analysis (pl.issued + 1) c path type description with
  | error e =>
    obtain ⟨hresult, hcalls, hplanner⟩ := create_eq_of_error hdraft
    obtain ⟨hresult', hcalls', hplanner'⟩ := create_eq_of_error (hdrafted.trans hdraft)
    refine ⟨hresult.trans hresult'.symm, hcalls.trans hcalls'.symm, plans, ?_⟩
    rw [hplanner, hplanner']
    exact h
  | ok p =>
    have hid := id_drafted hdraft
    obtain ⟨hadmits, hadmits'⟩ := h.admits hroom (PlanId.isValid_generate c.millis (htoken _))
      (PlanId.length_generate hmillis (c.token (pl.issued + 1)))
    rw [← hid] at hadmits hadmits'
    exact h.spent.of_yields (create_ok h.holds hdraft hadmits)
      (create_ok h.holds' (hdrafted.trans hdraft) hadmits')

theorem get (h : pl.Mirrors pl' directory plans) (hroom : Storage.Roomy directory)
    (hid : id.length ≤ 200) : pl.storage.get id = pl'.storage.get id := by
  obtain ⟨hreach, hreach'⟩ := h.reaches hroom hid
  cases hp : plans.get? id with
  | none => rw [h.holds.get_none_of_reaches hp hreach, h.holds'.get_none_of_reaches hp hreach']
  | some p => rw [h.holds.get hp, h.holds'.get hp]

theorem list (h : pl.Mirrors pl' directory plans) : ∃ ps qs,
    pl.storage.list = (.ok ps, []) ∧ pl'.storage.list = (.ok qs, []) ∧ SamePlans ps qs := by
  obtain ⟨ps, hps, hperm, hsorted⟩ := h.holds.list
  obtain ⟨qs, hqs, hperm', hsorted'⟩ := h.holds'.list
  have hsame := hperm.trans hperm'.symm
  refine ⟨ps, qs, hps, hqs, hsame, fun hnodup => ?_⟩
  refine hsame.eq_of_pairwise ?_ hsorted hsorted'
  intro p q hp hq hpq hqp
  have htimes : p.createdAt = q.createdAt := le_antisymm hpq hqp
  exact List.inj_on_of_nodup_map hnodup hp (hsame.mem_iff.mpr hq) htimes

theorem tally_eq {ps qs : List Plan} (h : ps.Perm qs) : tally ps = tally qs := by
  simp only [tally, h.length_eq, h.countP_eq]

theorem saysSame (h : pl.Mirrors pl' directory plans) (hroom : Storage.Roomy directory) :
    pl.SaysSame pl' := by
  refine ⟨fun id p => ?_, fun id hid => congrArg Prod.fst (h.get hroom hid), ?_⟩
  · rw [h.holds.get_eq_some_iff, h.holds'.get_eq_some_iff]
  · obtain ⟨ps, qs, hps, hqs, hsame⟩ := h.list
    exact ⟨ps, qs, by rw [hps], by rw [hqs], hsame⟩

/-! ## Requests -/

theorem Match.agrees {α : Type} {o o' : Outcome α} (h : Match directory o o') (f : α → Answer) :
    (o.map f).Agrees (o'.map f) ∧
      ∃ after, (o.map f).planner.Mirrors (o'.map f).planner directory after :=
  ⟨Outcome.agrees_of_eq (congrArg (Except.map f) h.1) h.2.1, h.2.2⟩

/-- One request to both planners. -/
theorem handle (h : pl.Mirrors pl' directory plans) (hroom : Storage.Roomy directory)
    (r : Request) (hproper : r.Proper)
    (hspared : ∀ change settings root, r = .surroundings change settings root →
      pl'.storage.SparedBy change)
    (hsame : ∀ c path type description, r = .create c path type description →
      pl.analysis = pl'.analysis) :
    (pl.handle r).Agrees (pl'.handle r) ∧
      ∃ after, (pl.handle r).planner.Mirrors (pl'.handle r).planner directory after := by
  cases r with
  | create c path type description =>
    have hanalysis := hsame c path type description rfl
    exact (h.create hroom hanalysis hproper.1 hproper.2 path type description).agrees Answer.plan
  | execute service clock id =>
    exact (h.transact hroom hproper (Plan.moved_advance service clock)).agrees Answer.step
  | executeAll service clock id =>
    have hsteps := executeSteps hroom hproper service
      (Vocabulary.all (α := PlanStep)).length clock h
    exact hsteps.agrees Answer.steps
  | rollBack service clock id =>
    exact (h.transact hroom hproper (Plan.moved_rollBack service clock)).agrees Answer.step
  | delete id => exact (h.delete hroom hproper).agrees fun _ => Answer.done
  | get id =>
    refine ⟨Outcome.agrees_of_eq ?_ rfl, plans, h⟩
    simp only [Planner.handle, answer, h.get hroom hproper]
  | list =>
    obtain ⟨ps, qs, hps, hqs, hplans⟩ := h.list
    refine ⟨⟨?_, rfl⟩, plans, h⟩
    simp only [Planner.handle, answer, hps, hqs, Except.map]
    exact hplans
  | summarize =>
    obtain ⟨ps, qs, hps, hqs, hplans⟩ := h.list
    refine ⟨Outcome.agrees_of_eq ?_ rfl, plans, h⟩
    simp only [Planner.handle, answer, Planner.summarize, hps, hqs, Except.map,
      tally_eq hplans.1]
  | reopen =>
    rw [Planner.handle, Planner.handle, reopen_eq h.holds, reopen_eq h.holds']
    exact ⟨Outcome.agrees_of_eq rfl rfl, plans, h⟩
  | surroundings change settings root =>
    have hmemory : pl.storage.SparedBy change := by
      intro directory hdirectory
      rw [h.memory] at hdirectory
      cases hdirectory
    have hfolder := hspared change settings root rfl
    refine ⟨Outcome.agrees_of_eq rfl rfl, plans, ?_⟩
    exact ⟨h.holds.spared hmemory, h.holds'.spared hfolder, h.memory, h.folder, h.issued⟩

/-! ## Sessions -/

theorem session (hroom : Storage.Roomy directory) (requests : List Request)
    (hproper : ∀ r ∈ requests, r.Proper) :
    ∀ {pl pl' : Planner} {plans : Keyed Plan}, pl.Mirrors pl' directory plans →
      pl'.Undisturbed requests → pl.SameProject pl' requests →
        List.Forall₂ Outcome.Agrees (pl.outcomes requests) (pl'.outcomes requests) ∧
          ∃ after, (pl.after requests).Mirrors (pl'.after requests) directory after := by
  induction requests with
  | nil => exact fun h _ _ => ⟨.nil, _, h⟩
  | cons r rest ih =>
    intro pl pl' plans h hspared hsame
    rw [List.forall_mem_cons] at hproper
    obtain ⟨hagrees, between, hmirrors⟩ := h.handle hroom r hproper.1 hspared.1 hsame.1
    obtain ⟨hrest, hafter⟩ := ih hproper.2 hmirrors hspared.2 hsame.2
    exact ⟨.cons hagrees hrest, hafter⟩

end Mirrors

theorem calls_eq_of_agrees {os os' : List (Outcome Answer)}
    (h : List.Forall₂ Outcome.Agrees os os') :
    os.flatMap (·.calls) = os'.flatMap (·.calls) := by
  induction h with
  | nil => rfl
  | cons ho _ ih => rw [List.flatMap_cons, List.flatMap_cons, ho.calls, ih]

end Planner

namespace Sample

theorem roomy : Storage.Roomy "home/plans" := by
  rw [Storage.Roomy]
  decide +kernel

/-- The plan file of the first request is not among the sources. -/
theorem sources_first : ∀ store ∈ [PlanStore.memory .empty, .folder "home/plans"],
    (Project.sources ((planner store).after [first]).settings
      ((planner store).after [first]).storage.disk
      ((planner store).after [first]).root).toOption.map (·.entries) =
      some [("src/a.ts", "")] := by
  simp only [List.forall_mem_cons]
  refine ⟨?_, ?_, fun _ h => nomatch h⟩
  · decide +kernel
  · decide +kernel

end Sample

namespace Planner

theorem refines (pl pl' : Planner) (directory : String) (requests : List Request)
    (hmemory : pl.storage.store = .memory .empty)
    (hfolder : pl'.storage.store = .folder directory) (hempty : pl'.storage.IsEmpty)
    (hroom : Storage.Roomy directory) (hissued : pl.issued = pl'.issued)
    (hproper : ∀ r ∈ requests, r.Proper) (hspared : pl'.Undisturbed requests)
    (hsame : pl.SameProject pl' requests) : pl.Refines pl' requests := by
  have hstart : pl.storage.IsEmpty := by
    rw [Storage.IsEmpty, hmemory]
  have hmirrors : pl.Mirrors pl' directory .empty :=
    ⟨Storage.holds_empty hstart, Storage.holds_empty hempty, by rw [Storage.directory?, hmemory],
      by rw [Storage.directory?, hfolder], hissued⟩
  obtain ⟨houtcomes, _⟩ := Mirrors.session hroom requests hproper hmirrors hspared hsame
  refine ⟨houtcomes, calls_eq_of_agrees houtcomes, ?_⟩
  rintro before rest rfl
  have hproper : ∀ r ∈ before, r.Proper := fun r hr => hproper r (List.mem_append_left _ hr)
  obtain ⟨_, plans, hafter⟩ := Mirrors.session hroom before hproper hmirrors
    (undisturbed_append.mp hspared).1 (sameProject_append.mp hsame).1
  exact hafter.saysSame hroom

theorem refines_sample : (Sample.planner (.memory .empty)).Refines
    (Sample.planner (.folder "home/plans")) Sample.session := by
  have hid : Sample.id.length ≤ 200 ∧ Sample.other.length ≤ 200 := by decide
  have hmillis : Sample.circumstances.millis.natAbs < 10 ^ 15 := by decide
  have hproper : ∀ r ∈ Sample.session, r.Proper := by
    simp only [Sample.session, List.forall_mem_cons, Sample.first, Request.Proper, hid,
      hmillis, Sample.isHex_token]
    simp
  refine refines _ _ "home/plans" _ rfl rfl ⟨_, rfl⟩ Sample.roomy rfl hproper Sample.undisturbed ?_
  -- the second plan is created when the file of the first one is there
  have hsettings : ((Sample.planner (.memory .empty)).after [Sample.first]).settings =
      ((Sample.planner (.folder "home/plans")).after [Sample.first]).settings := by decide +kernel
  have hroot : ((Sample.planner (.memory .empty)).after [Sample.first]).root =
      ((Sample.planner (.folder "home/plans")).after [Sample.first]).root := by decide +kernel
  have hsecond := analysis_eq_of_sources hsettings hroot (Sample.sources_first _ (by simp))
    (Sample.sources_first _ (by simp))
  exact ⟨fun _ _ _ _ _ => rfl, fun _ _ _ _ _ => hsecond, by simp [SameProject]⟩

/-! ## Plan files among the sources -/

theorem created_pair {pl : Planner} {r r' : Request} {p : Plan}
    (h : ((pl.after [r]).handle r').result = .ok (.plan p)) :
    pl.created [r, r'] = pl.created [r] ++ [p] := by
  have hlast : (pl.after [r]).created [r'] = [p] := by
    rw [created_cons, Outcome.created?, h]
    rfl
  rw [← hlast, ← created_append, List.singleton_append]

/-- Every file that is read can be changed. -/
theorem drafted_of_sources {pl : Planner} {found : Keyed String} {path type : String}
    {kind : ChangeType}
    (hsources : Project.sources pl.settings pl.storage.disk pl.root = .ok found)
    (hpath : found.contains path = true)
    (htype : (Vocabulary.ofWord? type : Option ChangeType) = some kind)
    (n : Nat) (c : Circumstances) (description : String) :
    ∃ p, drafted pl.analysis n c path type description = .ok p := by
  have hanalysis := Project.analyze_of_sources hsources
  have hfile : ((Project.graphOf pl.settings.extensions .textual found).1.files.get? path).isSome =
      true := Project.isSome_get?_graphOf.trans hpath
  obtain ⟨record, hrecord⟩ := Option.isSome_iff_exists.mp hfile
  rw [analysis, hanalysis, drafted, htype]
  simp only [hrecord]
  exact ⟨_, rfl⟩

end Planner

namespace Sample

/-- The plans of this project are kept among its sources. -/
def mingled (store : PlanStore) : Planner :=
  { planner store with settings := { root := ".", extensions := [".ts", ".json"] } }

/-- The file of the first plan is to be changed. -/
def second : Request := .create circumstances ("home/plans/" ++ id ++ ".json") "modify" ""

theorem proper : ∀ r ∈ [first, second], r.Proper := by
  have hmillis : circumstances.millis.natAbs < 10 ^ 15 := by decide
  simp only [first, second, List.forall_mem_cons, Request.Proper, hmillis, isHex_token]
  simp

theorem isEmpty_mingled : (mingled (.folder "home/plans")).storage.IsEmpty :=
  ⟨["home", "plans"], rfl⟩

/-- The planner that has kept the first plan in a file. -/
def grown : Planner := (mingled (.folder "home/plans")).after [first]

theorem holds_grown : ∃ plans, grown.storage.Holds plans := by
  have hstart : (mingled (.memory .empty)).Mirrors (mingled (.folder "home/plans")) "home/plans"
      .empty :=
    ⟨Storage.holds_empty rfl, Storage.holds_empty isEmpty_mingled, rfl, rfl, rfl⟩
  obtain ⟨_, plans, hmirrors⟩ := hstart.handle roomy first (proper _ List.mem_cons_self)
    (fun _ _ _ hr => nomatch hr) (fun _ _ _ _ _ => rfl)
  exact ⟨plans, hmirrors.holds'⟩

/-- The file of the first plan has become a source. -/
theorem sources_grown :
    ∃ found, Project.sources grown.settings grown.storage.disk grown.root = .ok found ∧
      found.contains ("home/plans/" ++ id ++ ".json") = true := by
  have hkeys : (Project.sources grown.settings grown.storage.disk grown.root).toOption.map
      (·.keys) = some ["home/plans/" ++ id ++ ".json", "src/a.ts"] := by decide +kernel
  cases hfound : Project.sources grown.settings grown.storage.disk grown.root with
  | error e => simp [hfound, Except.toOption] at hkeys
  | ok found =>
    simp only [hfound, Except.toOption, Option.map_some, Option.some.injEq] at hkeys
    refine ⟨found, rfl, ?_⟩
    rw [← Keyed.mem_keys_iff, hkeys]
    exact List.mem_cons_self

theorem second_grown : ∃ p : Plan, p.id = other ∧
    (grown.handle second).result = .ok (.plan p) := by
  obtain ⟨plans, hholds⟩ := holds_grown
  obtain ⟨found, hsources, hpath⟩ := sources_grown
  have hissued : grown.issued = 1 := by decide +kernel
  have hfolder : grown.storage.directory? = some "home/plans" := by decide +kernel
  have htype : (Vocabulary.ofWord? "modify" : Option ChangeType) = some .modify := by decide
  obtain ⟨p, hdraft⟩ := Planner.drafted_of_sources hsources hpath htype (grown.issued + 1)
    circumstances ""
  have hid : p.id = other := by
    rw [Planner.id_drafted hdraft, hissued]
    decide +kernel
  have hadmits : grown.storage.Admits p.id := by
    intro directory hdirectory
    rw [hfolder] at hdirectory
    cases hdirectory
    have hvalid : PlanId.isValid p.id = true := by
      rw [hid]
      decide
    exact ⟨hvalid, Storage.fits_fileName roomy hvalid (by rw [hid]; decide)⟩
  refine ⟨p, hid, ?_⟩
  have hresult := (Planner.create_ok hholds hdraft hadmits).result
  rw [second, Planner.handle, Outcome.map_result, hresult]
  rfl

theorem isOk_second : (grown.handle second).result.isOk = true := by
  obtain ⟨p, _, hsecond⟩ := second_grown
  rw [hsecond]
  rfl

theorem undisturbed_mingled : (mingled (.folder "home/plans")).Undisturbed [first, second] :=
  Planner.undisturbed_of_forall (by simp [first, second])

theorem fresh_mingled :
    (((mingled (.folder "home/plans")).created [first, second]).map (·.id)).Nodup := by
  obtain ⟨p, hid, hsecond⟩ := second_grown
  have hfirst : ((mingled (.folder "home/plans")).created [first]).map (·.id) = [id] := by
    decide +kernel
  have hcreated : (mingled (.folder "home/plans")).created [first, second] =
      (mingled (.folder "home/plans")).created [first] ++ [p] := Planner.created_pair hsecond
  rw [hcreated, List.map_append, hfirst, List.map_singleton, hid]
  decide

end Sample

namespace Planner

/-- Two sessions of two requests of which one is refused by one planner only. -/
theorem not_refines_of_second {pl pl' : Planner} {r r' : Request}
    (h : ((pl.after [r]).handle r').result.isOk = false)
    (h' : ((pl'.after [r]).handle r').result.isOk = true) : ¬ pl.Refines pl' [r, r'] := by
  intro hrefines
  have houtcomes := hrefines.outcomes
  simp only [Planner.outcomes, List.forall₂_cons] at houtcomes
  have hsame := houtcomes.2.1.isOk_eq
  rw [after, after] at h h'
  rw [h, h'] at hsame
  cases hsame

/-- It does not suffice that both planners find the same at the start. -/
theorem not_refines_mingled :
    ¬ ∀ (pl pl' : Planner) (directory : String) (requests : List Request),
      pl.storage.store = .memory .empty → pl'.storage.store = .folder directory →
      pl'.storage.IsEmpty → Storage.Roomy directory → pl.issued = pl'.issued →
      pl.storage.disk = pl'.storage.disk → pl.settings = pl'.settings → pl.root = pl'.root →
      (∀ r ∈ requests, r.Proper) → pl'.Undisturbed requests →
      ((pl'.created requests).map (·.id)).Nodup → pl.Refines pl' requests := by
  intro h
  have hmemory : (((Sample.mingled (.memory .empty)).after [Sample.first]).handle
      Sample.second).result.isOk = false := by decide +kernel
  have hfolder : (((Sample.mingled (.folder "home/plans")).after [Sample.first]).handle
      Sample.second).result.isOk = true := Sample.isOk_second
  refine not_refines_of_second hmemory hfolder ?_
  exact h _ _ "home/plans" _ rfl rfl Sample.isEmpty_mingled Sample.roomy rfl rfl rfl rfl
    Sample.proper Sample.undisturbed_mingled Sample.fresh_mingled

end Planner

end ChangeImpact
