import ChangeImpact.Proofs.Disk.Writing
import ChangeImpact.Proofs.Plan.Isolation
import ChangeImpact.Proofs.Plan.Script

/-!
# Proofs.Plan.Confinement

A planner with a directory for its plans asks for plan files of that directory only, and changes
nothing else.

* `Ask.Confined`        — a question about a plan file, or about no file at all.
* `Desk.always_handle`  — whatever the disk answers, operations ask no other question.
* `Disk.Houses`         — the directory is at a location and holds no links.
* `Disk.SameOutside`    — two disks agree but for plan files.
* `Ask.perform_confined` — what one question changes.
* `Planner.session_confined` — what a whole session keeps to.
* `Planner.confined`    — the paths that are asked for, and what they lead to.
-/

namespace ChangeImpact

/-- A text that stays one name of a file when an ending is put to it. -/
structure IsPlanName (s : String) : Prop where
  nonempty : s ≠ ""
  noSlash : '/' ∉ s.toList
  noDot : '.' ∉ s.toList
  noNull : '\x00' ∉ s.toList

/-! ## Questions -/

namespace Ask

/-- A question about the file of a valid id, or about no file at all. -/
def Confined (directory : String) (a : Ask) : Prop :=
  ∀ path, a.path? = some path →
    ∃ id, PlanId.isValid id = true ∧ path = Storage.planFile directory id

theorem confined_of_isValid {directory id : String} {a : Ask}
    (hid : PlanId.isValid id = true) (hpath : a.path? = some (Storage.planFile directory id)) :
    a.Confined directory := by
  intro path' hpath'
  rw [hpath, Option.some.injEq] at hpath'
  exact ⟨id, hid, hpath'.symm⟩

theorem confined_of_none {directory : String} {a : Ask} (h : a.path? = none) :
    a.Confined directory := by
  intro path hpath
  rw [h] at hpath
  cases hpath

end Ask

theorem PlanId.isPlanName {id : String} (h : isValid id = true) : IsPlanName id := by
  refine ⟨ne_empty_of_isValid h, fun hc => ?_, fun hc => ?_, fun hc => ?_⟩ <;>
    have hchar := char_of_isValid h hc <;> revert hchar <;> decide

namespace Script

variable {directory : String}

theorem always_readPlan {id : String} (hid : PlanId.isValid id = true) :
    Always (Ask.Confined directory) (fun _ => True)
      (readPlan (Storage.planFile directory id)) := by
  refine ⟨Ask.confined_of_isValid hid rfl, fun answer => ?_⟩
  rcases answer with e | _ | _
  · trivial
  · trivial
  · refine ⟨Ask.confined_of_isValid hid rfl, fun answer => ?_⟩
    cases answer with
    | error e => trivial
    | ok text =>
      dsimp only
      cases Storage.planOfText text <;> trivial

theorem always_get (id : String) :
    Always (Ask.Confined directory) (fun _ => True) (get id (.folder directory)) := by
  rw [get]
  split
  · next hid => exact always_readPlan hid
  · trivial

theorem always_save (p : Plan) :
    Always (Ask.Confined directory) (fun r => ∀ store, r = .ok store → store = .folder directory)
      (save p (.folder directory)) := by
  rw [save]
  split
  · next hid =>
    refine ⟨Ask.confined_of_isValid hid rfl, fun answer store hstore => ?_⟩
    cases answer <;> cases hstore
    rfl
  · rintro store ⟨⟩

theorem always_delete (id : String) :
    Always (Ask.Confined directory)
      (fun r => ∀ found store, r = .ok (found, store) → store = .folder directory)
      (delete id (.folder directory)) := by
  rw [delete]
  split
  · rintro found store ⟨⟩
    rfl
  · next hid =>
    have hid : PlanId.isValid id = true := by simpa using hid
    refine ⟨Ask.confined_of_isValid hid rfl, fun answer => ?_⟩
    rcases answer with e | _ | _
    · rintro found store ⟨⟩
    · rintro found store ⟨⟩
      rfl
    · refine ⟨Ask.confined_of_isValid hid rfl, fun answer found store hstore => ?_⟩
      cases answer <;> cases hstore
      rfl

theorem always_getAll (ids : List String) :
    Always (Ask.Confined directory) (fun _ => True) (getAll (.folder directory) ids) := by
  induction ids with
  | nil => trivial
  | cons id rest ih =>
    refine (always_get id).bind fun found _ => ?_
    rcases found with ⟨_ | found, log⟩
    · trivial
    · exact ih.map fun _ _ => trivial

theorem always_list :
    Always (Ask.Confined directory) (fun _ => True) (list (.folder directory)) := by
  refine ⟨Ask.confined_of_none rfl, fun answer => ?_⟩
  cases answer with
  | error e => trivial
  | ok names => exact (always_getAll _).map fun _ _ => trivial

end Script

namespace Desk

variable {directory : String} {k : Desk}

/-- The planner keeps its plans in the directory still. -/
def Stays {α : Type} (directory : String) (r : Response α) : Prop :=
  r.desk.store = .folder directory

theorem always_create (h : k.store = .folder directory) (c : Circumstances)
    (path type description : String) :
    Script.Always (Ask.Confined directory) (Stays directory)
      (k.create c path type description) := by
  rw [create]
  cases (Vocabulary.ofWord? type : Option ChangeType) with
  | none => exact h
  | some type =>
    refine ⟨Ask.confined_of_none rfl, fun answer => ?_⟩
    rcases answer with ⟨_ | files, log⟩
    · exact h
    · dsimp only
      cases files.get? path with
      | none => exact h
      | some record =>
        dsimp only
        rw [h]
        refine (Script.always_save _).map fun saved hsaved => ?_
        cases saved with
        | error e => rfl
        | ok store => exact hsaved store rfl

theorem always_settle (h : k.store = .folder directory) (log : Log) (t : Transition) :
    Script.Always (Ask.Confined directory) (Stays directory) (k.settle log t) := by
  rw [settle]
  cases t.stored with
  | none => exact h
  | some p =>
    dsimp only
    rw [h]
    refine (Script.always_save p).map fun saved hsaved => ?_
    cases saved with
    | error e => exact h
    | ok store => exact hsaved store rfl

theorem always_transact (h : k.store = .folder directory) (id : String)
    (move : Plan → Transition) :
    Script.Always (Ask.Confined directory) (Stays directory) (k.transact id move) := by
  rw [transact, h]
  refine (Script.always_get id).bind fun found _ => ?_
  rcases found with ⟨_ | _ | p, log⟩
  · exact h
  · exact h
  · exact always_settle h log (move p)

theorem always_executeSteps (service : MutationService) (id : String) :
    ∀ (fuel : Nat) {clock : Clock} {k : Desk}, k.store = .folder directory →
      Script.Always (Ask.Confined directory) (Stays directory)
        (executeSteps service id fuel clock k) := by
  intro fuel
  induction fuel with
  | zero => exact fun h => h
  | succ fuel ih =>
    intro clock k h
    refine (always_transact h id _).bind fun first hfirst => ?_
    cases first.result with
    | error e => exact hfirst
    | ok r =>
      dsimp only
      split
      · exact (ih hfirst).map fun others hothers => hothers
      · exact hfirst

theorem always_delete (h : k.store = .folder directory) (id : String) :
    Script.Always (Ask.Confined directory) (Stays directory) (k.delete id) := by
  rw [delete, h]
  refine (Script.always_get id).bind fun found _ => ?_
  rcases found with ⟨_ | _ | p, log⟩
  · exact h
  · exact h
  · refine (Script.always_delete id).map fun deleted hdeleted => ?_
    rcases deleted with e | ⟨found, store⟩
    · exact h
    · exact hdeleted found store rfl

/-- Whatever plan files hold and whatever ids are asked for. -/
theorem always_handle (h : k.store = .folder directory) (r : Request) :
    Script.Always (Ask.Confined directory) (Stays directory) (k.handle r) := by
  cases r with
  | create c path type description =>
    exact (always_create h c path type description).map fun _ hr => hr
  | execute service clock id => exact (always_transact h id _).map fun _ hr => hr
  | executeAll service clock id => exact (always_executeSteps service id _ h).map fun _ hr => hr
  | rollBack service clock id => exact (always_transact h id _).map fun _ hr => hr
  | delete id => exact (always_delete h id).map fun _ hr => hr
  | get id =>
    rw [handle, h]
    exact (Script.always_get id).map fun _ _ => h
  | list =>
    rw [handle, h]
    exact Script.always_list.map fun _ _ => h
  | summarize =>
    rw [handle, h]
    exact Script.always_list.map fun _ _ => h
  | reopen => exact h
  | surroundings change settings root => exact h

end Desk

/-! ## The disk -/

namespace Disk

/-- A directory at a location, no entry of which is a link. -/
structure Houses (d : Disk) (directory : String) (location : List String) : Prop where
  noNull : hasNull directory = false
  place : d.placeOf true directory = .ok (.taken location)
  noLinks : ∃ es, d.at? location = some (.dir es) ∧ ∀ name, Entries.NoLink es name

/-- Nothing differs but plan files right in the directory at a location. -/
def SameOutside (location : List String) (d d' : Disk) : Prop :=
  ∀ l, (∀ s, IsPlanName s → l ≠ location ++ [Storage.fileName s]) →
    Entries.AlikeAt d.top d'.top l

theorem SameOutside.refl (location : List String) (d : Disk) : SameOutside location d d :=
  fun _ _ => .inl rfl

theorem SameOutside.trans {location : List String} {d d' d'' : Disk}
    (h : SameOutside location d d') (h' : SameOutside location d' d'') :
    SameOutside location d d'' :=
  fun l hl => (h l hl).trans (h' l hl)

namespace Houses

variable {d : Disk} {directory name : String} {location : List String}

theorem lists (h : d.Houses directory location) :
    ∃ es, d.Lists directory es ∧ d.at? location = some (.dir es) ∧
      ∀ name, Entries.NoLink es name := by
  obtain ⟨es, hat, hlinks⟩ := h.noLinks
  exact ⟨es, ⟨h.noNull, location, h.place, hat⟩, hat, hlinks⟩

/-- The path of an entry leads to it and nowhere else. -/
theorem eq_of_placeOf (h : d.Houses directory location) (hname : IsName name) {fl : Bool}
    {place : Place} (hplace : d.placeOf fl (Path.child directory name) = .ok place) :
    place.location = location ++ [name] := by
  obtain ⟨es, _, hat, hlinks⟩ := h.lists
  rw [placeOf_child hat (hlinks name) hname h.place, entryPlace] at hplace
  split at hplace
  · cases hplace
  · split at hplace
    · cases hplace
    · cases hnode : es.find? name <;> rw [hnode] at hplace <;> cases hplace <;> rfl

/-- A change of one file of the directory. -/
theorem amended (h : d.Houses directory location) {es : Entries}
    (hat : d.at? location = some (.dir es)) {f : Entries → Entries}
    (hshape : Entries.SameShape es (f es))
    (halike : ∀ l, l ≠ [name] → Entries.AlikeAt es (f es) l)
    (hlinks : ∀ n, Entries.NoLink (f es) n) :
    (d.amendAt directory f).Houses directory location ∧
      ∀ l, l ≠ location ++ [name] → Entries.AlikeAt d.top (d.amendAt directory f).top l := by
  rw [Lists.amendAt_eq h.place]
  exact ⟨⟨h.noNull, placeOf_sameShape (Entries.sameShape_amend hshape hat) rfl hat h.place,
    _, Entries.at?_amend f hat, hlinks⟩,
    fun _ hl => Entries.alikeAt_amend (fun _ hne => halike _ hne) hat hl⟩

theorem write (h : d.Houses directory location) (hname : IsName name) {bytes : ByteArray}
    {d' : Disk} (hwrite : d.write (Path.child directory name) bytes = .ok d') :
    d'.Houses directory location ∧
      ∀ l, l ≠ location ++ [name] → Entries.AlikeAt d.top d'.top l := by
  obtain ⟨es, hlists, hat, hlinks⟩ := h.lists
  obtain ⟨hfits, hfile, _⟩ := hlists.of_write (hlinks name) hname hwrite
  rw [hlists.write_eq hfile hfits, Except.ok.injEq] at hwrite
  subst hwrite
  refine h.amended hat (Entries.sameShape_file hfile _)
    (fun _ hl => Entries.alikeAt_set hfile bytes hl) fun n target hlink => ?_
  rw [Entries.find?_set] at hlink
  split at hlink
  · cases hlink
  · exact hlinks n target hlink

theorem unlink (h : d.Houses directory location) (hname : IsName name) {d' : Disk}
    (hunlink : d.unlink (Path.child directory name) = .ok d') :
    d'.Houses directory location ∧
      ∀ l, l ≠ location ++ [name] → Entries.AlikeAt d.top d'.top l := by
  obtain ⟨es, hlists, hat, hlinks⟩ := h.lists
  have hfits : Fits directory name := by
    by_contra hfits
    rw [Disk.unlink, hlists.place_of_not_fits (hlinks name) hname hfits] at hunlink
    cases hunlink
  obtain ⟨l, hl, hdirectory, hplace⟩ :=
    hlists.place_child (hlinks name) hfits false (Path.child directory name)
  have hfile : es.FileOrFree name := by
    intro node hnode
    have hchild : d.at? (l ++ [name]) = some node := Lists.at?_child hl hnode
    rw [Disk.unlink, hplace, hnode] at hunlink
    cases node with
    | file bytes => rfl
    | link target => exact absurd hnode (hlinks name target)
    | dir sub => simp [hchild] at hunlink
  cases hnode : es.find? name with
  | none =>
    rw [Disk.unlink, hplace, hnode] at hunlink
    cases hunlink
  | some node =>
    rw [hlists.unlink_eq hfile hfits hnode, Except.ok.injEq] at hunlink
    subst hunlink
    refine h.amended hat (Entries.sameShape_drop hfile)
      (fun _ hne => Entries.alikeAt_drop hfile hne) fun n target hlink => ?_
    rw [Entries.find?_drop] at hlink
    split at hlink
    · cases hlink
    · exact hlinks n target hlink

end Houses

end Disk

theorem Ask.perform_confined {d : Disk} {directory : String} {location : List String} {a : Ask}
    (h : d.Houses directory location) (ha : a.Confined directory) :
    (a.perform d).2.Houses directory location ∧
      Disk.SameOutside location d (a.perform d).2 := by
  have hsame : d.Houses directory location ∧ Disk.SameOutside location d d := ⟨h, .refl location d⟩
  cases a with
  | present path => exact hsame
  | read path => exact hsame
  | names directory => exact hsame
  | analysis settings root => exact hsame
  | write path text =>
    obtain ⟨id, hid, rfl⟩ := ha path rfl
    cases hwrite : d.writeText (Storage.planFile directory id) text with
    | error e => simpa [Ask.perform, Ask.changed, hwrite] using hsame
    | ok d' =>
      obtain ⟨hhouses, halike⟩ := h.write (Storage.isName_fileName hid) hwrite
      simp only [Ask.perform, Ask.changed, hwrite]
      exact ⟨hhouses, fun l hl => halike l (hl id (PlanId.isPlanName hid))⟩
  | unlink path =>
    obtain ⟨id, hid, rfl⟩ := ha path rfl
    cases hunlink : d.unlink (Storage.planFile directory id) with
    | error e => simpa [Ask.perform, Ask.changed, hunlink] using hsame
    | ok d' =>
      obtain ⟨hhouses, halike⟩ := h.unlink (Storage.isName_fileName hid) hunlink
      simp only [Ask.perform, Ask.changed, hunlink]
      exact ⟨hhouses, fun l hl => halike l (hl id (PlanId.isPlanName hid))⟩

/-! ## Sessions -/

/-- The executions of all steps at once are several operations. -/
def Request.IsSingle : Request → Prop
  | .executeAll _ _ _ => False
  | r => r.IsOperation

namespace Planner

variable {pl : Planner} {directory : String}

/-- All questions of a session, each with the disk that it is asked of. -/
def asked (pl : Planner) : List Request → List (Disk × Ask)
  | [] => []
  | r :: rest =>
    Script.asked pl.storage.disk (pl.desk.handle r) ++ asked (pl.handle r).planner rest

/-- What every question of the kind leaves true of the disk is true all through a session. -/
theorem session_confined {I : Disk → Prop}
    (hstep : ∀ (d : Disk) (a : Ask), I d → a.Confined directory → I (a.perform d).2)
    {requests : List Request} :
    ∀ {pl : Planner}, pl.storage.store = .folder directory → (∀ r ∈ requests, r.IsOperation) →
      I pl.storage.disk → I (pl.after requests).storage.disk ∧
        ∀ call ∈ pl.asked requests, I call.1 ∧ call.2.Confined directory := by
  induction requests with
  | nil => exact fun _ _ hd => ⟨hd, fun _ hcall => (List.not_mem_nil hcall).elim⟩
  | cons r rest ih =>
    intro pl hstore hrequests hd
    obtain ⟨hr, hrest⟩ := List.forall_mem_cons.mp hrequests
    obtain ⟨hstays, hend, hasked⟩ :=
      Script.Always.run_asked hstep (pl.desk.always_handle hstore r) hd
    have hruns : Desk.Runs pl.storage.disk (pl.desk.handle r) (pl.handle r) := Desk.runs_handle hr
    have hdisk : (pl.handle r).planner.storage.disk =
        (Script.run pl.storage.disk (pl.desk.handle r)).2 := by
      rw [← hruns]
      rfl
    have hstore' : (pl.handle r).planner.storage.store = .folder directory := by
      rw [← hruns]
      exact hstays
    obtain ⟨hafter, hothers⟩ := ih hstore' hrest (hdisk ▸ hend)
    exact ⟨hafter, List.forall_mem_append.mpr ⟨hasked, hothers⟩⟩

/-! ## Operations that fail -/

theorem disk_of_settle_error {log : Log} {t : Transition} {e : Failure}
    (h : (pl.settle log t).result = .error e) :
    (pl.settle log t).planner.storage.disk = pl.storage.disk := by
  rw [settle] at h ⊢
  cases hstored : t.stored with
  | none => rfl
  | some p =>
    cases hsave : pl.storage.save p with
    | error e' => simp only [hsave]
    | ok s => simp [hstored, hsave] at h

theorem disk_of_transact_error {id : String} {move : Plan → Transition} {e : Failure}
    (h : (pl.transact id move).result = .error e) :
    (pl.transact id move).planner.storage.disk = pl.storage.disk := by
  rw [transact] at h ⊢
  rcases hget : pl.storage.get id with ⟨_ | _ | p, log⟩
  · rfl
  · rfl
  · simp only [hget] at h
    exact disk_of_settle_error h

theorem disk_of_create_error {c : Circumstances} {path type description : String} {e : Failure}
    (h : (pl.create c path type description).result = .error e) :
    (pl.create c path type description).planner.storage.disk = pl.storage.disk := by
  rw [create] at h ⊢
  cases htype : (Vocabulary.ofWord? type : Option ChangeType) with
  | none => rfl
  | some type =>
    simp only [htype] at h ⊢
    rcases hfiles : Project.analyze pl.settings pl.storage.disk pl.root with ⟨_ | files, log⟩
    · rfl
    · simp only [hfiles] at h ⊢
      cases hrecord : files.get? path with
      | none => rfl
      | some record =>
        simp only [hrecord] at h ⊢
        split at h
        · rfl
        · cases h

theorem disk_of_delete_error {id : String} {e : Failure}
    (h : (pl.delete id).result = .error e) :
    (pl.delete id).planner.storage.disk = pl.storage.disk := by
  rw [delete] at h ⊢
  rcases hget : pl.storage.get id with ⟨_ | _ | p, log⟩
  · rfl
  · rfl
  · simp only [hget] at h ⊢
    cases hdelete : pl.storage.delete id with
    | error e' => rfl
    | ok found => simp [hdelete] at h

/-- A single operation that raises has changed no file. -/
theorem disk_of_error {r : Request} (hr : r.IsSingle) {e : Failure}
    (h : (pl.handle r).result = .error e) :
    (pl.handle r).planner.storage.disk = pl.storage.disk := by
  have hmap : ∀ {α β : Type} {o : Except Failure α} {f : α → β}, o.map f = .error e →
      o = .error e := by
    intro α β o f ho
    cases o with
    | error e' => exact congrArg Except.error (Except.error.inj ho)
    | ok a => cases ho
  cases r with
  | create c path type description => exact disk_of_create_error (hmap h)
  | execute service clock id => exact disk_of_transact_error (hmap h)
  | executeAll service clock id => exact hr.elim
  | rollBack service clock id => exact disk_of_transact_error (hmap h)
  | delete id => exact disk_of_delete_error (hmap h)
  | get id => rfl
  | list => rfl
  | summarize => rfl
  | reopen => exact hr.elim
  | surroundings change settings root => exact hr.elim

/-! ## Confinement -/

/-- What a session keeps to. -/
structure Confined (pl : Planner) (directory : String) (requests : List Request) : Prop where
  /-- The questions are those of the operations. -/
  scripted : ∀ r ∈ requests, ∀ pl : Planner,
    Desk.Runs pl.storage.disk (pl.desk.handle r) (pl.handle r)
  /-- Only files of plans are asked for. -/
  named : ∀ call ∈ pl.asked requests, ∀ path, call.2.path? = some path →
    ∃ s, IsPlanName s ∧ path = Storage.planFile directory s
  /-- Without links they are in the directory itself, and nothing else changes. -/
  within : ∀ location, pl.storage.disk.Houses directory location →
    Disk.SameOutside location pl.storage.disk (pl.after requests).storage.disk ∧
      ∀ call ∈ pl.asked requests, ∀ path, call.2.path? = some path →
        ∀ fl place, call.1.placeOf fl path = .ok place →
          ∃ s, IsPlanName s ∧ place.location = location ++ [Storage.fileName s]
  /-- An operation that meets an invalid id leaves all files as they are. -/
  refused : ∀ earlier r later, requests = earlier ++ r :: later → r.IsSingle →
    ∀ id, ((pl.after earlier).handle r).result = .error (.invalidPlanId id) →
      ((pl.after earlier).handle r).planner.storage.disk = (pl.after earlier).storage.disk

/-- Whatever the plan files hold, whatever ids are asked for, whatever the service does. -/
theorem confined {requests : List Request} (hstore : pl.storage.store = .folder directory)
    (hrequests : ∀ r ∈ requests, r.IsOperation) : pl.Confined directory requests where
  scripted r hr _ := Desk.runs_handle (hrequests r hr)
  named call hcall path hpath := by
    obtain ⟨_, hasked⟩ := session_confined (I := fun _ => True) (fun _ _ _ _ => trivial) hstore
      hrequests trivial
    obtain ⟨id, hid, hid'⟩ := (hasked call hcall).2 path hpath
    exact ⟨id, PlanId.isPlanName hid, hid'⟩
  within location hhouses := by
    obtain ⟨hafter, hasked⟩ := session_confined
      (I := fun d => d.Houses directory location ∧
        Disk.SameOutside location pl.storage.disk d)
      (fun d a hd ha => ⟨(Ask.perform_confined hd.1 ha).1,
        hd.2.trans (Ask.perform_confined hd.1 ha).2⟩) hstore hrequests
      ⟨hhouses, .refl location pl.storage.disk⟩
    refine ⟨hafter.2, fun call hcall path hpath fl place hplace => ?_⟩
    obtain ⟨hthere, hconfined⟩ := hasked call hcall
    obtain ⟨id, hid, rfl⟩ := hconfined path hpath
    exact ⟨id, PlanId.isPlanName hid,
      hthere.1.eq_of_placeOf (Storage.isName_fileName hid) hplace⟩
  refused _ _ _ _ hr _ herror := disk_of_error hr herror

end Planner

namespace Sample

/-- A plan whose id leads out of the directory. -/
def stray : Plan := { shelved with id := "../../y" }

def strays : Entries := [("y.json", .file (Storage.textOfPlan stray).toUTF8)]

/-- It stands in a file with a valid name. -/
def tampered : Planner where
  storage :=
    { disk := { top := [("home", .dir [("plans", .dir strays)])] }
      store := .folder "home/plans" }

def intrusion : List Request :=
  [.execute .reporting noonClock "y", .delete "../plans/y", .get "y\x00", .list, .delete "y"]

theorem houses_tampered : tampered.storage.disk.Houses "home/plans" ["home", "plans"] := by
  refine ⟨by decide, rfl, strays, rfl, fun name target hlink => ?_⟩
  simp only [strays, Entries.find?] at hlink
  split at hlink <;> cases hlink

theorem found_stray : Storage.Found "home/plans" strays "y" stray :=
  ⟨by decide, ⟨Storage.isName_fileName (by decide), by decide, by decide⟩, _, rfl,
    Storage.readsAs_saved { canonical_shelved with }⟩

/-- The service does its step, but the plan cannot be kept after it. -/
theorem refused_stray : (tampered.execute .reporting noonClock "y").result =
    .error (.invalidPlanId "../../y") := by
  have hkept : tampered.storage.KeptIn "home/plans" strays :=
    ⟨rfl, by decide, ["home", "plans"], rfl, rfl⟩
  rw [Planner.execute, Planner.transact, hkept.get_of_found found_stray]
  decide +kernel

end Sample

namespace Planner

theorem confined_sample : Sample.tampered.Confined "home/plans" Sample.intrusion ∧
    Sample.tampered.storage.disk.Houses "home/plans" ["home", "plans"] ∧
      (Sample.tampered.handle (.execute .reporting Sample.noonClock "y")).result =
        .error (.invalidPlanId "../../y") := by
  refine ⟨confined rfl (by simp [Sample.intrusion, Request.IsOperation]),
    Sample.houses_tampered, ?_⟩
  rw [handle, Outcome.map_result, Sample.refused_stray]
  rfl

end Planner

end ChangeImpact
