import ChangeImpact.CommandLine.Run

/-!
# Proofs.CommandLine.Actions

What the parts of a command do to the console.

* `Action.on`       — the result of an action on a console, and the console afterwards.
* `Console.Shows`   — more has been shown and reported, and nothing else has happened.
* `Action.IsQuiet`  — an action that does no more than that.
* `openPlanner_cases`, `on_settled` — the actions that change files.
* `demandPlan_of_get`, `isQuiet_askToProceed` — finding a plan, and asking before it is executed.
-/

namespace ChangeImpact.CommandLine

/-- A question that waits for an answer. -/
def Event.isQuestion : Event → Bool
  | .confirm .. => true
  | _ => false

namespace Console

/-- A question has been shown. -/
def asked (c : Console) : Bool := c.events.any Event.isQuestion

structure Shows (c c' : Console) : Prop where
  disk : c'.disk = c.disk
  locations : c'.locations = c.locations
  issued : c'.issued = c.issued
  asked : c'.asked = c.asked

theorem Shows.refl (c : Console) : Shows c c := ⟨rfl, rfl, rfl, rfl⟩

theorem Shows.trans {c c' c'' : Console} (h : Shows c c') (h' : Shows c' c'') : Shows c c'' where
  disk := h'.disk.trans h.disk
  locations := h'.locations.trans h.locations
  issued := h'.issued.trans h.issued
  asked := h'.asked.trans h.asked

end Console

namespace Action

variable {α β : Type}

def on (a : Action α) (c : Console) : Except Ending α × Console := a.run.run c

@[simp] theorem on_pure (x : α) (c : Console) : (pure x : Action α).on c = (.ok x, c) := rfl

@[simp] theorem on_throw (e : Ending) (c : Console) :
    (throw e : Action α).on c = (.error e, c) := rfl

@[simp] theorem on_exit (code : Nat) (c : Console) :
    (exit code : Action α).on c = (.error (.exit code), c) := rfl

@[simp] theorem on_get (c : Console) : (get : Action Console).on c = (.ok c, c) := rfl

@[simp] theorem on_demand_ok (x : α) (c : Console) : (demand (.ok x)).on c = (.ok x, c) := rfl

@[simp] theorem on_demand_error (e : Failure) (c : Console) :
    (demand (.error e) : Action α).on c = (.error (.failed e), c) := rfl

theorem on_bind (a : Action α) (f : α → Action β) (c : Console) :
    (a >>= f).on c =
      match a.on c with
      | (.ok x, c') => (f x).on c'
      | (.error e, c') => (.error e, c') := by
  unfold on ExceptT.run StateT.run
  simp only [bind, ExceptT.bind, ExceptT.mk, StateT.bind]
  rcases a c with ⟨_ | x, c'⟩ <;> rfl

theorem on_bind_ok {a : Action α} {f : α → Action β} {c c' : Console} {x : α}
    (h : a.on c = (.ok x, c')) : (a >>= f).on c = (f x).on c' := by
  rw [on_bind, h]

theorem on_bind_error {a : Action α} {f : α → Action β} {c c' : Console} {e : Ending}
    (h : a.on c = (.error e, c')) : (a >>= f).on c = (.error e, c') := by
  rw [on_bind, h]

/-! ## Quiet actions -/

def IsQuiet (a : Action α) : Prop := ∀ c : Console, c.Shows (a.on c).2

theorem isQuiet_pure (x : α) : IsQuiet (pure x : Action α) := Console.Shows.refl

theorem isQuiet_throw (e : Ending) : IsQuiet (throw e : Action α) := Console.Shows.refl

theorem isQuiet_bind {a : Action α} {f : α → Action β} (ha : IsQuiet a)
    (hf : ∀ x, IsQuiet (f x)) : IsQuiet (a >>= f) := by
  intro c
  have hshows := ha c
  rcases h : a.on c with ⟨_ | x, c'⟩
  · rw [h] at hshows
    rwa [on_bind_error h]
  · rw [h] at hshows
    rw [on_bind_ok h]
    exact hshows.trans (hf x c')

theorem isQuiet_emit {e : Event} (h : e.isQuestion = false) : IsQuiet (emit e) := by
  refine fun c => ⟨rfl, rfl, rfl, ?_⟩
  change (c.events ++ [e]).any Event.isQuestion = c.events.any Event.isQuestion
  simp [h]

theorem isQuiet_print (text : String) : IsQuiet (print text) := isQuiet_emit rfl

theorem isQuiet_echo (text : String) : IsQuiet (echo text) := isQuiet_emit rfl

theorem isQuiet_report (log : Log) : IsQuiet (report log) := fun _ => ⟨rfl, rfl, rfl, rfl⟩

theorem isQuiet_demand (r : Except Failure α) : IsQuiet (demand r) := by
  cases r with
  | error e => exact isQuiet_throw _
  | ok x => exact isQuiet_pure x

theorem on_attempt_ok {r : Except Failure α × Log} {x : α} (h : r.1 = .ok x) (c : Console) :
    (attempt r).on c = (.ok x, { c with log := c.log ++ r.2 }) := by
  rw [attempt, h]
  rfl

theorem on_attempt_error {r : Except Failure α × Log} {e : Failure} (h : r.1 = .error e)
    (c : Console) :
    (attempt r).on c = (.error (.failed e), { c with log := c.log ++ r.2 }) := by
  rw [attempt, h]
  rfl

theorem isQuiet_attempt (r : Except Failure α × Log) : IsQuiet (attempt r) :=
  isQuiet_bind (isQuiet_report r.2) fun _ => isQuiet_demand r.1

end Action

open ChangeImpact.CommandLine.Action

section Shown

variable {α : Type}

theorem on_showEach (items : List α) (text : α → String) :
    ∀ c, ∃ c', (showEach items text).on c = (.ok (), c') ∧ c.Shows c' := by
  induction items with
  | nil => exact fun c => ⟨c, rfl, .refl c⟩
  | cons item rest ih =>
    intro c
    obtain ⟨c', hrest, hshows⟩ := ih ((print (text item)).on c).2
    exact ⟨c', hrest, (isQuiet_print _ c).trans hshows⟩

theorem isQuiet_showEach (items : List α) (text : α → String) : (showEach items text).IsQuiet := by
  intro c
  obtain ⟨c', hshow, hshows⟩ := on_showEach items text c
  rwa [hshow]

theorem isQuiet_showSection (title style : String) (items : List String) :
    (showSection title style items).IsQuiet := by
  rw [showSection]
  split
  · exact isQuiet_pure ()
  · exact isQuiet_bind (isQuiet_print _) fun _ => isQuiet_showEach items _

theorem isQuiet_displayPlan (p : Plan) : (displayPlan p).IsQuiet := by
  refine isQuiet_bind (isQuiet_demand _) fun style => ?_
  refine isQuiet_bind (isQuiet_demand _) fun place => ?_
  refine isQuiet_bind (isQuiet_emit rfl) fun _ => ?_
  have hsections : (do
      showSection "Risks" "red" p.risks
      showSection "Affected files" "cyan" p.affected
      showSection "Procedure" "white" p.procedure
      showSection "Rollback plan" "yellow" p.rollbackPlan
      showSection "Validation checks" "green" p.validationChecks
      showSection "Recommendations" "dim" p.recommendations : Action Unit).IsQuiet :=
    isQuiet_bind (isQuiet_showSection _ _ _) fun _ =>
      isQuiet_bind (isQuiet_showSection _ _ _) fun _ =>
        isQuiet_bind (isQuiet_showSection _ _ _) fun _ =>
          isQuiet_bind (isQuiet_showSection _ _ _) fun _ =>
            isQuiet_bind (isQuiet_showSection _ _ _) fun _ => isQuiet_showSection _ _ _
  dsimp only
  split
  · split
    · exact hsections
    · exact isQuiet_bind (isQuiet_print _) fun _ => hsections
  · exact hsections

end Shown

/-! ## Files that change -/

/-- The settings are read and the directory of the plans is opened, or the command fails. -/
theorem openPlanner_cases (root : Option String) (c : Console) :
    (∃ e c', (openPlanner root).on c = (.error (.failed e), c') ∧ c.Shows c') ∨
      ∃ pl c', (openPlanner root).on c = (.ok pl, c') ∧
        Storage.openFolder c.disk c.locations.plans = .ok pl.storage ∧
        c'.disk = pl.storage.disk ∧ c'.locations = c.locations ∧ c'.asked = c.asked := by
  rcases hload : Settings.load c.locations c.disk none with ⟨_ | settings, log⟩
  · next e =>
    have herror : loadSettings.on c = (.error (.failed e), { c with log := c.log ++ log }) := by
      rw [loadSettings, on_bind_ok (on_get c), on_attempt_error (by rw [hload])]
      rw [hload]
    exact .inl ⟨e, _, on_bind_error herror, rfl, rfl, rfl, rfl⟩
  · have hok : loadSettings.on c = (.ok settings, { c with log := c.log ++ log }) := by
      rw [loadSettings, on_bind_ok (on_get c), on_attempt_ok (by rw [hload])]
      rw [hload]
    cases hopen : Storage.openFolder c.disk c.locations.plans with
    | error e =>
      refine .inl ⟨e, { c with log := c.log ++ log }, ?_, rfl, rfl, rfl, rfl⟩
      rw [openPlanner, on_bind_ok hok, on_bind_ok (on_get _)]
      simp only [hopen]
      rfl
    | ok st =>
      refine .inr ⟨{ storage := st, settings, root, issued := c.issued },
        { c with log := c.log ++ log, disk := st.disk }, ?_, rfl, rfl, rfl, rfl⟩
      rw [openPlanner, on_bind_ok hok, on_bind_ok (on_get _)]
      simp only [hopen]
      rfl

section Settled

variable {α : Type} {o : Outcome α}

theorem on_settled (o : Outcome α) (c : Console) : (settled o).on c =
    (.ok o.result, { c with disk := o.planner.storage.disk, issued := o.planner.issued,
                            log := c.log ++ o.log }) := rfl

theorem isQuiet_orTell (r : Except Failure α) : (orTell r).IsQuiet := by
  cases r with
  | ok x => exact isQuiet_pure x
  | error e =>
    rw [orTell]
    split
    · exact isQuiet_bind (isQuiet_print _) fun _ => isQuiet_throw _
    · exact isQuiet_throw _

/-- A failure ends the command, told in a line or not. -/
theorem orTell_error (e : Failure) (c : Console) :
    ∃ ending c', (orTell (.error e) : Action α).on c = (.error ending, c') ∧ ending.code = 1 ∧
      c.Shows c' := by
  rw [orTell]
  split
  · exact ⟨.exit 1, _, rfl, rfl, isQuiet_print _ c⟩
  · exact ⟨.failed e, c, rfl, rfl, .refl c⟩

end Settled

/-! ## Execution -/

section Execution

variable {planner : Planner} {id : String} {p : Plan} {c : Console}

theorem demandPlan_of_get (h : (planner.storage.get id).1 = .ok (some p)) (c : Console) :
    ∃ c', (demandPlan planner id).on c = (.ok p, c') ∧ c.Shows c' := by
  refine ⟨{ c with log := c.log ++ (planner.storage.get id).2 }, ?_, rfl, rfl, rfl, rfl⟩
  rw [demandPlan, on_bind_ok (on_attempt_ok h c)]
  rfl

theorem demandPlan_of_not_get (h : ∀ p, (planner.storage.get id).1 ≠ .ok (some p)) (c : Console) :
    ∃ ending c', (demandPlan planner id).on c = (.error ending, c') ∧ ending.code = 1 ∧
      c.Shows c' := by
  have hshows : c.Shows { c with log := c.log ++ (planner.storage.get id).2 } := ⟨rfl, rfl, rfl, rfl⟩
  rcases hget : (planner.storage.get id).1 with e | _ | p
  · exact ⟨.failed e, _, on_bind_error (on_attempt_error hget c), rfl, hshows⟩
  · refine ⟨.exit 1, _, by rw [demandPlan, on_bind_ok (on_attempt_ok hget c)]; rfl, rfl, ?_⟩
    exact hshows.trans (isQuiet_print _ _)
  · exact absurd hget (h p)

/-- The question is shown, and only a yes goes on from there. -/
theorem askToProceed_cases (p : Plan) (answer : Option Bool) (c : Console) :
    ∃ c', c'.disk = c.disk ∧ c'.locations = c.locations ∧ c'.asked = true ∧
      (askToProceed p answer).on c =
        (match answer with
          | some true => .ok ()
          | some false => .error (.exit 0)
          | none => .error .unanswered, c') := by
  obtain ⟨c₁, hrisks, hshows⟩ :=
    on_showEach p.risks (fun risk => styled "red" ("⚠ " ++ risk)) c
  let c₂ := (print (styled "yellow" (Text.count p.affected.length ++ " file(s) affected."))).on c₁ |>.2
  let c₃ := (emit (.confirm "❓ Proceed with this plan?" false)).on c₂ |>.2
  have hshows' : c.Shows c₂ := hshows.trans (isQuiet_print _ c₁)
  have hasked : c₃.asked = true := by
    change (c₂.events ++ [_]).any Event.isQuestion = true
    simp [Event.isQuestion]
  unfold askToProceed
  rw [on_bind_ok hrisks]
  cases answer with
  | none => exact ⟨c₃, hshows'.disk, hshows'.locations, hasked, rfl⟩
  | some yes =>
    cases yes with
    | true => exact ⟨c₃, hshows'.disk, hshows'.locations, hasked, rfl⟩
    | false =>
      have hcancelled := isQuiet_print "❌ Execution cancelled" c₃
      exact ⟨_, hcancelled.disk.trans hshows'.disk, hcancelled.locations.trans hshows'.locations,
        hcancelled.asked.trans hasked, rfl⟩

theorem isQuiet_showProgress (planner : Planner) (id : String) :
    (showProgress planner id).IsQuiet := by
  refine isQuiet_bind Console.Shows.refl fun d => ?_
  refine isQuiet_bind (isQuiet_attempt _) fun found => ?_
  cases found with
  | none => exact isQuiet_pure ()
  | some p =>
    refine isQuiet_bind (isQuiet_print _) fun _ => ?_
    split
    · exact isQuiet_print _
    · exact isQuiet_pure ()

theorem on_showProgress {found : Option Plan}
    (h : (({ planner.storage with disk := c.disk } : Storage).get id).1 = .ok found) :
    ∃ c', (showProgress planner id).on c = (.ok (), c') ∧ c.Shows c' := by
  have hquiet := isQuiet_showProgress planner id c
  have hdisk : disk.on c = (.ok c.disk, c) := rfl
  have hresult : ((showProgress planner id).on c).1 = .ok () := by
    rw [showProgress, on_bind_ok hdisk, on_bind_ok (on_attempt_ok h c)]
    cases found with
    | none => rfl
    | some p =>
      by_cases hfailed : p.status = .known .failed
      · simp only [hfailed, if_true]
        rfl
      · simp only [hfailed, if_false]
        rfl
  exact ⟨_, Prod.ext hresult rfl, hquiet⟩

end Execution

end ChangeImpact.CommandLine
