import ChangeImpact.Proofs.Plan.StateLaw
import ChangeImpact.Proofs.Plan.Timestamps

/-!
# Proofs.Plan.Chronology

The times in plans, over whole sessions.

* `Planner.readings`    — how the clock is read in the course of a request.
* `Plan.Renewed`        — a plan that shows one more reading; `renewed_advance` and
  `renewed_rollBack` are the transitions.
* `Planner.Dated`       — how a plan that is kept after a request comes by its times.
* `Planner.handle_dated` — one request.
* `Planner.Traced`      — the readings that a plan shows; `session_traced` is a whole session.
* `Planner.Chronological`, `Planner.chronological` — lists are in the order of creation, and times
  grow as long as the clock does not go back.
-/

namespace ChangeImpact

/-- The readings that are taken first. -/
def Clock.first (c : Clock) (n : Nat) : List Moment := (List.range n).map c.reading

namespace Plan

/-- The clock is read when a step is started and when it is over, and once more where a step that is
none of the six has been carried out. -/
def readsToAdvance (service : MutationService) (clock : Clock) (p : Plan) : Nat :=
  if p.isTerminal || p.status = .known .failed then 0
  else
    match p.step, (service.performStep (p.started (clock.text 0)) p.step).failure with
    | .other _, none => 3
    | _, _ => 2

def readsToRollBack (p : Plan) : Nat := if p.isTerminal then 0 else 1

/-- The plan `q` is `p` with the time of one of the readings. -/
structure Renewed (readings : List Moment) (p q : Plan) : Prop where
  id : q.id = p.id
  createdAt : q.createdAt = p.createdAt
  updatedAt : ∃ m ∈ readings, q.updatedAt = m.text

variable {service : MutationService} {clock : Clock} {p q r : Plan} {ms ms' : List Moment}

theorem Renewed.mono (h : p.Renewed ms q) (hms : ∀ m ∈ ms, m ∈ ms') : p.Renewed ms' q := by
  obtain ⟨m, hm, htext⟩ := h.updatedAt
  exact ⟨h.id, h.createdAt, m, hms m hm, htext⟩

theorem Renewed.trans (h : p.Renewed ms q) (h' : q.Renewed ms' r) : p.Renewed ms' r :=
  ⟨h'.id.trans h.id, h'.createdAt.trans h.createdAt, h'.updatedAt⟩

theorem renewed_of_reading {n i : Nat} (hsame : p.SameContent q) (hi : i < n)
    (h : q.updatedAt = clock.text i) : p.Renewed (clock.first n) q :=
  ⟨hsame.id, hsame.createdAt, clock.reading i, List.mem_map_of_mem (List.mem_range.mpr hi), h⟩

theorem renewed_advance (h : (p.advance service clock).stored = some q) :
    p.Renewed (clock.first (p.readsToAdvance service clock)) q := by
  have hsame : p.SameContent q := (h ▸ moved_advance service clock p).sameContent
  by_cases hterminal : p.isTerminal = true
  · simp [advance, hterminal, alreadyOver] at h
  by_cases hfailed : p.status = .known .failed
  · simp [advance, hterminal, hfailed] at h
  have hstep : ∀ now, (p.started now).step = p.step := fun _ => rfl
  simp only [advance, hterminal, hfailed, Bool.false_eq_true, if_false, afterReply, hstep] at h
  simp only [readsToAdvance, hterminal, hfailed, decide_false, Bool.or_self, Bool.false_eq_true,
    if_false]
  generalize service.performStep (p.started (clock.text 0)) p.step = reply at h ⊢
  cases hfailure : reply.failure with
  | some cause =>
    rw [hfailure] at h
    simpa using renewed_of_reading hsame (by decide : 1 < 2) (by cases h; rfl)
  | none =>
    rw [hfailure] at h
    cases hplace : p.step with
    | other word =>
      simp only [passed, hstep, hplace] at h
      exact renewed_of_reading hsame (by decide : 2 < 3) (by cases h; rfl)
    | known s =>
      cases hnext : s.next? with
      | none =>
        simp only [passed, hstep, hplace, hnext] at h
        exact renewed_of_reading hsame (by decide : 1 < 2) (by cases h; rfl)
      | some next =>
        simp only [passed, hstep, hplace, hnext] at h
        exact renewed_of_reading hsame (by decide : 1 < 2) (by cases h; rfl)

theorem renewed_rollBack (h : (p.rollBack service clock).stored = some q) :
    p.Renewed (clock.first p.readsToRollBack) q := by
  have hsame : p.SameContent q := (h ▸ moved_rollBack service clock p).sameContent
  by_cases hterminal : p.isTerminal = true
  · simp [rollBack, hterminal, alreadyOver] at h
  rcases hundo : undo service p 0 p.rollbackPlan with ⟨failure, calls, log⟩
  simp only [rollBack, hterminal, Bool.false_eq_true, if_false, hundo] at h
  have hreads : 0 < p.readsToRollBack := by simp [readsToRollBack, hterminal]
  cases failure with
  | some cause => exact renewed_of_reading hsame hreads (by cases h; rfl)
  | none => exact renewed_of_reading hsame hreads (by cases h; rfl)

end Plan

namespace Planner

/-! ## Readings -/

/-- How the clock is read for the plan under an id, if there is one. -/
def readingsFor (pl : Planner) (id : String) (clock : Clock) (reads : Plan → Nat) : List Moment :=
  match (pl.storage.get id).1 with
  | .ok (some p) => clock.first (reads p)
  | _ => []

def stepReadings (service : MutationService) (id : String) : Nat → Clock → Planner → List Moment
  | 0, _, _ => []
  | fuel + 1, clock, pl =>
    let own := pl.readingsFor id clock (Plan.readsToAdvance service clock)
    let first := execute pl service clock id
    match first.result with
    | .error _ => own
    | .ok r =>
      if r.success && r.next.isSome then
        own ++ stepReadings service id fuel (clock.later 2) first.planner
      else own

/-- The readings that are taken in the course of a request. -/
def readings (pl : Planner) : Request → List Moment
  | .create c path type description =>
    match drafted pl.analysis (pl.issued + 1) c path type description with
    | .ok _ => [c.now]
    | .error _ => []
  | .execute service clock id => pl.readingsFor id clock (Plan.readsToAdvance service clock)
  | .executeAll service clock id =>
    stepReadings service id (Vocabulary.all (α := PlanStep)).length clock pl
  | .rollBack _ clock id => pl.readingsFor id clock Plan.readsToRollBack
  | _ => []

/-- The readings of a session. -/
def allReadings (pl : Planner) : List Request → List Moment
  | [] => []
  | r :: rest => pl.readings r ++ allReadings (pl.handle r).planner rest

theorem allReadings_append (requests more : List Request) :
    ∀ pl : Planner, pl.allReadings (requests ++ more) =
      pl.allReadings requests ++ (pl.after requests).allReadings more := by
  induction requests with
  | nil => exact fun _ => rfl
  | cons r rest ih =>
    intro pl
    rw [List.cons_append, allReadings, allReadings, ih, List.append_assoc, after]

variable {pl : Planner} {plans : Keyed Plan} {id : String}

theorem readingsFor_of_holds (h : pl.storage.Holds plans) {p : Plan} (hp : plans.get? id = some p)
    (clock : Clock) (reads : Plan → Nat) :
    pl.readingsFor id clock reads = clock.first (reads p) := by
  rw [readingsFor, h.get hp]

/-! ## Operations -/

/-- Each plan is one from before, or it shows one of the readings. -/
def Redates (readings : List Moment) (plans after : Keyed Plan) : Prop :=
  ∀ id q, after.get? id = some q →
    ∃ p, plans.get? id = some p ∧ (q = p ∨ p.Renewed readings q)

theorem redates_refl (readings : List Moment) (plans : Keyed Plan) :
    Redates readings plans plans :=
  fun _ q hq => ⟨q, hq, .inl rfl⟩

theorem Redates.trans {readings more : List Moment} {plans between after : Keyed Plan}
    (h : Redates readings plans between) (h' : Redates more between after) :
    Redates (readings ++ more) plans after := by
  intro id r hr
  obtain ⟨q, hq, hqr⟩ := h' id r hr
  obtain ⟨p, hp, hpq⟩ := h id q hq
  have hmore : ∀ m ∈ more, m ∈ readings ++ more := fun m hm => List.mem_append_right _ hm
  have hreadings : ∀ m ∈ readings, m ∈ readings ++ more := fun m hm => List.mem_append_left _ hm
  refine ⟨p, hp, ?_⟩
  rcases hpq with rfl | hpq
  · exact hqr.imp_right fun hqr => hqr.mono hmore
  · rcases hqr with rfl | hqr
    · exact .inr (hpq.mono hreadings)
    · exact .inr ((hpq.trans hqr).mono hmore)

theorem redates_insert {readings : List Moment} {p q : Plan} (hp : plans.get? id = some p)
    (h : p.Renewed readings q) : Redates readings plans (plans.insert id q) := by
  intro other r hr
  rw [Keyed.get?_insert] at hr
  split at hr
  · next hid =>
    cases hr
    exact ⟨p, hid ▸ hp, .inr h⟩
  · exact ⟨r, hr, .inl rfl⟩

theorem transact_redates (h : pl.storage.Holds plans) (id : String) (clock : Clock)
    {move : Plan → Transition} {reads : Plan → Nat}
    (hmove : ∀ p : Plan, p.Moved (move p).calls (move p).stored)
    (hrenewed : ∀ p q, (move p).stored = some q → p.Renewed (clock.first (reads p)) q) :
    ∃ after, (transact pl id move).planner.storage.Holds after ∧
      Redates (pl.readingsFor id clock reads) plans after := by
  cases hp : plans.get? id with
  | none =>
    obtain ⟨e, hyields⟩ : ∃ e, pl.Yields (transact pl id move) (.error e) [] plans :=
      transact_none h hp
    exact ⟨plans, hyields.holds, redates_refl _ _⟩
  | some p =>
    have hyields := transact_some h hp (hmove p)
    refine ⟨_, hyields.holds, ?_⟩
    rw [readingsFor_of_holds h hp]
    cases hstored : (move p).stored with
    | none => exact redates_refl _ _
    | some q => exact redates_insert hp (hrenewed p q hstored)

theorem executeSteps_redates (service : MutationService) (id : String) (fuel : Nat) :
    ∀ (clock : Clock) {pl : Planner} {plans : Keyed Plan}, pl.storage.Holds plans →
      ∃ after, (executeSteps service id fuel clock pl).planner.storage.Holds after ∧
        Redates (stepReadings service id fuel clock pl) plans after := by
  induction fuel with
  | zero => exact fun clock pl plans h => ⟨plans, h, redates_refl _ _⟩
  | succ fuel ih =>
    intro clock pl plans h
    obtain ⟨between, hholds, hredates⟩ :=
      transact_redates h id clock (Plan.moved_advance service clock)
        fun _ _ hstored => Plan.renewed_advance hstored
    have hholds : (execute pl service clock id).planner.storage.Holds between := hholds
    rw [executeSteps, stepReadings]
    cases hresult : (execute pl service clock id).result with
    | error e => exact ⟨between, hholds, hredates⟩
    | ok r =>
      simp only
      split
      · obtain ⟨after, hafter, hrest⟩ := ih (clock.later 2) hholds
        exact ⟨after, hafter, hredates.trans hrest⟩
      · exact ⟨between, hholds, hredates⟩

/-- How a plan that is kept after a request comes by its times. -/
inductive Dated (pl : Planner) (r : Request) (before : Option Plan) (q : Plan) : Prop
  | kept (h : before = some q)
  | renewed (p : Plan) (h : before = some p) (hrenewed : p.Renewed (pl.readings r) q)
  | created (now : Moment) (h : (pl.handle r).created? = some q) (hreads : pl.readings r = [now])
      (hcreated : q.createdAt = now.text) (hupdated : q.updatedAt = now.text)

theorem dated_of_redates (r : Request) {after : Keyed Plan}
    (h : Redates (pl.readings r) plans after) {q : Plan} (hq : after.get? id = some q) :
    pl.Dated r (plans.get? id) q := by
  obtain ⟨p, hp, rfl | hrenewed⟩ := h id q hq
  · exact .kept hp
  · exact .renewed p hp hrenewed

theorem create_dated (h : pl.storage.Holds plans) (c : Circumstances)
    (path type description : String) :
    ∃ after, (pl.create c path type description).planner.storage.Holds after ∧
      ∀ id q, after.get? id = some q →
        pl.Dated (.create c path type description) (plans.get? id) q := by
  rcases create_cases h with ⟨e, _, _, hstorage⟩ | ⟨p, hp, hyields⟩
  · exact ⟨plans, hstorage ▸ h, fun _ _ hq => .kept hq⟩
  · refine ⟨_, hyields.holds, fun id q hq => ?_⟩
    rw [Keyed.get?_insert] at hq
    split at hq
    · cases hq
      obtain ⟨found, kind, record, _, _, rfl⟩ := drafted_eq_ok hp
      refine .created c.now ?_ ?_ rfl rfl
      · simp [Outcome.created?, handle, hyields.result, Except.map]
      · rw [readings, hp]
    · exact .kept hq

/-- Every request leaves plans behind whose times can be told. -/
theorem handle_dated (h : pl.storage.Holds plans) (r : Request)
    (hspared : ∀ change settings root, r = .surroundings change settings root →
      pl.storage.SparedBy change) :
    ∃ after, (pl.handle r).planner.storage.Holds after ∧
      ∀ id q, after.get? id = some q → pl.Dated r (plans.get? id) q := by
  have hlook : pl.storage.Holds plans ∧ ∀ id q, plans.get? id = some q →
      pl.Dated r (plans.get? id) q := ⟨h, fun _ _ hq => .kept hq⟩
  cases r with
  | create c path type description => exact create_dated h c path type description
  | execute service clock id =>
    obtain ⟨after, hafter, hredates⟩ :=
      transact_redates h id clock (Plan.moved_advance service clock)
        fun _ _ hstored => Plan.renewed_advance hstored
    exact ⟨after, hafter, fun _ _ hq => dated_of_redates (.execute service clock id) hredates hq⟩
  | executeAll service clock id =>
    obtain ⟨after, hafter, hredates⟩ :=
      executeSteps_redates service id (Vocabulary.all (α := PlanStep)).length clock h
    exact ⟨after, hafter, fun _ _ hq => dated_of_redates (.executeAll service clock id) hredates hq⟩
  | rollBack service clock id =>
    obtain ⟨after, hafter, hredates⟩ :=
      transact_redates h id clock (Plan.moved_rollBack service clock)
        fun _ _ hstored => Plan.renewed_rollBack hstored
    exact ⟨after, hafter, fun _ _ hq => dated_of_redates (.rollBack service clock id) hredates hq⟩
  | delete id =>
    cases hp : plans.get? id with
    | none =>
      obtain ⟨e, hyields⟩ := delete_none h hp
      exact ⟨plans, hyields.holds, hlook.2⟩
    | some p =>
      refine ⟨_, (delete_some h hp).holds, fun other q hq => ?_⟩
      rw [Keyed.get?_erase] at hq
      split at hq
      · cases hq
      · exact .kept hq
  | get id => exact ⟨plans, hlook⟩
  | list => exact ⟨plans, hlook⟩
  | summarize => exact ⟨plans, hlook⟩
  | reopen =>
    rw [handle, reopen_eq h]
    exact ⟨plans, hlook⟩
  | surroundings change settings root =>
    exact ⟨plans, h.spared (hspared change settings root rfl), hlook.2⟩

/-! ## Sessions -/

/-- No reading is earlier than one that was taken before it. -/
def NeverBack (readings : List Moment) : Prop := readings.Pairwise fun m m' => ¬ m' < m

theorem NeverBack.of_append {readings more : List Moment} (h : NeverBack (readings ++ more)) :
    NeverBack readings ∧ ∀ m ∈ readings, ∀ m' ∈ more, ¬ m' < m := by
  rw [NeverBack, List.pairwise_append] at h
  exact ⟨h.1, h.2.2⟩

/-- The plan `p` was created when the clock was read as `m`. -/
def MadeAt (pl : Planner) (requests : List Request) (p : Plan) (m : Moment) : Prop :=
  ∃ before r rest q, requests = before ++ r :: rest ∧
    ((pl.after before).handle r).created? = some q ∧ q.id = p.id ∧
    (pl.after before).readings r = [m] ∧ p.createdAt = m.text

variable {requests : List Request} {p q : Plan} {m u : Moment}

theorem MadeAt.append (h : pl.MadeAt requests p m) (hid : q.id = p.id)
    (hcreated : q.createdAt = p.createdAt) (more : List Request) :
    pl.MadeAt (requests ++ more) q m := by
  obtain ⟨before, r, rest, p', rfl, hp', hid', hreads, htext⟩ := h
  exact ⟨before, r, rest ++ more, p', by simp, hp', hid'.trans hid.symm, hreads,
    hcreated.trans htext⟩

theorem MadeAt.createdAt (h : pl.MadeAt requests p m) : p.createdAt = m.text := by
  obtain ⟨_, _, _, _, _, _, _, _, htext⟩ := h
  exact htext

/-- The readings that a plan shows: one was taken when it was made, and the other one then or
later. -/
structure Traced (pl : Planner) (requests : List Request) (p : Plan) (m u : Moment) : Prop where
  made : pl.MadeAt requests p m
  mem : m ∈ pl.allReadings requests ∧ u ∈ pl.allReadings requests
  updatedAt : p.updatedAt = u.text
  forward : NeverBack (pl.allReadings requests) → ¬ u < m

/-- One request after a session. -/
theorem traced_of_dated {r : Request} {before : Option Plan}
    (h : (pl.after requests).Dated r before q)
    (hbefore : ∀ p, before = some p → ∃ m u, pl.Traced requests p m u) :
    ∃ m u, pl.Traced (requests ++ [r]) q m u := by
  have hreadings : pl.allReadings (requests ++ [r]) =
      pl.allReadings requests ++ (pl.after requests).readings r := by
    rw [allReadings_append, allReadings, allReadings, List.append_nil]
  cases h with
  | kept h =>
    obtain ⟨m, u, hmade, ⟨hm, hu⟩, hupdated, hforward⟩ := hbefore q h
    refine ⟨m, u, hmade.append rfl rfl _, ?_, hupdated, fun hback => ?_⟩
    · rw [hreadings]
      exact ⟨List.mem_append_left _ hm, List.mem_append_left _ hu⟩
    · exact hforward (hreadings ▸ hback).of_append.1
  | renewed p h hrenewed =>
    obtain ⟨m, _, hmade, ⟨hm, _⟩, _, _⟩ := hbefore p h
    obtain ⟨u, hu, htext⟩ := hrenewed.updatedAt
    refine ⟨m, u, hmade.append hrenewed.id hrenewed.createdAt _, ?_, htext, fun hback => ?_⟩
    · rw [hreadings]
      exact ⟨List.mem_append_left _ hm, List.mem_append_right _ hu⟩
    · exact (hreadings ▸ hback).of_append.2 m hm u hu
  | created now h hreads hcreated hupdated =>
    have hnow : now ∈ pl.allReadings (requests ++ [r]) := by
      rw [hreadings, hreads]
      exact List.mem_append_right _ List.mem_cons_self
    refine ⟨now, now, ?_, ⟨hnow, hnow⟩, hupdated, fun _ => Moment.lt_irrefl now⟩
    exact ⟨requests, r, [], q, rfl, h, rfl, hreads, hcreated⟩

theorem session_traced (hempty : pl.storage.IsEmpty) (requests : List Request)
    (hspared : pl.Undisturbed requests) :
    ∃ plans, (pl.after requests).storage.Holds plans ∧
      ∀ id p, plans.get? id = some p → ∃ m u, pl.Traced requests p m u := by
  induction requests using List.reverseRecOn with
  | nil => exact ⟨.empty, Storage.holds_empty hempty, fun id p hp => by simp at hp⟩
  | append_singleton requests r ih =>
    obtain ⟨hbefore, hr, _⟩ := undisturbed_append.mp hspared
    obtain ⟨plans, hholds, htraced⟩ := ih hbefore
    obtain ⟨after, hafter, hdated⟩ := handle_dated hholds r hr
    rw [after_append]
    exact ⟨after, hafter, fun id q hq => traced_of_dated (hdated id q hq) (htraced id)⟩

/-- Lists and times of plans follow the clock. -/
structure Chronological (pl : Planner) (requests : List Request) : Prop where
  order : ∀ m m' : Moment, m.Fits → m'.Fits → (m.text < m'.text ↔ m < m')
  listed : ∃ (found : List Plan) (made : Plan → Moment),
    (pl.after requests).storage.list.1 = .ok found ∧ (found.map (·.id)).Nodup ∧
    (∀ id p, (pl.after requests).Keeps id p ↔ p ∈ found ∧ p.id = id) ∧
    (∀ p ∈ found, pl.MadeAt requests p (made p)) ∧
    found.Pairwise fun p q => ¬ made q < made p
  aged : NeverBack (pl.allReadings requests) →
    ∀ id p, (pl.after requests).Keeps id p → p.createdAt ≤ p.updatedAt
  forward : NeverBack (pl.allReadings requests) →
    ∀ before r rest, requests = before ++ r :: rest →
      ∀ id p q, (pl.after before).Keeps id p → ((pl.after before).handle r).planner.Keeps id q →
        p.updatedAt ≤ q.updatedAt

/-- A request does not turn the time of a plan back, nor that of another one in its place. -/
theorem le_of_dated {r : Request} (h : (pl.after requests).Dated r (some p) q)
    (htraced : pl.Traced requests p m u)
    (hfits : ∀ m ∈ pl.allReadings requests ++ (pl.after requests).readings r, m.Fits)
    (hback : NeverBack (pl.allReadings requests ++ (pl.after requests).readings r)) :
    p.updatedAt ≤ q.updatedAt := by
  have hlater : ∀ m' ∈ (pl.after requests).readings r, q.updatedAt = m'.text →
      p.updatedAt ≤ q.updatedAt := by
    intro m' hm' htext
    rw [htraced.updatedAt, htext]
    rw [Moment.text_le_iff (hfits u (List.mem_append_left _ htraced.mem.2))
      (hfits m' (List.mem_append_right _ hm'))]
    exact hback.of_append.2 u htraced.mem.2 m' hm'
  cases h with
  | kept h => cases h; exact le_rfl
  | renewed p' _ hrenewed =>
    obtain ⟨m', hm', htext⟩ := hrenewed.updatedAt
    exact hlater m' hm' htext
  | created now _ hreads _ hupdated => exact hlater now (hreads ▸ List.mem_cons_self) hupdated

theorem chronological (pl : Planner) (requests : List Request) (hempty : pl.storage.IsEmpty)
    (hspared : pl.Undisturbed requests) (hfits : ∀ m ∈ pl.allReadings requests, m.Fits) :
    pl.Chronological requests := by
  obtain ⟨plans, hholds, htraced⟩ := session_traced hempty requests hspared
  have hkept : ∀ id p, (pl.after requests).Keeps id p → ∃ m u, pl.Traced requests p m u :=
    fun id p hp => htraced id p ((keeps_iff hholds).mp hp)
  refine ⟨fun m m' => Moment.text_lt_iff, ?_, ?_, ?_⟩
  · obtain ⟨found, hlist, hnodup, hkeeps, hsorted⟩ := list_of_holds hholds
    have hmade : ∀ p ∈ found, ∃ m, pl.MadeAt requests p m ∧ m.Fits := by
      intro p hp
      obtain ⟨m, u, h⟩ := hkept p.id p ((hkeeps p.id p).mpr ⟨hp, rfl⟩)
      exact ⟨m, h.made, hfits m h.mem.1⟩
    have : Nonempty Moment := ⟨Sample.noon⟩
    choose! made hmade using hmade
    refine ⟨found, made, by rw [hlist], hnodup, hkeeps, fun p hp => (hmade p hp).1, ?_⟩
    refine hsorted.imp_of_mem fun {p q} hp hq hle => ?_
    obtain ⟨hp, hpfits⟩ := hmade p hp
    obtain ⟨hq, hqfits⟩ := hmade q hq
    rwa [hp.createdAt, hq.createdAt, Moment.text_le_iff hpfits hqfits] at hle
  · intro hback id p hp
    obtain ⟨m, u, hmade, ⟨hm, hu⟩, hupdated, hforward⟩ := hkept id p hp
    rw [hmade.createdAt, hupdated, Moment.text_le_iff (hfits m hm) (hfits u hu)]
    exact hforward hback
  · rintro hback before r rest rfl id p q hp hq
    obtain ⟨hbefore, hr, _⟩ := undisturbed_append.mp hspared
    obtain ⟨plans, hholds, htraced⟩ := session_traced hempty before hbefore
    obtain ⟨after, hafter, hdated⟩ := handle_dated hholds r hr
    rw [keeps_iff hholds] at hp
    rw [keeps_iff hafter] at hq
    obtain ⟨m, u, h⟩ := htraced id p hp
    have hreadings : pl.allReadings (before ++ r :: rest) = pl.allReadings before ++
        (pl.after before).readings r ++ ((pl.after before).handle r).planner.allReadings rest := by
      rw [allReadings_append, allReadings, List.append_assoc]
    rw [hreadings] at hfits hback
    exact le_of_dated (hp ▸ hdated id q hq) h
      (fun m hm => hfits m (List.mem_append_left _ hm)) hback.of_append.1

end Planner

namespace Sample

/-- Every other text has a fraction. -/
def ticking : Clock := ⟨fun i => { noon with second := i / 2, micro := 500000 * (i % 2) }⟩

def busy : List Request := [first, .executeAll .reporting ticking id, .list]

theorem readings_busy : (planner (.memory .empty)).allReadings busy = noon :: ticking.first 12 := by
  decide +kernel

end Sample

theorem Planner.chronological_sample :
    Planner.NeverBack ((Sample.planner (.memory .empty)).allReadings Sample.busy) ∧
      (Sample.planner (.memory .empty)).Chronological Sample.busy := by
  constructor
  · rw [Sample.readings_busy, Planner.NeverBack]
    decide
  · refine chronological _ _ rfl (undisturbed_of_forall (by simp [Sample.busy, Sample.first])) ?_
    rw [Sample.readings_busy]
    intro m hm
    obtain rfl | ⟨i, hi, rfl⟩ : m = Sample.noon ∨ ∃ i < 12, Sample.ticking.reading i = m := by
      simpa [Clock.first] using hm
    · constructor <;> decide
    · constructor <;> simp only [Sample.ticking, Sample.noon] <;> omega

end ChangeImpact
