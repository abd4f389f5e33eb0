import ChangeImpact.Proofs.Plan.StoreLaws

/-!
# Proofs.Plan.Fate

What becomes of one plan of a storage, and of the storage with it.

* `Fate`           — the plan stays as it is, becomes another one, or goes.
* `Storage.after`  — the storage then, down to the bytes on the disk.
* `Storage.save_eq`, `Storage.delete_eq` — keeping a plan and forgetting it are such changes.
* `Storage.after_comm` — the fates of two plans may come in either order.
* `Storage.after_after` — two fates of one plan are one.
-/

namespace ChangeImpact

inductive Fate where
  | stays
  | becomes (p : Plan)
  | goes

namespace Fate

/-- What is found afterwards where `found` was before. -/
def leaves (found : Option Plan) : Fate → Option Plan
  | stays => found
  | becomes p => some p
  | goes => none

def keeps : Fate → Bool
  | goes => false
  | _ => true

def andThen (fate : Fate) : Fate → Fate
  | stays => fate
  | later => later

/-- Nothing becomes of a plan that is not there; what becomes of one has its id. -/
inductive Suits (id : String) (found : Option Plan) : Fate → Prop
  | stays : Suits id found .stays
  | becomes {p q : Plan} (hfound : found = some p) (hid : q.id = id) (hq : q.Canonical) :
      Suits id found (.becomes q)
  | goes {p : Plan} (hfound : found = some p) : Suits id found .goes

theorem keeps_of_leaves {found : Option Plan} {fate : Fate} {p : Plan}
    (h : fate.leaves found = some p) : fate.keeps = true := by
  cases fate with
  | stays | becomes => rfl
  | goes => cases h

theorem Suits.andThen {id : String} {found : Option Plan} {fate later : Fate}
    (h : fate.Suits id found) (hlater : later.Suits id (fate.leaves found)) :
    (fate.andThen later).Suits id found := by
  have hthere : ∀ {q}, fate.leaves found = some q → ∃ p, found = some p := by
    intro q hq
    cases h with
    | stays => exact ⟨q, hq⟩
    | becomes hfound => exact ⟨_, hfound⟩
    | goes => cases hq
  cases hlater with
  | stays => exact h
  | becomes hfound hid hq => exact .becomes (hthere hfound).choose_spec hid hq
  | goes hfound => exact .goes (hthere hfound).choose_spec

end Fate

/-! ## Maps of plans -/

namespace Keyed

theorem ext_of_get? {α : Type} {m m' : Keyed α} (hkeys : m'.keys = m.keys)
    (hget : ∀ k, m'.get? k = m.get? k) : m' = m := by
  have hentries : ∀ m : Keyed α, m.entries = m.keys.filterMap fun k =>
      (m.get? k).map fun a => (k, a) := by
    intro m
    have hentry : ∀ e ∈ m.entries,
        ((fun k => (m.get? k).map fun a => (k, a)) ∘ Prod.fst) e = some e := by
      intro e he
      rw [Function.comp_apply, m.get?_eq_some_iff.mpr he]
      rfl
    rw [keys, List.filterMap_map, List.filterMap_congr hentry, List.filterMap_some]
  apply ext_entries
  rw [hentries m', hentries m, hkeys]
  simp only [hget]

/-- The plans after one of them has met its fate. -/
def after (plans : Keyed Plan) (id : String) : Fate → Keyed Plan
  | .stays => plans
  | .becomes p => plans.insert id p
  | .goes => plans.erase id

variable {plans : Keyed Plan} {id x y : String} {fate later f g : Fate}

theorem get?_after (plans : Keyed Plan) (id : String) (fate : Fate) (k : String) :
    (plans.after id fate).get? k =
      if id = k then fate.leaves (plans.get? k) else plans.get? k := by
  cases fate with
  | stays => exact (ite_self _).symm
  | becomes p => exact get?_insert plans id k p
  | goes => exact get?_erase plans id k

theorem get?_after_self (plans : Keyed Plan) (id : String) (fate : Fate) :
    (plans.after id fate).get? id = fate.leaves (plans.get? id) := by
  rw [get?_after, if_pos rfl]

/-- A plan that becomes another one keeps its place. -/
theorem keys_after (h : fate.Suits id (plans.get? id)) :
    (plans.after id fate).keys = plans.keys.filter fun k => fate.keeps || k != id := by
  cases h with
  | stays => exact (List.filter_eq_self.mpr fun _ _ => rfl).symm
  | becomes hfound =>
    have hkey : id ∈ plans.keys := mem_keys.mpr ⟨_, hfound⟩
    rw [after, keys_insert, if_pos hkey]
    exact (List.filter_eq_self.mpr fun _ _ => rfl).symm
  | goes => exact plans.keys_erase id

theorem suits_after (hne : x ≠ y) (hg : g.Suits y (plans.get? y)) :
    g.Suits y ((plans.after x f).get? y) := by
  rwa [get?_after, if_neg hne]

theorem after_comm (hne : x ≠ y) (hf : f.Suits x (plans.get? x)) (hg : g.Suits y (plans.get? y)) :
    (plans.after x f).after y g = (plans.after y g).after x f := by
  apply ext_of_get?
  · rw [keys_after (suits_after hne hg), keys_after hf, keys_after (suits_after hne.symm hf),
      keys_after hg, List.filter_comm]
  · intro k
    simp only [get?_after]
    by_cases hx : x = k
    · have hy : y ≠ k := fun hy => hne (hx.trans hy.symm)
      rw [if_neg hy, if_pos hx, if_pos hx, if_neg hy]
    · rw [if_neg hx, if_neg hx]

theorem after_after (h : fate.Suits id (plans.get? id))
    (hlater : later.Suits id (fate.leaves (plans.get? id))) :
    (plans.after id fate).after id later = plans.after id (fate.andThen later) := by
  have hnext : later.Suits id ((plans.after id fate).get? id) := by rwa [get?_after_self]
  apply ext_of_get?
  · rw [keys_after hnext, keys_after h, keys_after (h.andThen hlater), List.filter_filter]
    refine List.filter_congr fun k _ => ?_
    cases hlater with
    | stays => exact Bool.true_and _
    | becomes hfound =>
      rw [Fate.keeps_of_leaves hfound]
      rfl
    | goes => cases fate <;> simp [Fate.keeps, Fate.andThen]
  · intro k
    simp only [get?_after]
    by_cases hk : id = k
    · subst hk
      rw [if_pos rfl, if_pos rfl, if_pos rfl]
      cases later <;> rfl
    · simp only [if_neg hk]

end Keyed

/-! ## Directories of plan files -/

namespace Entries

variable {es : Entries} {name x y : String} {fate later f g : Fate}

/-- The entries after the plan in one of them has met its fate. -/
def after (name : String) (fate : Fate) (es : Entries) : Entries :=
  match fate with
  | .stays => es
  | .becomes p => es.set name (.file (Storage.textOfPlan p).toUTF8)
  | .goes => es.drop name

/-- What is found under the name. -/
def left (found : Option Node) : Fate → Option Node
  | .stays => found
  | .becomes p => some (.file (Storage.textOfPlan p).toUTF8)
  | .goes => none

theorem find?_after (n : String) :
    (es.after name fate).find? n = if name = n then left (es.find? n) fate else es.find? n := by
  cases fate with
  | stays => exact (ite_self _).symm
  | becomes p => exact find?_set name n _ es
  | goes => exact find?_drop name n es

theorem ascending_after (h : es.Ascending) : (es.after name fate).Ascending := by
  cases fate with
  | stays => exact h
  | becomes p => exact ascending_set h name _
  | goes => exact ascending_drop h name

theorem sameShape_after (h : es.FileOrFree name) : SameShape es (es.after name fate) :=
  sameShape_of_find? h fun _ hn => by rw [find?_after, if_neg hn.symm]

theorem after_comm (h : es.Ascending) (hne : x ≠ y) :
    (es.after x f).after y g = (es.after y g).after x f := by
  refine ext_of_find? (ascending_after (ascending_after h)) (ascending_after (ascending_after h)) ?_
  intro n
  simp only [find?_after]
  by_cases hx : x = n
  · have hy : y ≠ n := fun hy => hne (hx.trans hy.symm)
    simp only [if_neg hy, if_pos hx]
  · simp only [if_neg hx]

theorem after_after (h : es.Ascending) :
    (es.after name fate).after name later = es.after name (fate.andThen later) := by
  refine ext_of_find? (ascending_after h) (ascending_after (ascending_after h)) ?_
  intro n
  simp only [find?_after]
  by_cases hn : name = n
  · simp only [if_pos hn]
    cases later <;> rfl
  · simp only [if_neg hn]

end Entries

/-! ## Storages -/

namespace Storage

/-- The storage after one of its plans has met its fate. -/
def after (s : Storage) (id : String) (fate : Fate) : Storage :=
  match s.store with
  | .memory plans => { s with store := .memory (plans.after id fate) }
  | .folder directory =>
    -- where names are not in order above the directory, even writing it unchanged moves it
    match fate with
    | .stays => s
    | fate => { s with disk := s.disk.amendAt directory (Entries.after (fileName id) fate) }

variable {s : Storage} {plans : Keyed Plan} {id x y : String} {fate later f g : Fate} {p q : Plan}

@[simp] theorem after_stays (s : Storage) (id : String) : s.after id .stays = s := by
  obtain ⟨disk, store⟩ := s
  cases store <;> rfl

theorem after_memory (h : s.store = .memory plans) :
    s.after id fate = { s with store := .memory (plans.after id fate) } := by
  rw [after, h]

theorem after_folder {directory : String} (h : s.store = .folder directory)
    (hfate : fate ≠ .stays) : s.after id fate =
      { s with disk := s.disk.amendAt directory (Entries.after (fileName id) fate) } := by
  simp only [after, h]

/-- Two changes of the directory are one. -/
theorem after_folder_after {directory : String} {es : Entries}
    (hstore : s.store = .folder directory)
    (hfolder : s.disk.Folder directory es) (hf : f ≠ .stays) (hg : g ≠ .stays) :
    (s.after x f).after y g = { s with
      disk := s.disk.amendAt directory
        (Entries.after (fileName y) g ∘ Entries.after (fileName x) f) } := by
  have hshape : Entries.SameShape es (es.after (fileName x) f) :=
    Entries.sameShape_after (hfolder.fileOrFree _)
  have hstore' : (s.after x f).store = .folder directory := by
    rw [after_folder hstore hf]
    exact hstore
  rw [after_folder hstore' hg, after_folder hstore hf]
  simp only [hfolder.lists.amendAt_amendAt hshape]

theorem save_eq (h : s.Holds plans) (hp : plans.get? q.id = some p) :
    s.save q = .ok (s.after q.id (.becomes q)) := by
  rcases h.kept with hstore | ⟨directory, es, hstore, hfolder, hfiles⟩
  · simp only [Storage.save, hstore, after_memory hstore, Keyed.after]
  · have hwrite := hfolder.lists.write_eq (hfolder.fileOrFree _) (hfiles.fits hp)
      (textOfPlan q).toUTF8
    rw [after_folder hstore (by simp)]
    simp only [Storage.save, hstore, hfiles.valid hp, if_true, planFile_eq, Disk.writeText, hwrite]
    rfl

theorem delete_eq (h : s.Holds plans) (hp : plans.get? id = some p) :
    s.delete id = .ok (true, s.after id .goes) := by
  rcases h.kept with hstore | ⟨directory, es, hstore, hfolder, hfiles⟩
  · simp only [Storage.delete, hstore, after_memory hstore, Keyed.after, Keyed.contains, hp,
      Option.isSome_some]
  · have hfits := hfiles.fits hp
    have hpresent := hfolder.isPresent hfits
    rw [hfiles.file hp, Option.isSome_some] at hpresent
    have hunlink := hfolder.lists.unlink_eq (hfolder.fileOrFree _) hfits (hfiles.file hp)
    rw [after_folder hstore (by simp)]
    simp only [Storage.delete, hstore, hfiles.valid hp, Bool.not_true, Bool.false_eq_true, if_false,
      planFile_eq, hpresent, hunlink]
    rfl

/-- The storage holds what is left, in the same place. -/
theorem holds_after (h : s.Holds plans) (hsuits : fate.Suits id (plans.get? id)) :
    (s.after id fate).Holds (plans.after id fate) ∧
      (s.after id fate).directory? = s.directory? := by
  cases hsuits with
  | stays =>
    rw [after_stays]
    exact ⟨h, rfl⟩
  | @becomes p q hfound hid hq =>
    subst hid
    obtain ⟨s', hsave, hholds, hdirectory⟩ := h.save hq (h.admits hfound)
    rw [save_eq h hfound, Except.ok.injEq] at hsave
    rw [hsave]
    exact ⟨hholds, hdirectory⟩
  | goes hfound =>
    obtain ⟨s', hdelete, hholds, hdirectory⟩ := h.delete hfound
    simp only [delete_eq h hfound, Except.ok.injEq, Prod.mk.injEq, true_and] at hdelete
    rw [hdelete]
    exact ⟨hholds, hdirectory⟩

theorem after_comm (h : s.Holds plans) (hne : x ≠ y) (hf : f.Suits x (plans.get? x))
    (hg : g.Suits y (plans.get? y)) : (s.after x f).after y g = (s.after y g).after x f := by
  by_cases hf' : f = .stays
  · rw [hf', after_stays, after_stays]
  by_cases hg' : g = .stays
  · rw [hg', after_stays, after_stays]
  rcases h.kept with hstore | ⟨directory, es, hstore, hfolder, hfiles⟩
  · rw [after_memory hstore, after_memory rfl, after_memory hstore, after_memory rfl,
      Keyed.after_comm hne hf hg]
  · have hname : fileName x ≠ fileName y := fun hname => hne (fileName_inj hname)
    have hcomm : (Entries.after (fileName y) g ∘ Entries.after (fileName x) f) es =
        (Entries.after (fileName x) f ∘ Entries.after (fileName y) g) es :=
      Entries.after_comm hfolder.ascending hname
    rw [after_folder_after hstore hfolder hf' hg', after_folder_after hstore hfolder hg' hf',
      hfolder.lists.amendAt_congr hcomm]

theorem after_after (h : s.Holds plans) (hsuits : fate.Suits id (plans.get? id))
    (hlater : later.Suits id (fate.leaves (plans.get? id))) :
    (s.after id fate).after id later = s.after id (fate.andThen later) := by
  by_cases hfate : fate = .stays
  · rw [hfate, after_stays]
    cases later <;> rfl
  by_cases hlater' : later = .stays
  · rw [hlater', after_stays]
    rfl
  have hboth : fate.andThen later = later := by
    cases later with
    | stays => exact absurd rfl hlater'
    | becomes | goes => rfl
  rcases h.kept with hstore | ⟨directory, es, hstore, hfolder, hfiles⟩
  · rw [after_memory hstore, after_memory rfl, after_memory hstore,
      Keyed.after_after hsuits hlater]
  · have hafter : (Entries.after (fileName id) later ∘ Entries.after (fileName id) fate) es =
        Entries.after (fileName id) later es := by
      rw [Function.comp_apply, Entries.after_after hfolder.ascending, hboth]
    rw [after_folder_after hstore hfolder hfate hlater', hboth, after_folder hstore hlater',
      hfolder.lists.amendAt_congr hafter]

/-! ## Ids without a plan -/

/-- What is answered for an id without a plan depends on nothing but the place of the storage: a
name may be too long to ask for. -/
theorem exists_get_none (directory : Option String) (id : String) :
    ∃ reply : Except Failure (Option Plan), (∀ p, reply ≠ .ok (some p)) ∧
      ∀ {s : Storage} {plans : Keyed Plan}, s.Holds plans → s.directory? = directory →
        plans.get? id = none → s.get id = (reply, []) := by
  by_cases hreach : ∀ d, directory = some d → PlanId.isValid id = true →
      Disk.Fits d (fileName id)
  · refine ⟨.ok none, fun p hp => (nomatch hp), fun {s plans} h hdirectory hp => ?_⟩
    refine h.get_none_of_reaches hp fun d hd => ?_
    exact hreach d (hdirectory ▸ hd)
  · simp only [not_forall] at hreach
    obtain ⟨d, hd, hvalid, hfits⟩ := hreach
    refine ⟨.error (.disk .nameTooLong (planFile d id)), fun p hp => (nomatch hp), ?_⟩
    intro s plans h hdirectory _
    rcases h.kept with hstore | ⟨directory', es, hstore, hfolder, hfiles⟩
    · simp [directory?, hstore, hd] at hdirectory
    · obtain rfl : directory' = d := by simpa [directory?, hstore, hd] using hdirectory
      have hpresent := hfolder.lists.isPresent_of_not_fits (hfolder.fileOrFree _).noLink
        (isName_fileName hvalid) hfits
      simp only [Storage.get, hstore, hvalid, if_true, Storage.readPlan, planFile_eq, hpresent]

end Storage

end ChangeImpact
