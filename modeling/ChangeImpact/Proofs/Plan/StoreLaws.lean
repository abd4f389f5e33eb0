import ChangeImpact.Proofs.Plan.FileStore

/-!
# Proofs.Plan.StoreLaws

Both kinds of storage are maps from ids to plans.

* `Storage.Holds`   — the storage keeps exactly the given plans, each under its own id.
* `Holds.get`, `Holds.get_none` — what is found under an id.
* `Holds.save`, `Holds.delete` — changes of the map.
* `Holds.list`      — all plans, in the order of their times.
* `Holds.openFolder`, `Holds.spared` — opening the directory once more and changing the rest of
  the disk make no difference.
-/

namespace ChangeImpact

namespace Keyed

variable {α : Type}

theorem filterMap_get?_keys (m : Keyed α) : m.keys.filterMap m.get? = m.values := by
  have hget : ∀ e ∈ m.entries, m.get? e.1 = some e.2 := fun e he =>
    (m.get?_eq_some_iff).mpr he
  have hentries : ∀ es : List (String × α), (∀ e ∈ es, m.get? e.1 = some e.2) →
      (es.map Prod.fst).filterMap m.get? = es.map (·.2) := by
    intro es
    induction es with
    | nil => exact fun _ => rfl
    | cons e rest ih =>
      intro hes
      rw [List.forall_mem_cons] at hes
      rw [List.map_cons, List.filterMap_cons_some hes.1, ih hes.2, List.map_cons]
  exact hentries m.entries hget

theorem mem_keys {m : Keyed α} {k : String} : k ∈ m.keys ↔ ∃ a, m.get? k = some a := by
  rw [m.mem_keys_iff, contains, Option.isSome_iff_exists]

theorem mem_values {m : Keyed α} {a : α} : a ∈ m.values ↔ ∃ k, m.get? k = some a := by
  simp [values, m.get?_eq_some_iff]

end Keyed

namespace Storage

/-! ## Lists of plans -/

section Lists

variable {s : Storage} {ids : List String}

theorem getAll_ok {plan : String → Option Plan} {log : String → Log}
    (h : ∀ id ∈ ids, s.get id = (.ok (plan id), log id)) :
    s.getAll ids = (.ok (ids.filterMap plan), ids.flatMap log) := by
  induction ids with
  | nil => rfl
  | cons id rest ih =>
    rw [List.forall_mem_cons] at h
    simp only [Storage.getAll, h.1, ih h.2, Except.map, List.flatMap_cons]
    cases hplan : plan id <;> simp [hplan]

/-- What was got is listed by the time of creation. -/
theorem list_of_getAll {found : List Plan} {log : Log} (hids : s.ids = .ok ids)
    (hgetAll : s.getAll ids = (.ok found, log)) :
    ∃ plans, s.list = (.ok plans, log) ∧ plans.Perm found ∧
      plans.Pairwise fun p q => p.createdAt ≤ q.createdAt := by
  let before (p q : Plan) : Bool := decide (p.createdAt ≤ q.createdAt)
  have htrans : ∀ p q r : Plan, before p q → before q r → before p r := by
    intro p q r hpq hqr
    simp only [before, decide_eq_true_eq] at hpq hqr ⊢
    exact le_trans hpq hqr
  have htotal : ∀ p q : Plan, before p q || before q p := by
    intro p q
    simp only [before, Bool.or_eq_true, decide_eq_true_eq]
    exact le_total p.createdAt q.createdAt
  have hsorted := List.pairwise_mergeSort htrans htotal found
  refine ⟨found.mergeSort before, ?_, List.mergeSort_perm _ before,
    hsorted.imp fun hle => of_decide_eq_true hle⟩
  simp only [Storage.list, hids, hgetAll, Except.map, before]

end Lists

/-! ## Plans and their files -/

/-- The files of a directory are those of the plans. -/
structure PlanFiles (directory : String) (es : Entries) (plans : Keyed Plan) : Prop where
  file : ∀ {id p}, plans.get? id = some p →
    es.find? (fileName id) = some (.file (textOfPlan p).toUTF8)
  only : ∀ {name node}, es.find? name = some node →
    ∃ id p, plans.get? id = some p ∧ name = fileName id
  valid : ∀ {id p}, plans.get? id = some p → PlanId.isValid id = true
  fits : ∀ {id p}, plans.get? id = some p → Disk.Fits directory (fileName id)

/-- The plans are exactly those of the storage, each under its own id. -/
structure Holds (s : Storage) (plans : Keyed Plan) : Prop where
  named : ∀ {id p}, plans.get? id = some p → p.id = id
  canonical : ∀ {id p}, plans.get? id = some p → p.Canonical
  kept : s.store = .memory plans ∨ ∃ directory es,
    s.store = .folder directory ∧ s.disk.Folder directory es ∧ PlanFiles directory es plans

/-- The directory of a store of files. -/
def directory? (s : Storage) : Option String :=
  match s.store with
  | .memory _ => none
  | .folder directory => some directory

/-- A change of the disk that leaves the directory of the plan files as it is. -/
def SparedBy (s : Storage) (change : Disk → Disk) : Prop :=
  ∀ directory, s.directory? = some directory →
    ((change s.disk).status directory directory).map (·.2) =
      (s.disk.status directory directory).map (·.2)

/-- A store in memory without plans, or a directory without entries. -/
def IsEmpty (s : Storage) : Prop :=
  match s.store with
  | .memory plans => plans = .empty
  | .folder directory =>
    ∃ location, s.disk.status directory directory = .ok (location, .dir [])

/-- The system can be asked for the file of an id, if it is one at all. -/
def Reaches (s : Storage) (id : String) : Prop :=
  ∀ directory, s.directory? = some directory → PlanId.isValid id = true →
    Disk.Fits directory (fileName id)

/-- The id can be the name of a plan. -/
def Admits (s : Storage) (id : String) : Prop :=
  ∀ directory, s.directory? = some directory →
    PlanId.isValid id = true ∧ Disk.Fits directory (fileName id)

namespace PlanFiles

variable {directory : String} {es : Entries} {plans : Keyed Plan}

theorem find?_eq_none (h : PlanFiles directory es plans) {id : String}
    (hid : plans.get? id = none) : es.find? (fileName id) = none := by
  cases hnode : es.find? (fileName id) with
  | none => rfl
  | some node =>
    obtain ⟨id', p, hp, hname⟩ := h.only hnode
    rw [← fileName_inj hname, hid] at hp
    cases hp

theorem set (h : PlanFiles directory es plans) {p : Plan} (hvalid : PlanId.isValid p.id = true)
    (hfits : Disk.Fits directory (fileName p.id)) :
    PlanFiles directory (es.set (fileName p.id) (.file (textOfPlan p).toUTF8))
      (plans.insert p.id p) := by
  have hget : ∀ {id q}, (plans.insert p.id p).get? id = some q →
      (id = p.id ∧ q = p) ∨ (p.id ≠ id ∧ plans.get? id = some q) := by
    intro id q hq
    rw [Keyed.get?_insert] at hq
    split at hq
    · next hid => exact .inl ⟨hid.symm, (Option.some.inj hq).symm⟩
    · next hid => exact .inr ⟨hid, hq⟩
  refine ⟨?_, ?_, ?_, ?_⟩
  · intro id q hq
    rcases hget hq with ⟨rfl, rfl⟩ | ⟨hid, hq⟩
    · simp
    · have hname : fileName p.id ≠ fileName id := fun hname => hid (fileName_inj hname)
      simp [hname, h.file hq]
  · intro name node hnode
    rw [Entries.find?_set] at hnode
    split at hnode
    · next hname => exact ⟨p.id, p, by simp, hname.symm⟩
    · obtain ⟨id, q, hq, rfl⟩ := h.only hnode
      by_cases hid : p.id = id
      · exact ⟨p.id, p, by simp, by rw [hid]⟩
      · exact ⟨id, q, by simp [hid, hq], rfl⟩
  · intro id q hq
    rcases hget hq with ⟨rfl, rfl⟩ | ⟨_, hq⟩
    · exact hvalid
    · exact h.valid hq
  · intro id q hq
    rcases hget hq with ⟨rfl, rfl⟩ | ⟨_, hq⟩
    · exact hfits
    · exact h.fits hq

theorem drop (h : PlanFiles directory es plans) (id : String) :
    PlanFiles directory (es.drop (fileName id)) (plans.erase id) := by
  have hget : ∀ {id' q}, (plans.erase id).get? id' = some q →
      id ≠ id' ∧ plans.get? id' = some q := by
    intro id' q hq
    rw [Keyed.get?_erase] at hq
    split at hq
    · cases hq
    · next hid => exact ⟨hid, hq⟩
  refine ⟨?_, ?_, ?_, ?_⟩
  · intro id' q hq
    obtain ⟨hid, hq⟩ := hget hq
    have hname : fileName id ≠ fileName id' := fun hname => hid (fileName_inj hname)
    simp [hname, h.file hq]
  · intro name node hnode
    rw [Entries.find?_drop] at hnode
    split at hnode
    · cases hnode
    · next hname =>
      obtain ⟨id', q, hq, rfl⟩ := h.only hnode
      have hid : id ≠ id' := fun hid => hname (by rw [hid])
      exact ⟨id', q, by simp [hid, hq], rfl⟩
  · exact fun hq => h.valid (hget hq).2
  · exact fun hq => h.fits (hget hq).2

/-- The names in the directory are those of the plans. -/
theorem perm_names (h : PlanFiles directory es plans) (hasc : es.Ascending) :
    (es.map (·.1)).Perm (plans.keys.map fileName) := by
  have hkeys : (plans.keys.map fileName).Nodup :=
    List.pairwise_map.mpr (plans.nodup.imp fun hne hname => hne (fileName_inj hname))
  rw [List.perm_ext_iff_of_nodup (Entries.nodup_names hasc) hkeys]
  intro name
  rw [Entries.mem_names_iff hasc, List.mem_map]
  constructor
  · rintro ⟨node, hnode⟩
    obtain ⟨id, p, hp, rfl⟩ := h.only hnode
    exact ⟨id, Keyed.mem_keys.mpr ⟨p, hp⟩, rfl⟩
  · rintro ⟨id, hid, rfl⟩
    obtain ⟨p, hp⟩ := Keyed.mem_keys.mp hid
    exact ⟨_, h.file hp⟩

/-- The ids that the names stand for. -/
theorem perm_ids (h : PlanFiles directory es plans) (hasc : es.Ascending) :
    (((es.map (·.1)).filter (endsWith ".json")).map stem).Perm plans.keys := by
  have hnames := h.perm_names hasc
  have hfilter : (plans.keys.map fileName).filter (endsWith ".json") = plans.keys.map fileName := by
    rw [List.filter_eq_self]
    intro name hname
    obtain ⟨id, _, rfl⟩ := List.mem_map.mp hname
    exact endsWith_fileName id
  have hstem : (plans.keys.map fileName).map stem = plans.keys := by
    have hid : ∀ id ∈ plans.keys, (stem ∘ fileName) id = id := by
      intro id hid
      obtain ⟨p, hp⟩ := Keyed.mem_keys.mp hid
      exact stem_fileName (PlanId.ne_empty_of_isValid (h.valid hp))
    rw [List.map_map, List.map_congr_left hid, List.map_id']
  have hperm := (hnames.filter (endsWith ".json")).map stem
  rwa [hfilter, hstem] at hperm

theorem readPlan (h : PlanFiles directory es plans) {d : Disk} (hfolder : d.Folder directory es)
    {id : String} {p : Plan} (hp : plans.get? id = some p) (hcanonical : p.Canonical) :
    readPlan d (planFile directory id) = (.ok (some p), []) := by
  have hfits := h.fits hp
  have hfile := h.file hp
  have hpresent := hfolder.isPresent hfits
  rw [hfile, Option.isSome_some] at hpresent
  exact readPlan_of_readsAs hpresent (hfolder.readBytes hfits hfile _) (readsAs_saved hcanonical)

end PlanFiles

namespace Holds

variable {s s' : Storage} {plans : Keyed Plan} {id : String} {p : Plan}

theorem get (h : s.Holds plans) (hp : plans.get? id = some p) :
    s.get id = (.ok (some p), []) := by
  rcases h.kept with hstore | ⟨directory, es, hstore, hfolder, hfiles⟩
  · simp only [Storage.get, hstore, hp]
  · simp only [Storage.get, hstore, hfiles.valid hp, if_true]
    exact hfiles.readPlan hfolder hp (h.canonical hp)

/-- A file store may fail to ask for a name that is too long for the system. -/
theorem get_none (h : s.Holds plans) (hp : plans.get? id = none) :
    s.get id = (.ok none, []) ∨ ∃ e, s.get id = (.error e, []) := by
  rcases h.kept with hstore | ⟨directory, es, hstore, hfolder, hfiles⟩
  · left
    simp only [Storage.get, hstore, hp]
  · simp only [Storage.get, hstore]
    by_cases hvalid : PlanId.isValid id = true
    · have habsent := hfolder.isPresent_ne_true (isName_fileName hvalid)
        (hfiles.find?_eq_none hp)
      simp only [hvalid, if_true, Storage.readPlan, planFile_eq]
      cases hpresent : s.disk.isPresent (Path.child directory (fileName id)) with
      | error e => exact .inr ⟨e, rfl⟩
      | ok present =>
        cases present with
        | true => contradiction
        | false => exact .inl rfl
    · simp [hvalid]

theorem get_eq_some_iff (h : s.Holds plans) :
    (s.get id).1 = .ok (some p) ↔ plans.get? id = some p := by
  cases hp : plans.get? id with
  | some q => simp [h.get hp]
  | none => rcases h.get_none hp with hget | ⟨e, hget⟩ <;> simp [hget]

theorem get_none_of_reaches (h : s.Holds plans) (hp : plans.get? id = none)
    (hreach : s.Reaches id) : s.get id = (.ok none, []) := by
  rcases h.kept with hstore | ⟨directory, es, hstore, hfolder, hfiles⟩
  · simp only [Storage.get, hstore, hp]
  · simp only [Storage.get, hstore]
    by_cases hvalid : PlanId.isValid id = true
    · have hpresent := hfolder.isPresent (hreach directory (by rw [directory?, hstore]) hvalid)
      rw [hfiles.find?_eq_none hp] at hpresent
      simp [hvalid, Storage.readPlan, planFile_eq, hpresent]
    · simp [hvalid]

/-- The plans after one more has been kept. -/
theorem insert (h : s.Holds plans) (hp : p.Canonical)
    (hkept : s'.store = .memory (plans.insert p.id p) ∨ ∃ directory es,
      s'.store = .folder directory ∧ s'.disk.Folder directory es ∧
        PlanFiles directory es (plans.insert p.id p)) :
    s'.Holds (plans.insert p.id p) := by
  refine ⟨?_, ?_, hkept⟩
  · intro id q hq
    rw [Keyed.get?_insert] at hq
    split at hq
    · next hid => exact Option.some.inj hq ▸ hid
    · exact h.named hq
  · intro id q hq
    rw [Keyed.get?_insert] at hq
    split at hq
    · exact Option.some.inj hq ▸ hp
    · exact h.canonical hq

theorem erase (h : s.Holds plans) (id : String)
    (hkept : s'.store = .memory (plans.erase id) ∨ ∃ directory es,
      s'.store = .folder directory ∧ s'.disk.Folder directory es ∧
        PlanFiles directory es (plans.erase id)) :
    s'.Holds (plans.erase id) := by
  have hget : ∀ {id' q}, (plans.erase id).get? id' = some q → plans.get? id' = some q := by
    intro id' q hq
    rw [Keyed.get?_erase] at hq
    split at hq
    · cases hq
    · exact hq
  exact ⟨fun hq => h.named (hget hq), fun hq => h.canonical (hget hq), hkept⟩

theorem save (h : s.Holds plans) (hp : p.Canonical) (hadmits : s.Admits p.id) :
    ∃ s', s.save p = .ok s' ∧ s'.Holds (plans.insert p.id p) ∧ s'.directory? = s.directory? := by
  rcases h.kept with hstore | ⟨directory, es, hstore, hfolder, hfiles⟩
  · refine ⟨{ s with store := .memory (plans.insert p.id p) }, ?_, h.insert hp (.inl rfl), ?_⟩
    · simp only [Storage.save, hstore]
    · simp only [directory?, hstore]
  · obtain ⟨hvalid, hfits⟩ := hadmits directory (by rw [directory?, hstore])
    obtain ⟨disk, hwrite, hfolder⟩ := hfolder.write hfits (textOfPlan p).toUTF8
    have hfiles := hfiles.set hvalid hfits
    refine ⟨{ s with disk }, ?_, h.insert hp (.inr ⟨directory, _, hstore, hfolder, hfiles⟩), rfl⟩
    simp only [Storage.save, hstore, hvalid, if_true, planFile_eq, Disk.writeText, hwrite]

theorem admits (h : s.Holds plans) (hp : plans.get? id = some p) : s.Admits id := by
  intro directory hdirectory
  rcases h.kept with hstore | ⟨directory', es, hstore, hfolder, hfiles⟩
  · simp [directory?, hstore] at hdirectory
  · simp only [directory?, hstore, Option.some.injEq] at hdirectory
    exact hdirectory ▸ ⟨hfiles.valid hp, hfiles.fits hp⟩

/-- A plan that has been kept shows that its id can be the name of a file. -/
theorem admits_of_save (h : s.Holds plans) (hsave : s.save p = .ok s') : s.Admits p.id := by
  intro directory hdirectory
  rcases h.kept with hstore | ⟨directory', es, hstore, hfolder, hfiles⟩
  · simp [directory?, hstore] at hdirectory
  · simp only [directory?, hstore, Option.some.injEq] at hdirectory
    subst hdirectory
    simp only [Storage.save, hstore, planFile_eq, Disk.writeText] at hsave
    split at hsave
    · next hvalid =>
      cases hwrite : s.disk.write (Path.child directory' (fileName p.id)) (textOfPlan p).toUTF8 with
      | error e =>
        rw [hwrite] at hsave
        cases hsave
      | ok disk => exact ⟨hvalid, hfolder.fits_of_write (isName_fileName hvalid) hwrite⟩
    · cases hsave

theorem delete (h : s.Holds plans) (hp : plans.get? id = some p) :
    ∃ s', s.delete id = .ok (true, s') ∧ s'.Holds (plans.erase id) ∧
      s'.directory? = s.directory? := by
  rcases h.kept with hstore | ⟨directory, es, hstore, hfolder, hfiles⟩
  · refine ⟨{ s with store := .memory (plans.erase id) }, ?_, h.erase id (.inl rfl), ?_⟩
    · simp only [Storage.delete, hstore, Keyed.contains, hp, Option.isSome_some]
    · simp only [directory?, hstore]
  · have hvalid := hfiles.valid hp
    have hfits := hfiles.fits hp
    have hpresent := hfolder.isPresent hfits
    rw [hfiles.file hp] at hpresent
    obtain ⟨disk, hunlink, hfolder⟩ := hfolder.unlink hfits (hfiles.file hp)
    have hfiles := hfiles.drop id
    refine ⟨{ s with disk }, ?_, h.erase id (.inr ⟨directory, _, hstore, hfolder, hfiles⟩), rfl⟩
    simp [Storage.delete, hstore, hvalid, planFile_eq, hpresent, hunlink]

theorem ids (h : s.Holds plans) : ∃ found, s.ids = .ok found ∧ found.Perm plans.keys := by
  rcases h.kept with hstore | ⟨directory, es, hstore, hfolder, hfiles⟩
  · exact ⟨plans.keys, by simp only [Storage.ids, hstore], .refl _⟩
  · obtain ⟨location, hstatus⟩ := hfolder.status
    have hperm := hfiles.perm_ids hfolder.ascending
    refine ⟨_, ?_, (List.mergeSort_perm _ fun a b => decide (a ≤ b)).trans hperm⟩
    simp only [Storage.ids, hstore, entriesAt, hstatus, Except.map]

theorem getAll (h : s.Holds plans) {found : List String} (hfound : ∀ id ∈ found, id ∈ plans.keys) :
    s.getAll found = (.ok (found.filterMap plans.get?), []) := by
  have hget : ∀ id ∈ found, s.get id = (.ok (plans.get? id), []) := by
    intro id hid
    obtain ⟨p, hp⟩ := Keyed.mem_keys.mp (hfound id hid)
    rw [h.get hp, hp]
  rw [getAll_ok hget, List.flatMap_eq_nil_iff.mpr fun _ _ => rfl]

theorem list (h : s.Holds plans) :
    ∃ found, s.list = (.ok found, []) ∧ found.Perm plans.values ∧
      found.Pairwise fun p q => p.createdAt ≤ q.createdAt := by
  obtain ⟨ids, hids, hperm⟩ := h.ids
  have hgetAll := h.getAll fun id hid => hperm.mem_iff.mp hid
  have hvalues := hperm.filterMap plans.get?
  rw [Keyed.filterMap_get?_keys] at hvalues
  obtain ⟨found, hlist, hfound, hsorted⟩ := list_of_getAll hids hgetAll
  exact ⟨found, hlist, hfound.trans hvalues, hsorted⟩

/-- Opening the directory once more finds what is there. -/
theorem openFolder (h : s.Holds plans) {directory : String}
    (hdirectory : s.directory? = some directory) :
    Storage.openFolder s.disk directory = .ok s := by
  rcases h.kept with hstore | ⟨directory', es, hstore, hfolder, hfiles⟩
  · simp [directory?, hstore] at hdirectory
  · simp only [directory?, hstore, Option.some.injEq] at hdirectory
    subst hdirectory
    simp only [Storage.openFolder, hfolder.makeDirectories]
    rw [← hstore]

/-- What happens to the rest of the disk makes no difference. -/
theorem spared (h : s.Holds plans) {change : Disk → Disk} (hchange : s.SparedBy change) :
    Holds { s with disk := change s.disk } plans := by
  refine ⟨h.named, h.canonical, ?_⟩
  rcases h.kept with hstore | ⟨directory, es, hstore, hfolder, hfiles⟩
  · exact .inl hstore
  · right
    obtain ⟨location, hstatus⟩ := hfolder.status
    have hnode := hchange directory (by rw [directory?, hstore])
    rw [hstatus, Except.map] at hnode
    cases hfound : (change s.disk).status directory directory with
    | error e => simp [hfound, Except.map] at hnode
    | ok found =>
      obtain ⟨location', node⟩ := found
      simp only [hfound, Except.map, Except.ok.injEq] at hnode
      subst hnode
      exact ⟨directory, es, hstore,
        Disk.Folder.of_status hfound hfolder.onlyFiles hfolder.ascending, hfiles⟩

end Holds

theorem holds_empty {s : Storage} (h : s.IsEmpty) : s.Holds .empty := by
  have hnone : ∀ {id : String} {p : Plan}, (Keyed.empty : Keyed Plan).get? id ≠ some p := by
    simp
  refine ⟨fun hp => absurd hp hnone, fun hp => absurd hp hnone, ?_⟩
  rw [IsEmpty] at h
  cases hstore : s.store with
  | memory plans =>
    rw [hstore] at h
    exact .inl (congrArg PlanStore.memory h)
  | folder directory =>
    rw [hstore] at h
    obtain ⟨location, hstatus⟩ := h
    have hfolder := Disk.Folder.of_status hstatus (fun _ _ hnode => nomatch hnode) .nil
    refine .inr ⟨directory, [], rfl, hfolder, ?_⟩
    exact ⟨fun hp => absurd hp hnone, fun hnode => (nomatch hnode), fun hp => absurd hp hnone,
      fun hp => absurd hp hnone⟩

end Storage

end ChangeImpact
