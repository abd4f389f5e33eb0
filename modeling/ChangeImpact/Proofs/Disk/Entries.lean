import ChangeImpact.Disk.Node
import Mathlib.Data.String.Basic

/-!
# Proofs.Disk.Entries

The entries of a directory, and changes of one directory somewhere in a tree.

* `Entries.Ascending`  — the order that `Entries.set` keeps, in which no name comes twice.
* `Entries.find?_eq_some_iff`, `Entries.ext_of_find?` — looking a name up is membership, and tells
  directories apart.
* `Entries.amend`      — `Entries.put` and `Entries.remove` as changes of one directory.
* `Entries.at?_amend`, `Entries.SameShape` — what such a change does, and what it leaves alone.
* `Entries.amend_amend` — one such change after another.
* `Entries.sameShape_of_find?` — a file that comes, goes or changes leaves all else alone.
-/

namespace ChangeImpact

namespace Entries

/-! ## One directory -/

def Ascending (es : Entries) : Prop := es.Pairwise fun a b => a.1 < b.1

/-- No directories and no links. -/
def OnlyFiles (es : Entries) : Prop := ∀ name node, es.find? name = some node → node.isFile = true

/-- Nothing of this name leads elsewhere. -/
def NoLink (es : Entries) (name : String) : Prop := ∀ target, es.find? name ≠ some (.link target)

/-- A file has this name, or nothing. -/
def FileOrFree (es : Entries) (name : String) : Prop :=
  ∀ node, es.find? name = some node → node.isFile = true

theorem FileOrFree.noLink {es : Entries} {name : String} (h : es.FileOrFree name) :
    es.NoLink name := by
  intro target hlink
  cases h _ hlink

theorem mem_set {name : String} {node : Node} {es : Entries} {e : String × Node}
    (h : e ∈ es.set name node) : e = (name, node) ∨ e ∈ es := by
  induction es with
  | nil => exact .inl (List.mem_singleton.mp h)
  | cons entry rest ih =>
    obtain ⟨n, x⟩ := entry
    rw [set] at h
    split at h
    · rw [List.mem_cons] at h
      exact h.imp_right fun h => List.mem_cons_of_mem _ h
    · split at h
      · exact List.mem_cons.mp h
      · rw [List.mem_cons] at h
        rcases h with h | h
        · exact .inr (h ▸ List.mem_cons_self)
        · exact (ih h).imp_right fun h => List.mem_cons_of_mem _ h

theorem ascending_set {es : Entries} (h : es.Ascending) (name : String) (node : Node) :
    (es.set name node).Ascending := by
  induction es with
  | nil => exact List.pairwise_singleton _ _
  | cons entry rest ih =>
    obtain ⟨n, x⟩ := entry
    obtain ⟨hfirst, hrest⟩ := List.pairwise_cons.mp h
    rw [set]
    split
    · next hn =>
      subst hn
      exact List.pairwise_cons.mpr ⟨hfirst, hrest⟩
    · next hn =>
      split
      · next hlt =>
        refine List.pairwise_cons.mpr ⟨?_, h⟩
        intro e he
        rcases List.mem_cons.mp he with rfl | he
        · exact hlt
        · exact lt_trans hlt (hfirst e he)
      · next hlt =>
        refine List.pairwise_cons.mpr ⟨?_, ih hrest⟩
        intro e he
        rcases mem_set he with rfl | he
        · exact lt_of_le_of_ne (not_lt.mp hlt) hn
        · exact hfirst e he

theorem ascending_drop {es : Entries} (h : es.Ascending) (name : String) :
    (es.drop name).Ascending :=
  h.sublist List.filter_sublist

theorem nodup_names {es : Entries} (h : es.Ascending) : (es.map (·.1)).Nodup :=
  List.pairwise_map.mpr (h.imp fun hlt => ne_of_lt hlt)

theorem find?_eq_some_iff {es : Entries} (h : es.Ascending) {name : String} {node : Node} :
    es.find? name = some node ↔ (name, node) ∈ es := by
  induction es with
  | nil => simp [find?]
  | cons entry rest ih =>
    obtain ⟨n, x⟩ := entry
    obtain ⟨hfirst, hrest⟩ := List.pairwise_cons.mp h
    by_cases hn : n = name
    · subst hn
      have hnew : (n, node) ∉ rest := fun hm => lt_irrefl n (hfirst _ hm)
      simp [find?, hnew, eq_comm]
    · have hn' : name ≠ n := fun he => hn he.symm
      simp [find?, hn, hn', ih hrest]

/-- Looking names up tells entries in order apart. -/
theorem ext_of_find? {es es' : Entries} (h : es.Ascending) (h' : es'.Ascending)
    (hfind : ∀ name, es'.find? name = es.find? name) : es' = es := by
  have hnodup : ∀ {es : Entries}, es.Ascending → es.Nodup := by
    intro es hasc
    refine hasc.imp ?_
    rintro e _ hlt rfl
    exact lt_irrefl _ hlt
  have hperm : es'.Perm es := by
    rw [List.perm_ext_iff_of_nodup (hnodup h') (hnodup h)]
    rintro ⟨name, node⟩
    rw [← find?_eq_some_iff h', ← find?_eq_some_iff h, hfind]
  exact hperm.eq_of_pairwise (fun _ _ _ _ hlt hgt => absurd hlt (lt_asymm hgt)) h' h

theorem mem_names_of_find? {es : Entries} {name : String} {node : Node}
    (h : es.find? name = some node) : name ∈ es.map (·.1) := by
  induction es with
  | nil => cases h
  | cons e rest ih =>
    rw [find?] at h
    split at h
    · next hn => exact List.mem_cons.mpr (.inl hn.symm)
    · exact List.mem_cons_of_mem _ (ih h)

theorem mem_names_iff {es : Entries} (h : es.Ascending) {name : String} :
    name ∈ es.map (·.1) ↔ ∃ node, es.find? name = some node := by
  simp [find?_eq_some_iff h]

theorem set_set (name : String) (node node' : Node) (es : Entries) :
    set name node' (set name node es) = set name node' es := by
  induction es with
  | nil => simp [set]
  | cons entry rest ih =>
    obtain ⟨n, x⟩ := entry
    by_cases hn : n = name
    · simp [set, hn]
    · by_cases hlt : name < n
      · simp [set, hn, hlt]
      · simp [set, hn, hlt, ih]

theorem onlyFiles_set {es : Entries} (h : es.OnlyFiles) (name : String) (bytes : ByteArray) :
    (es.set name (.file bytes)).OnlyFiles := by
  intro n node hn
  rw [find?_set] at hn
  split at hn
  · cases hn
    rfl
  · exact h n node hn

theorem onlyFiles_drop {es : Entries} (h : es.OnlyFiles) (name : String) :
    (es.drop name).OnlyFiles := by
  intro n node hn
  rw [find?_drop] at hn
  split at hn
  · cases hn
  · exact h n node hn

/-! ## One directory of a tree -/

/-- Changes the directory at a location. -/
def amend : List String → (Entries → Entries) → Entries → Entries
  | [], f, es => f es
  | n :: rest, f, es =>
    match find? n es with
    | some (.dir sub) => set n (.dir (amend rest f sub)) es
    | _ => es

theorem put_append (location : List String) (name : String) (node : Node) :
    ∀ top : Entries, top.put (location ++ [name]) node = top.amend location (set name node) := by
  induction location with
  | nil => exact fun _ => rfl
  | cons n rest ih =>
    intro top
    obtain ⟨m, more, hmore⟩ : ∃ m more, rest ++ [name] = m :: more := by
      cases rest <;> simp
    rw [List.cons_append, amend, ← funext ih, hmore]
    rfl

theorem remove_append (location : List String) (name : String) :
    ∀ top : Entries, top.remove (location ++ [name]) = top.amend location (drop name) := by
  induction location with
  | nil => exact fun _ => rfl
  | cons n rest ih =>
    intro top
    obtain ⟨m, more, hmore⟩ : ∃ m more, rest ++ [name] = m :: more := by
      cases rest <;> simp
    rw [List.cons_append, amend, ← funext ih, hmore]
    rfl

theorem at?_cons_dir {n : String} {sub top : Entries} (h : top.find? n = some (.dir sub))
    (rest : List String) : top.at? (n :: rest) = sub.at? rest := by
  cases rest with
  | nil => exact h
  | cons m more => simp [at?, h]

theorem find?_of_at?_cons {n : String} {rest : List String} {es top : Entries}
    (h : top.at? (n :: rest) = some (.dir es)) : ∃ sub, top.find? n = some (.dir sub) := by
  cases rest with
  | nil => exact ⟨es, h⟩
  | cons m more =>
    rw [at?] at h
    split at h
    · next sub hsub => exact ⟨sub, hsub⟩
    · contradiction
    · intro hm
      cases hm

theorem at?_append {location : List String} {es : Entries} :
    ∀ {top : Entries}, top.at? location = some (.dir es) →
      ∀ name, top.at? (location ++ [name]) = es.find? name := by
  induction location with
  | nil =>
    intro top h name
    cases h
    rfl
  | cons n rest ih =>
    intro top h name
    obtain ⟨sub, hsub⟩ := find?_of_at?_cons h
    rw [at?_cons_dir hsub] at h
    rw [List.cons_append, at?_cons_dir hsub]
    exact ih h name

theorem at?_amend {location : List String} {es : Entries} (f : Entries → Entries) :
    ∀ {top : Entries}, top.at? location = some (.dir es) →
      (top.amend location f).at? location = some (.dir (f es)) := by
  induction location with
  | nil =>
    intro top h
    cases h
    rfl
  | cons n rest ih =>
    intro top h
    obtain ⟨sub, hsub⟩ := find?_of_at?_cons h
    rw [at?_cons_dir hsub] at h
    have hset : (top.set n (.dir (amend rest f sub))).find? n =
        some (.dir (amend rest f sub)) := by simp
    simp only [amend, hsub]
    rw [at?_cons_dir hset]
    exact ih h

/-- Two changes of one directory are one. -/
theorem amend_amend {location : List String} {es : Entries} (f g : Entries → Entries) :
    ∀ {top : Entries}, top.at? location = some (.dir es) →
      (top.amend location f).amend location g = top.amend location (g ∘ f) := by
  induction location with
  | nil => exact fun _ => rfl
  | cons n rest ih =>
    intro top h
    obtain ⟨sub, hsub⟩ := find?_of_at?_cons h
    rw [at?_cons_dir hsub] at h
    have hset : (top.set n (.dir (amend rest f sub))).find? n =
        some (.dir (amend rest f sub)) := by simp
    simp only [amend, hsub, hset]
    rw [set_set, ih h]

/-- Nothing counts but what the change makes of the entries that are there. -/
theorem amend_congr {location : List String} {es : Entries} {f g : Entries → Entries}
    (hfg : f es = g es) : ∀ {top : Entries}, top.at? location = some (.dir es) →
      top.amend location f = top.amend location g := by
  induction location with
  | nil =>
    intro top h
    cases h
    exact hfg
  | cons n rest ih =>
    intro top h
    obtain ⟨sub, hsub⟩ := find?_of_at?_cons h
    rw [at?_cons_dir hsub] at h
    simp only [amend, hsub]
    rw [ih h]

/-- Every directory of the first tree is one of the second, and every link leads where it did. -/
structure SameShape (top top' : Entries) : Prop where
  dir : ∀ {location es}, top.at? location = some (.dir es) →
    ∃ es', top'.at? location = some (.dir es')
  link : ∀ {location target}, top.at? location = some (.link target) →
    top'.at? location = some (.link target)

/-- Directories that differ in nothing but one name, under which there was a file or nothing. -/
theorem sameShape_of_find? {es es' : Entries} {name : String} (hname : es.FileOrFree name)
    (hother : ∀ n, n ≠ name → es'.find? n = es.find? n) : SameShape es es' := by
  have hkept : ∀ {n node}, es.find? n = some node → node.isFile = false →
      es'.find? n = some node := by
    intro n node hn hfile
    by_cases he : n = name
    · subst he
      rw [hname node hn] at hfile
      cases hfile
    · rw [hother n he, hn]
  have hbelow : ∀ {n rest node}, es.at? (n :: rest) = some node → node.isFile = false →
      es'.at? (n :: rest) = some node := by
    intro n rest node hat hfile
    cases rest with
    | nil => exact hkept hat hfile
    | cons m more =>
      cases hn : es.find? n with
      | none => simp [at?, hn] at hat
      | some found =>
        cases found with
        | dir sub =>
          rw [at?_cons_dir hn] at hat
          rw [at?_cons_dir (hkept hn rfl), hat]
        | file bytes => simp [at?, hn] at hat
        | link target => simp [at?, hn] at hat
  constructor
  · intro location sub hat
    cases location with
    | nil => exact ⟨es', rfl⟩
    | cons n rest => exact ⟨sub, hbelow hat rfl⟩
  · intro location target hat
    cases location with
    | nil => cases hat
    | cons n rest => exact hbelow hat rfl

theorem sameShape_file {es : Entries} {name : String} (h : es.FileOrFree name) (node : Node) :
    SameShape es (es.set name node) :=
  sameShape_of_find? h fun _ hn => by rw [find?_set, if_neg hn.symm]

theorem sameShape_drop {es : Entries} {name : String} (h : es.FileOrFree name) :
    SameShape es (es.drop name) :=
  sameShape_of_find? h fun _ hn => by rw [find?_drop, if_neg hn.symm]

theorem sameShape_set {n : String} {sub sub' top : Entries}
    (hsub : top.find? n = some (.dir sub)) (h : SameShape sub sub') :
    SameShape top (top.set n (.dir sub')) := by
  have hset : (top.set n (.dir sub')).find? n = some (.dir sub') := by simp
  have hne : ∀ {m rest}, n ≠ m →
      (top.set n (.dir sub')).at? (m :: rest) = top.at? (m :: rest) := by
    intro m rest hm
    cases rest <;> simp [at?, hm]
  constructor
  · intro location es hat
    cases location with
    | nil => exact ⟨_, rfl⟩
    | cons m rest =>
      by_cases hm : n = m
      · subst hm
        rw [at?_cons_dir hsub] at hat
        rw [at?_cons_dir hset]
        exact h.dir hat
      · exact ⟨es, by rw [hne hm, hat]⟩
  · intro location target hat
    cases location with
    | nil => cases hat
    | cons m rest =>
      by_cases hm : n = m
      · subst hm
        rw [at?_cons_dir hsub] at hat
        rw [at?_cons_dir hset]
        exact h.link hat
      · rw [hne hm, hat]

/-- A directory can be changed like this wherever it is. -/
theorem sameShape_amend {location : List String} {es : Entries} {f : Entries → Entries}
    (hf : SameShape es (f es)) :
    ∀ {top : Entries}, top.at? location = some (.dir es) →
      SameShape top (top.amend location f) := by
  induction location with
  | nil =>
    intro top h
    cases h
    exact hf
  | cons n rest ih =>
    intro top h
    obtain ⟨sub, hsub⟩ := find?_of_at?_cons h
    rw [at?_cons_dir hsub] at h
    simp only [amend, hsub]
    exact sameShape_set hsub (ih h)

end Entries

end ChangeImpact
