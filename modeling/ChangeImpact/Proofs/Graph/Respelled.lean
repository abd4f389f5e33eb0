import ChangeImpact.Proofs.Graph.Edges
import ChangeImpact.Proofs.Graph.Rebuild
import ChangeImpact.Proofs.Path.Landing

/-!
# Proofs.Graph.Respelled

The graphs of the same files below two roots.

* `IsRoot`              — a tidy path that a normalization leaves as it is.
* `Counts`              — a specifier that never climbs above the root.
* `Respelled`           — graphs that agree in the files and in where such imports lead.
* `respelled_evaluate`  — so do those of the same files with the same imports.
-/

namespace ChangeImpact.Graph

open ChangeImpact.Path

/-! ## Candidates -/

section Candidates

variable (extensions : List String)

/-- What the candidates of a path that ends like this add to its start. -/
def endings (ending : String) : List String :=
  ending :: extensions.map (ending ++ ·) ++ extensions.map (ending ++ "/index" ++ ·)

theorem candidates_append {start ending : String} (h : IsPlain (start ++ ending)) :
    candidates extensions (start ++ ending) = (endings extensions ending).map (start ++ ·) := by
  have hindex : join (start ++ ending) "index" = start ++ ending ++ "/index" := by
    have hrooted : isRooted "index" = false := by decide
    have hslash : "/index" = "/" ++ "index" := by decide
    rw [hslash, ← String.append_assoc]
    simp only [join, hrooted, h.ne_empty, h.notSlash]
    simp
  simp only [candidates, endings, hindex, List.map_cons, List.map_append, List.map_map,
    Function.comp_def, String.append_assoc]

/-- The file that is found for a path by its ending. -/
def meant (tail : List String → String) (files : List (List String)) (ending : String) :
    Option (List String) :=
  (endings extensions ending).findSome? fun t => files.find? fun file => tail file = t

variable {extensions} {root start ending : String} {tail : List String → String}
  {files : List (List String)} {isKnown : String → Bool}

theorem mem_of_meant {file : List String} (h : meant extensions tail files ending = some file) :
    file ∈ files := by
  obtain ⟨t, _, hfind⟩ := List.exists_of_findSome?_eq_some h
  exact List.mem_of_find?_eq_some hfind

/-- Nothing counts but how the paths of the files end. -/
theorem find?_candidates (hplain : IsPlain (start ++ ending))
    (htail : ∀ file ∈ files, below root file = start ++ tail file)
    (hknown : ∀ key, isKnown key = true ↔ key ∈ files.map (below root)) :
    (candidates extensions (start ++ ending)).find? isKnown =
      (meant extensions tail files ending).map (below root) := by
  rw [candidates_append extensions hplain, meant]
  induction endings extensions ending with
  | nil => rfl
  | cons t rest ih =>
    rw [List.map_cons, List.find?_cons, List.findSome?_cons]
    cases hfind : files.find? fun file => tail file = t with
    | some file =>
      have hmem := List.mem_of_find?_eq_some hfind
      have ht : tail file = t := by simpa using List.find?_some hfind
      have hkey : start ++ t = below root file := by rw [htail file hmem, ht]
      rw [hkey, (hknown _).mpr (List.mem_map_of_mem hmem)]
      rfl
    | none =>
      have hnew : isKnown (start ++ t) = false := by
        rw [Bool.eq_false_iff]
        intro hin
        obtain ⟨file, hmem, heq⟩ := List.mem_map.mp ((hknown _).mp hin)
        rw [htail file hmem, String.append_right_inj] at heq
        exact List.find?_eq_none.mp hfind file hmem (by simp [heq])
      rw [hnew]
      exact ih

end Candidates

/-! ## Imports below two roots -/

/-- A tidy path from which a normalization takes nothing away. -/
structure IsRoot (root : String) : Prop where
  tidy : ∃ spelled, root = Path.tidy spelled
  normal : Path.normalize root = root

/-- From a file in these directories the specifier never climbs above the root; where it leads to
the root itself, a slash leads into both roots. -/
def Counts (root root' : String) (dirs : List String) (specifier : String) : Prop :=
  ∃ rest, landing dirs specifier = some rest ∧ (rest = [] → IsPlain root ∧ IsPlain root')

/-- The names of files below a root. -/
def AreFiles (files : List (List String)) : Prop :=
  ∀ file ∈ files, file ≠ [] ∧ ∀ s ∈ file, Disk.IsName s

section Two

variable (extensions : List String) {root root' : String} {files : List (List String)}
  {isKnown isKnown' : String → Bool} {dirs : List String} {name : String}

theorem AreFiles.proper (h : AreFiles files) {file : List String} (hfile : file ∈ files) :
    ∀ s ∈ file, IsProper s := fun s hs => ((h file hfile).2 s hs).isProper

theorem AreFiles.below_inj (h : AreFiles files) {file file' : List String} (hfile : file ∈ files)
    (hfile' : file' ∈ files) : below root file = below root file' ↔ file = file' := by
  constructor
  · intro heq
    have hsteps := congrArg Path.steps heq
    rwa [steps_below root (h file hfile).2, steps_below root (h file' hfile').2,
      List.append_cancel_left_eq] at hsteps
  · rintro rfl
    rfl

theorem target_of_isRoot (hroot : IsRoot root) (hdirs : ∀ dir ∈ dirs, IsProper dir)
    (hname : IsProper name) {specifier : String} {rest : List String}
    (h : landing dirs specifier = some rest) :
    target (below root (dirs ++ [name])) specifier = below root rest ∧ ∀ s ∈ rest, IsProper s := by
  obtain ⟨⟨spelled, rfl⟩, hnormal⟩ := hroot
  have htarget := target_below spelled hdirs hname h
  rwa [hnormal] at htarget

theorem resolve_below (hroot : IsRoot root) (hfiles : AreFiles files)
    (hdirs : ∀ dir ∈ dirs, IsProper dir) (hname : IsProper name)
    (hknown : ∀ key, isKnown key = true ↔ key ∈ files.map (below root)) {specifier : String}
    {rest : List String} (h : landing dirs specifier = some rest) :
    (rest ≠ [] → resolve isKnown extensions (below root (dirs ++ [name])) specifier =
      (meant extensions (String.intercalate "/") files (String.intercalate "/" rest)).map
        (below root)) ∧
    (rest = [] → IsPlain root →
      resolve isKnown extensions (below root (dirs ++ [name])) specifier =
        (meant extensions ("/" ++ String.intercalate "/" ·) files "").map (below root)) := by
  obtain ⟨htarget, hproper⟩ := target_of_isRoot hroot hdirs hname h
  have htail : ∀ file ∈ files, below root file = entrance root ++ String.intercalate "/" file :=
    fun file hfile => below_eq_entrance (hfiles file hfile).1 (hfiles.proper hfile) root
  rw [resolve, htarget]
  constructor
  · intro hne
    have hplain := isPlain_below hne hproper root
    rw [below_eq_entrance hne hproper] at hplain ⊢
    exact find?_candidates hplain htail hknown
  · rintro rfl hplain
    have hroot_eq : below root [] = root ++ "" := by rw [String.append_empty]; rfl
    rw [hroot_eq]
    refine find?_candidates (by rwa [String.append_empty]) (fun file hfile => ?_) hknown
    rw [htail file hfile, hplain.entrance, String.append_assoc]

/-- What counts is resolved to the same file below both roots. -/
theorem exists_resolve (hroot : IsRoot root) (hroot' : IsRoot root') (hfiles : AreFiles files)
    (hdirs : ∀ dir ∈ dirs, IsProper dir) (hname : IsProper name)
    (hknown : ∀ key, isKnown key = true ↔ key ∈ files.map (below root))
    (hknown' : ∀ key, isKnown' key = true ↔ key ∈ files.map (below root')) {specifier : String}
    (h : Counts root root' dirs specifier) :
    ∃ found : Option (List String), (∀ file ∈ found, file ∈ files) ∧
      resolve isKnown extensions (below root (dirs ++ [name])) specifier = found.map (below root) ∧
      resolve isKnown' extensions (below root' (dirs ++ [name])) specifier =
        found.map (below root') := by
  obtain ⟨rest, hlanding, hplain⟩ := h
  obtain ⟨hinner, houter⟩ :=
    resolve_below extensions hroot hfiles hdirs hname hknown hlanding
  obtain ⟨hinner', houter'⟩ :=
    resolve_below extensions hroot' hfiles hdirs hname hknown' hlanding
  by_cases hrest : rest = []
  · obtain ⟨hhere, hthere⟩ := hplain hrest
    exact ⟨_, fun file hfile => mem_of_meant hfile, houter hrest hhere, houter' hrest hthere⟩
  · exact ⟨_, fun file hfile => mem_of_meant hfile, hinner hrest, hinner' hrest⟩

end Two

/-! ## Graphs below two roots -/

/-- Imports of one specifier. -/
structure SameImport (edge edge' : ImportEdge) : Prop where
  specifier : edge'.specifier = edge.specifier
  kind : edge'.kind = edge.kind

section Spelling

variable (root root' : String) (files : List (List String))

/-- Imports of one specifier that lead to the same file, if they count. -/
structure SameLink (dirs : List String) (edge edge' : ImportEdge) : Prop
    extends SameImport edge edge' where
  resolved : isRelative edge = true → Counts root root' dirs edge.specifier →
    ∃ found : Option (List String), (∀ file ∈ found, file ∈ files) ∧
      edge.resolved = found.map (below root) ∧ edge'.resolved = found.map (below root')

/-- An import that counts leads to the file that has this path below the root at hand. -/
def CountedLink (dirs : List String) (here : String) (record : FileRecord)
    (file : List String) : Prop :=
  ∃ edge ∈ record.imports, isRelative edge = true ∧ Counts root root' dirs edge.specifier ∧
    edge.resolved = some (below here file)

/-- The records of one file, which stands in these directories. -/
structure SameRecord (dirs : List String) (name : String) (record record' : FileRecord) :
    Prop where
  imports : List.Forall₂ (SameLink root root' files dirs) record.imports record'.imports
  links : ∀ file ∈ files, CountedLink root root' dirs root record file ↔
    CountedLink root root' dirs root' record' file
  /-- Such links are dependencies, unless the file imports itself. -/
  edges : ∀ file ∈ files, file ≠ dirs ++ [name] → CountedLink root root' dirs root record file →
    below root file ∈ record.dependencies ∧ below root' file ∈ record'.dependencies
  /-- Where all imports count there are no other dependencies. -/
  dependencies : (∀ edge ∈ record.imports, isRelative edge = true →
      Counts root root' dirs edge.specifier) →
    ∃ targets : List (List String), record.dependencies = targets.map (below root) ∧
      record'.dependencies = targets.map (below root')

/-- The same files with the same imports, before any of them is resolved. -/
structure SameSources (m m' : FileMap) : Prop where
  keys : m.keys = files.map (below root)
  keys' : m'.keys = files.map (below root')
  records : ∀ file ∈ files, ∃ record record', m.get? (below root file) = some record ∧
    m'.get? (below root' file) = some record' ∧
      List.Forall₂ SameImport record.imports record'.imports

/-- The graphs of the same files, which agree in where the imports lead that count. -/
structure Respelled (b b' : Built) : Prop where
  keys : b.files.keys = files.map (below root)
  keys' : b'.files.keys = files.map (below root')
  records : ∀ dirs name, dirs ++ [name] ∈ files → ∃ record record',
    b.files.get? (below root (dirs ++ [name])) = some record ∧
      b'.files.get? (below root' (dirs ++ [name])) = some record' ∧
        SameRecord root root' files dirs name record record'

end Spelling

section Related

variable {α β : Type} {R : α → β → Prop} {as : List α} {bs : List β}

theorem exists_mem_of_forall₂ (h : List.Forall₂ R as bs) {a : α} (ha : a ∈ as) :
    ∃ b ∈ bs, R a b := by
  induction h with
  | nil => cases ha
  | cons hab _ ih =>
    rcases List.mem_cons.mp ha with rfl | ha
    · exact ⟨_, List.mem_cons_self, hab⟩
    · obtain ⟨b, hb, hr⟩ := ih ha
      exact ⟨b, List.mem_cons_of_mem _ hb, hr⟩

theorem exists_mem_congr {P : α → Prop} {Q : β → Prop} (h : List.Forall₂ R as bs)
    (hPQ : ∀ a b, R a b → (P a ↔ Q b)) : (∃ a ∈ as, P a) ↔ ∃ b ∈ bs, Q b := by
  induction h with
  | nil => simp
  | cons hab _ ih =>
    simp only [List.mem_cons, or_and_right, exists_or, exists_eq_left, hPQ _ _ hab, ih]

end Related

section Links

variable {extensions : List String} {root root' : String} {files : List (List String)}
  {isKnown isKnown' : String → Bool} {dirs : List String} {name : String}

theorem SameLink.leads {edge edge' : ImportEdge} (h : SameLink root root' files dirs edge edge')
    (hfiles : AreFiles files) {file : List String} (hfile : file ∈ files)
    (hrelative : isRelative edge = true) (hcounts : Counts root root' dirs edge.specifier) :
    edge.resolved = some (below root file) ↔ edge'.resolved = some (below root' file) := by
  obtain ⟨found, hfound, hhere, hthere⟩ := h.resolved hrelative hcounts
  rw [hhere, hthere]
  cases found with
  | none => simp
  | some other =>
    have hother : other ∈ files := hfound other rfl
    simp only [Option.map_some, Option.some.injEq]
    rw [hfiles.below_inj hother hfile, hfiles.below_inj hother hfile]

theorem isRelative_congr {edge edge' : ImportEdge} (h : SameImport edge edge') :
    isRelative edge' = isRelative edge := by
  rw [isRelative, isRelative, h.kind]

theorem sameLink_linkImport {edge edge' : ImportEdge} (h : SameImport edge edge')
    (hresolve : Counts root root' dirs edge.specifier →
      ∃ found : Option (List String), (∀ file ∈ found, file ∈ files) ∧
        resolve isKnown extensions (below root (dirs ++ [name])) edge.specifier =
          found.map (below root) ∧
        resolve isKnown' extensions (below root' (dirs ++ [name])) edge.specifier =
          found.map (below root')) :
    SameLink root root' files dirs
      (linkImport isKnown extensions (below root (dirs ++ [name])) edge)
      (linkImport isKnown' extensions (below root' (dirs ++ [name])) edge') := by
  have hrelative := isRelative_congr h
  by_cases hedge : isRelative edge = true
  · rw [hedge] at hrelative
    refine ⟨⟨?_, ?_⟩, fun _ hcounts => ?_⟩
    · simp only [linkImport, hedge, hrelative, if_true]
      exact h.specifier
    · simp only [linkImport, hedge, hrelative, if_true]
      exact h.kind
    · rw [resolved_linkImport hedge, resolved_linkImport hrelative, h.specifier]
      refine hresolve ?_
      simpa only [linkImport, hedge, if_true] using hcounts
  · rw [Bool.not_eq_true] at hedge
    rw [hedge] at hrelative
    simp only [linkImport, hedge, hrelative, Bool.false_eq_true, if_false]
    exact ⟨h, fun habsurd => by simp [hedge] at habsurd⟩

/-- What has been linked of one file leads to the same files below two roots. -/
def Links.Same (root root' : String) (files : List (List String)) (l l' : Links) : Prop :=
  ∃ targets : List (List String), (∀ file ∈ targets, file ∈ files) ∧
    l.dependencies = targets.map (below root) ∧ l'.dependencies = targets.map (below root')

theorem Links.Same.add (hfiles : AreFiles files) (hfile : dirs ++ [name] ∈ files) {l l' : Links}
    (h : Links.Same root root' files l l') {edge edge' : ImportEdge}
    (hedge : SameLink root root' files dirs edge edge')
    (hcounts : isRelative edge = true → Counts root root' dirs edge.specifier) :
    Links.Same root root' files (l.add (below root (dirs ++ [name])) edge)
      (l'.add (below root' (dirs ++ [name])) edge') := by
  obtain ⟨targets, htargets, hhere, hthere⟩ := h
  have hrelative := isRelative_congr hedge.toSameImport
  unfold Links.add
  dsimp only
  by_cases hedge_relative : isRelative edge = true
  · rw [hedge_relative] at hrelative
    rw [if_pos hedge_relative, if_pos hrelative]
    obtain ⟨found, hfound, hresolved, hresolved'⟩ :=
      hedge.resolved hedge_relative (hcounts hedge_relative)
    cases found with
    | none =>
      rw [hresolved, hresolved']
      exact ⟨targets, htargets, hhere, hthere⟩
    | some file =>
      have hmem : file ∈ files := hfound file rfl
      have hin (start : String) :
          (targets.map (below start)).contains (below start file) = targets.contains file := by
        rw [Bool.eq_iff_iff, List.contains_iff_mem, List.contains_iff_mem, List.mem_map]
        constructor
        · rintro ⟨other, hother, heq⟩
          rwa [← (hfiles.below_inj (htargets other hother) hmem).mp heq]
        · exact fun hin => ⟨file, hin, rfl⟩
      rw [hresolved, hresolved']
      simp only [Option.map_some, hhere, hthere, hin, hfiles.below_inj hmem hfile]
      split
      · exact ⟨targets, htargets, rfl, rfl⟩
      · refine ⟨targets ++ [file], ?_, by simp, by simp⟩
        exact List.forall_mem_append.mpr ⟨htargets, List.forall_mem_singleton.mpr hmem⟩
  · rw [Bool.not_eq_true] at hedge_relative
    rw [hedge_relative] at hrelative
    rw [hedge_relative, hrelative]
    exact ⟨targets, htargets, hhere, hthere⟩

/-- Where all imports count, the links of a file are the same below both roots. -/
theorem same_linkFile (hfiles : AreFiles files) (hfile : dirs ++ [name] ∈ files)
    {edges edges' : List ImportEdge}
    (h : List.Forall₂ (SameLink root root' files dirs) edges edges')
    (hcounts : ∀ edge ∈ edges, isRelative edge = true →
      Counts root root' dirs edge.specifier) {l l' : Links}
    (hl : Links.Same root root' files l l') :
    Links.Same root root' files
      (edges.foldl (fun l edge => l.add (below root (dirs ++ [name])) edge) l)
      (edges'.foldl (fun l edge => l.add (below root' (dirs ++ [name])) edge) l') := by
  induction h generalizing l l' with
  | nil => exact hl
  | cons hedge _ ih =>
    rw [List.forall_mem_cons] at hcounts
    exact ih hcounts.2 (hl.add hfiles hfile hedge hcounts.1)

end Links

section Build

variable (extensions : List String) {root root' : String} {files : List (List String)}
  {m m' : FileMap}

theorem contains_iff_of_keys (h : m.keys = files.map (below root)) (key : String) :
    m.contains key = true ↔ key ∈ files.map (below root) := by
  rw [← h, Keyed.mem_keys_iff]

theorem linkFile_eq_foldl (isKnown : String → Bool) (path : String) (record : FileRecord) :
    linkFile isKnown extensions path record =
      (record.imports.map (linkImport isKnown extensions path)).foldl
        (fun l edge => l.add path edge) {} := by
  rw [linkFile, List.foldl_map]

theorem covered_linkFile (isKnown : String → Bool) {path target : String} {record : FileRecord}
    {edge : ImportEdge} (hedge : edge ∈ record.imports.map (linkImport isKnown extensions path))
    (hrelative : isRelative edge = true) (hresolved : edge.resolved = some target) :
    target = path ∨ target ∈ (linkFile isKnown extensions path record).dependencies := by
  rw [← imports_linkFile] at hedge
  exact (sound_linkFile isKnown extensions path record).covered edge hedge hrelative target
    hresolved

theorem sameRecord_settled (hroot : IsRoot root) (hroot' : IsRoot root') (hfiles : AreFiles files)
    (h : SameSources root root' files m m') {dirs : List String} {name : String}
    (hfile : dirs ++ [name] ∈ files) {record record' : FileRecord}
    (hrecords : List.Forall₂ SameImport record.imports record'.imports) :
    SameRecord root root' files dirs name
      (Risk.scored (settled extensions m (below root (dirs ++ [name])) record))
      (Risk.scored (settled extensions m' (below root' (dirs ++ [name])) record')) := by
  have hproper := hfiles.proper hfile
  rw [List.forall_mem_append, List.forall_mem_singleton] at hproper
  have hlinks : List.Forall₂ (SameLink root root' files dirs)
      (record.imports.map (linkImport m.contains extensions (below root (dirs ++ [name]))))
      (record'.imports.map (linkImport m'.contains extensions (below root' (dirs ++ [name])))) := by
    rw [List.forall₂_map_left_iff, List.forall₂_map_right_iff]
    refine hrecords.imp fun edge edge' hedge => sameLink_linkImport hedge fun hcounts => ?_
    exact exists_resolve extensions hroot hroot' hfiles hproper.1 hproper.2
      (contains_iff_of_keys h.keys) (contains_iff_of_keys h.keys') hcounts
  constructor
  case imports => exact hlinks
  case links =>
    intro file hmem
    refine exists_mem_congr hlinks fun edge edge' hedge => ?_
    have hrelative := isRelative_congr hedge.toSameImport
    rw [hrelative, hedge.specifier]
    exact and_congr_right fun hr => and_congr_right fun hc => hedge.leads hfiles hmem hr hc
  case edges =>
    intro file hmem hother hlink
    obtain ⟨edge, hedge, hrelative, hcounts, hresolved⟩ := hlink
    obtain ⟨edge', hedge', hlink⟩ := exists_mem_of_forall₂ hlinks hedge
    have hresolved' := (hlink.leads hfiles hmem hrelative hcounts).mp hresolved
    have hrelative' := (isRelative_congr hlink.toSameImport).trans hrelative
    have hhere : below root file ≠ below root (dirs ++ [name]) := by
      rwa [ne_eq, hfiles.below_inj hmem hfile]
    have hthere : below root' file ≠ below root' (dirs ++ [name]) := by
      rwa [ne_eq, hfiles.below_inj hmem hfile]
    exact ⟨(covered_linkFile extensions m.contains hedge hrelative hresolved).resolve_left hhere,
      (covered_linkFile extensions m'.contains hedge' hrelative' hresolved').resolve_left hthere⟩
  case dependencies =>
    intro hcounts
    have hnone : Links.Same root root' files {} {} := ⟨[], by simp, rfl, rfl⟩
    have hsame := same_linkFile hfiles hfile hlinks hcounts hnone
    rw [← linkFile_eq_foldl, ← linkFile_eq_foldl] at hsame
    obtain ⟨targets, _, hhere, hthere⟩ := hsame
    exact ⟨targets, hhere, hthere⟩

/-- The same files with the same imports have graphs that agree below two roots. -/
theorem respelled_evaluate (hroot : IsRoot root) (hroot' : IsRoot root') (hfiles : AreFiles files)
    (h : SameSources root root' files m m') :
    Respelled root root' files (evaluate extensions m) (evaluate extensions m') where
  keys := (keys_evaluate extensions m).trans h.keys
  keys' := (keys_evaluate extensions m').trans h.keys'
  records dirs name hfile := by
    obtain ⟨record, record', hrecord, hrecord', himports⟩ := h.records _ hfile
    refine ⟨_, _, ?_, ?_, sameRecord_settled extensions hroot hroot' hfiles h hfile himports⟩
    · rw [get?_evaluate, hrecord]
      rfl
    · rw [get?_evaluate, hrecord']
      rfl

end Build

end ChangeImpact.Graph
