import ChangeImpact.Proofs.Graph.Edges

/-!
# Proofs.Graph.Rebuild

Building a graph once more, after whatever was done to the map since.

* `evaluate`          — a build and the scores after it; `graphOf_eq_evaluate` is its use.
* `bare`, `SameText`  — a record without anything that a build or a scoring has left in it, and
  maps that are the same in the rest.
* `evaluate_bare`     — an evaluation depends on nothing else.
* `Edit`, `edited`    — files that are put in and taken out, builds and scores, in any order.
* `evaluate_forgets`  — whatever came before, an evaluation is that of the bare files.
-/

namespace ChangeImpact

namespace Keyed

variable {α β : Type}

theorem mapValues_insert (f : String → α → β) (m : Keyed α) (key : String) (value : α) :
    (m.insert key value).mapValues f = (m.mapValues f).insert key (f key value) := by
  have hentries : ∀ es : List (String × α), (putIn key value es).map (fun e => (e.1, f e.1 e.2)) =
      putIn key (f key value) (es.map fun e => (e.1, f e.1 e.2)) := by
    intro es
    induction es with
    | nil => rfl
    | cons e rest ih =>
      by_cases hkey : e.1 = key
      · simp [putIn, hkey]
      · simp [putIn, hkey, ih]
  exact ext_entries (hentries m.entries)

theorem mapValues_erase (f : String → α → β) (m : Keyed α) (key : String) :
    (m.erase key).mapValues f = (m.mapValues f).erase key := by
  apply ext_entries
  simp only [mapValues, erase, List.filter_map]
  rfl

theorem mapValues_mapValues {γ : Type} (g : String → β → γ) (f : String → α → β) (m : Keyed α) :
    (m.mapValues f).mapValues g = m.mapValues fun k a => g k (f k a) := by
  apply ext_entries
  simp only [mapValues, List.map_map]
  rfl

theorem mapValues_congr {f g : String → α → β} {m : Keyed α}
    (h : ∀ k a, m.get? k = some a → f k a = g k a) : m.mapValues f = m.mapValues g := by
  apply ext_entries
  refine List.map_congr_left fun e he => ?_
  rw [h e.1 e.2 (m.get?_eq_some_iff.mpr he)]

end Keyed

namespace Graph

/-- The graph of some files, with their scores. -/
def evaluate (extensions : List String) (files : FileMap) : Built :=
  { build extensions files with files := Risk.scoreAll (build extensions files).files }

section Evaluate

variable (extensions : List String) (files : FileMap)

theorem files_evaluate : (evaluate extensions files).files =
    files.mapValues fun path record => Risk.scored (settled extensions files path record) := by
  rw [evaluate, Risk.scoreAll, build_files, Keyed.mapValues_mapValues]

theorem get?_evaluate (path : String) : (evaluate extensions files).files.get? path =
    (files.get? path).map (Risk.scored ∘ settled extensions files path) := by
  rw [files_evaluate, Keyed.get?_mapValues]
  rfl

theorem entries_evaluate : (evaluate extensions files).files.entries = files.entries.map fun e =>
    (e.1, Risk.scored (settled extensions files e.1 e.2)) := by
  rw [files_evaluate]
  rfl

theorem keys_evaluate : (evaluate extensions files).files.keys = files.keys := by
  rw [files_evaluate, Keyed.keys_mapValues]

/-- An analysis is the evaluation of the records of its texts. -/
theorem graphOf_eq_evaluate (extractor : Extractor) (sources : Keyed String) :
    (Project.graphOf extensions extractor sources).1 =
      evaluate extensions (Source.analyzeFiles extractor sources).1 := rfl

end Evaluate

/-! ## What an evaluation starts from -/

/-- A relative import that has not been resolved. -/
def unlinked (edge : ImportEdge) : ImportEdge :=
  if isRelative edge then { edge with resolved := none } else edge

/-- A file before any build. -/
def bare (record : FileRecord) : FileRecord :=
  { path := record.path, imports := record.imports.map unlinked, exports := record.exports }

def bareFiles (files : FileMap) : FileMap := files.mapValues fun _ record => bare record

theorem entries_bareFiles (files : FileMap) :
    (bareFiles files).entries = files.entries.map fun e => (e.1, bare e.2) := rfl

/-- The same files in the same order, with the same imports and exports. All that a build or a
scoring enters may differ. -/
def SameText (files files' : FileMap) : Prop := bareFiles files = bareFiles files'

section Bare

variable (isKnown : String → Bool) (extensions : List String) (path : String)

@[simp] theorem linkImport_unlinked (edge : ImportEdge) :
    linkImport isKnown extensions path (unlinked edge) =
      linkImport isKnown extensions path edge := by
  by_cases hrelative : isRelative edge = true
  · have hbare : isRelative { edge with resolved := none } = true := hrelative
    rw [unlinked, if_pos hrelative, linkImport, linkImport, if_pos hrelative, if_pos hbare]
  · rw [unlinked, if_neg hrelative]

@[simp] theorem unlinked_linkImport (edge : ImportEdge) :
    unlinked (linkImport isKnown extensions path edge) = unlinked edge := by
  have hsame := isRelative_linkImport isKnown extensions path edge
  rw [unlinked, unlinked, hsame]
  by_cases hrelative : isRelative edge = true
  · rw [if_pos hrelative, if_pos hrelative, linkImport, if_pos hrelative]
  · rw [if_neg hrelative, if_neg hrelative, linkImport, if_neg hrelative]

@[simp] theorem linkFile_bare (record : FileRecord) :
    linkFile isKnown extensions path (bare record) = linkFile isKnown extensions path record := by
  simp only [linkFile, bare, List.foldl_map, linkImport_unlinked]

end Bare

section Evaluation

variable (extensions : List String) (files : FileMap)

@[simp] theorem contains_bareFiles : (bareFiles files).contains = files.contains :=
  Keyed.contains_mapValues _ files

@[simp] theorem dependenciesOf_bare (path : String) (record : FileRecord) :
    dependenciesOf extensions (bareFiles files) path (bare record) =
      dependenciesOf extensions files path record := by
  rw [dependenciesOf, dependenciesOf, contains_bareFiles, linkFile_bare]

@[simp] theorem dependentsOf_bare (path : String) :
    dependentsOf extensions (bareFiles files) path = dependentsOf extensions files path := by
  simp only [dependentsOf, entries_bareFiles, List.filter_map, List.map_map, Function.comp_def,
    dependenciesOf_bare]

/-- An earlier score gives way to the new one. -/
theorem scored_settled_bare (path : String) (record : FileRecord) :
    Risk.scored (settled extensions (bareFiles files) path (bare record)) =
      Risk.scored (settled extensions files path record) := by
  have himports :
      (bare record).imports.map (linkImport (bareFiles files).contains extensions path) =
        record.imports.map (linkImport files.contains extensions path) := by
    simp [bare, Function.comp_def]
  rw [settled, settled, himports, dependenciesOf_bare, dependentsOf_bare]
  rfl

/-- Nothing but the text of the files decides. -/
theorem evaluate_bare : evaluate extensions (bareFiles files) = evaluate extensions files := by
  have hfiles : Risk.scoreAll (build extensions (bareFiles files)).files =
      Risk.scoreAll (build extensions files).files := by
    calc (evaluate extensions (bareFiles files)).files
        = files.mapValues fun path record =>
            Risk.scored (settled extensions files path record) := by
          rw [files_evaluate, bareFiles, Keyed.mapValues_mapValues]
          exact Keyed.mapValues_congr fun path record _ =>
            scored_settled_bare extensions files path record
      _ = (evaluate extensions files).files := (files_evaluate extensions files).symm
  have hcount : (build extensions (bareFiles files)).edgeCount =
      (build extensions files).edgeCount := by
    simp only [build_edgeCount, entries_bareFiles, List.map_map, Function.comp_def,
      dependenciesOf_bare]
  have hunresolved : (build extensions (bareFiles files)).unresolved =
      (build extensions files).unresolved := by
    simp only [build_unresolved, entries_bareFiles, List.flatMap_map, contains_bareFiles, bare,
      List.map_map, Function.comp_def, linkImport_unlinked]
  rw [evaluate, evaluate, hfiles, hcount, hunresolved]

theorem bare_scored (record : FileRecord) : bare (Risk.scored record) = bare record := rfl

theorem bare_settled (path : String) (record : FileRecord) :
    bare (settled extensions files path record) = bare record := by
  simp [bare, settled, Function.comp_def]

/-- A build leaves the text of the files as it is. -/
theorem bareFiles_build : bareFiles (build extensions files).files = bareFiles files := by
  rw [build_files, bareFiles, Keyed.mapValues_mapValues]
  exact Keyed.mapValues_congr fun path record _ => bare_settled extensions files path record

theorem bareFiles_scoreAll : bareFiles (Risk.scoreAll files) = bareFiles files := by
  rw [Risk.scoreAll, bareFiles, Keyed.mapValues_mapValues]
  exact Keyed.mapValues_congr fun _ record _ => bare_scored record

end Evaluation

/-! ## Between two builds -/

/-- What is done to a map. -/
inductive Edit where
  | put (path : String) (record : FileRecord)
  | remove (path : String)
  | build (extensions : List String)
  | score

namespace Edit

def apply (files : FileMap) : Edit → FileMap
  | put path record => files.insert path record
  | remove path => files.erase path
  | build extensions => (Graph.build extensions files).files
  | score => Risk.scoreAll files

/-- The files or their texts are others afterwards. -/
def changesFiles : Edit → Bool
  | put .. => true
  | remove _ => true
  | build _ => false
  | score => false

end Edit

/-- A map after a number of edits. -/
def edited (files : FileMap) (edits : List Edit) : FileMap := edits.foldl Edit.apply files

section Edits

variable {files files' : FileMap}

theorem SameText.put (h : SameText files files') (path : String) (record : FileRecord) :
    SameText (files.insert path record) (files'.insert path record) := by
  rw [SameText, bareFiles, bareFiles, Keyed.mapValues_insert, Keyed.mapValues_insert]
  exact congrArg (·.insert path (bare record)) h

theorem SameText.remove (h : SameText files files') (path : String) :
    SameText (files.erase path) (files'.erase path) := by
  rw [SameText, bareFiles, bareFiles, Keyed.mapValues_erase, Keyed.mapValues_erase]
  exact congrArg (·.erase path) h

/-- Builds and scores may be left out. -/
theorem SameText.edited (edits : List Edit) :
    ∀ {files files' : FileMap}, SameText files files' →
      SameText (edited files edits) (edited files' (edits.filter Edit.changesFiles)) := by
  induction edits with
  | nil => exact fun h => h
  | cons edit rest ih =>
    intro files files' h
    cases edit with
    | put path record => exact ih (h.put path record)
    | remove path => exact ih (h.remove path)
    | build extensions => exact ih ((bareFiles_build extensions files).trans h)
    | score => exact ih ((bareFiles_scoreAll files).trans h)

theorem evaluate_eq_of_sameText (extensions : List String) (h : SameText files files') :
    evaluate extensions files = evaluate extensions files' := by
  rw [← evaluate_bare extensions files, ← evaluate_bare extensions files', h]

end Edits

/-- Two maps of the same texts are evaluated alike, whatever they hold besides; and after files
were put in and taken out, with any builds and scores in between, the evaluation is that of the
files without anything left over from those. -/
theorem evaluate_forgets (extensions : List String) {files files' : FileMap}
    (h : SameText files files') :
    evaluate extensions files = evaluate extensions files' ∧
      ∀ edits, evaluate extensions (edited files edits) =
        evaluate extensions (bareFiles (edited files' (edits.filter Edit.changesFiles))) := by
  refine ⟨evaluate_eq_of_sameText extensions h, fun edits => ?_⟩
  rw [evaluate_bare]
  exact evaluate_eq_of_sameText extensions (SameText.edited edits h)

namespace Sample

def link : ImportEdge where
  fromPath := "a.ts"
  specifier := "./b"
  kind := .known .relative
  line := 1

def fresh : FileMap := .ofList [("a.ts", { path := "a.ts", imports := [link] }),
  ("b.ts", { path := "b.ts" })]

/-- The same two files after an earlier build, in which there was a third one. -/
def stale : FileMap := .ofList
  [("a.ts",
    { path := "a.ts", imports := [{ link with resolved := some "b" }], dependencies := ["b"]
      risk := .known .high }),
    ("b.ts", { path := "b.ts", dependents := ["b", "a.ts"], risk := .other "unknown" })]

end Sample

theorem evaluate_forgets_sample : SameText Sample.stale Sample.fresh ∧
    evaluate [".ts"] Sample.stale = evaluate [".ts"] Sample.fresh ∧
      evaluate [".ts"] (edited Sample.stale [.build [], .remove "b.ts", .score]) =
        evaluate [".ts"] (bareFiles (Sample.fresh.erase "b.ts")) := by
  have h : SameText Sample.stale Sample.fresh := Keyed.ext_entries (by decide)
  obtain ⟨hsame, hedited⟩ := evaluate_forgets [".ts"] h
  exact ⟨h, hsame, hedited [.build [], .remove "b.ts", .score]⟩

end Graph

end ChangeImpact
