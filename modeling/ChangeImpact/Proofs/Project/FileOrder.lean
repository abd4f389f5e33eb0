import ChangeImpact.Proofs.Graph.Rebuild
import ChangeImpact.Proofs.Impact.BlastRadius

/-!
# Proofs.Project.FileOrder

The order in which the files of a project are given, and what depends on it.

* `SameButOrder`        — records that differ in nothing but the order of what depends on the file.
* `Graph.Reordered`     — graphs of the same files in some order.
* `Graph.reordered_evaluate` — evaluations of the same records in some order are such graphs.
* `Project.graphOf_reordered` — and so are the graphs of the same texts.
-/

namespace ChangeImpact

namespace Keyed

variable {α : Type} {m m' : Keyed α}

theorem get?_eq_of_perm (h : m'.entries.Perm m.entries) (key : String) :
    m'.get? key = m.get? key := by
  apply Option.ext
  intro value
  rw [get?_eq_some_iff, get?_eq_some_iff]
  exact h.mem_iff

theorem contains_eq_of_perm (h : m'.entries.Perm m.entries) : m'.contains = m.contains := by
  funext key
  rw [contains, contains, get?_eq_of_perm h]

end Keyed

/-- The records agree but for the order of what depends on the file. -/
structure SameButOrder (r' r : FileRecord) : Prop where
  path : r'.path = r.path
  imports : r'.imports = r.imports
  exports : r'.exports = r.exports
  dependencies : r'.dependencies = r.dependencies
  dependents : r'.dependents.Perm r.dependents
  score : Risk.score r' = Risk.score r
  risk : r'.risk = r.risk
  impacts : r'.impacts.Perm r.impacts

namespace Graph

open Impact (predict predictFor)

/-- Graphs of the same files in some order. -/
structure Reordered (b' b : Built) : Prop where
  keys : b'.files.keys.Perm b.files.keys
  records : ∀ path r, b.files.get? path = some r →
    ∃ r', b'.files.get? path = some r' ∧ SameButOrder r' r
  edgeCount : b'.edgeCount = b.edgeCount
  unresolved : b'.unresolved.Perm b.unresolved
  summary : Risk.summarize b'.files = Risk.summarize b.files
  predicted : ∀ target (kind : ChangeKind), ∃ is' is,
    predictFor b'.files target (Vocabulary.word kind) = .ok is' ∧
      predictFor b.files target (Vocabulary.word kind) = .ok is ∧
      is'.Perm is ∧ (affectedFiles is').Perm (affectedFiles is)
  /-- A word for no kind of change is refused for both. -/
  refused : ∀ target word failure, predictFor b.files target word = .error failure →
    predictFor b'.files target word = .error failure

section Records

variable (extensions : List String) {files files' : FileMap}

theorem dependenciesOf_eq_of_perm (h : files'.entries.Perm files.entries) (path : String)
    (record : FileRecord) :
    dependenciesOf extensions files' path record = dependenciesOf extensions files path record := by
  rw [dependenciesOf, dependenciesOf, Keyed.contains_eq_of_perm h]

/-- The dependents stand in map order. -/
theorem perm_dependentsOf (h : files'.entries.Perm files.entries) (path : String) :
    (dependentsOf extensions files' path).Perm (dependentsOf extensions files path) := by
  simp only [dependentsOf, dependenciesOf_eq_of_perm extensions h]
  exact (h.filter _).map _

theorem sameButOrder_settled (h : files'.entries.Perm files.entries) (path : String)
    (record : FileRecord) :
    SameButOrder (Risk.scored (settled extensions files' path record))
      (Risk.scored (settled extensions files path record)) := by
  have hdependencies := dependenciesOf_eq_of_perm extensions h path record
  have hdependents := perm_dependentsOf extensions h path
  have hscore : Risk.score (settled extensions files' path record) =
      Risk.score (settled extensions files path record) := by
    simp only [Risk.score, settled, hdependencies, hdependents.length_eq]
    rfl
  have hrisk : (Risk.scored (settled extensions files' path record)).risk =
      (Risk.scored (settled extensions files path record)).risk := by
    simp only [Risk.scored, Risk.levelOf, hscore]
  constructor
  case path => rfl
  case imports => simp only [Risk.imports_scored, settled, Keyed.contains_eq_of_perm h]
  case exports => rfl
  case dependencies => exact hdependencies
  case dependents => exact hdependents
  case score => exact hscore
  case risk => exact hrisk
  case impacts =>
    have himpacts : ∀ r : FileRecord, (Risk.scored r).impacts =
        Risk.directImpacts { r with risk := (Risk.scored r).risk } := fun _ => rfl
    rw [himpacts, himpacts, hrisk]
    exact hdependents.map _

theorem sameButOrder_evaluate (h : files'.entries.Perm files.entries) {path : String}
    {r : FileRecord} (hr : (evaluate extensions files).files.get? path = some r) :
    ∃ r', (evaluate extensions files').files.get? path = some r' ∧ SameButOrder r' r := by
  rw [get?_evaluate, Option.map_eq_some_iff] at hr
  obtain ⟨record, hrecord, rfl⟩ := hr
  refine ⟨_, ?_, sameButOrder_settled extensions h path record⟩
  rw [get?_evaluate, Keyed.get?_eq_of_perm h, hrecord]
  rfl

/-- What is the same for records that differ in order alone comes from all files as the same
values in some order. -/
theorem perm_map_values {β : Type} (g : FileRecord → β)
    (hg : ∀ r' r, SameButOrder r' r → g r' = g r) (h : files'.entries.Perm files.entries) :
    ((evaluate extensions files').files.values.map g).Perm
      ((evaluate extensions files).files.values.map g) := by
  have hsame : ∀ e : String × FileRecord,
      g (Risk.scored (settled extensions files' e.1 e.2)) =
        g (Risk.scored (settled extensions files e.1 e.2)) :=
    fun e => hg _ _ (sameButOrder_settled extensions h e.1 e.2)
  simp only [Keyed.values, entries_evaluate, List.map_map, Function.comp_def, hsame]
  exact h.map _

theorem summarize_eq_of_perm (h : files'.entries.Perm files.entries) :
    Risk.summarize (evaluate extensions files').files =
      Risk.summarize (evaluate extensions files).files := by
  have hrisks := perm_map_values extensions (·.risk) (fun _ _ s => s.risk) h
  have hedges := perm_map_values extensions (·.dependencies.length)
    (fun _ _ s => congrArg List.length s.dependencies) h
  have hsize : (evaluate extensions files').files.size =
      (evaluate extensions files).files.size := by
    simp only [Keyed.size, entries_evaluate, List.length_map, h.length_eq]
  simp only [Risk.summarize, hsize, Keyed.total_eq_sum, hedges.sum_eq, hrisks.countP_eq,
    hrisks.count_eq]

end Records

/-! ## Impact -/

section Impact

variable (extensions : List String) {files files' : FileMap}

theorem perm_dependentsIn_evaluate (h : files'.entries.Perm files.entries) (target : String) :
    (Impact.dependentsIn (evaluate extensions files').files target).Perm
      (Impact.dependentsIn (evaluate extensions files).files target) := by
  rw [Impact.dependentsIn, Impact.dependentsIn, get?_evaluate, get?_evaluate,
    Keyed.get?_eq_of_perm h]
  cases files.get? target with
  | none => exact .refl _
  | some record => exact perm_dependentsOf extensions h target

/-- Where every file has the same dependents in some order, the walk over two steps finds the same
files equally often. -/
theorem perm_predict {files' files : FileMap}
    (h : ∀ path, (Impact.dependentsIn files' path).Perm (Impact.dependentsIn files path))
    (target : String) (kind : ChangeKind) :
    (predict files' target kind).Perm (predict files target kind) := by
  have hfar : ((Impact.dependentsIn files' target).flatMap (Impact.dependentsIn files')).Perm
      ((Impact.dependentsIn files target).flatMap (Impact.dependentsIn files)) :=
    (h target).flatMap fun path _ => h path
  exact ((h target).map _).append (hfar.map _)

theorem perm_affectedFiles {is' is : List Impact} (h : is'.Perm is) :
    (affectedFiles is').Perm (affectedFiles is) := by
  rw [affectedFiles, affectedFiles,
    List.perm_ext_iff_of_nodup (nodup_eraseDups _) (nodup_eraseDups _)]
  intro path
  rw [List.mem_eraseDups, List.mem_eraseDups]
  exact (h.map _).mem_iff

end Impact

theorem reordered_evaluate (extensions : List String) {files files' : FileMap}
    (h : files'.entries.Perm files.entries) :
    Reordered (evaluate extensions files') (evaluate extensions files) := by
  constructor
  case keys =>
    rw [keys_evaluate, keys_evaluate]
    exact h.map _
  case records => exact fun path r => sameButOrder_evaluate extensions h
  case edgeCount =>
    simp only [evaluate, build_edgeCount, dependenciesOf_eq_of_perm extensions h]
    exact (h.map _).sum_eq
  case unresolved =>
    simp only [evaluate, build_unresolved, Keyed.contains_eq_of_perm h]
    exact h.flatMap_right _
  case summary => exact summarize_eq_of_perm extensions h
  case predicted =>
    intro target kind
    have hentries := perm_predict (perm_dependentsIn_evaluate extensions h) target kind
    exact ⟨_, _, Impact.predictFor_word _ target kind, Impact.predictFor_word _ target kind,
      hentries, perm_affectedFiles hentries⟩
  case refused =>
    intro target word failure hrefused
    rw [predictFor] at hrefused ⊢
    cases hword : Vocabulary.ofWord? (α := ChangeKind) word with
    | none => simpa [hword] using hrefused
    | some kind => simp [hword] at hrefused

end Graph

namespace Project

variable (extensions : List String) (extractor : Extractor)

/-- The same texts in some order have the same graph, as far as it has no order of its own. -/
theorem graphOf_reordered {sources sources' : Keyed String}
    (h : sources'.entries.Perm sources.entries) :
    Graph.Reordered (graphOf extensions extractor sources').1
      (graphOf extensions extractor sources).1 := by
  rw [Graph.graphOf_eq_evaluate, Graph.graphOf_eq_evaluate]
  -- every text has a record of its own or none, wherever it stands
  have hrecords : (Source.analyzeFiles extractor sources').1.entries.Perm
      (Source.analyzeFiles extractor sources).1.entries := (h.map _).filterMap _
  exact Graph.reordered_evaluate extensions hrecords

namespace Sample

/-- Two files that need a third one, which is given between them. -/
def shop : Keyed String := .ofList [("src/cart.ts", "import { price } from './price';"),
  ("src/price.ts", "export const price = 1;"),
  ("src/order.ts", "import './cart'; require('./price');")]

def shopReversed : Keyed String := .ofList shop.entries.reverse

end Sample

theorem graphOf_reordered_sample :
    Sample.shopReversed.entries.Perm Sample.shop.entries ∧
      Graph.Reordered (graphOf [".ts"] .textual Sample.shopReversed).1
        (graphOf [".ts"] .textual Sample.shop).1 := by
  have h : Sample.shopReversed.entries.Perm Sample.shop.entries := by
    have hentries : Sample.shopReversed.entries = Sample.shop.entries.reverse := by decide
    rw [hentries]
    exact List.reverse_perm _
  exact ⟨h, graphOf_reordered [".ts"] .textual h⟩

end Project

end ChangeImpact
