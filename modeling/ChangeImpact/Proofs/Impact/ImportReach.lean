import ChangeImpact.Proofs.Impact.BlastRadius
import ChangeImpact.Proofs.Path.Route
import ChangeImpact.Proofs.Source.ImportLine

/-!
# Proofs.Impact.ImportReach

An import, from the line it stands on to the impact of a change.

* `Graph.resolve_of_isRoute`     — a route resolves to the file it leads to, if that is known.
* `Impact.Connected`             — what is known of a file that needs another one.
* `Impact.connected_of_import`   — it is known wherever one line imports the other file.
-/

namespace ChangeImpact

theorem Path.IsRoute.exists_toList {source target s : String} (h : IsRoute source target s) :
    ∃ rest, s.toList = '.' :: rest := by
  obtain ⟨_, _, inner, downs, _, _, rfl⟩ := h
  exact exists_toList_route inner.length downs

theorem Source.specifierKind_of_isRoute {source target s : String}
    (h : Path.IsRoute source target s) : specifierKind s = .relative := by
  obtain ⟨rest, hrest⟩ := h.exists_toList
  simp [specifierKind, hrest]

/-- What a specifier denotes is tried before any extension. -/
theorem Graph.resolve_of_isRoute {isKnown : String → Bool} {source target s : String}
    (hsource : Path.IsNormal source) (htarget : Path.IsNormal target)
    (hroute : Path.IsRoute source target s) (hknown : isKnown target = true)
    (extensions : List String) : resolve isKnown extensions source s = some target := by
  rw [resolve, target_of_isRoute hsource htarget hroute, candidates, List.cons_append]
  exact List.find?_cons_of_pos hknown

namespace Impact

open ChangeImpact.Graph

/-- The file at `source` needs the one at `target`, and a change of that one is known to reach it
directly. -/
structure Connected (files : FileMap) (source target : String) : Prop where
  dependency : ∃ r, files.get? source = some r ∧ target ∈ r.dependencies
  dependent : ∃ r, files.get? target = some r ∧ source ∈ r.dependents
  reached : ∀ kind : ChangeKind, ∃ impacts,
    predictFor files target (Vocabulary.word kind) = .ok impacts ∧ direct kind source ∈ impacts

theorem connected_of_dependsOn {files : FileMap} {source target : String}
    (h : TwoEnded files) (hedge : dependsOn files source target = true) :
    Connected files source target := by
  have hdependent : source ∈ dependentsIn files target := h.mem_dependentsIn.mpr hedge
  constructor
  case dependency => exact dependsOn_iff.mp hedge
  case dependent =>
    rw [dependentsIn] at hdependent
    cases htarget : files.get? target with
    | none => simp [htarget] at hdependent
    | some r => exact ⟨r, rfl, by simpa [htarget] using hdependent⟩
  case reached =>
    intro kind
    exact ⟨_, predictFor_word files target kind,
      List.mem_append_left _ (List.mem_map_of_mem hdependent)⟩

/-- Whatever the extensions and the other files: where a line imports a file by its relative path,
the analysis connects the two. -/
theorem connected_of_import (extensions : List String) {sources : Keyed String}
    {source target s text : String} (htext : sources.get? source = some text)
    (hknown : sources.contains target = true) (hne : source ≠ target)
    (hsource : Path.IsNormal source) (htarget : Path.IsNormal target)
    (hroute : Path.IsRoute source target s) (hplain : ∀ c ∈ s.toList, Source.isQuote c = false)
    (himport : Source.HasImport text s) :
    Connected (Project.analyzeSources extensions .textual sources) source target := by
  have hs : s ≠ "" := by
    rintro rfl
    simpa using hroute.exists_toList
  obtain ⟨edge, hedge, rfl, hkind⟩ := Source.exists_mem_importsOf himport hs hplain source
  have hrelative : isRelative edge = true := by
    simp [isRelative, hkind, Source.specifierKind_of_isRoute hroute]
  obtain ⟨r, hr⟩ : ∃ r, (Project.analyzeSources extensions .textual sources).get? source = some r :=
    ⟨_, Project.get?_textual.mpr ⟨text, htext, rfl⟩⟩
  obtain ⟨_, htext', himports⟩ := Project.imports_textual hr
  cases htext.symm.trans htext'
  have hresolved : (linkImport sources.contains extensions source edge).resolved = some target := by
    rw [resolved_linkImport hrelative]
    exact resolve_of_isRoute hsource htarget hroute hknown extensions
  refine connected_of_dependsOn Project.twoEnded_analyzeSources ?_
  rw [Project.dependsOn_textual hne hr, himports]
  exact ⟨_, List.mem_map_of_mem hedge, hresolved⟩

namespace Sample

/-- An import that climbs, below a comment and between blanks; another file could be taken for
what it leads to. -/
def sources : Keyed String := .ofList
  [("/w/b.ts", ""), ("/w/x/y/a.ts", "// helpers\n\timport helper from '../../b' // note\r\n"),
    ("/w/b", "")]

end Sample

theorem connected_of_import_sample : Connected
    (Project.analyzeSources [".ts"] .textual Sample.sources) "/w/x/y/a.ts" "/w/b" := by
  have hroute : Path.IsRoute "/w/x/y/a.ts" "/w/b" "../../b" :=
    ⟨by decide, ["w"], ["x", "y"], ["b"], by decide, by decide, by decide⟩
  have hplain : ∀ c ∈ "../../b".toList, Source.isQuote c = false := by
    simp [Source.isQuote]
  have hword : ∀ c ∈ "helper".toList, Text.isWordChar c = true := by
    rw [← List.all_eq_true]
    decide
  refine connected_of_import [".ts"] rfl rfl (by decide) (by decide) (by decide) hroute hplain ?_
  exact ⟨"\timport helper from '../../b' // note\r".toList, by decide, "helper", by decide, hword,
    by decide⟩

end Impact

end ChangeImpact
