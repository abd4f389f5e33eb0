import ChangeImpact.Proofs.Impact.ImportReach
import ChangeImpact.Proofs.Source.Grammar

/-!
# Proofs.Impact.RequireReach

Require calls, from the line they stand on to the dependencies of a file.

* `Source.requireCall?_strip`      — blanks around a line do not matter for the calls on it.
* `Source.exists_mem_importsOf_iff` — the specifiers in a text: those of imports that start a line,
  and on each line that of the first call.
* `Project.LeadsTo`                — a relative specifier of one file is resolved to another.
* `Impact.connected_iff`           — two files are connected by such a specifier and by nothing else.
-/

namespace ChangeImpact

namespace Source

open Text

section Blanks

variable {s a b v line : List Char}

theorem callForm_append_iff (hb : ∀ c ∈ b, isBlank c = true) :
    CallForm s (v ++ b) ↔ CallForm s v := by
  constructor
  · intro h
    generalize htext : v ++ b = text at h
    obtain @⟨u, hu, rest⟩ := h
    have hcall : v ++ b = ("require(".toList ++ (u ++ [')'])) ++ rest := by
      rw [htext]
      simp
    rcases List.append_eq_append_iff.mp hcall with ⟨t, hv, rfl⟩ | ⟨t, rfl, _⟩
    · rcases List.eq_nil_or_concat' t with rfl | ⟨t, c, rfl⟩
      · rw [List.append_nil] at hv
        rw [← hv]
        exact .intro hu []
      · -- the call would end among the blanks
        have hlast : some ')' = some c := by
          have hends := congrArg List.getLast? hv
          rwa [← List.append_assoc, ← List.append_assoc, List.getLast?_concat,
            List.getLast?_concat] at hends
        have hblank := hb c (by simp)
        rw [← Option.some.inj hlast] at hblank
        exact absurd hblank (by decide)
    · simpa using CallForm.intro hu t
  · rintro ⟨hu, rest⟩
    simpa using CallForm.intro hu (rest ++ b)

theorem requireHere?_append_blanks (hb : ∀ c ∈ b, isBlank c = true) :
    requireHere? (v ++ b) = requireHere? v := by
  refine Option.ext fun s => ?_
  rw [requireHere?_iff, requireHere?_iff, callForm_append_iff hb]

theorem requireHere?_blanks (hb : ∀ c ∈ b, isBlank c = true) : requireHere? b = none :=
  requireHere?_append_blanks (v := []) hb

theorem firstMatch_append_blanks (hb : ∀ c ∈ b, isBlank c = true) (v : List Char) :
    firstMatch requireHere? (v ++ b) = firstMatch requireHere? v := by
  induction v with
  | nil =>
    have hempty : firstMatch requireHere? [] = none := rfl
    rw [List.nil_append, hempty]
    exact firstMatch_eq_none fun t ht => requireHere?_blanks fun c hc => hb c (ht.subset hc)
  | cons c v ih =>
    rw [List.cons_append, firstMatch, firstMatch, ih, ← List.cons_append,
      requireHere?_append_blanks hb]

theorem requireHere?_cons_blank {c : Char} (hc : isBlank c = true) :
    requireHere? (c :: v) = none := by
  rw [Option.eq_none_iff_forall_ne_some]
  intro s hs
  have hform := requireHere?_iff.mp hs
  cases hform
  exact absurd hc (by decide)

/-- A line has the same calls as it has without the blanks at its ends. -/
theorem requireCall?_strip (line : List Char) : requireCall? (strip line) = requireCall? line := by
  obtain ⟨a, b, hline, ha, hb⟩ := exists_strip line
  have hfront : firstMatch requireHere? (a ++ (strip line ++ b)) =
      firstMatch requireHere? (strip line ++ b) := by
    refine firstMatch_append fun t ht hne => ?_
    obtain ⟨c, cs, rfl⟩ := List.exists_cons_of_ne_nil hne
    exact requireHere?_cons_blank (ha c (ht.subset List.mem_cons_self))
  rw [requireCall?, requireCall?]
  conv_rhs => rw [hline, hfront, firstMatch_append_blanks hb]

end Blanks

theorem exists_mem_lineImports_iff {path s : String} {n : Nat} {line : List Char} :
    (∃ e ∈ lineImports path n line, e.specifier = s) ↔
      ImportForm s.toList line ∨ FirstRequire s.toList line := by
  obtain ⟨declared, required, hedges, hdeclared, hrequired, _⟩ :=
    (importsOnLine_lineImports path n line).parts
  rw [← hdeclared, ← hrequired, hedges]
  simp only [List.mem_append, Option.mem_toList, Option.mem_def, String.toList_inj, or_and_right,
    exists_or]

/-- The specifiers in a text are those of the imports and first calls on its lines. -/
theorem exists_mem_importsOf_iff {path text s : String} :
    (∃ e ∈ importsOf path text, e.specifier = s) ↔ ∃ line ∈ splitOn '\n' text.toList,
      ImportForm s.toList (strip line) ∨ FirstRequire s.toList line := by
  have hcalls (line : List Char) :
      FirstRequire s.toList line ↔ FirstRequire s.toList (strip line) := by
    rw [← requireCall?_iff, ← requireCall?_iff, requireCall?_strip]
  constructor
  · rintro ⟨e, he, hspecifier⟩
    obtain ⟨⟨n, stripped⟩, hmem, he⟩ := List.mem_flatMap.mp he
    rw [numberedLines_eq_map, List.mem_map] at hmem
    obtain ⟨⟨line, _⟩, hline, heq⟩ := hmem
    cases heq
    refine ⟨line, List.fst_mem_of_mem_zipIdx hline, ?_⟩
    rw [hcalls]
    exact exists_mem_lineImports_iff.mp ⟨e, he, hspecifier⟩
  · rintro ⟨line, hline, hform⟩
    rw [hcalls] at hform
    obtain ⟨n, hn⟩ := exists_mem_numberedLines hline
    obtain ⟨e, he, hspecifier⟩ : ∃ e ∈ lineImports path n (strip line), e.specifier = s :=
      exists_mem_lineImports_iff.mpr hform
    exact ⟨e, List.mem_flatMap.mpr ⟨_, hn, he⟩, hspecifier⟩

theorem kind_importsOf {path text : String} {e : ImportEdge} (h : e ∈ importsOf path text) :
    e.kind = .known (specifierKind e.specifier) := by
  obtain ⟨⟨n, line⟩, _, he⟩ := List.mem_flatMap.mp h
  exact ((importsOnLine_lineImports path n line).origin e he).2.2.1

end Source

open Source Text ChangeImpact.Graph

/-- The specifier is relative, and what it denotes in the file `source` is the file `target`. -/
def Project.LeadsTo (extensions : List String) (sources : Keyed String)
    (source target s : String) : Prop :=
  specifierKind s = .relative ∧ resolve sources.contains extensions source s = some target

namespace Impact

theorem connected_iff_dependsOn {files : FileMap} {source target : String} (h : TwoEnded files) :
    Connected files source target ↔ dependsOn files source target = true :=
  ⟨fun hconnected => dependsOn_iff.mpr hconnected.dependency, connected_of_dependsOn h⟩

theorem dependsOn_textual_iff {extensions : List String} {sources : Keyed String}
    {source target text : String} (htext : sources.get? source = some text)
    (hne : source ≠ target) :
    dependsOn (Project.analyzeSources extensions .textual sources) source target = true ↔
      ∃ e ∈ importsOf source text,
        Project.LeadsTo extensions sources source target e.specifier := by
  obtain ⟨r, hr⟩ : ∃ r, (Project.analyzeSources extensions .textual sources).get? source = some r :=
    ⟨_, Project.get?_textual.mpr ⟨text, htext, rfl⟩⟩
  obtain ⟨_, htext', himports⟩ := Project.imports_textual hr
  cases htext.symm.trans htext'
  rw [Project.dependsOn_textual hne hr, himports]
  simp only [List.mem_map, exists_exists_and_eq_and]
  refine exists_congr fun e => and_congr_right fun he => ?_
  have hkind : isRelative e = true ↔ specifierKind e.specifier = .relative := by
    simp [isRelative, kind_importsOf he]
  by_cases hrelative : isRelative e = true
  · rw [resolved_linkImport hrelative, Project.LeadsTo, and_iff_right (hkind.mp hrelative)]
  · rw [linkImport, if_neg hrelative, resolved_importsOf e he, Project.LeadsTo]
    simp [← hkind, hrelative]

/-- One file depends on another, and that one knows of it, just where an import that starts a line,
or the first call on a line, leads there. Further calls on a line count for nothing. -/
theorem connected_iff (extensions : List String) {sources : Keyed String}
    {source target text : String} (htext : sources.get? source = some text)
    (hne : source ≠ target) :
    Connected (Project.analyzeSources extensions .textual sources) source target ↔
      ∃ line ∈ splitOn '\n' text.toList, ∃ s : String,
        (ImportForm s.toList (strip line) ∨ FirstRequire s.toList line) ∧
        Project.LeadsTo extensions sources source target s := by
  rw [connected_iff_dependsOn Project.twoEnded_analyzeSources, dependsOn_textual_iff htext hne]
  constructor
  · rintro ⟨e, he, hleads⟩
    obtain ⟨line, hline, hform⟩ := exists_mem_importsOf_iff.mp ⟨e, he, rfl⟩
    exact ⟨line, hline, e.specifier, hform, hleads⟩
  · rintro ⟨line, hline, s, hform, hleads⟩
    obtain ⟨e, he, rfl⟩ : ∃ e ∈ importsOf source text, e.specifier = s :=
      exists_mem_importsOf_iff.mpr ⟨line, hline, hform⟩
    exact ⟨e, he, hleads⟩

namespace Sample

/-- An import and two calls on one line. -/
def calling : String := "import x from './x'; const b = require('./b'), c = require('./c');"

def called : Keyed String := .ofList
  [("src/a.ts", calling), ("src/b.ts", ""), ("src/c.ts", ""), ("src/x.ts", "")]

end Sample

theorem connected_iff_sample :
    Sample.called.get? "src/a.ts" = some Sample.calling ∧ "src/a.ts" ≠ "src/b.ts" ∧
      Connected (Project.analyzeSources [".ts"] .textual Sample.called) "src/a.ts" "src/b.ts" := by
  have htext : Sample.called.get? "src/a.ts" = some Sample.calling := by decide
  have hcall : requireCall? Sample.calling.toList = some "./b".toList := by decide +kernel
  refine ⟨htext, by decide, (connected_iff [".ts"] htext (by decide)).mpr ?_⟩
  exact ⟨Sample.calling.toList, by decide, "./b", .inr (requireCall?_iff.mp hcall), by decide,
    by decide⟩

/-- The second call on the line is missed. -/
theorem not_connected_second :
    Sample.called.get? "src/a.ts" = some Sample.calling ∧
      RequireForm "./c".toList Sample.calling.toList ∧
      Project.LeadsTo [".ts"] Sample.called "src/a.ts" "src/c.ts" "./c" ∧
      ¬ Connected (Project.analyzeSources [".ts"] .textual Sample.called) "src/a.ts" "src/c.ts" := by
  refine ⟨by decide, ?_, ⟨by decide, by decide⟩, ?_⟩
  · exact ⟨"import x from './x'; const b = require('./b'), c = ".toList, "require('./c');".toList,
      by decide, requireHere?_iff.mp (by decide)⟩
  · rintro ⟨⟨r, hr, hdependency⟩, _, _⟩
    have hdependencies : ((Project.analyzeSources [".ts"] .textual Sample.called).get?
        "src/a.ts").map (·.dependencies) = some ["src/x.ts", "src/b.ts"] := by decide +kernel
    rw [hr, Option.map_some, Option.some.injEq] at hdependencies
    rw [hdependencies] at hdependency
    revert hdependency
    decide

end Impact

end ChangeImpact
