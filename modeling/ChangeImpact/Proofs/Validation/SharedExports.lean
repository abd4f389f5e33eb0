import ChangeImpact.Proofs.Source.Grammar
import ChangeImpact.Proofs.Validation.CodeOnly
import ChangeImpact.Validation.Check

/-!
# Proofs.Validation.SharedExports

The warning on the exports of a shared file, beside the exports that are extracted from it.

* `Source.infix_of_mem_exportsOf` — a text from which an export is extracted holds the word.
* `mem_warnings_iff`              — what the warning is given for.
* `warned_iff`                    — with named exports, it is given unless the words of a default
  export stand somewhere.
* `not_warned_mixed`              — a file with exports of both kinds gets no warning.
-/

namespace ChangeImpact

namespace Source

open Text

theorem infix_of_mem_exportsOf {text : String} {x : ExportSymbol} (h : x ∈ exportsOf text) :
    "export".toList <:+: text.toList := by
  rw [exportsOf, numberedLines_eq_map, List.flatMap_map] at h
  obtain ⟨⟨line, n⟩, hline, hx⟩ := List.mem_flatMap.mp h
  have hpiece : line ∈ splitOn '\n' text.toList := List.fst_mem_of_mem_zipIdx hline
  have hstart : "export".toList <+: strip line := by
    cases hexport : keyword? "export" (strip line) with
    | none => simp [lineExports, namedExport?, defaultExport?, hexport] at hx
    | some rest =>
      obtain ⟨a, _, hstart, _⟩ := keyword?_eq_some_iff.mp hexport
      exact hstart ▸ List.prefix_append _ _
  exact hstart.isInfix.trans ((strip_isInfix line).trans (infix_of_mem_splitOn hpiece))

end Source

namespace Validation

open Text

/-- The warning to the callers of a shared file. -/
def callSites : String := "Shared utility exports changed: check every call site"

/-- The file is one of those that others share. -/
def IsShared (path : String) : Prop :=
  "/utils/".toList <:+: path.toList ∨ "/lib/".toList <:+: path.toList

instance (path : String) : Decidable (IsShared path) := inferInstanceAs (Decidable (_ ∨ _))

theorem occursIn_iff {needle s : String} :
    occursIn needle s = true ↔ needle.toList <:+: s.toList := contains_iff

theorem mem_areasOf_utility {path : String} : Area.utility ∈ areasOf path ↔ IsShared path := by
  simp [areasOf, Area.all, Area.covers, occursIn_iff, IsShared]

/-! ## What the warning is given for -/

theorem mem_raised {rules : List (Bool × String)} {w : String} :
    w ∈ raised rules ↔ (true, w) ∈ rules := by
  simp [raised]

theorem suffix_of_reportOf {name entry : String} {opened closed : Nat}
    (h : reportOf name opened closed = some entry) : name.toList <:+ entry.toList := by
  rw [reportOf] at h
  split at h
  · cases h
    rw [String.toList_append]
    exact List.suffix_append _ _
  · split at h
    · cases h
      rw [String.toList_append]
      exact List.suffix_append _ _
    · cases h

/-- An entry on delimiters ends in the name of their kind. -/
theorem callSites_notMem_imbalances (content : String) : callSites ∉ imbalances content := by
  intro h
  obtain ⟨d, hd, hentry⟩ := List.mem_filterMap.mp h
  rw [imbalance?_eq] at hentry
  have hnames : ∀ d ∈ delimiters, ¬ d.name.toList <:+ callSites.toList := by decide
  exact hnames d hd (suffix_of_reportOf hentry)

theorem callSites_notMem_generalWarnings (content : String) :
    callSites ∉ generalWarnings content := by
  rw [generalWarnings, List.mem_append, mem_raised, not_or]
  exact ⟨by simp [callSites], callSites_notMem_imbalances content⟩

theorem callSites_mem_warnings_iff {a : Area} {path content : String} :
    callSites ∈ a.warnings path content ↔ a = .utility ∧
      "export".toList <:+: content.toList ∧ ¬ "export default".toList <:+: content.toList := by
  rw [← occursIn_iff, ← occursIn_iff]
  cases a <;> simp [Area.warnings, mem_raised, callSites]

/-- No other rule has a warning like this one. -/
theorem mem_warnings_iff (path changeType content : String) :
    callSites ∈ (check path changeType (some content)).warnings ↔
      IsShared path ∧ "export".toList <:+: content.toList ∧
        ¬ "export default".toList <:+: content.toList := by
  rw [check, Verdict.ofFindings, List.mem_append,
    or_iff_left (callSites_notMem_generalWarnings content), List.mem_flatMap,
    ← mem_areasOf_utility]
  constructor
  · rintro ⟨a, ha, hw⟩
    obtain ⟨rfl, htext⟩ := callSites_mem_warnings_iff.mp hw
    exact ⟨ha, htext⟩
  · rintro ⟨harea, htext⟩
    exact ⟨.utility, harea, callSites_mem_warnings_iff.mpr ⟨rfl, htext⟩⟩

/-! ## Beside the extracted exports -/

/-- Where an export is extracted that is not the default one, the words of a default export are
all that holds the warning back, wherever they stand. -/
theorem warned_iff {path content : String} (changeType : String) (hshared : IsShared path)
    (hexport : ∃ x ∈ Source.exportsOf content, x.isDefault = false) :
    callSites ∈ (check path changeType (some content)).warnings ↔
      ¬ "export default".toList <:+: content.toList := by
  obtain ⟨x, hx, _⟩ := hexport
  rw [mem_warnings_iff]
  exact ⟨fun h => h.2.2, fun h => ⟨hshared, Source.infix_of_mem_exportsOf hx, h⟩⟩

namespace Sample

def shared : String := "src/lib/money.ts"

/-- Exports of both kinds, with two blanks in the one that is the default. -/
def spaced : String := "export const zero = 0\nexport  default zero"

def mixed : String := "export const zero = 0\nexport default zero"

end Sample

theorem warned_iff_sample : IsShared Sample.shared ∧
    (∃ x ∈ Source.exportsOf Sample.spaced, x.isDefault = false) ∧
      callSites ∈ (check Sample.shared "modify" (some Sample.spaced)).warnings := by
  have hshared : IsShared Sample.shared := by decide
  have hexport : ∃ x ∈ Source.exportsOf Sample.spaced, x.isDefault = false := by decide +kernel
  exact ⟨hshared, hexport, (warned_iff "modify" hshared hexport).mpr (by decide +kernel)⟩

/-- One of the exports is not the default one, and yet there is no warning. -/
theorem not_warned_mixed : IsShared Sample.shared ∧
    (∃ x ∈ Source.exportsOf Sample.mixed, x.isDefault = false) ∧
      callSites ∉ (check Sample.shared "modify" (some Sample.mixed)).warnings :=
  ⟨by decide, by decide +kernel, by decide +kernel⟩

end Validation

end ChangeImpact
