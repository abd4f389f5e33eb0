import ChangeImpact.Plan.Store
import ChangeImpact.Proofs.Json.Occurs
import ChangeImpact.Proofs.Record.FileForm

/-!
# Proofs.Plan.FileForm

A plan is read back from the file that it is kept in.

* `Plan.Canonical`           — all labels of the plan are, those of its analysis among them.
* `Plan.ofValue_toValue`     — back from a value.
* `Storage.planOfText_saved` — back from the text of its file.
* `Storage.normalized_textOfPlan` — whose line ends reading leaves alone.
-/

namespace ChangeImpact

instance : LawfulVocabulary PlanStep := ⟨by intro a; cases a <;> rfl⟩

instance : LawfulVocabulary PlanStatus := ⟨by intro a; cases a <;> rfl⟩

instance : LawfulVocabulary ChangeType := ⟨by intro a; cases a <;> rfl⟩

namespace Plan

structure Canonical (p : Plan) : Prop where
  changeType : p.changeType.Canonical
  status : p.status.Canonical
  step : p.step.Canonical
  analysis : ∀ r, p.analysis = some r → r.Canonical
  impacts : ∀ i ∈ p.impacts, i.Canonical

theorem analysisOf_toValue {analysis : Option FileRecord}
    (h : ∀ r, analysis = some r → r.Canonical) :
    analysisOf ((analysis.map FileRecord.toValue).getD .null) = .ok analysis := by
  cases analysis with
  | none => rfl
  | some r =>
    have hr := FileRecord.ofValue_toValue (h r rfl)
    have hnothing : r.toValue.isNothing = false := rfl
    simp [analysisOf, hnothing, hr, Except.map]

theorem ofValue_toValue {p : Plan} (h : p.Canonical) : ofValue p.toValue = .ok p := by
  have hanalysis := analysisOf_toValue h.analysis
  have himpacts := Value.asListOf_map fun i hi => Impact.ofValue_toValue (h.impacts i hi)
  simp [ofValue, toValue, ofFields, hanalysis, himpacts, Value.asLabel_text h.changeType,
    Value.asLabel_text h.status, Value.asLabel_text h.step, bind, Except.bind, pure, Except.pure]

theorem plain_toValue (p : Plan) : p.toValue.Plain := by
  have hanalysis : ((p.analysis.map FileRecord.toValue).getD .null).Plain := by
    cases p.analysis with
    | none => exact trivial
    | some r => exact r.plain_toValue
  have himpacts := Value.plain_list_map _ p.impacts fun i _ => i.plain_toValue
  simp only [Value.Plain] at himpacts
  simp [toValue, Value.Plain, Value.PlainFields, Value.plain_texts, Value.plain_ofOption,
    hanalysis, himpacts]

end Plan

/-! ## Files -/

namespace Text

theorem normalizeNewlines_eq_self : ∀ {cs : List Char}, '\r' ∉ cs → normalizeNewlines cs = cs
  | [], _ => rfl
  | c :: cs, h => by
    rw [List.mem_cons, not_or] at h
    have hc : c ≠ '\r' := fun he => h.1 he.symm
    simp [normalizeNewlines, hc, normalizeNewlines_eq_self h.2]

end Text

namespace Storage

theorem planOfText_saved {p : Plan} (h : p.Canonical) : planOfText (textOfPlan p) = .ok p := by
  rw [planOfText, textOfPlan, Json.parse?_pretty p.plain_toValue]
  exact Plan.ofValue_toValue h

/-- A document has no line ends that reading would change. -/
theorem normalized_pretty {v : Value} (h : v.Plain) :
    Disk.normalized (Json.pretty v) = Json.pretty v := by
  rw [Disk.normalized, Text.normalizeNewlines_eq_self (Json.cr_notMem_pretty h),
    String.ofList_toList]

theorem normalized_textOfPlan (p : Plan) : Disk.normalized (textOfPlan p) = textOfPlan p :=
  normalized_pretty p.plain_toValue

end Storage

end ChangeImpact
