import ChangeImpact.Proofs.Plan.FileForm

/-!
# Proofs.Plan.Reading

Plans that are read from a document hold labels as they are written, whoever wrote it.

* `Value.Gives`          — a property of everything that a reader makes of a value.
* `Plan.gives_ofValue`   — what is read as a plan is canonical.
* `Storage.canonical_planOfText` — also from the text of a file.
-/

namespace ChangeImpact

theorem Label.canonical_ofText {α : Type} [Vocabulary α] (t : String) :
    (ofText t : Label α).Canonical := by
  rw [Canonical, text_ofText]

theorem bind_eq_ok {α β : Type} {x : Except Failure α} {f : α → Except Failure β} {b : β} :
    x >>= f = .ok b ↔ ∃ a, x = .ok a ∧ f a = .ok b := by
  cases x with
  | error e => simp [bind, Except.bind]
  | ok a => simp [bind, Except.bind]

/-! ## Readers -/

namespace Value

variable {α : Type} {P : α → Prop} {read : Value → Except Failure α}

def Gives (P : α → Prop) (read : Value → Except Failure α) : Prop :=
  ∀ ⦃v a⦄, read v = .ok a → P a

theorem gives_asLabel [Vocabulary α] : Gives Label.Canonical (asLabel (α := α)) := by
  intro v l h
  rw [asLabel] at h
  cases htext : v.asText with
  | error e => simp [htext, Except.map] at h
  | ok t =>
    simp only [htext, Except.map, Except.ok.injEq] at h
    exact h ▸ Label.canonical_ofText t

theorem Gives.collect (h : Gives P read) : ∀ {items : List Value} {found : List α},
    ChangeImpact.collect read items = .ok found → ∀ a ∈ found, P a := by
  intro items
  induction items with
  | nil =>
    intro found hfound
    cases hfound
    simp
  | cons v rest ih =>
    intro found hfound
    rw [ChangeImpact.collect] at hfound
    split at hfound
    · cases hfound
    · next first hfirst =>
      split at hfound
      · cases hfound
      · next others hothers =>
        cases hfound
        exact List.forall_mem_cons.mpr ⟨h hfirst, ih hothers⟩

theorem Gives.asListOf (h : Gives P read) :
    Gives (fun found => ∀ a ∈ found, P a) (asListOf read) := by
  intro v found hfound
  rw [Value.asListOf] at hfound
  split at hfound
  · cases hfound
  · exact h.collect hfound

variable {fields : List (String × Value)} {key : String} {a default : α}

theorem Gives.required (h : Gives P read) (ha : required fields key read = .ok a) : P a := by
  rw [Value.required] at ha
  split at ha
  · exact h ha
  · cases ha

theorem Gives.optional (h : Gives P read) (hdefault : P default)
    (ha : Value.optional fields key read default = .ok a) : P a := by
  rw [Value.optional] at ha
  split at ha
  · exact h ha
  · cases ha
    exact hdefault

end Value

open Value Label

/-! ## Records and plans -/

theorem ImportEdge.gives_ofValue : Gives ImportEdge.Canonical ImportEdge.ofValue := by
  intro v e h
  simp only [ofValue, bind_eq_ok] at h
  obtain ⟨fields, -, path, -, specifier, -, kind, hkind, line, -, symbols, -, resolved, -, he⟩ := h
  cases he
  exact gives_asLabel.required hkind

theorem ExportSymbol.gives_ofValue : Gives ExportSymbol.Canonical ExportSymbol.ofValue := by
  intro v s h
  simp only [ofValue, bind_eq_ok] at h
  obtain ⟨fields, -, name, -, kind, hkind, line, -, isDefault, -, hs⟩ := h
  cases hs
  exact gives_asLabel.required hkind

theorem Impact.gives_ofValue : Gives Impact.Canonical Impact.ofValue := by
  intro v i h
  simp only [ofValue, bind_eq_ok] at h
  obtain ⟨fields, -, file, -, type, htype, description, -, severity, hseverity, hi⟩ := h
  cases hi
  exact ⟨gives_asLabel.required htype, gives_asLabel.required hseverity⟩

theorem FileRecord.gives_ofValue : Gives FileRecord.Canonical FileRecord.ofValue := by
  intro v r h
  cases v with
  | object fields =>
    simp only [ofValue, ofFields, bind_eq_ok] at h
    obtain ⟨path, -, imports, himports, exports, hexports, dependencies, -, dependents, -, risk,
      hrisk, impacts, himpacts, hr⟩ := h
    cases hr
    exact ⟨ImportEdge.gives_ofValue.asListOf.optional (by simp) himports,
      ExportSymbol.gives_ofValue.asListOf.optional (by simp) hexports,
      gives_asLabel.optional (canonical_known _) hrisk,
      Impact.gives_ofValue.asListOf.optional (by simp) himpacts⟩
  | null | bool b | int n | float x | text s | list items => cases h

namespace Plan

theorem gives_analysisOf :
    Gives (fun analysis => ∀ r, analysis = some r → r.Canonical) analysisOf := by
  intro v analysis h
  rw [analysisOf] at h
  split at h
  · cases h
    simp
  · cases hr : FileRecord.ofValue v with
    | error e => simp [hr, Except.map] at h
    | ok record =>
      simp only [hr, Except.map, Except.ok.injEq] at h
      subst h
      rintro _ ⟨⟩
      exact FileRecord.gives_ofValue hr

theorem gives_ofValue : Gives Plan.Canonical Plan.ofValue := by
  intro v p h
  cases v with
  | object fields =>
    simp only [ofValue, ofFields, bind_eq_ok] at h
    obtain ⟨id, -, filePath, -, changeType, hchangeType, description, -, createdAt, -, updatedAt, -,
      status, hstatus, step, hstep, analysis, hanalysis, impacts, himpacts, procedure, -, risks, -,
      recommendations, -, rollbackPlan, -, validationChecks, -, lastError, -, hp⟩ := h
    cases hp
    exact
      { changeType := gives_asLabel.required hchangeType
        status := gives_asLabel.optional (canonical_known _) hstatus
        step := gives_asLabel.optional (canonical_known _) hstep
        analysis := gives_analysisOf.optional (by simp) hanalysis
        impacts := Impact.gives_ofValue.asListOf.optional (by simp) himpacts }
  | null | bool b | int n | float x | text s | list items => cases h

end Plan

theorem Storage.canonical_planOfText {text : String} {p : Plan} (h : planOfText text = .ok p) :
    p.Canonical := by
  rw [planOfText] at h
  split at h
  · cases h
  · exact Plan.gives_ofValue h

end ChangeImpact
