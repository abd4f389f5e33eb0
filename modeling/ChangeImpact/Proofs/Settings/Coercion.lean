import ChangeImpact.Settings.Files

/-!
# Proofs.Settings.Coercion

What is read for a setting, and what a section makes of the settings in force.

* `Setting.Suits`      — the settings that a key has.
* `Setting.read_toValue` — a setting that is written down is read as itself.
* `Settings.taken`     — what one field of a section makes of a setting.
* `Settings.get_merge` — a section is taken key by key, each key for itself.
-/

namespace ChangeImpact

namespace Setting

/-- The settings of a key: of its kind, each extension with its point, at least one worker. -/
inductive Suits : SettingKey → Setting → Prop
  | root (s : String) : Suits .root (.text s)
  | extensions {items : List String} (h : ∀ item ∈ items, pointed item = item) :
      Suits .extensions (.texts items)
  | ignorePatterns (items : List String) : Suits .ignorePatterns (.texts items)
  | maxWorkers {n : Int} (h : 1 ≤ n) : Suits .maxWorkers (.number n)

theorem startsWith_pointed (item : String) : Text.startsWith "." (pointed item) = true := by
  rw [pointed]
  split
  · next hpoint => exact hpoint
  · simp only [Text.startsWith, String.toList_append, Text.after?_append, Option.isSome_some]

theorem pointed_pointed (item : String) : pointed (pointed item) = pointed item :=
  if_pos (startsWith_pointed item)

theorem suits_of_read {key : SettingKey} {v : Value} {x : Setting}
    (h : read (some key) v = .ok x) : Suits key x := by
  cases key with
  | root =>
    cases h
    exact .root _
  | extensions =>
    cases hitems : itemsOf v with
    | error e => simp [read, hitems, Except.map] at h
    | ok items =>
      simp only [read, hitems, Except.map, Except.ok.injEq] at h
      subst h
      refine .extensions fun item hitem => ?_
      obtain ⟨raw, _, rfl⟩ := List.mem_map.mp hitem
      exact pointed_pointed raw
  | ignorePatterns =>
    cases hitems : itemsOf v with
    | error e => simp [read, hitems, Except.map] at h
    | ok items =>
      simp only [read, hitems, Except.map, Except.ok.injEq] at h
      subst h
      exact .ignorePatterns items
  | maxWorkers =>
    cases hn : integerOf v with
    | error e => simp [read, hn] at h
    | ok n =>
      simp only [read, hn, positive] at h
      split at h
      · cases h
      · next hpositive =>
        cases h
        exact .maxWorkers (by omega)

/-- The only failures of a text are those of a number of workers. -/
theorem refused_text {key : SettingKey} {value : String} {e : Failure}
    (h : read (some key) (.text value) = .error e) :
    key = .maxWorkers ∧ (e = .notInteger value ∨ e = .tooFewWorkers) := by
  cases key with
  | root => cases h
  | extensions => cases h
  | ignorePatterns => cases h
  | maxWorkers =>
    refine ⟨rfl, ?_⟩
    cases hn : Text.integer? value with
    | none =>
      simp only [read, integerOf, hn, Except.error.injEq] at h
      exact .inl h.symm
    | some n =>
      simp only [read, integerOf, hn, positive] at h
      split at h
      · exact .inr (Except.error.inj h).symm
      · cases h

end Setting

namespace ScanSettings

theorem get_set {key : SettingKey} {x : Setting} (h : Setting.Suits key x) (s : ScanSettings) :
    (s.set key x).get key = x := by
  cases h <;> rfl

theorem get_set_of_ne {key key' : SettingKey} (h : key ≠ key') (x : Setting) (s : ScanSettings) :
    (s.set key x).get key' = s.get key' := by
  cases key <;> cases key' <;> cases x <;> first | rfl | exact absurd rfl h

end ScanSettings

namespace Settings

/-! ## One section -/

/-- What the field of a key makes of a setting. A value that cannot be read changes nothing. -/
def taken (key : SettingKey) : Option Value → Setting → Setting
  | none, x => x
  | some v, x => (Setting.read (some key) v).toOption.getD x

/-- The number of workers is not one of the two that end the loading of settings. -/
def WorkersFinite (fields : List (String × Value)) : Prop :=
  ∀ isNegative,
    Value.field? SettingKey.maxWorkers.word fields ≠ some (.float (.infinite isNegative))

variable {fields : List (String × Value)}

theorem isRefusal_of_integerOf {v : Value} {e : Failure}
    (hv : ∀ isNegative, v ≠ .float (.infinite isNegative)) (h : Setting.integerOf v = .error e) :
    isRefusal e = true := by
  cases v with
  | float x =>
    cases x with
    | finite negative mantissa exponent => cases h
    | infinite isNegative => exact absurd rfl (hv isNegative)
    | nan =>
      cases h
      rfl
  | text s =>
    cases hs : Text.integer? s <;> simp only [Setting.integerOf, hs] at h <;> cases h
    rfl
  | null =>
    cases h
    rfl
  | list items =>
    cases h
    rfl
  | object fields =>
    cases h
    rfl
  | int n => cases h
  | bool b => cases h

theorem isRefusal_of_read {key : SettingKey} {v : Value} {e : Failure}
    (hv : key = .maxWorkers → ∀ isNegative, v ≠ .float (.infinite isNegative))
    (h : Setting.read (some key) v = .error e) : isRefusal e = true := by
  cases key with
  | root => cases h
  | extensions => cases v <;> cases h <;> rfl
  | ignorePatterns => cases v <;> cases h <;> rfl
  | maxWorkers =>
    cases hn : Setting.integerOf v with
    | ok n =>
      simp only [Setting.read, hn, Setting.positive] at h
      split at h <;> cases h
      rfl
    | error e' =>
      simp only [Setting.read, hn, Except.error.injEq] at h
      exact h ▸ isRefusal_of_integerOf (hv rfl) hn

theorem get_mergeKey (hfinite : WorkersFinite fields) (s : ScanSettings) (key : SettingKey) :
    ∃ s', (mergeKey (.object fields) s key).1 = .ok s' ∧
      s'.get key = taken key (Value.field? key.word fields) (s.get key) ∧
        ∀ key', key ≠ key' → s'.get key' = s.get key' := by
  cases hfield : Value.field? key.word fields with
  | none => exact ⟨s, by simp [mergeKey, offerOf, hfield], rfl, fun _ _ => rfl⟩
  | some v =>
    cases hread : Setting.read (some key) v with
    | ok x =>
      refine ⟨s.set key x, by simp [mergeKey, offerOf, hfield, hread], ?_, fun key' hne =>
        ScanSettings.get_set_of_ne hne x s⟩
      rw [ScanSettings.get_set (Setting.suits_of_read hread), taken, hread]
      rfl
    | error e =>
      have hrefused : isRefusal e = true := by
        refine isRefusal_of_read (fun hkey isNegative hv => hfinite isNegative ?_) hread
        rw [← hv, ← hkey, hfield]
      refine ⟨s, by simp [mergeKey, offerOf, hfield, hread, hrefused], ?_, fun _ _ => rfl⟩
      rw [taken, hread]
      rfl

theorem get_mergeKeys (hfinite : WorkersFinite fields) :
    ∀ {keys : List SettingKey} (s : ScanSettings), keys.Nodup →
      ∃ s', (mergeKeys (.object fields) keys s).1 = .ok s' ∧
        ∀ key, s'.get key = if key ∈ keys then
          taken key (Value.field? key.word fields) (s.get key) else s.get key := by
  intro keys
  induction keys with
  | nil => exact fun s _ => ⟨s, rfl, fun key => by simp⟩
  | cons key rest ih =>
    intro s hnodup
    obtain ⟨hkey, hrest⟩ := List.nodup_cons.mp hnodup
    obtain ⟨s₁, hmerged, hself, hothers⟩ := get_mergeKey hfinite s key
    obtain ⟨s₂, hmerged', hget⟩ := ih s₁ hrest
    rcases hstep : mergeKey (.object fields) s key with ⟨r, log⟩
    rw [hstep] at hmerged
    cases hmerged
    refine ⟨s₂, by simp only [mergeKeys, hstep, hmerged'], fun key' => ?_⟩
    rw [hget key']
    by_cases hsame : key = key'
    · subst hsame
      simp [hkey, hself]
    · have hsame' : key' ≠ key := fun he => hsame he.symm
      simp [hsame', hothers key' hsame]

/-- The settings of a section, key by key. -/
theorem get_merge (hfinite : WorkersFinite fields) (s : ScanSettings) :
    ∃ s', (merge (.object fields) s).1 = .ok s' ∧
      ∀ key, s'.get key = taken key (Value.field? key.word fields) (s.get key) := by
  obtain ⟨s', hmerged, hget⟩ := get_mergeKeys hfinite s (by decide : SettingKey.all.Nodup)
  refine ⟨s', hmerged, fun key => ?_⟩
  have hall : key ∈ SettingKey.all := by cases key <;> decide
  rw [hget key, if_pos hall]

end Settings

end ChangeImpact
