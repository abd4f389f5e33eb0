import ChangeImpact.Proofs.Json.RoundTrip
import ChangeImpact.Record.Format

/-!
# Proofs.Record.FileForm

A file record is read back from the value that it is kept as.

* `Label.Canonical`        — a label that is read back from its text: every member of a
  vocabulary, and every text that names none.
* `FileRecord.Canonical`   — all labels of a record, its edges, symbols and impacts are.
* `ofValue_toValue`        — for each type of `Record.Basic`, with `plain_toValue` beside it.
-/

namespace ChangeImpact

/-! ## Labels -/

/-- The words of a vocabulary tell its members apart. -/
class LawfulVocabulary (α : Type) [Vocabulary α] : Prop where
  ofWord?_word : ∀ a : α, Vocabulary.ofWord? (Vocabulary.word a) = some a

instance : LawfulVocabulary SpecifierKind := ⟨by intro a; cases a <;> rfl⟩

instance : LawfulVocabulary ExportKind := ⟨by intro a; cases a <;> rfl⟩

instance : LawfulVocabulary RiskLevel := ⟨by intro a; cases a <;> rfl⟩

instance : LawfulVocabulary ImpactType := ⟨by intro a; cases a <;> rfl⟩

namespace LawfulVocabulary

variable {α : Type} [Vocabulary α] [LawfulVocabulary α]

theorem word_mem_words (a : α) : Vocabulary.word a ∈ Vocabulary.words α :=
  List.mem_map_of_mem (List.mem_of_find?_eq_some (ofWord?_word a))

end LawfulVocabulary

namespace Label

variable {α : Type} [Vocabulary α]

/-- The label is the one that its text stands for. -/
def Canonical (l : Label α) : Prop := ofText l.text = l

theorem canonical_known [LawfulVocabulary α] (a : α) : (known a).Canonical := by
  simp [Canonical, text, ofText, LawfulVocabulary.ofWord?_word]

end Label

/-! ## Fields -/

namespace Value

@[simp] theorem asText_text (s : String) : asText (.text s) = .ok s := rfl

@[simp] theorem asInt_int (n : Int) : asInt (.int n) = .ok n := rfl

@[simp] theorem asBool_bool (b : Bool) : asBool (.bool b) = .ok b := rfl

@[simp] theorem asOptionalText_ofOption (s : Option String) :
    asOptionalText (ofOption s) = .ok s := by
  cases s <;> rfl

theorem asLabel_text {α : Type} [Vocabulary α] {l : Label α} (h : l.Canonical) :
    asLabel (.text l.text) = .ok l := by
  rw [asLabel, asText_text, Except.map, h]

section Fields

variable {α : Type} {k key : String} {v : Value} {fields : List (String × Value)}
  {read : Value → Except Failure α}

@[simp] theorem field?_cons_self : field? key ((key, v) :: fields) = some v := by
  simp [field?]

@[simp] theorem field?_cons_ne (h : k ≠ key) :
    field? key ((k, v) :: fields) = field? key fields := by
  simp [field?, h]

@[simp] theorem required_cons_self : required ((key, v) :: fields) key read = read v := by
  simp [required]

@[simp] theorem required_cons_ne (h : k ≠ key) :
    required ((k, v) :: fields) key read = required fields key read := by
  simp [required, h]

@[simp] theorem optional_cons_self (default : α) :
    optional ((key, v) :: fields) key read default = read v := by
  simp [Value.optional]

@[simp] theorem optional_cons_ne (h : k ≠ key) (default : α) :
    optional ((k, v) :: fields) key read default = optional fields key read default := by
  simp [Value.optional, h]

end Fields

theorem collect_map {α β γ : Type} {f : β → Except Failure γ} {g : α → β} {back : α → γ}
    {items : List α} (h : ∀ a ∈ items, f (g a) = .ok (back a)) :
    collect f (items.map g) = .ok (items.map back) := by
  induction items with
  | nil => rfl
  | cons a rest ih =>
    rw [List.forall_mem_cons] at h
    rw [List.map_cons, collect, h.1, ih h.2]
    rfl

theorem asListOf_map {α : Type} {read : Value → Except Failure α} {print : α → Value}
    {items : List α} (h : ∀ a ∈ items, read (print a) = .ok a) :
    asListOf read (.list (items.map print)) = .ok items := by
  have hmap := collect_map h
  rwa [List.map_id'] at hmap

@[simp] theorem asTexts_texts (items : List String) : asTexts (texts items) = .ok items :=
  asListOf_map fun s _ => asText_text s

theorem plain_texts (items : List String) : (texts items).Plain := by
  rw [texts, Plain, plainItems_iff]
  intro v hv
  obtain ⟨s, _, rfl⟩ := List.mem_map.mp hv
  exact trivial

theorem plain_ofOption (s : Option String) : (ofOption s).Plain := by
  cases s <;> exact trivial

theorem plain_list_map {α : Type} (print : α → Value) (items : List α)
    (h : ∀ a ∈ items, (print a).Plain) : (Value.list (items.map print)).Plain := by
  rw [Plain, plainItems_iff]
  intro v hv
  obtain ⟨a, ha, rfl⟩ := List.mem_map.mp hv
  exact h a ha

end Value

open Value

/-! ## The parts of a record -/

namespace ImportEdge

def Canonical (e : ImportEdge) : Prop := e.kind.Canonical

theorem ofValue_toValue {e : ImportEdge} (h : e.Canonical) : ofValue e.toValue = .ok e := by
  simp [ofValue, toValue, exactFields, asLabel_text h, bind, Except.bind, pure,
    Except.pure]

theorem plain_toValue (e : ImportEdge) : e.toValue.Plain := by
  simp [toValue, Plain, PlainFields, plain_texts, plain_ofOption]

end ImportEdge

namespace ExportSymbol

def Canonical (s : ExportSymbol) : Prop := s.kind.Canonical

theorem ofValue_toValue {s : ExportSymbol} (h : s.Canonical) : ofValue s.toValue = .ok s := by
  simp [ofValue, toValue, exactFields, asLabel_text h, bind, Except.bind, pure,
    Except.pure]

theorem plain_toValue (s : ExportSymbol) : s.toValue.Plain := by
  simp [toValue, Plain, PlainFields]

end ExportSymbol

namespace Impact

def Canonical (i : Impact) : Prop := i.type.Canonical ∧ i.severity.Canonical

theorem ofValue_toValue {i : Impact} (h : i.Canonical) : ofValue i.toValue = .ok i := by
  simp [ofValue, toValue, exactFields, asLabel_text h.1, asLabel_text h.2, bind,
    Except.bind, pure, Except.pure]

theorem plain_toValue (i : Impact) : i.toValue.Plain := by
  simp [toValue, Plain, PlainFields]

end Impact

/-! ## Records -/

namespace FileRecord

structure Canonical (r : FileRecord) : Prop where
  imports : ∀ e ∈ r.imports, e.Canonical
  exports : ∀ s ∈ r.exports, s.Canonical
  risk : r.risk.Canonical
  impacts : ∀ i ∈ r.impacts, i.Canonical

theorem ofValue_toValue {r : FileRecord} (h : r.Canonical) : ofValue r.toValue = .ok r := by
  have himports := asListOf_map fun e he => ImportEdge.ofValue_toValue (h.imports e he)
  have hexports := asListOf_map fun s hs => ExportSymbol.ofValue_toValue (h.exports s hs)
  have himpacts := asListOf_map fun i hi => Impact.ofValue_toValue (h.impacts i hi)
  simp [ofValue, toValue, ofFields, himports, hexports, himpacts, asLabel_text h.risk, bind,
    Except.bind, pure, Except.pure]

theorem plain_toValue (r : FileRecord) : r.toValue.Plain := by
  have himports := plain_list_map _ r.imports fun e _ => e.plain_toValue
  have hexports := plain_list_map _ r.exports fun s _ => s.plain_toValue
  have himpacts := plain_list_map _ r.impacts fun i _ => i.plain_toValue
  simp only [Plain] at himports hexports himpacts
  simp [toValue, Plain, PlainFields, plain_texts, himports, hexports, himpacts]

end FileRecord

end ChangeImpact
