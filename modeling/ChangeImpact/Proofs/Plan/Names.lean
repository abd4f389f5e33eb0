import ChangeImpact.Plan.Store
import ChangeImpact.Proofs.Disk.Folder
import Mathlib.Data.List.TakeWhile

/-!
# Proofs.Plan.Names

The ids of plans as names of files.

* `PlanId.isValid_generate`, `PlanId.length_generate` — the ids that are made of a time and a
  hexadecimal token are valid and short.
* `Storage.isName_fileName` — a valid id makes a name that stands for an entry.
* `Storage.fits_fileName`   — which is short enough for an id of at most 200 characters.
* `Storage.stem_fileName`   — the id is got back from the name.
-/

namespace ChangeImpact

namespace PlanId

theorem char_of_isValid {id : String} (h : isValid id = true) {c : Char} (hc : c ∈ id.toList) :
    isIdChar c = true ∨ c = '\n' := by
  rw [← List.takeWhile_append_dropWhile (p := isIdChar) (l := id.toList), List.mem_append] at hc
  rcases hc with hc | hc
  · left
    have hall := List.all_takeWhile (p := isIdChar) (l := id.toList)
    rw [List.all_eq_true] at hall
    exact hall c hc
  · rw [isValid] at h
    split at h
    · next hrest => simp [hrest] at hc
    · next hrest =>
      rw [hrest, List.mem_singleton] at hc
      exact .inr hc
    · cases h

theorem ne_empty_of_isValid {id : String} (h : isValid id = true) : id ≠ "" := by
  intro hempty
  subst hempty
  revert h
  decide

theorem isValid_of_forall {id : String} (hne : id ≠ "") (h : ∀ c ∈ id.toList, isIdChar c = true) :
    isValid id = true := by
  have hrest : id.toList.dropWhile isIdChar = [] := by
    rw [List.dropWhile_eq_nil_iff]
    exact h
  simp [isValid, hrest, hne]

/-- Lower case hexadecimal digits. -/
def IsHex (token : String) : Prop :=
  ∀ c ∈ token.toList, ('0' ≤ c ∧ c ≤ '9') ∨ ('a' ≤ c ∧ c ≤ 'f')

/-- Letters of both cases, digits and two signs. -/
theorem isIdChar_iff {c : Char} : isIdChar c = true ↔
    ((('A' ≤ c ∧ c ≤ 'Z' ∨ 'a' ≤ c ∧ c ≤ 'z') ∨ '0' ≤ c ∧ c ≤ '9') ∨ c = '_') ∨ c = '-' := by
  have halpha : c.isAlpha = (decide ('A' ≤ c ∧ c ≤ 'Z') || decide ('a' ≤ c) && decide (c ≤ 'z')) :=
    rfl
  have hdigit : c.isDigit = (decide ('0' ≤ c) && decide (c ≤ '9')) := rfl
  simp only [isIdChar, Char.isAlphanum, halpha, hdigit, Bool.or_eq_true, Bool.and_eq_true,
    decide_eq_true_eq]

theorem isIdChar_of_isDigit {c : Char} (h : c.isDigit = true) : isIdChar c = true := by
  simp [isIdChar, Char.isAlphanum, h]

theorem isIdChar_of_hex {c : Char} (h : ('0' ≤ c ∧ c ≤ '9') ∨ ('a' ≤ c ∧ c ≤ 'f')) :
    isIdChar c = true := by
  rw [isIdChar_iff]
  rcases h with hdigit | ⟨hlow, hhigh⟩
  · exact .inl (.inl (.inr hdigit))
  · exact .inl (.inl (.inl (.inr ⟨hlow, UInt32.le_trans hhigh (by decide)⟩)))

theorem isIdChar_of_mem_integer {n : Int} {c : Char} (h : c ∈ (Text.integer n).toList) :
    isIdChar c = true := by
  cases n with
  | ofNat m =>
    rw [Text.integer, String.toList_ofList] at h
    exact isIdChar_of_isDigit (Nat.isDigit_of_mem_toDigits (by decide) (by decide) h)
  | negSucc m =>
    rw [Text.integer, String.toList_ofList, List.mem_cons] at h
    rcases h with rfl | h
    · decide
    · exact isIdChar_of_isDigit (Nat.isDigit_of_mem_toDigits (by decide) (by decide) h)

theorem isValid_generate (millis : Int) {token : String} (h : IsHex token) :
    isValid (generate millis token) = true := by
  have hword : "plan_".toList.all isIdChar = true := by decide
  apply isValid_of_forall
  · simp [generate]
  · intro c hc
    simp only [generate, String.toList_append, String.toList_ofList, List.mem_append] at hc
    rcases hc with ((hc | hc) | hc) | hc
    · exact List.all_eq_true.mp hword c hc
    · exact isIdChar_of_mem_integer hc
    · rw [List.mem_singleton.mp hc]
      decide
    · exact isIdChar_of_hex (h c (List.mem_of_mem_take hc))

/-- Fifteen digits of milliseconds reach far past the year 9999. -/
theorem length_generate {millis : Int} (h : millis.natAbs < 10 ^ 15) (token : String) :
    (generate millis token).length ≤ 200 := by
  have hdigits : ∀ n : Nat, n < 10 ^ 15 → (Text.natural n).length ≤ 15 := fun n hn =>
    (Nat.length_toDigits_le_iff (by decide) (by decide)).mpr hn
  have hinteger : (Text.integer millis).toList.length ≤ 16 := by
    cases millis with
    | ofNat m =>
      have hm := hdigits m h
      rw [Text.integer, String.toList_ofList]
      omega
    | negSucc m =>
      have hm := hdigits (m + 1) h
      rw [Text.integer, String.toList_ofList, List.length_cons]
      omega
  have htoken : (token.toList.take 9).length ≤ 9 := List.length_take_le 9 _
  have hword : "plan_".toList.length = 5 := rfl
  have hmark : "_".toList.length = 1 := rfl
  rw [← String.length_toList]
  simp only [generate, String.toList_append, String.toList_ofList, List.length_append]
  omega

end PlanId

namespace Storage

def fileName (id : String) : String := id ++ ".json"

theorem planFile_eq (directory id : String) :
    planFile directory id = Path.child directory (fileName id) := rfl

theorem fileName_inj {id id' : String} (h : fileName id = fileName id') : id = id' := by
  have hlist := congrArg String.toList h
  simp only [fileName, String.toList_append, List.append_cancel_right_eq] at hlist
  exact String.toList_inj.mp hlist

theorem isName_fileName {id : String} (h : PlanId.isValid id = true) :
    Disk.IsName (fileName id) := by
  have hchar : ∀ {c}, c ∈ (fileName id).toList →
      (PlanId.isIdChar c = true ∨ c = '\n') ∨ c ∈ ".json".toList := by
    intro c hc
    rw [fileName, String.toList_append, List.mem_append] at hc
    exact hc.imp_left fun hc => PlanId.char_of_isValid h hc
  have hlength : 5 < (fileName id).length := by
    have hid : id.length ≠ 0 := by simpa using PlanId.ne_empty_of_isValid h
    have hending : ".json".length = 5 := rfl
    rw [fileName, String.length_append]
    omega
  refine ⟨?_, ?_, ?_, ?_⟩
  · intro hc
    have hc := hchar hc
    revert hc
    decide
  · intro hc
    have hc := hchar hc
    revert hc
    decide
  · have hempty : fileName id ≠ "" := fun he => by simp [he] at hlength
    have hdot : fileName id ≠ "." := fun he => by rw [he] at hlength; revert hlength; decide
    simp [Path.isDot, hempty, hdot]
  · intro he
    rw [he] at hlength
    revert hlength
    decide

theorem stem_fileName {id : String} (h : id ≠ "") : stem (fileName id) = id := by
  have hending : ".json".toList = ['.', 'j', 's', 'o', 'n'] := rfl
  have hid : id.toList ≠ [] := by simpa using h
  simp [stem, fileName, hending, h]

theorem endsWith_fileName (id : String) : endsWith ".json" (fileName id) = true := by
  simp [endsWith, fileName]

/-! ## Lengths -/

theorem utf8ByteSize_eq_length {s : String} (h : ∀ c ∈ s.toList, c.utf8Size = 1) :
    s.utf8ByteSize = s.length := by
  have hlist : ∀ cs : List Char, (∀ c ∈ cs, c.utf8Size = 1) →
      (String.ofList cs).utf8ByteSize = cs.length := by
    intro cs
    induction cs with
    | nil => exact fun _ => rfl
    | cons c rest ih =>
      intro hcs
      rw [List.forall_mem_cons] at hcs
      rw [String.ofList_cons, String.utf8ByteSize_append, String.utf8ByteSize_singleton, hcs.1,
        ih hcs.2, List.length_cons, Nat.add_comm]
  rw [← String.ofList_toList (s := s), hlist s.toList h, String.length_ofList]

theorem utf8Size_of_isIdChar {c : Char} (h : PlanId.isIdChar c = true) : c.utf8Size = 1 := by
  have hascii : c.val ≤ 0x7f := by
    rw [PlanId.isIdChar_iff] at h
    rcases h with (((⟨_, hc⟩ | ⟨_, hc⟩) | ⟨_, hc⟩) | rfl) | rfl
    · exact UInt32.le_trans hc (by decide)
    · exact UInt32.le_trans hc (by decide)
    · exact UInt32.le_trans hc (by decide)
    · decide
    · decide
  exact Char.utf8Size_eq_one_iff.mpr hascii

theorem utf8ByteSize_of_isValid {id : String} (h : PlanId.isValid id = true) :
    id.utf8ByteSize = id.length := by
  apply utf8ByteSize_eq_length
  intro c hc
  rcases PlanId.char_of_isValid h hc with hchar | rfl
  · exact utf8Size_of_isIdChar hchar
  · decide

/-- The directory's path leaves room for the names of plan files. -/
def Roomy (directory : String) : Prop := directory.utf8ByteSize + 206 ≤ 4095

theorem fits_fileName {directory id : String} (hroom : Roomy directory)
    (h : PlanId.isValid id = true) (hshort : id.length ≤ 200) :
    Disk.Fits directory (fileName id) := by
  have hname := isName_fileName h
  have hid := utf8ByteSize_of_isValid h
  have hending : ".json".utf8ByteSize = 5 := rfl
  have hslash : "/".utf8ByteSize = 1 := rfl
  have hsize : (fileName id).utf8ByteSize = id.length + 5 := by
    rw [fileName, String.utf8ByteSize_append, hid, hending]
  rw [Roomy] at hroom
  refine ⟨hname, ?_, ?_⟩
  · simp only [Disk.isLongName, hsize, decide_eq_false_iff_not]
    omega
  · simp only [Disk.isLongPath, decide_eq_false_iff_not]
    rcases Path.child_cases hname.not_rooted directory with hc | hc | hc
    · rw [hc]
      omega
    · rw [hc, String.utf8ByteSize_append]
      omega
    · rw [hc, String.utf8ByteSize_append, String.utf8ByteSize_append]
      omega

end Storage

end ChangeImpact
