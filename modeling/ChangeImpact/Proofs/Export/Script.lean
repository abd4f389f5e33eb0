import ChangeImpact.Proofs.Json.Occurs

/-!
# Proofs.Export.Script

Where the script of a page ends.

* `holdsTag`         — a tag stands in a text, in letters of either case.
* `ScriptMode`       — what the text of a script is read in. A comment holds up to `-->`, and while
  a script is nested in it, an end tag is the one of that script.
* `endTag?`          — what is left of a page at the end tag of its script.
* `endTag?_append`   — a script that opens no comment ends at the first end tag.
-/

namespace ChangeImpact.Export

open Text

/-! ## Tags -/

section Tags

variable {tag : String} {w text a b : List Char} {c : Char}

/-- The tag stands at the front, whatever the case of its letters. -/
def startsTag (tag : String) (text : List Char) : Bool :=
  (after? tag.toList (text.map Char.toLower)).isSome

/-- The tag stands in the text, whatever the case of its letters. -/
def holdsTag (tag : String) (text : List Char) : Bool :=
  contains tag.toList (text.map Char.toLower)

theorem toLower_cases (c : Char) : c.toLower = c ∨ 0x41 ≤ c.toNat ∧ c.toNat ≤ 0x5a := by
  unfold Char.toLower
  split
  · next h => exact .inr h
  · exact .inl rfl

/-- Only letters are written in two cases. -/
theorem eq_of_toLower {c d : Char} (hd : d.toNat < 0x41) (h : c.toLower = d) : c = d := by
  have hletters : ∀ n, n < 26 → 0x41 ≤ (Char.ofNat (0x41 + n)).toLower.toNat := by decide
  rcases toLower_cases c with hsame | ⟨hlow, hhigh⟩
  · rw [← hsame, h]
  · have hc := hletters (c.toNat - 0x41) (by omega)
    rw [show 0x41 + (c.toNat - 0x41) = c.toNat by omega, Char.ofNat_toNat, h] at hc
    omega

theorem startsTag_iff : startsTag tag text = true ↔ tag.toList <+: text.map Char.toLower := by
  rw [startsTag, Option.isSome_iff_exists]
  exact exists_congr fun r => after?_eq_some_iff.trans eq_comm

theorem holdsTag_iff_occurs : holdsTag tag text = true ↔ tag.toList <:+: text.map Char.toLower :=
  contains_iff

theorem holdsTag_iff :
    holdsTag tag text = true ↔ ∃ w, w <:+: text ∧ w.map Char.toLower = tag.toList := by
  rw [holdsTag_iff_occurs, List.infix_map_iff]
  exact exists_congr fun w => and_congr_right fun _ => eq_comm

theorem holdsTag_cons :
    holdsTag tag (c :: text) = (startsTag tag (c :: text) || holdsTag tag text) := rfl

theorem startsTag_of_suffix (h : holdsTag tag text = false) (ha : a <:+ text) :
    startsTag tag a = false := by
  rw [← Bool.not_eq_true, startsTag_iff]
  rw [← Bool.not_eq_true, holdsTag_iff_occurs] at h
  exact fun hp => h (hp.isInfix.trans (ha.isInfix.map Char.toLower))

/-- A tag has one angle bracket, so it does not reach over the next one. -/
theorem startsTag_append (htag : tag.toList = '<' :: w) (hw : '<' ∉ w) :
    startsTag tag (c :: (a ++ '<' :: b)) = startsTag tag (c :: a) := by
  rw [Bool.eq_iff_iff, startsTag_iff, startsTag_iff, htag, List.map_cons, List.map_cons,
    List.map_append, List.map_cons, List.cons_prefix_cons, List.cons_prefix_cons,
    show Char.toLower '<' = '<' from rfl, prefix_cut hw]

/-- Nor over a semicolon that it does not have. -/
theorem holdsTag_append (htag : tag.toList = '<' :: w) (hw : ';' ∉ '<' :: w) :
    holdsTag tag (a ++ ';' :: b) = (holdsTag tag a || holdsTag tag b) := by
  rw [Bool.eq_iff_iff, Bool.or_eq_true, holdsTag_iff_occurs, holdsTag_iff_occurs,
    holdsTag_iff_occurs, htag, List.map_append, List.map_cons,
    show Char.toLower ';' = ';' from rfl, infix_cut hw]

theorem notMem_lower (ha : '<' ∉ a) : '<' ∉ a.map Char.toLower := by
  rintro hmem
  obtain ⟨c, hc, hlower⟩ := List.mem_map.mp hmem
  exact ha (eq_of_toLower (by decide) hlower ▸ hc)

theorem holdsTag_append_of_notMem (htag : tag.toList = '<' :: w) (ha : '<' ∉ a) :
    holdsTag tag (a ++ b) = holdsTag tag b := by
  rw [Bool.eq_iff_iff, holdsTag_iff_occurs, holdsTag_iff_occurs, htag, List.map_append,
    infix_append_of_notMem (notMem_lower ha)]

theorem holdsTag_of_notMem (htag : tag.toList = '<' :: w) (ha : '<' ∉ a) :
    holdsTag tag a = false := by
  rw [← List.append_nil a, holdsTag_append_of_notMem htag ha, holdsTag, htag]
  rfl

end Tags

/-! ## Scripts -/

/-- What can stand behind the name of a tag. -/
def nameEnds : List Char := ['\t', '\n', '\x0c', ' ', '/', '>']

/-- The tag stands at the front, and its name is over with it. -/
def startsWholeTag (tag : String) (text : List Char) : Bool :=
  nameEnds.any fun d => startsTag (tag.push d) text

inductive ScriptMode where
  | plain
  | comment
  | nested

namespace ScriptMode

def ends (text : List Char) : ScriptMode → Bool
  | plain => startsWholeTag "</script" text
  | comment => startsWholeTag "</script" text
  | nested => false

/-- The mode for what comes after the first character of `text`. -/
def next (text : List Char) : ScriptMode → ScriptMode
  | plain => if startsTag "<!--" text then comment else plain
  | comment =>
    if startsTag "-->" text then plain
    else if startsWholeTag "<script" text then nested
    else comment
  | nested =>
    if startsTag "-->" text then plain
    else if startsWholeTag "</script" text then comment
    else nested

end ScriptMode

/-- The page from the tag that ends its script. -/
def endTag? : ScriptMode → List Char → Option (List Char)
  | _, [] => none
  | m, c :: text =>
    if m.ends (c :: text) then some (c :: text) else endTag? (m.next (c :: text)) text

/-- The page behind the tag that opens its script. -/
def opened? (text : List Char) : Option (List Char) :=
  firstMatch (fun s => if startsTag "<script>" s then some (s.drop 8) else none) text

def scriptEnd? (page : String) : Option (List Char) :=
  (opened? page.toList).bind (endTag? .plain)

theorem opened?_append {a : List Char} (h : holdsTag "<script>" a = false) (b : List Char) :
    opened? (a ++ ("<script>".toList ++ b)) = some b := by
  rw [opened?, firstMatch_append]
  · exact firstMatch_of_some rfl
  · intro t ht hne
    obtain ⟨c, t, rfl⟩ := List.exists_cons_of_ne_nil hne
    have hstarts : startsTag "<script>" (c :: (t ++ '<' :: ("script>".toList ++ b))) = false := by
      rw [startsTag_append rfl (by decide), startsTag_of_suffix h ht]
    exact if_neg (by rw [← Bool.not_eq_true] at hstarts; exact hstarts)

theorem startsWholeTag_iff {tag : String} {text : List Char} :
    startsWholeTag tag text = true ↔ ∃ d ∈ nameEnds, startsTag (tag.push d) text = true := by
  rw [startsWholeTag, List.any_eq_true]

theorem toList_endTag (d : Char) : ("</script".push d).toList = '<' :: ("/script".toList ++ [d]) :=
  String.toList_push d

theorem startsWholeTag_append (c : Char) (a b : List Char) :
    startsWholeTag "</script" (c :: (a ++ '<' :: b)) = startsWholeTag "</script" (c :: a) := by
  have hname : ∀ d ∈ nameEnds, '<' ∉ "/script".toList ++ [d] := by decide
  rw [Bool.eq_iff_iff, startsWholeTag_iff, startsWholeTag_iff]
  refine exists_congr fun d => and_congr_right fun hd => ?_
  rw [startsTag_append (toList_endTag d) (hname d hd)]

/-- In a script that opens no comment, only an end tag of its own can stand before the end. -/
theorem endTag?_append {body rest : List Char} (hcomment : holdsTag "<!--" body = false)
    (hrest : startsWholeTag "</script" ('<' :: rest) = true) :
    endTag? .plain (body ++ '<' :: rest) = some ('<' :: rest) ↔
      ∀ d ∈ nameEnds, holdsTag ("</script".push d) body = false := by
  induction body with
  | nil =>
    refine iff_of_true ?_ fun d _ => ?_
    · rw [List.nil_append, endTag?, ScriptMode.ends, if_pos hrest]
    · rw [← Bool.not_eq_true, holdsTag_iff_occurs]
      simp
  | cons c body ih =>
    rw [holdsTag_cons, Bool.or_eq_false_iff] at hcomment
    simp only [holdsTag_cons, Bool.or_eq_false_iff]
    rw [List.cons_append, endTag?, ScriptMode.ends, startsWholeTag_append]
    by_cases hhere : startsWholeTag "</script" (c :: body) = true
    · obtain ⟨d, hd, hstart⟩ := startsWholeTag_iff.mp hhere
      rw [if_pos hhere]
      refine iff_of_false (fun heq => ?_) fun hall => ?_
      · have hlength := congrArg List.length (Option.some.inj heq)
        simp only [List.length_cons, List.length_append] at hlength
        omega
      · rw [(hall d hd).1] at hstart
        cases hstart
    · have hnone : ∀ d ∈ nameEnds, startsTag ("</script".push d) (c :: body) = false := by
        intro d hd
        rw [← Bool.not_eq_true]
        exact fun hstart => hhere (startsWholeTag_iff.mpr ⟨d, hd, hstart⟩)
      rw [if_neg hhere, ScriptMode.next, startsTag_append rfl (by decide), hcomment.1,
        if_neg Bool.false_ne_true]
      refine (ih hcomment.2).trans (forall₂_congr fun d hd => ?_)
      rw [and_iff_right (hnone d hd)]

end ChangeImpact.Export
