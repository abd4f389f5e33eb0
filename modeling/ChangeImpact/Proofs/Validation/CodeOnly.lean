import ChangeImpact.Validation.Delimiters
import Mathlib.Data.List.Infix

/-!
# Proofs.Validation.CodeOnly

Texts that are put together from code and complete literals.

* `Inside`          — what stands between the quotes of a literal.
* `Piece`           — a fragment of code, or a comment or literal with nothing missing.
* `codeOnly_text`   — of a text the fragments are left, and the ends of lines after comments.
* `reportOf`        — the entry for a kind of delimiter, by the numbers of both sides.
* `imbalances_text` — the delimiters of a text are counted in its fragments.
-/

namespace ChangeImpact.Validation

/-! ## Literals -/

/-- What stands between the quotes: any character behind a backslash, and others that neither end
the literal nor, unless it may run over several lines, its line. -/
inductive Inside (quote : Char) (multiline : Bool) : List Char → Prop
  | empty : Inside quote multiline []
  | escaped (c : Char) {body : List Char} (h : Inside quote multiline body) :
      Inside quote multiline ('\\' :: c :: body)
  | plain {c : Char} {body : List Char} (hquote : c ≠ quote) (hescape : c ≠ '\\')
      (hline : multiline = true ∨ c ≠ '\n') (h : Inside quote multiline body) :
      Inside quote multiline (c :: body)

section Literals

variable {quote c : Char} {multiline : Bool} {body rest : List Char}

theorem afterQuote?_cons (h : c ≠ '\\') : afterQuote? quote multiline (c :: rest) =
    if c = quote then some rest
    else if c = '\n' && !multiline then none
    else afterQuote? quote multiline rest :=
  afterQuote?.eq_4 quote multiline c rest (fun he _ => h he) fun _ _ he _ => h he

theorem afterQuote?_inside (h : Inside quote multiline body) (hquote : quote ≠ '\\')
    (rest : List Char) : afterQuote? quote multiline (body ++ quote :: rest) = some rest := by
  induction h with
  | empty => rw [List.nil_append, afterQuote?_cons hquote, if_pos rfl]
  | escaped c _ ih => rwa [List.cons_append, List.cons_append, afterQuote?]
  | plain hplain hescape hline _ ih =>
    rw [List.cons_append, afterQuote?_cons hescape, if_neg hplain, if_neg, ih]
    rcases hline with rfl | hline
    · simp
    · simp [hline]

theorem afterBlock?_cons (h : ¬ (c = '*' ∧ '/' ∈ rest.head?)) :
    afterBlock? (c :: rest) = afterBlock? rest := by
  refine afterBlock?.eq_3 c rest fun _ hc hrest => h ⟨hc, ?_⟩
  rw [hrest]
  rfl

/-- A comment ends at the first closer, which the last star inside is no part of. -/
theorem afterBlock?_inside (h : ¬ ['*', '/'] <:+: body) (rest : List Char) :
    afterBlock? (body ++ '*' :: '/' :: rest) = some rest := by
  induction body with
  | nil => rfl
  | cons c body ih =>
    have hlater : ¬ ['*', '/'] <:+: body :=
      fun hin => h (hin.trans (List.suffix_cons c body).isInfix)
    rw [List.cons_append, afterBlock?_cons, ih hlater]
    rintro ⟨rfl, hslash⟩
    cases body with
    | nil => cases hslash
    | cons d body =>
      cases hslash
      exact h ⟨[], body, rfl⟩

end Literals

/-! ## Pieces -/

/-- The characters that a literal starts with. -/
def opensLiteral (c : Char) : Bool := c = '/' || c = '\'' || c = '"' || c = '`'

inductive Piece where
  | code (s : List Char) (h : ∀ c ∈ s, opensLiteral c = false)
  | string (quote : Char) (hquote : quote = '\'' ∨ quote = '"') (body : List Char)
      (h : Inside quote false body)
  | template (body : List Char) (h : Inside '`' true body)
  | block (body : List Char) (h : ¬ ['*', '/'] <:+: body)
  | line (body : List Char) (h : '\n' ∉ body)

namespace Piece

def text : Piece → List Char
  | code s _ => s
  | string quote _ body _ => quote :: (body ++ [quote])
  | template body _ => '`' :: (body ++ ['`'])
  | block body _ => '/' :: '*' :: (body ++ ['*', '/'])
  | line body _ => '/' :: '/' :: (body ++ ['\n'])

def fragment : Piece → List Char
  | code s _ => s
  | _ => []

/-- What is left of a piece: the end of its line is no part of a comment. -/
def left : Piece → List Char
  | code s _ => s
  | line _ _ => ['\n']
  | _ => []

end Piece

section CodeOnly

variable {c : Char} {literal rest s : List Char}

theorem codeAfter_append (literal rest : List Char) :
    codeAfter literal.length (literal ++ rest) = codeOnly rest := by
  induction literal with
  | nil => rfl
  | cons c literal ih => rw [List.length_cons, List.cons_append, codeAfter, ih]

/-- A literal that is read leaves nothing behind. -/
theorem codeOnly_literal (h : literal? (c :: (literal ++ rest)) = some rest) :
    codeOnly (c :: (literal ++ rest)) = codeOnly rest := by
  have hlength : (literal ++ rest).length - rest.length = literal.length := by
    rw [List.length_append, Nat.add_sub_cancel]
  rw [codeOnly, codeAfter, h]
  dsimp only
  rw [hlength, codeAfter_append]

theorem literal?_eq_none (h : opensLiteral c = false) (s : List Char) :
    literal? (c :: s) = none := by
  unfold literal?
  split <;> simp_all [opensLiteral]

theorem codeOnly_code (h : ∀ c ∈ s, opensLiteral c = false) (rest : List Char) :
    codeOnly (s ++ rest) = s ++ codeOnly rest := by
  induction s with
  | nil => rfl
  | cons c s ih =>
    rw [List.forall_mem_cons] at h
    rw [List.cons_append, codeOnly, codeAfter, literal?_eq_none h.1]
    exact congrArg (c :: ·) (ih h.2)

theorem literal?_string {quote : Char} {body : List Char} (hquote : quote = '\'' ∨ quote = '"')
    (h : Inside quote false body) (rest : List Char) :
    literal? (quote :: (body ++ quote :: rest)) = some rest := by
  rcases hquote with rfl | rfl
  · exact afterQuote?_inside h (by decide) rest
  · exact afterQuote?_inside h (by decide) rest

/-- A line comment stops in front of the end of its line. -/
theorem literal?_line {body : List Char} (h : '\n' ∉ body) (rest : List Char) :
    literal? ('/' :: ('/' :: body ++ '\n' :: rest)) = some ('\n' :: rest) := by
  have hbody : ∀ c ∈ body, (c != '\n') = true := fun c hc => by
    rw [bne_iff_ne]
    exact ne_of_mem_of_not_mem hc h
  rw [List.cons_append, literal?, List.dropWhile_append_of_pos hbody]
  rfl

/-- Whatever stands behind a piece is read afresh. -/
theorem codeOnly_piece (p : Piece) (rest : List Char) :
    codeOnly (p.text ++ rest) = p.left ++ codeOnly rest := by
  cases p with
  | code s h => exact codeOnly_code h rest
  | string quote hquote body h =>
    have hread := literal?_string hquote h rest
    rw [List.append_cons] at hread
    exact codeOnly_literal hread
  | template body h =>
    have hread : literal? ('`' :: (body ++ '`' :: rest)) = some rest :=
      afterQuote?_inside h (by decide) rest
    rw [List.append_cons] at hread
    exact codeOnly_literal hread
  | block body h =>
    have hread : literal? ('/' :: ('*' :: body ++ ['*', '/'] ++ rest)) = some rest := by
      rw [List.append_assoc]
      exact afterBlock?_inside h rest
    exact codeOnly_literal hread
  | line body h =>
    have hend : ∀ c ∈ ['\n'], opensLiteral c = false := by decide
    rw [Piece.text, List.cons_append, List.cons_append, ← List.append_cons,
      ← List.cons_append, codeOnly_literal (literal?_line h rest)]
    exact codeOnly_code hend rest

/-- Of a text the fragments are left, and the ends of the lines that end in a comment. -/
theorem codeOnly_text (pieces : List Piece) :
    codeOnly (pieces.flatMap Piece.text) = pieces.flatMap Piece.left := by
  induction pieces with
  | nil => rfl
  | cons p pieces ih => rw [List.flatMap_cons, List.flatMap_cons, codeOnly_piece, ih]

/-- The ends of lines are no delimiters. -/
theorem count_left (hc : c ≠ '\n') (pieces : List Piece) :
    (pieces.flatMap Piece.left).count c = (pieces.flatMap Piece.fragment).count c := by
  induction pieces with
  | nil => rfl
  | cons p pieces ih =>
    rw [List.flatMap_cons, List.flatMap_cons, List.count_append, List.count_append, ih]
    cases p <;> simp [Piece.left, Piece.fragment, Ne.symm hc]

end CodeOnly

/-! ## Reports -/

/-- The entry on one kind of delimiter, by how many openers and closers there are. -/
def reportOf (name : String) (opened closed : Nat) : Option String :=
  if closed < opened then some (Text.count (opened - closed) ++ " unclosed " ++ name)
  else if opened < closed then
    some (Text.count (closed - opened) ++ " unmatched closing " ++ name)
  else none

theorem imbalance?_eq (d : Delimiter) (code : List Char) :
    imbalance? d code = reportOf d.name (code.count d.opener) (code.count d.closer) := by
  rw [imbalance?, balance, reportOf, Int.ofNat_eq_natCast, Int.ofNat_eq_natCast]
  generalize code.count d.opener = opened
  generalize code.count d.closer = closed
  rcases Nat.lt_trichotomy closed opened with hmore | rfl | hless
  · have hsize : ((opened : Int) - closed).natAbs = opened - closed := by omega
    rw [if_neg (by omega), if_pos (by omega), if_pos hmore, hsize]
  · simp
  · have hsize : ((opened : Int) - closed).natAbs = closed - opened := by omega
    rw [if_neg (by omega), if_neg (by omega), if_neg (by omega), if_pos hless, hsize]

/-- The delimiters of a text are counted in its fragments: what stands in its comments and
literals changes nothing, nor does it matter which of them are next to each other. -/
theorem imbalances_text (pieces : List Piece) :
    let code := pieces.flatMap Piece.fragment
    imbalances (.ofList (pieces.flatMap Piece.text)) =
      [reportOf "braces" (code.count '\x7b') (code.count '\x7d'),
        reportOf "brackets" (code.count '[') (code.count ']'),
        reportOf "parentheses" (code.count '(') (code.count ')')].filterMap id := by
  have hcount (c : Char) (hc : c ≠ '\n') := count_left hc pieces
  simp only [imbalances, String.toList_ofList, codeOnly_text, imbalance?_eq, delimiters]
  simp (disch := decide) only [List.filterMap_cons, List.filterMap_nil, hcount, id]

end ChangeImpact.Validation
