/-!
# Label

Words from a fixed vocabulary in places where a file may hold any other word.

* `Vocabulary` — the members of a type and the word each is written as.
* `Label`      — a member of a vocabulary, or some other text kept as it was written.
-/

namespace ChangeImpact

class Vocabulary (α : Type) where
  all : List α
  word : α → String

inductive Label (α : Type) where
  | known (a : α)
  | other (text : String)
  deriving DecidableEq, Repr

/-- The member of a vocabulary that a text names. -/
def Vocabulary.ofWord? {α : Type} [Vocabulary α] (text : String) : Option α :=
  (Vocabulary.all (α := α)).find? fun a => Vocabulary.word a == text

def Vocabulary.words (α : Type) [Vocabulary α] : List String :=
  (Vocabulary.all (α := α)).map Vocabulary.word

namespace Label

variable {α : Type} [Vocabulary α]

def text : Label α → String
  | .known a => Vocabulary.word a
  | .other t => t

def ofText (t : String) : Label α :=
  match Vocabulary.ofWord? t with
  | some a => .known a
  | none => .other t

omit [Vocabulary α] in
/-- The member that a label holds. -/
def member? : Label α → Option α
  | .known a => some a
  | .other _ => none

@[simp] theorem text_ofText (t : String) : (ofText t : Label α).text = t := by
  unfold ofText
  split
  · next a h =>
    have := List.find?_some h
    simpa [text] using this
  · rfl

end Label

instance {α : Type} : Coe α (Label α) := ⟨.known⟩

end ChangeImpact
