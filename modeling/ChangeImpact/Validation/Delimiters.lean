import ChangeImpact.Text.Integer
import ChangeImpact.Validation.Code

/-!
# Validation.Delimiters

Braces, brackets and parentheses that do not balance in the code of a text.
-/

namespace ChangeImpact.Validation

structure Delimiter where
  opener : Char
  closer : Char
  name : String

def delimiters : List Delimiter :=
  [⟨'\x7b', '\x7d', "braces"⟩, ⟨'[', ']', "brackets"⟩, ⟨'(', ')', "parentheses"⟩]

/-- How many more openers than closers there are. -/
def balance (d : Delimiter) (code : List Char) : Int :=
  Int.ofNat (code.count d.opener) - Int.ofNat (code.count d.closer)

def imbalance? (d : Delimiter) (code : List Char) : Option String :=
  let b := balance d code
  if b = 0 then none
  else
    some (Text.count b.natAbs ++ (if 0 < b then " unclosed " else " unmatched closing ") ++ d.name)

def imbalances (content : String) : List String :=
  let code := codeOnly content.toList
  delimiters.filterMap fun d => imbalance? d code

end ChangeImpact.Validation
