/-!
# Validation.Code

Source text without its comments and string literals.

* `literal?` — what follows a comment or a string literal at the front of a text.
* `codeOnly` — the characters outside of comments and literals. A literal that is never closed is
  none, so that its characters count as code.
-/

namespace ChangeImpact.Validation

/-- What follows the end of a block comment. -/
def afterBlock? : List Char → Option (List Char)
  | [] => none
  | '*' :: '/' :: rest => some rest
  | _ :: rest => afterBlock? rest

/-- What follows the closing quote; a backslash takes the character after it along. Only a
template may run over the end of a line. -/
def afterQuote? (quote : Char) (multiline : Bool) : List Char → Option (List Char)
  | [] => none
  | ['\\'] => none
  | '\\' :: _ :: rest => afterQuote? quote multiline rest
  | c :: rest =>
    if c = quote then some rest
    else if c = '\n' && !multiline then none
    else afterQuote? quote multiline rest

def literal? : List Char → Option (List Char)
  | '/' :: '/' :: rest => some (rest.dropWhile (· != '\n'))
  | '/' :: '*' :: rest => afterBlock? rest
  | '`' :: rest => afterQuote? '`' true rest
  | '\'' :: rest => afterQuote? '\'' false rest
  | '"' :: rest => afterQuote? '"' false rest
  | _ => none

/-- Drops `skip` characters and keeps the code of the rest. -/
def codeAfter : Nat → List Char → List Char
  | _, [] => []
  | skip + 1, _ :: cs => codeAfter skip cs
  | 0, c :: cs =>
    match literal? (c :: cs) with
    | some rest => codeAfter (cs.length - rest.length) cs
    | none => c :: codeAfter 0 cs

def codeOnly (s : List Char) : List Char := codeAfter 0 s

end ChangeImpact.Validation
