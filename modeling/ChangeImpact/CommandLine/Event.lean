/-!
# CommandLine.Event

What a command shows, before it is laid out for a terminal. Text that is printed may hold style
marks: a style in brackets before, and the same with a slash after, what it applies to.
-/

namespace ChangeImpact.CommandLine

inductive Event where
  | print (text : String)
  /-- Text without marks. -/
  | echo (text : String)
  | table (title : String) (columns : List String) (rows : List (List String))
  | panel (title body border : String)
  /-- A question, and the answer that pressing the enter key alone stands for. -/
  | confirm (prompt : String) (byDefault : Bool)
  deriving DecidableEq, Repr

def styled (style text : String) : String := "[" ++ style ++ "]" ++ text ++ "[/" ++ style ++ "]"

end ChangeImpact.CommandLine
