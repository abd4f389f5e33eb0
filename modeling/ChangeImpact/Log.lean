import ChangeImpact.Failure

/-!
# Log

What an operation reports besides its result. An entry ends with the cause of the trouble that it
reports, if there is one.
-/

namespace ChangeImpact

inductive LogLevel where
  | info
  | warning
  | error
  deriving DecidableEq, Repr

def LogLevel.rank : LogLevel → Nat
  | info => 0
  | warning => 1
  | error => 2

structure LogEntry where
  level : LogLevel
  source : String
  text : String
  cause : Option Failure := none
  deriving DecidableEq, Repr

/-- The whole line. -/
def LogEntry.line (e : LogEntry) : String :=
  match e.cause with
  | none => e.text
  | some f => e.text ++ f.message

abbrev Log := List LogEntry

end ChangeImpact
