import ChangeImpact.Number.Binary64
import ChangeImpact.Text.Integer

/-!
# Plan.Id

Plan ids, which become file names.

* `PlanId.isValid`  — ASCII letters and digits, underscores and dashes, one at least; a line feed
  at the very end does no harm.
* `PlanId.generate` — the id made of a time in milliseconds and a token.
-/

namespace ChangeImpact.PlanId

def isIdChar (c : Char) : Bool := c.isAlphanum || c = '_' || c = '-'

def isValid (id : String) : Bool :=
  match id.toList.dropWhile isIdChar with
  | [] => !id.isEmpty
  | ['\n'] => 1 < id.length
  | _ => false

/-- Seconds in whole milliseconds, rounded towards zero. -/
def millis (seconds : Binary64) : Int := ((seconds.scale 1000).truncate?).getD 0

def generate (millis : Int) (token : String) : String :=
  "plan_" ++ Text.integer millis ++ "_" ++ .ofList (token.toList.take 9)

end ChangeImpact.PlanId
