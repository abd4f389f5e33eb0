import ChangeImpact.Text.Integer
import ChangeImpact.Text.Quoted

/-!
# Disk.Fault

Why a file or a directory could not be used, with the system's number and wording.
-/

namespace ChangeImpact

inductive Fault where
  | noEntry
  | alreadyExists
  | notDirectory
  | isDirectory
  | nameTooLong
  | notEmpty
  | linkLoop
  deriving DecidableEq, Repr

namespace Fault

def number : Fault → Nat
  | noEntry => 2
  | alreadyExists => 17
  | notDirectory => 20
  | isDirectory => 21
  | nameTooLong => 36
  | notEmpty => 39
  | linkLoop => 40

def wording : Fault → String
  | noEntry => "No such file or directory"
  | alreadyExists => "File exists"
  | notDirectory => "Not a directory"
  | isDirectory => "Is a directory"
  | nameTooLong => "File name too long"
  | notEmpty => "Directory not empty"
  | linkLoop => "Too many levels of symbolic links"

/-- The message for a fault met at `path`. -/
def message (f : Fault) (path : String) : String :=
  "[Errno " ++ Text.integer f.number ++ "] " ++ f.wording ++ ": " ++ Text.quote path

end Fault

end ChangeImpact
