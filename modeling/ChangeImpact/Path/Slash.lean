import ChangeImpact.Text.Search

/-!
# Path.Slash

Paths as texts whose segments are separated by slashes.

* `segments`    — the pieces between slashes.
* `leading`     — the slashes a rooted path keeps: two if it starts with exactly two, else one.
* `directory`   — a path without its last segment.
* `join`        — a path continued by another one, which replaces it when it is rooted.
* `normalize`   — a path without empty and single dot segments, where a double dot segment takes
  away the one before it.
* `tidy`        — the same with double dot segments left alone.
-/

namespace ChangeImpact.Path

def segments (p : String) : List String := (Text.splitOn '/' p.toList).map .ofList

def isRooted (p : String) : Bool := p.toList.head? == some '/'

def leading (p : String) : String :=
  match p.toList with
  | '/' :: '/' :: '/' :: _ => "/"
  | '/' :: '/' :: _ => "//"
  | '/' :: _ => "/"
  | _ => ""

def endsInSlash (p : String) : Bool := p.toList.getLast? == some '/'

def join (base more : String) : String :=
  if isRooted more then more
  else if base = "" || endsInSlash base then base ++ more
  else base ++ "/" ++ more

/-- Slashes at the end are dropped from what stands before the last segment, unless it holds
nothing else. -/
def directory (p : String) : String :=
  let start := p.toList.reverse.dropWhile (· != '/')
  if start.all (· = '/') then .ofList start else .ofList (start.dropWhile (· = '/')).reverse

def isDot (s : String) : Bool := s = "" || s = "."

/-- Takes one segment onto those before it, which are held in reverse. -/
def climb (rooted : Bool) (before : List String) (segment : String) : List String :=
  if isDot segment then before
  else if segment = ".." then
    match before with
    | [] => if rooted then [] else [".."]
    | last :: rest => if last = ".." then ".." :: before else rest
  else segment :: before

def climbAll (rooted : Bool) (parts : List String) : List String :=
  (parts.foldl (climb rooted) []).reverse

/-- A path from its leading slashes and its segments; a path of nothing is a single dot. -/
def assemble (lead : String) (parts : List String) : String :=
  let p := lead ++ String.intercalate "/" parts
  if p = "" then "." else p

def normalize (p : String) : String :=
  assemble (leading p) (climbAll (isRooted p) (segments p))

def tidy (p : String) : String :=
  assemble (leading p) ((segments p).filter fun s => !isDot s)

/-- The path of an entry of a directory, both tidy. -/
def child (dir name : String) : String := if dir = "." then name else join dir name

end ChangeImpact.Path
