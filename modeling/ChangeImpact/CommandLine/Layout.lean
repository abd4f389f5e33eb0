import ChangeImpact.CommandLine.Run

/-!
# CommandLine.Layout

What a command shows, laid out as lines of plain text.

* `withoutMarks` — printed text without its style marks.
* `Event.lines`  — the lines of an event.
* `usageLines`   — the commands there are.
-/

namespace ChangeImpact.CommandLine

/-- A mark is a bracket pair whose text starts with a slash or a small letter. -/
def startsMark (c : Char) : Bool := c = '/' || c.isLower

/-- The fuel bounds the length of the text. -/
def dropMarks : Nat → List Char → List Char
  | 0, s => s
  | _, [] => []
  | fuel + 1, '[' :: c :: rest =>
    let after := rest.dropWhile (· != ']')
    if startsMark c && !after.isEmpty then dropMarks fuel (after.drop 1)
    else '[' :: dropMarks fuel (c :: rest)
  | fuel + 1, c :: rest => c :: dropMarks fuel rest

def withoutMarks (text : String) : String := .ofList (dropMarks text.length text.toList)

def padTo (width : Nat) (cell : String) : String :=
  cell ++ .ofList (List.replicate (width - cell.length) ' ')

/-- The greater width of each column. -/
def widen : List Nat → List String → List Nat
  | w :: ws, cell :: cells => max w cell.length :: widen ws cells
  | ws, _ => ws

def rowLine (widths : List Nat) (cells : List String) : String :=
  String.intercalate "  " (List.zipWith padTo widths cells)

def tableLines (title : String) (columns : List String) (rows : List (List String)) :
    List String :=
  let rows := rows.map fun cells => cells.map withoutMarks
  let widths := rows.foldl widen (columns.map String.length)
  title :: rowLine widths columns :: rows.map (rowLine widths)

def Event.lines : Event → List String
  | .print text => [withoutMarks text]
  | .echo text => [text]
  | .table title columns rows => tableLines title columns rows
  | .panel title body _ => ["── " ++ withoutMarks title ++ " ──", withoutMarks body]
  | .confirm prompt byDefault => [prompt ++ (if byDefault then " [Y/n]" else " [y/N]")]

def commandNames : List String :=
  entries.flatMap fun (name, e) =>
    match e with
    | .command _ => [name]
    | .group commands => commands.map fun (sub, _) => name ++ " " ++ sub

def usageLines : List String :=
  "Usage: sc [--verbose] COMMAND [OPTIONS] [ARGUMENTS]" :: "Commands:" ::
    commandNames.map ("  " ++ ·)

/-- The answer that a line stands for, if it is one. -/
def answerOf? (line : String) (byDefault : Bool) : Option Bool :=
  match (Text.strip line.toList).map Char.toLower with
  | [] => some byDefault
  | ['y'] => some true
  | ['y', 'e', 's'] => some true
  | ['n'] => some false
  | ['n', 'o'] => some false
  | _ => none

end ChangeImpact.CommandLine
