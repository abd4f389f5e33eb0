import ChangeImpact.Export.Focus

/-!
# Export.Dot

The dependency graph in the DOT language: a statement for each node with its risk as label and
colour, then a statement for each edge.
-/

namespace ChangeImpact.Export

/-- A double quote inside a quoted name is written behind a backslash. -/
def escapeQuotes (s : String) : String :=
  .ofList (s.toList.flatMap fun c => if c = '"' then ['\\', '"'] else [c])

def dotName (s : String) : String := "\"" ++ escapeQuotes s ++ "\""

def dotNode (files : FileMap) (path : String) : Except Failure String :=
  match shown files path with
  | .error e => .error e
  | .ok (r, colour) =>
    .ok ("  " ++ dotName path ++ " [label=" ++ dotName (path ++ "\\n" ++ r.risk.text)
      ++ ", fillcolor=\"" ++ colour ++ "\"];")

def dotEdge (e : String × String) : String :=
  "  " ++ dotName e.1 ++ " -> " ++ dotName e.2 ++ ";"

def dotHeader : List String :=
  ["digraph Dependencies \x7b", "  rankdir=LR;", "  node [shape=box, style=filled];"]

def dot (files : FileMap) (focus : String) : Except Failure String :=
  let s := select files focus
  match collect (dotNode files) s.nodes with
  | .error e => .error e
  | .ok nodes =>
    .ok (String.intercalate "\n" (dotHeader ++ nodes ++ s.edges.map dotEdge ++ ["\x7d"]))

end ChangeImpact.Export
