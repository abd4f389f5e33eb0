import ChangeImpact.Path.Slash

/-!
# Graph.Resolve

Which file a relative specifier means.

* `candidates` — the paths that come into question, in the order in which they are tried.
* `resolve`    — the first of them that is known.
-/

namespace ChangeImpact.Graph

/-- The path that a specifier denotes when it stands in a file. -/
def target (fromPath specifier : String) : String :=
  Path.normalize (Path.join (Path.directory fromPath) specifier)

/-- The path as it is, with each extension, and as a directory with an index file. -/
def candidates (extensions : List String) (path : String) : List String :=
  path :: extensions.map (path ++ ·) ++ extensions.map (Path.join path "index" ++ ·)

def resolve (isKnown : String → Bool) (extensions : List String) (fromPath specifier : String) :
    Option String :=
  (candidates extensions (target fromPath specifier)).find? isKnown

end ChangeImpact.Graph
