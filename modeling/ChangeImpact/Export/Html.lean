import ChangeImpact.Document.JsonText
import ChangeImpact.Export.Focus

/-!
# Export.Html

The dependency graph as a page that stands alone. The graph is embedded as JSON on the line that
starts with `graphLineStart`; a script on the page lists its nodes and edges.
-/

namespace ChangeImpact.Export

def nodeValue (files : FileMap) (path : String) : Except Failure Value :=
  match shown files path with
  | .error e => .error e
  | .ok (r, colour) =>
    .ok (.object [
      ("id", .text path),
      ("risk", .text r.risk.text),
      ("color", .text colour),
      ("fan_in", .int r.fanIn),
      ("fan_out", .int r.fanOut)])

def edgeValue (e : String × String) : Value := .object [("src", .text e.1), ("dst", .text e.2)]

def graphValue (files : FileMap) (focus : String) : Except Failure Value :=
  let s := select files focus
  match collect (nodeValue files) s.nodes with
  | .error e => .error e
  | .ok nodes => .ok (.object [("nodes", .list nodes), ("edges", .list (s.edges.map edgeValue))])

/-- The lines of the page before the graph. -/
def pageHead : List String := [
  "<!doctype html>",
  "<html>",
  "<head>",
  "  <meta charset=\"utf-8\" />",
  "  <title>SafeChange Dependency Graph</title>",
  "  <style>",
  "    body \x7b font-family: ui-monospace, SFMono-Regular, Menlo, monospace; margin: 20px; \x7d",
  "    #container \x7b display: grid; grid-template-columns: 1fr 1fr; gap: 18px; \x7d",
  "    .panel \x7b border: 1px solid #ddd; border-radius: 8px; padding: 10px; \x7d",
  "    ul \x7b list-style: none; padding: 0; margin: 0; \x7d",
  "    li \x7b margin: 4px 0; \x7d",
  "    .risk \x7b display: inline-block; width: 10px; height: 10px; border-radius: 50%; margin-right: 6px; \x7d",
  "  </style>",
  "</head>",
  "<body>",
  "  <h1>SafeChange Dependency Graph</h1>",
  "  <div id=\"container\">",
  "    <div class=\"panel\">",
  "      <h2>Files</h2>",
  "      <ul id=\"nodes\"></ul>",
  "    </div>",
  "    <div class=\"panel\">",
  "      <h2>Imports</h2>",
  "      <ul id=\"edges\"></ul>",
  "    </div>",
  "  </div>",
  "  <script>"]

def graphLineStart : String := "    const graph = "

/-- The lines of the page after the graph. -/
def pageTail : List String := [
  "    const nodesEl = document.getElementById('nodes');",
  "    const edgesEl = document.getElementById('edges');",
  "    graph.nodes.forEach(n => \x7b",
  "      const li = document.createElement('li');",
  "      const dot = document.createElement('span');",
  "      dot.className = 'risk';",
  "      dot.style.background = n.color;",
  "      li.appendChild(dot);",
  "      li.appendChild(document.createTextNode(`$\x7bn.id\x7d [$\x7bn.risk\x7d] in=$\x7bn.fan_in\x7d out=$\x7bn.fan_out\x7d`));",
  "      nodesEl.appendChild(li);",
  "    \x7d);",
  "    graph.edges.forEach(e => \x7b",
  "      const li = document.createElement('li');",
  "      li.textContent = `$\x7be.src\x7d --imports--> $\x7be.dst\x7d`;",
  "      edgesEl.appendChild(li);",
  "    \x7d);",
  "  </script>",
  "</body>",
  "</html>",
  ""]

def page (graph : Value) : String :=
  String.intercalate "\n" (pageHead ++ [graphLineStart ++ Json.inline graph ++ ";"] ++ pageTail)

def html (files : FileMap) (focus : String) : Except Failure String :=
  (graphValue files focus).map page

end ChangeImpact.Export
