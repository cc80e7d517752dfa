/-!
Directed graphs with labels, and their text in the DOT language.
-/

namespace Scangen.Text

structure Edge where
  source : Nat
  target : Nat
  label : String
deriving DecidableEq

structure Digraph where
  /-- The labels of the nodes, which are referred to by their positions. -/
  nodes : List String
  edges : List Edge
deriving DecidableEq

namespace Digraph

/-- A quote or a backslash gets a backslash, and a line feed ends a line of the label. -/
def escapeLabel (c : Char) : List Char :=
  if c = '"' ∨ c = '\\' then ['\\', c] else if c = '\n' then ['\\', 'l'] else [c]

def attributes (label : String) : String :=
  "[ label = \"" ++ String.ofList (label.toList.flatMap escapeLabel) ++ "\" ]"

def nodeLine (label : String) (node : Nat) : String := s!"    {node} {attributes label}"

def edgeLine (edge : Edge) : String :=
  s!"    {edge.source} -> {edge.target} {attributes edge.label}"

def lines (g : Digraph) : List String :=
  "digraph \x7b" :: g.nodes.zipIdx.map (fun (label, node) => nodeLine label node) ++
    g.edges.map edgeLine ++ ["\x7d"]

def render (g : Digraph) : String := String.join (g.lines.map (· ++ "\n"))

end Digraph

end Scangen.Text
