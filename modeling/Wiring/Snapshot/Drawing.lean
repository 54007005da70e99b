import Wiring.Snapshot.Basic

/-!
# Drawings of a snapshot

The snapshot as text for drawing programs: DOT and Mermaid.
-/

namespace Wiring

/-- The lifetime that a text names. -/
def Lifetime.ofText? (s : String) : Option Lifetime :=
  Lifetime.all.find? (fun l => l.text == s)

/-- The text in which another text takes the place of a character, wherever that stands. -/
def Text.replace (s : String) (old : Char) (new : String) : String :=
  String.ofList (s.toList.flatMap (fun c => if c = old then new.toList else [c]))

theorem Text.toList_replace (s : String) (old : Char) (new : String) :
    (replace s old new).toList = s.toList.flatMap (fun c => if c = old then new.toList else [c]) :=
  String.toList_ofList

namespace Dot

/-- A text as it stands in quotes. Backslashes are doubled first, so that those which are put before
quotes stay single. -/
def escape (s : String) : String :=
  Text.replace (Text.replace s '\\' "\\\\") '"' "\\\""

/-- A text in quotes. -/
def quote (s : String) : String :=
  "\"" ++ s ++ "\""

/-- The colour of a lifetime. -/
def color (lifetime : String) : String :=
  match Lifetime.ofText? lifetime with
  | some .singleton => "lightblue"
  | some .scoped => "lightgreen"
  | some .transient => "lightyellow"
  | none => "white"

/-- The line style of a demand. -/
def style : Demand → String
  | .required => "solid"
  | .optional => "dashed"
  | .multiple => "bold"

/-- What the statement of a node says before the label. -/
def opening (n : SnapshotNode) : String :=
  "  " ++ quote n.id ++ " [label="

/-- The label of a node: its service, and its lifetime on a line of its own. -/
def label (n : SnapshotNode) : String :=
  escape n.service ++ "\\n(" ++ n.lifetime ++ ")"

/-- What the statement of a node says after the label. -/
def attributes (n : SnapshotNode) : String :=
  ", shape=" ++ (if n.isOpenGeneric then "ellipse" else "box") ++ ", fillcolor=" ++
    color n.lifetime ++ ", style=filled];\n"

/-- The statement of a node. -/
def node (n : SnapshotNode) : String :=
  opening n ++ quote (label n) ++ attributes n

/-- What stands before the statements. -/
def header : String :=
  "digraph DependencyGraph \x7b\n  rankdir=TB;\n  node [shape=box];\n\n"

/-- The statement of an edge. -/
def edge (e : SnapshotEdge) : String :=
  "  " ++ quote e.source ++ " -> " ++ quote e.target ++ " [style=" ++ style e.demand ++ "];\n"

end Dot

/-- The snapshot as DOT text. -/
def Snapshot.toDot (s : Snapshot) : String :=
  Dot.header ++ String.join (s.nodes.map Dot.node) ++ "\n" ++ String.join (s.edges.map Dot.edge) ++
    "\x7d\n"

namespace Mermaid

/-- A label as it stands in quotes: angle brackets are markup. -/
def escape (s : String) : String :=
  Text.replace (Text.replace s '<' "&lt;") '>' "&gt;"

/-- The arrow of a demand. -/
def arrow : Demand → String
  | .required => "-->"
  | .optional => "-.->"
  | .multiple => "==>"

/-- The statement of a node. -/
def node (n : SnapshotNode) : String :=
  if n.isOpenGeneric then "  " ++ n.id ++ "(\"" ++ escape n.service ++ "\")\n"
  else "  " ++ n.id ++ "[\"" ++ escape n.service ++ "\"]\n"

/-- The statement of an edge. -/
def edge (e : SnapshotEdge) : String :=
  "  " ++ e.source ++ " " ++ arrow e.demand ++ " " ++ e.target ++ "\n"

/-- The colours of lifetimes. -/
def classes : String :=
  "\n  classDef singleton fill:#e1f5fe\n  classDef scoped fill:#e8f5e8\n" ++
    "  classDef transient fill:#fff3e0\n"

/-- The statement that gives a node the colour of its lifetime. -/
def classOf (n : SnapshotNode) : String :=
  match Lifetime.ofText? n.lifetime with
  | some l => "  class " ++ n.id ++ " " ++ l.word ++ "\n"
  | none => ""

end Mermaid

/-- The snapshot as Mermaid text. -/
def Snapshot.toMermaid (s : Snapshot) : String :=
  "graph TD\n" ++ String.join (s.nodes.map Mermaid.node) ++
    String.join (s.edges.map Mermaid.edge) ++ Mermaid.classes ++
    String.join (s.nodes.map Mermaid.classOf)

end Wiring
