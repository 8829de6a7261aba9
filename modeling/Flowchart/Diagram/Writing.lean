import Flowchart.Diagram.Declaration
import Flowchart.Diagram.Keyword
import Flowchart.Json.Display

/-!
# The diagram of a graph

A graph is written as a header, one line for each edge whose two nodes are there, and one line for
each node that no such edge has mentioned. A node is declared in full where it is first mentioned
and by its identifier after that; only an identifier that would make the line a header or a subgraph
is always written in full at the start of a line.
-/

namespace Flowchart

/-! ## Parts of a line -/

/-- The connector of an edge. Unless styles are to be kept, every edge has the plain arrow. -/
def Edge.connector (e : Edge) (keepStyles : Bool) : Text :=
  let arrow :=
    if keepStyles && e.emphasized then "==>".toList
    else if keepStyles && e.animated then "-.->".toList
    else "-->".toList
  match e.label.bind Json.ifTruthy with
  | some label => arrow ++ '|' :: label.display ++ ['|']
  | none => arrow

namespace Node

/-- Whether a node is raw text: no identifier, and nothing declared about it. -/
def isRawText (n : Node) : Bool :=
  (Declaration.bareIdentifier? n.id).isNone && n.isBare && decide (n.shape = .known .rectangle)

/-- The text that declares a node. -/
def declaration (n : Node) : Text := if n.isRawText then n.id else n.toDeclaration.written

/-- How a node is mentioned: in full if it is not among the nodes `mentioned` before, or if its
identifier may not stand alone where it is. -/
def mention (n : Node) (mentioned : List Text) (startsLine : Bool) : Text :=
  if mentioned.contains n.id && !(startsLine && Keyword.readsAsStatement n.id) then n.id
  else n.declaration

end Node

/-! ## Lines -/

namespace Graph

/-- The direction that the header names. -/
def headerDirection (g : Graph) : Direction := g.direction.wordOr .td

/-- The header. -/
def header (g : Graph) : Text :=
  "flowchart ".toList ++ g.headerDirection.name

/-- The two nodes of an edge, if the graph has both. -/
def endpoints? (g : Graph) (e : Edge) : Option (Node × Node) :=
  match g.nodes.get? e.source, g.nodes.get? e.target with
  | some source, some target => some (source, target)
  | _, _ => none

/-- The indentation of every line but the header. -/
def indent : Text := [' ', ' ']

/-- The line of an edge between two nodes, after the nodes `mentioned`. -/
def edgeLine (keepStyles : Bool) (mentioned : List Text) (source target : Node) (e : Edge) : Text :=
  indent ++ source.mention mentioned true ++ ' ' :: e.connector keepStyles ++ ' ' ::
    target.mention (source.id :: mentioned) false

/-- The lines of the edges after the nodes `mentioned`, and all nodes mentioned at their end. -/
def edgeLines (g : Graph) (keepStyles : Bool) :
    (mentioned : List Text) → List Edge → List Text × List Text
  | mentioned, [] => ([], mentioned)
  | mentioned, e :: rest =>
    match g.endpoints? e with
    | none => g.edgeLines keepStyles mentioned rest
    | some (source, target) =>
      let (lines, final) := g.edgeLines keepStyles (target.id :: source.id :: mentioned) rest
      (edgeLine keepStyles mentioned source target e :: lines, final)

/-- The lines of a graph without a fence. -/
def diagramLines (g : Graph) (keepStyles : Bool) : List Text :=
  let (lines, mentioned) := g.edgeLines keepStyles [] g.edges
  let unmentioned := g.nodes.values.filter fun n => !mentioned.contains n.id
  g.header :: lines ++ unmentioned.map fun n => indent ++ n.declaration

/-- The diagram of a graph, inside a fence if that is asked for. -/
def diagram (g : Graph) (keepStyles : Bool := true) (fenced : Bool := false) : Text :=
  let lines := g.diagramLines keepStyles
  Text.unlines
    (if fenced then "```mermaid".toList :: lines ++ ["```".toList] else lines)

end Graph

end Flowchart
