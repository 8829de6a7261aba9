import Flowchart.Diagram.Statement

/-!
# The graph of a diagram

Reading a diagram applies its statements in turn to a graph without nodes. A declaration of a new
node places it on the grid; a declaration of a node that is there may give it label and shape
(`Node.declaredAs`). Every text is a diagram: what has no other form is a node of its own.
-/

namespace Flowchart

namespace Graph

/-- The graph after a declaration. -/
def declare (g : Graph) (d : Declaration) : Graph :=
  match g.nodes.get? d.id with
  | none => { g with nodes := g.nodes.put d.id ⟨d, gridPosition g.nodes.size⟩ }
  | some n => { g with nodes := g.nodes.put d.id (n.declaredAs d) }

/-- The graph after a statement. -/
def apply (g : Graph) : Statement → Graph
  | .declare node => g.declare node
  | .connect source target label animated emphasized =>
    ((g.declare source).declare target).addEdge {
      id := Edge.defaultId source.id target.id g.edges.length
      source := source.id
      target := target.id
      label := label.map .str
      animated
      emphasized }

/-- The graph that a diagram describes. -/
def ofDiagram (t : Text) : Graph :=
  (statements t).foldl apply { direction := .known (directionOf t) }

end Graph

end Flowchart
