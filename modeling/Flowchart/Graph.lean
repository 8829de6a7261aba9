import Flowchart.Direction
import Flowchart.Json
import Flowchart.Keyed
import Flowchart.Numeral
import Flowchart.Shape

/-!
# Graphs

The graph that a diagram editor works on: nodes under distinct keys, in order, edges in order, and a
layout direction. A node is a declaration together with a position. Coordinates and edge labels are
JSON values, because records of the editor may put any value there; a label that is not given is
`none`. An edge may name nodes that the graph lacks.

Nodes without a position of their own are placed on a grid of three columns (`gridPosition`), where
different places in the order have different positions (`gridPosition_injective`).
-/

namespace Flowchart

/-! ## Nodes -/

/-- What one place of a diagram says about a node. -/
structure Declaration where
  id : Text
  label : Text
  shape : Named Shape := .known .rectangle
  deriving DecidableEq

namespace Declaration

/-- A declaration that says no more than that the node exists. -/
def isBare (d : Declaration) : Bool := decide (d.label = d.id)

end Declaration

/-- Where a node is drawn. -/
structure Position where
  x : Json := .int 0
  y : Json := .int 0

/-- A node: what is declared about it, and where it is drawn. -/
structure Node extends Declaration where
  position : Position := {}

namespace Node

/-- A node after another declaration of it. A bare node takes label and shape from the first
declaration that says more; any other node stays as it is. -/
def declaredAs (n : Node) (d : Declaration) : Node :=
  if n.isBare && !d.isBare then { n with label := d.label, shape := d.shape } else n

@[simp] theorem declaredAs_id (n : Node) (d : Declaration) : (n.declaredAs d).id = n.id := by
  unfold declaredAs
  split <;> rfl

@[simp] theorem declaredAs_position (n : Node) (d : Declaration) :
    (n.declaredAs d).position = n.position := by
  unfold declaredAs
  split <;> rfl

end Node

/-- The number of columns of the grid. -/
def gridColumns : Int := 3

/-- The position of the node at a place in the order: three in a row, rows from the top. -/
def gridPosition (index : Int) : Position where
  x := .int (50 + index.fmod gridColumns * 200)
  y := .int (50 + index.fdiv gridColumns * 150)

/-- Different places have different positions. -/
theorem gridPosition_injective {i j : Int} (h : gridPosition i = gridPosition j) : i = j := by
  simp only [gridPosition, gridColumns, Position.mk.injEq, Json.int.injEq] at h
  have hi := Int.mul_fdiv_add_fmod i 3
  have hj := Int.mul_fdiv_add_fmod j 3
  omega

/-! ## Edges -/

/-- A connection between two nodes. An animated edge is drawn dotted, an emphasized one thick. -/
structure Edge where
  id : Text
  source : Text
  target : Text
  label : Option Json := none
  animated : Bool := false
  emphasized : Bool := false

/-- The identifier of an edge that is given none: its ends and its place in the order. -/
def Edge.defaultId (source target : Text) (index : Int) : Text :=
  'e' :: source ++ '-' :: target ++ '-' :: Numeral.signedDecimal index

/-! ## Graphs -/

/-- A graph of nodes and edges with a layout direction. -/
structure Graph where
  nodes : Keyed Text Node := {}
  edges : List Edge := []
  direction : Named Direction := .known .td

/-- Figures about a graph. -/
structure Summary where
  nodeCount : Nat
  edgeCount : Nat
  orphanCount : Nat
  direction : Named Direction

namespace Graph

/-- The graph with one more edge. -/
def addEdge (g : Graph) (e : Edge) : Graph := { g with edges := g.edges ++ [e] }

/-- Whether an edge starts or ends at the node of an identifier. -/
def touches (g : Graph) (id : Text) : Bool :=
  g.edges.any fun e => decide (e.source = id) || decide (e.target = id)

/-- The nodes that no edge touches, in order. -/
def orphans (g : Graph) : List Node := g.nodes.values.filter fun n => !g.touches n.id

/-- The figures about a graph. -/
def summary (g : Graph) : Summary where
  nodeCount := g.nodes.size
  edgeCount := g.edges.length
  orphanCount := g.orphans.length
  direction := g.direction

end Graph

/-! ## Likeness -/

/-- Whether two nodes agree in all they say; coordinates need only be alike. -/
def Node.alike (m n : Node) : Bool :=
  decide (m.toDeclaration = n.toDeclaration) && m.position.x.alike n.position.x &&
    m.position.y.alike n.position.y

/-- Whether two edges agree in all they say; labels need only be alike. -/
def Edge.alike (e f : Edge) : Bool :=
  decide (e.id = f.id ∧ e.source = f.source ∧ e.target = f.target ∧ e.animated = f.animated ∧
    e.emphasized = f.emphasized) && (e.label.getD .null).alike (f.label.getD .null)

/-- Whether two lists agree item by item. -/
def alikeLists {α : Type} (like : α → α → Bool) : List α → List α → Bool
  | [], [] => true
  | a :: as, b :: bs => like a b && alikeLists like as bs
  | _, _ => false

/-- Whether two graphs hold alike nodes under the same keys, alike edges in the same order and the
same direction. -/
def Graph.alike (g h : Graph) : Bool :=
  decide (g.direction = h.direction) && g.nodes.size == h.nodes.size &&
    (g.nodes.entries.all fun (key, n) =>
      match h.nodes.get? key with
      | some m => n.alike m
      | none => false) &&
    alikeLists Edge.alike g.edges h.edges

end Flowchart
