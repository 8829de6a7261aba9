import Flowchart.Builder
import Flowchart.Numeral.Input
import Flowchart.Service.Exchange

/-!
# Creations

The requests for a new node and a new edge. What a body gives is checked before an identifier is
drawn, so a rejected request leaves the source of identifiers as it was (`createNode_source`,
`createEdge_source`). After that a request can still fail: if the clock reads no time, or if the
record has a number that is not finite.
-/

namespace Flowchart.Service

/-! ## Coordinates -/

/-- Why a value is no coordinate: it is no number, or an integer too large to be near one. -/
inductive CoordinateError where
  | notANumber
  | tooLarge
  deriving DecidableEq, Repr

/-- The coordinate that a value gives. Texts are read as numbers. -/
def coordinate : Json → Except CoordinateError Binary64
  | .bool b => .ok ((Binary64.ofInt? (if b then 1 else 0)).getD .zero)
  | .int n => (Binary64.ofInt? n).elim (.error .tooLarge) .ok
  | .float x => .ok x
  | .str t => (Numeral.Input.number? t).elim (.error .notANumber) .ok
  | _ => .error .notANumber

/-- The coordinates that a body gives; a missing one is zero, and so are both if the position does
not count as given. -/
def coordinatesOf (body : Json) : Except CoordinateError (Binary64 × Binary64) :=
  match ((body.field? "position".toList).bind Json.ifTruthy).getD (.obj []) with
  | .obj fields => do
    let position := Json.obj fields
    let x ← coordinate ((position.field? "x".toList).getD (.int 0))
    let y ← coordinate ((position.field? "y".toList).getD (.int 0))
    return (x, y)
  | _ => .error .notANumber

/-! ## Nodes -/

/-- The shape that a body gives, or a rectangle. -/
def shapeOf (body : Json) : Except Rejection Shape :=
  match Shape.named? ((body.field? "shape".toList).getD (.str Shape.rectangle.name)) with
  | some shape => .ok shape
  | none => .error .unknownShape

/-- What a body asks for in a new node. -/
structure NodeOrder where
  shape : Shape
  x : Binary64
  y : Binary64
  label : Text

/-- Reads what a body asks for; the result is `none` for a coordinate that is too large. -/
def NodeOrder.ofBody (body : Json) : Except Rejection (Option NodeOrder) := do
  let shape ← shapeOf body
  match coordinatesOf body with
  | .error .notANumber => .error .badPosition
  | .error .tooLarge => return none
  | .ok (x, y) =>
    let label := ((body.field? "label".toList).bind Json.ifTruthy).map Json.display
    return some { shape, x, y, label := label.getD shape.defaultLabel }

/-- A response with a new record, unless there is none. -/
def created {α ε : Type} (toRecord : α → Json) : Except ε α → Response
  | .ok a => .json 201 (toRecord a)
  | .error _ => .internalError

/-- The response to a request for a node, and the source of identifiers after it. -/
def createNode (ids : IdSource) (body : Bytes) : Response × IdSource :=
  match readBody body >>= NodeOrder.ofBody with
  | .error r => (r.response, ids)
  | .ok none => (.internalError, ids)
  | .ok (some order) =>
    let (node, after) := newNode ids (.str order.shape.name)
      (.arr [.float order.x, .float order.y]) order.label
    (created Node.toRecord node, after)

/-! ## Edges -/

/-- What a body asks for in a new edge. -/
structure EdgeOrder where
  source : Text
  target : Text
  label : Json

/-- Reads what a body asks for. -/
def EdgeOrder.ofBody (body : Json) : Except Rejection EdgeOrder :=
  match (body.field? "source".toList).bind Json.ifTruthy,
    (body.field? "target".toList).bind Json.ifTruthy with
  | some source, some target =>
    .ok { source := source.display, target := target.display,
          label := body.fieldOrNull "label".toList }
  | _, _ => .error .endsMissing

/-- The response to a request for an edge, and the source of identifiers after it. -/
def createEdge (ids : IdSource) (body : Bytes) : Response × IdSource :=
  match readBody body >>= EdgeOrder.ofBody with
  | .error r => (r.response, ids)
  | .ok order =>
    let (edge, after) := newEdge ids order.source order.target order.label
    (created Edge.toRecord edge, after)

/-! ## Rejections -/

/-- A rejected request for a node draws no identifier. -/
theorem createNode_source {ids : IdSource} {body : Bytes} {r : Rejection}
    (h : (readBody body >>= NodeOrder.ofBody) = .error r) : (createNode ids body).2 = ids := by
  simp only [createNode, h]

/-- A rejected request for an edge draws no identifier. -/
theorem createEdge_source {ids : IdSource} {body : Bytes} {r : Rejection}
    (h : (readBody body >>= EdgeOrder.ofBody) = .error r) : (createEdge ids body).2 = ids := by
  simp only [createEdge, h]

end Flowchart.Service
