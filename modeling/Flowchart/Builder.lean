import Flowchart.Graph
import Flowchart.IdSource
import Flowchart.Json.Display

/-!
# New elements

The elements that an editor adds to a graph, and the diagram that it starts from. A new node needs a
shape that exists and a position of two coordinates; both are checked before an identifier is
drawn.
-/

namespace Flowchart

/-! ## Errors -/

/-- Why a position is no pair of coordinates. -/
inductive PositionError where
  | tooFew (count : Nat)
  | tooMany
  | noParts (value : Json)

/-- Why a node is not made. -/
inductive BuildError where
  | unknownShape (shape : Json)
  | badPosition (error : PositionError)
  | noTime (error : ClockError)

/-- The wording of an error in a position. -/
def PositionError.message : PositionError → Text
  | tooFew count =>
    "not enough values to unpack (expected 2, got ".toList ++ Numeral.decimal count ++ [')']
  | tooMany => "too many values to unpack (expected 2)".toList
  | noParts value =>
    "cannot unpack non-iterable ".toList ++ value.kindName.toList ++ " object".toList

/-- The wording of an error in making a node. -/
def BuildError.message : BuildError → Text
  | unknownShape shape => "unknown shape: ".toList ++ shape.display
  | badPosition error => error.message
  | noTime error => error.message

/-! ## Nodes and edges -/

/-- The parts of a value: the items of an array, the characters of a text, the keys of an object. -/
def Json.parts? : Json → Option (List Json)
  | arr items => some items
  | str t => some (t.map fun c => .str [c])
  | obj fields => some (fields.map fun field => .str field.1)
  | _ => none

/-- The position whose coordinates are the two parts of a value. -/
def Position.ofParts (v : Json) : Except PositionError Position :=
  match v.parts? with
  | none => .error (.noParts v)
  | some [x, y] => .ok { x, y }
  | some parts => if parts.length < 2 then .error (.tooFew parts.length) else .error .tooMany

/-- The shape that a value names. -/
def Shape.named? : Json → Option Shape
  | .str name => Vocabulary.ofName? name
  | _ => none

/-- A new node, and the source of identifiers after it. -/
def newNode (ids : IdSource) (shape position : Json) (label : Text) :
    Except BuildError Node × IdSource :=
  match Shape.named? shape with
  | none => (.error (.unknownShape shape), ids)
  | some shape =>
    match Position.ofParts position with
    | .error e => (.error (.badPosition e), ids)
    | .ok position =>
      match ids.nodeId with
      | .error e => (.error (.noTime e), ids.next)
      | .ok id => (.ok { id, label, shape := .known shape, position }, ids.next)

/-- A new edge, and the source of identifiers after it. A label that does not count as given is
none. -/
def newEdge (ids : IdSource) (source target : Text) (label : Json) :
    Except ClockError Edge × IdSource :=
  ((ids.edgeId source target).map fun id => { id, source, target, label := label.ifTruthy },
    ids.next)

/-! ## The first diagram -/

/-- The label of a new node that is given none, by its shape. -/
def Shape.defaultLabel : Shape → Text
  | rectangle => "Process".toList
  | rounded => "Start/End".toList
  | diamond => "Decision".toList
  | circle => "Connector".toList

/-- The diagram that an editor starts from: a start, a process and an end, one below the other. -/
def Graph.seed : Graph :=
  let node (id label : String) (shape : Shape) (y : Int) : Node :=
    { id := id.toList
      label := label.toList
      shape := .known shape
      position := ⟨.int 150, .int y⟩ }
  let edge (id source target : String) : Edge :=
    { id := id.toList, source := source.toList, target := target.toList }
  { nodes := Keyed.empty.putAll (
      [node "start" "Start" .rounded 50,
        node "process" "Process" .rectangle 150,
        node "end" "End" .rounded 250].map fun n => (n.id, n))
    edges := [edge "e-start-process" "start" "process", edge "e-process-end" "process" "end"] }

end Flowchart
