import Flowchart.Graph
import Flowchart.Json.Display
import Flowchart.Json.Reader
import Flowchart.Json.Writer

/-!
# Graph records

The JSON form of a graph, in which editors exchange it and files keep it. Writing is exact. Reading
accepts more than writing produces: identifiers and labels of any kind become texts, a shape or a
direction that does not exist becomes the usual one, and what is missing takes its default. It
refuses only a graph that is no object, lists that are no lists, nodes without an identifier and
edges without both ends (`RecordError`), and reports the first of these faults.
-/

namespace Flowchart

/-! ## Faults -/

/-- The two lists of records in a graph. -/
inductive RecordList where
  | nodes
  | edges
  deriving DecidableEq, Repr

/-- The key under which a list of records stands. -/
def RecordList.key : RecordList → Text
  | nodes => "nodes".toList
  | edges => "edges".toList

/-- Why a JSON value is no graph. -/
inductive RecordError where
  | notAnObject
  | notAList (list : RecordList) (value : Json)
  | nodeWithoutId (record : Json)
  | edgeWithoutEnds (record : Json)

/-- The wording of a fault. -/
def RecordError.message : RecordError → Text
  | notAnObject => "graph payload must be a JSON object".toList
  | notAList list value =>
    "graph ".toList ++ list.key ++ " must be a list, got ".toList ++ value.kindName.toList
  | nodeWithoutId record => "node record has no id: ".toList ++ record.spelled
  | edgeWithoutEnds record => "edge record needs source and target: ".toList ++ record.spelled

/-! ## Writing -/

/-- The version of the form of the records. -/
def recordVersion : Text := "1.0.0".toList

/-- The record of a position. -/
def Position.toRecord (p : Position) : Json := .obj [("x".toList, p.x), ("y".toList, p.y)]

/-- The record of a node. -/
def Node.toRecord (n : Node) : Json := .obj [
  ("id".toList, .str n.id),
  ("label".toList, .str n.label),
  ("shape".toList, .str n.shape.name),
  ("position".toList, n.position.toRecord)]

/-- The record of an edge. -/
def Edge.toRecord (e : Edge) : Json := .obj [
  ("id".toList, .str e.id),
  ("source".toList, .str e.source),
  ("target".toList, .str e.target),
  ("label".toList, e.label.getD .null),
  ("animated".toList, .bool e.animated),
  ("emphasized".toList, .bool e.emphasized)]

/-- The record of a graph. -/
def Graph.toRecord (g : Graph) : Json := .obj [
  ("schema_version".toList, .str recordVersion),
  ("direction".toList, .str g.direction.name),
  ("nodes".toList, .arr (g.nodes.values.map Node.toRecord)),
  ("edges".toList, .arr (g.edges.map Edge.toRecord))]

/-- The text of the file that keeps a graph. -/
def Graph.fileText (g : Graph) : Text := g.toRecord.write .indented

/-! ## Reading -/

/-- The value of a field that counts as given. -/
def Json.given? (key : Text) (v : Json) : Option Json := (v.field? key).bind Json.ifTruthy

/-- The position of a record; a coordinate that is not given is zero. -/
def Position.ofRecord (v : Json) : Position where
  x := (v.given? "x".toList).getD (.int 0)
  y := (v.given? "y".toList).getD (.int 0)

/-- The shape that a record names, or the rectangle. -/
def shapeOfRecord (v : Json) : Shape :=
  match v with
  | .str name => (Vocabulary.ofName? name).getD .rectangle
  | _ => .rectangle

/-- The node of a record. -/
def Node.ofRecord (v : Json) : Except RecordError Node :=
  match v.given? "id".toList with
  | none => .error (.nodeWithoutId v)
  | some id =>
    let label := v.fieldOrNull "label".toList
    .ok {
      id := id.display
      label := if label.isNull then id.display else label.display
      shape := .known (shapeOfRecord (v.fieldOrNull "shape".toList))
      position := Position.ofRecord (v.fieldOrNull "position".toList) }

/-- The edge of the record at a place in the order. -/
def Edge.ofRecord (index : Int) (v : Json) : Except RecordError Edge :=
  match v.given? "source".toList, v.given? "target".toList with
  | some source, some target =>
    .ok {
      id :=
        match v.given? "id".toList with
        | some id => id.display
        | none => Edge.defaultId source.display target.display index
      source := source.display
      target := target.display
      label := v.given? "label".toList
      animated := (v.given? "animated".toList).isSome
      emphasized := (v.given? "emphasized".toList).isSome }
  | _, _ => .error (.edgeWithoutEnds v)

/-- The records of a list; a list that is not there, or null, has none. -/
def recordsOf (list : RecordList) (v : Json) : Except RecordError (List Json) :=
  match v.fieldOrNull list.key with
  | .null => .ok []
  | .arr records => .ok records
  | other => .error (.notAList list other)

/-- The direction that a record names, in letters of either case, or top-down. -/
def directionOfRecord (v : Json) : Direction :=
  match v.given? "direction".toList with
  | some name => (Vocabulary.ofName? (name.display.map Char.toUpper)).getD .td
  | none => .td

/-- The nodes of the records, the content of the last record under each identifier. -/
def nodesOfRecords (records : List Json) : Except RecordError (Keyed Text Node) :=
  records.foldlM (fun nodes v => (Node.ofRecord v).map fun n => nodes.put n.id n) Keyed.empty

/-- The edges of the records, from a place in the order on. -/
def edgesOfRecords (index : Nat) : List Json → Except RecordError (List Edge)
  | [] => .ok []
  | v :: rest => do
    let e ← Edge.ofRecord index v
    return e :: (← edgesOfRecords (index + 1) rest)

/-- The graph of a record. -/
def Graph.ofRecord (v : Json) : Except RecordError Graph :=
  match v with
  | .obj _ => do
    let nodeRecords ← recordsOf .nodes v
    let edgeRecords ← recordsOf .edges v
    let nodes ← nodesOfRecords nodeRecords
    let edges ← edgesOfRecords 0 edgeRecords
    return { nodes, edges, direction := .known (directionOfRecord v) }
  | _ => .error .notAnObject

/-! ## Files -/

/-- Why a text is no graph: it is no JSON, or its value is no graph. -/
inductive GraphTextError where
  | unreadable (error : Json.ReadError)
  | noGraph (error : RecordError)

/-- The wording of an error in the text `t`. -/
def GraphTextError.message (t : Text) : GraphTextError → Text
  | unreadable error => error.message t
  | noGraph error => error.message

/-- The graph that a text of JSON describes. -/
def Graph.ofText (t : Text) : Except GraphTextError Graph :=
  match Json.read t with
  | .error e => .error (.unreadable e)
  | .ok v => (Graph.ofRecord v).mapError .noGraph

end Flowchart
