import Flowchart.Diagram.Reading
import Flowchart.Diagram.Writing
import Flowchart.Service.Exchange
import Flowchart.Settings

/-!
# Conversions

The requests that turn a diagram into a graph and back. They depend on the settings and the body
only, so the same request has the same answer at any time.
-/

namespace Flowchart.Service

/-- The diagram in a body, if it is not too long. -/
def codeOf (settings : Settings) (body : Json) : Except Rejection Text :=
  match body.fieldOrNull "code".toList with
  | .str code =>
    if settings.maxSourceLength < code.length then .error (.codeTooLong settings.maxSourceLength)
    else .ok code
  | _ => .error .codeMissing

/-- The graph in a body. -/
def graphOf (body : Json) : Except Rejection Graph :=
  match body.fieldOrNull "graph".toList with
  | .null => .error .graphMissing
  | v => (Graph.ofRecord v).mapError .badGraph

/-- What a body says about a choice; null leaves it to the settings. -/
def choice (body : Json) (key : String) (default : Bool) : Bool :=
  match body.fieldOrNull key.toList with
  | .null => default
  | v => v.isTruthy

/-- The figures about a graph, as fields of a record. -/
def figures (s : Summary) : List (Text × Json) := [
  ("node_count".toList, .int s.nodeCount),
  ("edge_count".toList, .int s.edgeCount),
  ("orphan_count".toList, .int s.orphanCount),
  ("direction".toList, .str s.direction.name)]

/-- The graph of the diagram in a body. -/
def parse (settings : Settings) (body : Bytes) : Except Rejection Json := do
  let code ← codeOf settings (← readBody body)
  return (Graph.ofDiagram code).toRecord

/-- The diagram of the graph in a body, and the figures about the graph. -/
def generate (settings : Settings) (body : Bytes) : Except Rejection Json := do
  let body ← readBody body
  let g ← graphOf body
  let code := g.diagram (choice body "preserve_styles" settings.keepStyles)
    (choice body "fenced" settings.fenced)
  return .obj (("code".toList, .str code) :: figures g.summary)

/-- The graph of the diagram in a body, and its diagram in the customary form. -/
def normalize (settings : Settings) (body : Bytes) : Except Rejection Json := do
  let code ← codeOf settings (← readBody body)
  let g := Graph.ofDiagram code
  return .obj [
    ("code".toList, .str (g.diagram settings.keepStyles false)),
    ("graph".toList, g.toRecord)]

end Flowchart.Service
