import Flowchart.Service.Conversion
import Flowchart.Service.Creation
import Flowchart.Service.Endpoint

/-!
# The service

The service that editors talk to. It answers one request after the other. A router hands each
request to an endpoint or answers it itself; of the router the service knows nothing more. All that
the service carries from one request to the next is the source of identifiers, which only the
endpoints for new nodes and edges move on.
-/

namespace Flowchart

/-! ## The service -/

/-- The service: its settings, its router and its source of identifiers. -/
structure Service where
  settings : Settings
  route : Service.Router
  ids : IdSource

namespace Service

/-- The response of an endpoint, and the source of identifiers after it. -/
def answer (s : Service) (body : Bytes) : Endpoint → Response × IdSource
  | .health => (.json 200 (.obj [("ok".toList, .bool true)]), s.ids)
  | .seed => (.json 200 Graph.seed.toRecord, s.ids)
  | .parse => (.ofResult 200 (parse s.settings body), s.ids)
  | .generate => (.ofResult 200 (generate s.settings body), s.ids)
  | .normalize => (.ofResult 200 (normalize s.settings body), s.ids)
  | .nodes => createNode s.ids body
  | .edges => createEdge s.ids body

/-- The response to a request, and the service after it. -/
def respond (s : Service) (r : Request) : Response × Service :=
  match s.route r with
  | .error response => (response, s)
  | .ok e =>
    let (response, ids) := s.answer r.body e
    (response, { s with ids })

/-- The responses to requests that come one after the other. -/
def respondAll (s : Service) : List Request → List Response
  | [] => []
  | r :: rest =>
    let (response, after) := s.respond r
    response :: after.respondAll rest

/-! ## Messages -/

/-- A message of the service. -/
def message (t : Text) : Text := "[app] ".toList ++ t ++ ['\n']

/-- What the service reports when it starts. An environment file without a path is none. -/
def startMessages (s : Service) (environmentFile : Option Text) : Text :=
  let loaded :=
    match environmentFile with
    | none | some [] => []
    | some path => message ("Loaded settings from ".toList ++ path)
  loaded ++ message ("Flowchart service ready (preserve_edge_styles=".toList ++
    (Json.bool s.settings.keepStyles).display ++ [')'])

/-- What the service reports when it stops. -/
def stopMessage : Text := message "Shutdown complete".toList

end Service

end Flowchart
