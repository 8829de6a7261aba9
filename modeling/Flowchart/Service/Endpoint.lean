import Flowchart.Named
import Flowchart.Service.Exchange

/-!
# Endpoints

What the service can be asked for. Each endpoint has a path of its own and a method. Which of them a
request is handed to is decided by a router, which is a parameter of the service.
-/

namespace Flowchart.Service

/-- What the service can be asked for. -/
inductive Endpoint where
  | health
  | seed
  | parse
  | generate
  | normalize
  | nodes
  | edges
  deriving DecidableEq, Repr

namespace Endpoint

/-- The path of an endpoint. -/
def path : Endpoint → Text
  | health => "/api/health".toList
  | seed => "/api/flowchart/default".toList
  | parse => "/api/flowchart/parse".toList
  | generate => "/api/flowchart/generate".toList
  | normalize => "/api/flowchart/normalize".toList
  | nodes => "/api/flowchart/nodes".toList
  | edges => "/api/flowchart/edges".toList

instance : Vocabulary Endpoint where
  words := [health, seed, parse, generate, normalize, nodes, edges]
  name := path
  mem_words a := by cases a <;> decide
  name_injective a b := by cases a <;> cases b <;> decide

/-- The method of an endpoint. -/
def method : Endpoint → Text
  | health | seed => "GET".toList
  | parse | generate | normalize | nodes | edges => "POST".toList

end Endpoint

/-- A request is for an endpoint if it has its method and its path. -/
def Request.IsFor (r : Request) (e : Endpoint) : Prop := r.method = e.method ∧ r.path = e.path

instance (r : Request) (e : Endpoint) : Decidable (r.IsFor e) :=
  inferInstanceAs (Decidable (r.method = e.method ∧ r.path = e.path))

/-- A router: it hands a request to an endpoint, or answers it itself. -/
abbrev Router := Request → Except Response Endpoint

end Flowchart.Service
