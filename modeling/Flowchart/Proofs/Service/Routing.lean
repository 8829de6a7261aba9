import Flowchart.Service

/-!
# Requests that reach an endpoint

What is asked of a router: that a request with the method and the path of an endpoint is handed to
it (`Router.Complete`), and, where a result needs it, that no other request is (`Router.Exact`). How
a router answers requests that are for no endpoint is left open. A request that was handed to an
endpoint gets the answer of the endpoint (`respond_fst`).
-/

set_option autoImplicit false

namespace Flowchart.Service

/-! ## Routers -/

/-- A router hands every request for an endpoint to that endpoint. -/
def Router.Complete (route : Router) : Prop := ∀ r e, r.IsFor e → route r = .ok e

/-- A router hands the requests for an endpoint to that endpoint, and no others. -/
structure Router.Exact (route : Router) : Prop where
  complete : route.Complete
  sound : ∀ r e, route r = .ok e → r.IsFor e

/-- The router that looks for the path among those of the endpoints, and then at the method. -/
def Router.byPath : Router := fun r =>
  match Vocabulary.ofName? r.path with
  | none => .error (.json 404 (.obj [("detail".toList, .str "Not Found".toList)]))
  | some e =>
    if r.method = e.method then .ok e
    else .error (.json 405 (.obj [("detail".toList, .str "Method Not Allowed".toList)]))

theorem Router.exact_byPath : Router.byPath.Exact where
  complete := by
    rintro r e ⟨hmethod, hpath⟩
    have he : Vocabulary.ofName? r.path = some e := hpath ▸ Vocabulary.ofName?_name e
    simp only [byPath, he]
    rw [if_pos hmethod]
  sound := by
    intro r e h
    unfold byPath at h
    split at h
    · cases h
    · next e' he' =>
        split at h
        · next hmethod =>
            obtain rfl := Except.ok.inj h
            exact ⟨hmethod, (Vocabulary.name_of_ofName? he').symm⟩
        · cases h

/-! ## Requests -/

/-- The request that posts a body to an endpoint. -/
def Request.post (e : Endpoint) (body : Bytes) : Request := ⟨"POST".toList, e.path, body⟩

/-- What is posted to the path of an endpoint is handed to it, if it is one to post to. -/
theorem endpoint_post {route : Router} (hroute : route.Complete) {e : Endpoint}
    (h : e.method = "POST".toList) (body : Bytes) : route (.post e body) = .ok e :=
  hroute (.post e body) e ⟨h.symm, rfl⟩

theorem respond_fst {s : Service} {r : Request} {e : Endpoint} (h : s.route r = .ok e) :
    (s.respond r).1 = (s.answer r.body e).1 := by
  rw [respond, h]

end Flowchart.Service
