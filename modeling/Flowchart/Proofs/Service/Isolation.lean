import Flowchart.Proofs.Service.Routing

/-!
# Requests that leave no trace

The service carries nothing from one request to the next but its source of identifiers. A request
either leaves the service as it was or draws one identifier, and one that draws was handed to the
endpoint for nodes or for edges and is not refused (`Service.respond_cases`). So the requests that
are refused, and those that were handed elsewhere, can be left out of a session: every other request
meets the service as it did before (`Service.stages_without`) and is answered as it was
(`Service.respondAll_without`). The text of a body has a stand-in for each lone surrogate, which
changes nothing in what is drawn, but can change an answer; so the answers are compared for bodies
that have none (`Request.IsWhole`).
-/

set_option autoImplicit false

namespace Flowchart

/-! ## New elements -/

/-- A new node takes one identifier or none. -/
theorem newNode_source (ids : IdSource) (shape position : Json) (label : Text) :
    (newNode ids shape position label).2 = ids ∨
      (newNode ids shape position label).2 = ids.next := by
  unfold newNode
  cases Shape.named? shape with
  | none => exact .inl rfl
  | some shape =>
      cases Position.ofParts position with
      | error e => exact .inl rfl
      | ok position =>
          cases ids.nodeId with
          | error e => exact .inr rfl
          | ok id => exact .inr rfl

/-- A node of an unknown shape, or at a position that has not two parts, is refused, and no
identifier is drawn. -/
theorem newNode_refused {ids : IdSource} {shape position : Json} {label : Text}
    (h : Shape.named? shape = none ∨ ∃ e, Position.ofParts position = .error e) :
    ∃ e, newNode ids shape position label = (.error e, ids) := by
  unfold newNode
  cases hs : Shape.named? shape with
  | none => exact ⟨.unknownShape shape, rfl⟩
  | some shape =>
      rcases h with h | ⟨e, he⟩
      · rw [hs] at h
        cases h
      · exact ⟨.badPosition e, by simp only [he]⟩

/-! ## Lone surrogates -/

/-- Whether an escape of four digits in a text is read as another character than that of their
number. The first `skip` code points belong to an escape already looked at. -/
def Json.hasLoneEscape : (skip : Nat) → Text → Bool
  | _, [] => false
  | skip + 1, _ :: rest => hasLoneEscape skip rest
  | 0, c :: rest =>
    if c = '\\' then
      match escape 0 0 rest with
      | .ok (d, width) =>
        width == 5 && hexNumber? ((rest.drop 1).take 4) != some d.toNat || hasLoneEscape width rest
      | .error _ => false
    else hasLoneEscape 0 rest

namespace Service

/-- A body has no lone surrogates: its text consists of the code points that it encodes, and so does
what is read from the escapes in it. -/
def Request.IsWhole (r : Request) : Prop :=
  ∀ t ∈ Encoding.text? r.body,
    Encoding.points? r.body = some (t.map Char.toNat) ∧ Json.hasLoneEscape 0 t = false

instance (r : Request) : Decidable r.IsWhole :=
  inferInstanceAs (Decidable (∀ t ∈ Encoding.text? r.body, _ ∧ _))

/-! ## Kinds of exchanges -/

/-- Whether a request is handed to the endpoint for nodes or to that for edges. -/
def draws (s : Service) (r : Request) : Bool :=
  match s.route r with
  | .ok .nodes | .ok .edges => true
  | _ => false

/-- Whether a response refuses its request. -/
def Response.isRefusal (a : Response) : Bool := 400 ≤ a.status && a.status < 500

/-- An exact router hands to the endpoints for nodes and edges only what is for them. -/
theorem draws_eq_false {s : Service} (h : s.route.Exact) {r : Request}
    (hr : ¬ r.IsFor .nodes ∧ ¬ r.IsFor .edges) : s.draws r = false := by
  unfold draws
  split
  · next hnodes => exact absurd (h.sound r _ hnodes) hr.1
  · next hedges => exact absurd (h.sound r _ hedges) hr.2
  · rfl

/-! ## One request -/

/-- Where a new element was tried for, nothing is refused any more. -/
theorem isRefusal_created {α ε : Type} (toRecord : α → Json) (made : Except ε α) :
    (created toRecord made).isRefusal = false := by
  cases made with
  | error e => rfl
  | ok a =>
      simp only [created, Response.json]
      split <;> rfl

theorem createNode_cases (ids : IdSource) (body : Bytes) :
    (createNode ids body).2 = ids ∨
      (createNode ids body).2 = ids.next ∧ (createNode ids body).1.isRefusal = false := by
  cases hbody : readBody body >>= NodeOrder.ofBody with
  | error r => exact .inl (createNode_source hbody)
  | ok order? =>
      unfold createNode
      rw [hbody]
      cases order? with
      | none => exact .inl rfl
      | some order =>
          rcases newNode_source ids (.str order.shape.name)
            (.arr [.float order.x, .float order.y]) order.label with h | h
          · exact .inl h
          · exact .inr ⟨h, isRefusal_created _ _⟩

theorem createEdge_cases (ids : IdSource) (body : Bytes) :
    (createEdge ids body).2 = ids ∨
      (createEdge ids body).2 = ids.next ∧ (createEdge ids body).1.isRefusal = false := by
  cases hbody : readBody body >>= EdgeOrder.ofBody with
  | error r => exact .inl (createEdge_source hbody)
  | ok order =>
      unfold createEdge
      rw [hbody]
      exact .inr ⟨rfl, isRefusal_created _ _⟩

/-- Where an identifier is drawn only without a refusal, a refusal draws none. -/
theorem source_of_isRefusal {made : Response × IdSource} {ids : IdSource}
    (h : made.2 = ids ∨ made.2 = ids.next ∧ made.1.isRefusal = false)
    (hrefused : made.1.isRefusal = true) : made.2 = ids := by
  rcases h with h | ⟨-, ha⟩
  · exact h
  · rw [hrefused] at ha
    cases ha

/-- What a request can do to the service: nothing, or one draw of an identifier. It draws only if it
is handed to the endpoint for nodes or for edges, and only if it is not refused. -/
theorem respond_cases (s : Service) (r : Request) :
    (s.respond r).2 = s ∨
      (s.respond r).2 = { s with ids := s.ids.next } ∧ s.draws r = true ∧
        (s.respond r).1.isRefusal = false := by
  unfold respond draws
  cases s.route r with
  | error response => exact .inl rfl
  | ok e =>
      cases e with
      | nodes =>
          rcases createNode_cases s.ids r.body with h | ⟨h, ha⟩
          · exact .inl (by simp only [answer, h])
          · exact .inr (by simp only [answer, h, ha, and_self])
      | edges =>
          rcases createEdge_cases s.ids r.body with h | ⟨h, ha⟩
          · exact .inl (by simp only [answer, h])
          · exact .inr (by simp only [answer, h, ha, and_self])
      | _ => exact .inl rfl

/-- A request that is refused, or that is handed to neither endpoint, leaves the service as it
was. -/
theorem respond_unchanged {s : Service} {r : Request}
    (h : (s.respond r).1.isRefusal = true ∨ s.draws r = false) : (s.respond r).2 = s := by
  rcases respond_cases s r with hs | ⟨-, hdraws, ha⟩
  · exact hs
  · rcases h with h | h
    · rw [ha] at h
      cases h
    · rw [hdraws] at h
      cases h

/-- The router stays the same, and so do the requests that draw. -/
theorem draws_respond (s : Service) (r q : Request) : (s.respond r).2.draws q = s.draws q := by
  rcases respond_cases s r with hs | ⟨hs, -⟩
  · rw [hs]
  · rw [hs]
    rfl

/-! ## Sessions -/

/-- The service as each of the requests of a session meets it. -/
def stages (s : Service) : List Request → List Service
  | [] => []
  | r :: rest => s :: (s.respond r).2.stages rest

/-- The response to a request depends on the request and on the service that it meets. -/
theorem respondAll_eq (s : Service) (rs : List Request) :
    s.respondAll rs = List.zipWith (fun s r => (s.respond r).1) (s.stages rs) rs := by
  induction rs generalizing s with
  | nil => rfl
  | cons r rest ih => exact congrArg _ (ih (s.respond r).2)

/-- A list without what stands at certain places. -/
def without {α : Type} (deleted : Nat → Bool) : List α → List α
  | [] => []
  | a :: rest =>
    if deleted 0 then without (fun i => deleted (i + 1)) rest
    else a :: without (fun i => deleted (i + 1)) rest

theorem without_zipWith {α β γ : Type} (f : α → β → γ) (deleted : Nat → Bool) (as : List α)
    (bs : List β) :
    without deleted (List.zipWith f as bs) =
      List.zipWith f (without deleted as) (without deleted bs) := by
  induction as generalizing bs deleted with
  | nil => rfl
  | cons a as ih =>
      cases bs with
      | nil => simp [without]
      | cons b bs =>
          cases hd : deleted 0 <;> simp [without, hd, ih]

/-- Each of the requests at certain places of a session is refused or of a harmless kind. -/
def MayLeaveOut (s : Service) (rs : List Request) (deleted : Nat → Bool)
    (harmless : Request → Prop) : Prop :=
  ∀ i r a, deleted i = true → rs[i]? = some r → (s.respondAll rs)[i]? = some a →
    a.isRefusal = true ∨ harmless r

theorem MayLeaveOut.mono {s : Service} {rs : List Request} {deleted : Nat → Bool}
    {harmless harmless' : Request → Prop} (h : s.MayLeaveOut rs deleted harmless)
    (himp : ∀ r, harmless r → harmless' r) : s.MayLeaveOut rs deleted harmless' :=
  fun i r a hd hr ha => (h i r a hd hr ha).imp_right (himp r)

/-- Without requests that leave no trace, all others meet the service as they did before. -/
theorem stages_without {s : Service} {rs : List Request} {deleted : Nat → Bool}
    (h : s.MayLeaveOut rs deleted fun r => s.draws r = false) :
    s.stages (without deleted rs) = without deleted (s.stages rs) := by
  -- The first request either is left out, and then leaves the service as it was, or is answered
  -- in both sessions; in both cases the rest starts from one and the same service.
  induction rs generalizing s deleted with
  | nil => rfl
  | cons r rest ih =>
      have hrest : (s.respond r).2.stages (without (fun i => deleted (i + 1)) rest) =
          without (fun i => deleted (i + 1)) ((s.respond r).2.stages rest) := by
        refine ih fun i q a hd hq ha => ?_
        simp only [draws_respond]
        exact h (i + 1) q a hd hq ha
      cases hd : deleted 0 with
      | true =>
          have hs : (s.respond r).2 = s := respond_unchanged (h 0 r _ hd rfl rfl)
          rw [hs] at hrest
          simp only [stages, without, hd, if_true, hs]
          exact hrest
      | false => simp only [stages, without, hd, Bool.false_eq_true, if_false, hrest]

/-- A session goes on as before without the requests at certain places: all others meet the service
as they did, and those with whole bodies are answered as they were. -/
structure GoesOnWithout (s : Service) (rs : List Request) (deleted : Nat → Bool) : Prop where
  stages : s.stages (without deleted rs) = without deleted (s.stages rs)
  responses : (∀ r ∈ without deleted rs, r.IsWhole) →
    s.respondAll (without deleted rs) = without deleted (s.respondAll rs)

theorem goesOnWithout {s : Service} {rs : List Request} {deleted : Nat → Bool}
    (h : s.MayLeaveOut rs deleted fun r => s.draws r = false) : s.GoesOnWithout rs deleted where
  stages := stages_without h
  responses _ := by rw [respondAll_eq, respondAll_eq, without_zipWith, stages_without h]

/-- **Refusals leave no trace.** Requests that are refused, and requests that are not handed to the
endpoint for nodes or for edges, have no influence on the others: with any of them left out, the
others meet the same service and get the same statuses and bodies. With an exact router that goes
for all requests that are not posted to the paths of these two endpoints. A refusal comes before
anything is drawn from the source of identifiers, for a node and for an edge, and so does the refusal
of a node of an unknown shape or at a position that has not two parts. -/
theorem respondAll_without :
    (∀ (s : Service) (rs : List Request) (deleted : Nat → Bool),
      s.MayLeaveOut rs deleted (fun r => s.draws r = false) → s.GoesOnWithout rs deleted) ∧
    (∀ (s : Service) (rs : List Request) (deleted : Nat → Bool), s.route.Exact →
      s.MayLeaveOut rs deleted (fun r => ¬ r.IsFor .nodes ∧ ¬ r.IsFor .edges) →
      s.GoesOnWithout rs deleted) ∧
    (∀ (ids : IdSource) (body : Bytes),
      ((createNode ids body).1.isRefusal = true → (createNode ids body).2 = ids) ∧
      ((createEdge ids body).1.isRefusal = true → (createEdge ids body).2 = ids)) ∧
    ∀ (ids : IdSource) (shape position : Json) (label : Text),
      (Shape.named? shape = none ∨ ∃ e, Position.ofParts position = .error e) →
      ∃ e, newNode ids shape position label = (.error e, ids) := by
  refine ⟨fun _ _ _ h => goesOnWithout h, fun _ _ _ hroute h => ?_, ?_,
    fun _ _ _ _ => newNode_refused⟩
  · exact goesOnWithout (h.mono fun _ => draws_eq_false hroute)
  · intro ids body
    exact ⟨source_of_isRefusal (createNode_cases ids body),
      source_of_isRefusal (createEdge_cases ids body)⟩

/-- A service that has drawn nothing yet. -/
def firstService : Service where
  settings := {}
  route := .byPath
  ids := { letters := fun _ => .last 25, readings := fun _ => .zero }

/-- A body that is no JSON, a look at the service, an edge, a path that is not there, a node of an
unknown shape, and a node. -/
def firstSession : List Request := [
  .post .nodes (Utf8.encode "node".toList),
  ⟨"GET".toList, Endpoint.path .health, []⟩,
  .post .edges (Utf8.encode "\x7b\"source\": \"a\", \"target\": \"b\"\x7d".toList),
  ⟨"GET".toList, "/api".toList, []⟩,
  .post .nodes (Utf8.encode "\x7b\"shape\": \"star\"\x7d".toList),
  .post .nodes (Utf8.encode "\x7b\x7d".toList)]

/-- Only the edge and the last node have to be asked for. -/
theorem respondAll_without_firstSession :
    (firstService.respondAll firstSession).map Response.status = [400, 200, 201, 404, 400, 201] ∧
      without (fun i => i != 2 && i != 5) firstSession =
        [firstSession[2], firstSession[5]] ∧
      firstService.respondAll [firstSession[2], firstSession[5]] =
        without (fun i => i != 2 && i != 5) (firstService.respondAll firstSession) := by
  have hstatus : (firstService.respondAll firstSession).map Response.status =
      [400, 200, 201, 404, 400, 201] := by decide +kernel
  have hwhole : ∀ r ∈ without (fun i => i != 2 && i != 5) firstSession, r.IsWhole := by
    decide +kernel
  refine ⟨hstatus, rfl, ?_⟩
  refine (respondAll_without.2.1 firstService firstSession (fun i => i != 2 && i != 5)
    Router.exact_byPath ?_).responses hwhole
  intro i r a hd hr ha
  have hcode : ((firstService.respondAll firstSession).map Response.status)[i]? =
      some a.status := by
    rw [List.getElem?_map, ha, Option.map_some]
  rw [hstatus] at hcode
  have hrefused (h : 400 = a.status) : a.isRefusal = true := by
    simp only [Response.isRefusal, ← h]
    rfl
  clear ha
  rcases i with _ | _ | _ | _ | _ | _ | i
  · exact .inl (hrefused (Option.some.inj hcode))
  · obtain rfl : firstSession[1] = r := Option.some.inj hr
    exact .inr (by decide)
  · cases hd
  · obtain rfl : firstSession[3] = r := Option.some.inj hr
    exact .inr (by decide)
  · exact .inl (hrefused (Option.some.inj hcode))
  · cases hd
  · cases hcode

end Service

end Flowchart
