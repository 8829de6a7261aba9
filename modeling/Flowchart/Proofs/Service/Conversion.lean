import Flowchart.Proofs.Service.Routing
import Flowchart.Proofs.Storage

/-!
# How conversions are answered

A request for a conversion is answered by what its body carries (`Service.Carries`), and by nothing
else but the settings. The body of a diagram is at fault, too long or accepted
(`Service.receive_cases`), and that of a graph is at fault or accepted (`Service.graph_cases`). An
accepted one is answered with a record of finite numbers, so no conversion fails
(`Service.conversions_classified`). The graph that a diagram is normalized to gives, when it is sent
back, the diagram that came with it. All of this holds of the requests that a router hands to the
endpoints, whatever the router.
-/

set_option autoImplicit false

namespace Flowchart

/-! ## Finite values -/

namespace Json

/-- A number is finite. -/
def IsFinite : Json → Prop
  | float x => x.isFinite = true
  | _ => True

theorem itemsFinite_iff (items : List Json) :
    itemsFinite items = true ↔ ∀ v ∈ items, v.allFinite = true := by
  induction items with
  | nil => simp [itemsFinite]
  | cons v items ih => simp [itemsFinite, ih]

theorem fieldsFinite_iff (fields : List (Text × Json)) :
    fieldsFinite fields = true ↔ ∀ field ∈ fields, field.2.allFinite = true := by
  induction fields with
  | nil => simp [fieldsFinite]
  | cons field fields ih => simp [fieldsFinite, ih]

theorem allFinite_iff (v : Json) : v.allFinite = true ↔ v.Everywhere IsFinite := by
  induction v using inductOn with
  | arr items ih =>
      rw [allFinite, itemsFinite_iff, everywhere_arr]
      exact ⟨fun h => ⟨trivial, fun v hv => (ih v hv).mp (h v hv)⟩,
        fun h v hv => (ih v hv).mpr (h.2 v hv)⟩
  | obj fields ih =>
      rw [allFinite, fieldsFinite_iff, everywhere_obj]
      exact ⟨fun h => ⟨trivial, fun field hfield => (ih _ _ hfield).mp (h field hfield)⟩,
        fun h field hfield => (ih _ _ hfield).mpr (h.2 field hfield)⟩
  | _ => simp [allFinite, IsFinite]

theorem fieldOrNull_of_lookup {fields : List (Text × Json)} {key : Text} {v : Json}
    (h : fields.lookup key = some v) : (obj fields).fieldOrNull key = v := by
  simp only [fieldOrNull, field?, h, Option.getD_some]

theorem fieldOrNull_of_missing {fields : List (Text × Json)} {key : Text}
    (h : fields.lookup key = none) : (obj fields).fieldOrNull key = null := by
  simp only [fieldOrNull, field?, h, Option.getD_none]

end Json

/-- The record of a diagram has finite numbers only. -/
theorem Graph.allFinite_toRecord_ofDiagram (t : Text) :
    (ofDiagram t).toRecord.allFinite = true := by
  have hnodes : ∀ n ∈ (ofDiagram t).nodes.values, n.toRecord.Everywhere Json.IsFinite := by
    intro n hn
    obtain ⟨i, hi⟩ := List.getElem?_of_mem hn
    have hposition := position_of_getElem? hi
    simp [Node.toRecord, Position.toRecord, Json.IsFinite, hposition, gridPosition]
  have hedges : ∀ e ∈ (ofDiagram t).edges, e.toRecord.Everywhere Json.IsFinite := by
    intro e he
    have hlabel : (e.label.getD .null).Everywhere Json.IsFinite := by
      cases h : e.label with
      | none => simp [Json.IsFinite]
      | some label =>
          obtain ⟨x, rfl, -⟩ := legibleLabel_of_mem_edges he h
          simp [Json.IsFinite]
    simp [Edge.toRecord, Json.IsFinite, hlabel]
  rw [Json.allFinite_iff]
  simpa [toRecord, Json.IsFinite] using And.intro hnodes hedges

namespace Service

/-! ## Responses -/

theorem Response.json_of_allFinite {v : Json} (h : v.allFinite = true) (status : Nat) :
    Response.json status v = ⟨status, v.write .compact⟩ := if_pos h

/-- A rejection is answered with its status. -/
theorem Rejection.status_response (r : Rejection) : r.response.status = r.status := by
  rw [response, Response.json_of_allFinite (by rfl)]

/-! ## Bodies -/

/-- A body carries a value: its bytes encode a text, which is JSON for the value. -/
def Carries (body : Bytes) (v : Json) : Prop :=
  ∃ t, Encoding.text? body = some t ∧ Json.read t = .ok v

/-- No object that a body carries has a text for its code. -/
def LacksCode (body : Bytes) : Prop :=
  ∀ fields, Carries body (.obj fields) → ∀ code, fields.lookup "code".toList ≠ some (.str code)

/-- In no object that a body carries is there a graph: it is missing, it is null, or reading it
fails. -/
def LacksGraph (body : Bytes) : Prop :=
  ∀ fields, Carries body (.obj fields) →
    fields.lookup "graph".toList = none ∨ fields.lookup "graph".toList = some .null ∨
      ∃ v e, fields.lookup "graph".toList = some v ∧ Graph.ofRecord v = .error e

/-- A body carries an object with a text for its code. -/
def CarriesCode (body : Bytes) (code : Text) : Prop :=
  ∃ fields, Carries body (.obj fields) ∧ fields.lookup "code".toList = some (.str code)

theorem Carries.unique {body : Bytes} {v w : Json} (hv : Carries body v) (hw : Carries body w) :
    v = w := by
  obtain ⟨t, ht, hread⟩ := hv
  obtain ⟨t', ht', hread'⟩ := hw
  obtain rfl : t = t' := Option.some.inj (ht.symm.trans ht')
  exact Except.ok.inj (hread.symm.trans hread')

theorem Carries.lookup_unique {body : Bytes} {fields fields' : List (Text × Json)} {key : Text}
    (h : Carries body (.obj fields)) (h' : Carries body (.obj fields')) :
    fields'.lookup key = fields.lookup key := by
  obtain rfl := Json.obj.inj (h.unique h')
  rfl

theorem readBody_of_carries {body : Bytes} {fields : List (Text × Json)}
    (h : Carries body (.obj fields)) : readBody body = .ok (.obj fields) := by
  obtain ⟨t, ht, hread⟩ := h
  rw [readBody, ht, Option.map_some, hread]

/-- A body carries an object, or it is at fault. -/
theorem readBody_cases (body : Bytes) :
    (∃ fields, Carries body (.obj fields)) ∨
      (∀ fields, ¬ Carries body (.obj fields)) ∧
        ∃ r, readBody body = .error r ∧ r.status = 400 := by
  by_cases h : ∃ fields, Carries body (.obj fields)
  · exact .inl h
  · refine .inr ⟨not_exists.mp h, ?_⟩
    unfold readBody
    split
    · next fields hfields =>
        obtain ⟨t, ht, hread⟩ := Option.map_eq_some_iff.mp hfields
        exact absurd ⟨fields, t, ht, hread⟩ h
    · exact ⟨.notAnObject, rfl, rfl⟩
    · exact ⟨.notJson, rfl, rfl⟩

/-! ### Bodies with a diagram -/

/-- The diagram that a body is accepted with. -/
def receive (settings : Settings) (body : Bytes) : Except Rejection Text :=
  readBody body >>= codeOf settings

theorem codeOf_of_lookup (settings : Settings) {fields : List (Text × Json)} {code : Text}
    (h : fields.lookup "code".toList = some (.str code)) :
    codeOf settings (.obj fields) =
      if settings.maxSourceLength < code.length then
        .error (.codeTooLong settings.maxSourceLength)
      else .ok code := by
  rw [codeOf, Json.fieldOrNull_of_lookup h]

theorem codeOf_of_lacking (settings : Settings) {fields : List (Text × Json)}
    (h : ∀ code, fields.lookup "code".toList ≠ some (.str code)) :
    codeOf settings (.obj fields) = .error .codeMissing := by
  unfold codeOf
  cases hfield : fields.lookup "code".toList with
  | none => rw [Json.fieldOrNull_of_missing hfield]
  | some v =>
      rw [Json.fieldOrNull_of_lookup hfield]
      cases v with
      | str code => exact absurd hfield (h code)
      | _ => rfl

/-- A body of a diagram is at fault, too long or accepted. -/
theorem receive_cases (settings : Settings) (body : Bytes) :
    (LacksCode body ∧ ∃ r, receive settings body = .error r ∧ r.status = 400) ∨
      (∃ code, CarriesCode body code ∧ settings.maxSourceLength < code.length ∧
        receive settings body = .error (.codeTooLong settings.maxSourceLength)) ∨
      ∃ code, CarriesCode body code ∧ ¬ settings.maxSourceLength < code.length ∧
        receive settings body = .ok code := by
  rcases readBody_cases body with ⟨fields, hfields⟩ | ⟨hnone, r, hr, hstatus⟩
  · have hreceive : receive settings body = codeOf settings (.obj fields) := by
      rw [receive, readBody_of_carries hfields]
      rfl
    by_cases h : ∃ code, fields.lookup "code".toList = some (.str code)
    · obtain ⟨code, hcode⟩ := h
      rw [codeOf_of_lookup settings hcode] at hreceive
      by_cases hlong : settings.maxSourceLength < code.length
      · rw [if_pos hlong] at hreceive
        exact .inr (.inl ⟨code, ⟨fields, hfields, hcode⟩, hlong, hreceive⟩)
      · rw [if_neg hlong] at hreceive
        exact .inr (.inr ⟨code, ⟨fields, hfields, hcode⟩, hlong, hreceive⟩)
    · have hlacks : ∀ code, fields.lookup "code".toList ≠ some (.str code) := not_exists.mp h
      rw [codeOf_of_lacking settings hlacks] at hreceive
      refine .inl ⟨fun fields' hfields' code => ?_, .codeMissing, hreceive, rfl⟩
      rw [hfields.lookup_unique hfields']
      exact hlacks code
  · refine .inl ⟨fun fields hfields => absurd hfields (hnone fields), r, ?_, hstatus⟩
    rw [receive, hr]
    rfl

theorem parse_eq (settings : Settings) (body : Bytes) :
    parse settings body =
      (receive settings body).map fun code => (Graph.ofDiagram code).toRecord := by
  unfold parse receive
  cases readBody body with
  | error r => rfl
  | ok v =>
      change (codeOf settings v >>= fun code => pure _) = (codeOf settings v).map _
      cases codeOf settings v <;> rfl

/-- What a diagram is normalized to: its customary form, and the graph of it. -/
def normalized (keepStyles : Bool) (code : Text) : Json := .obj [
  ("code".toList, .str ((Graph.ofDiagram code).diagram keepStyles false)),
  ("graph".toList, (Graph.ofDiagram code).toRecord)]

theorem normalize_eq (settings : Settings) (body : Bytes) :
    normalize settings body = (receive settings body).map (normalized settings.keepStyles) := by
  unfold normalize receive
  cases readBody body with
  | error r => rfl
  | ok v =>
      change (codeOf settings v >>= fun code => pure _) = (codeOf settings v).map _
      cases codeOf settings v <;> rfl

theorem allFinite_normalized (keepStyles : Bool) (code : Text) :
    (normalized keepStyles code).allFinite = true := by
  have hgraph := (Json.allFinite_iff _).mp (Graph.allFinite_toRecord_ofDiagram code)
  rw [Json.allFinite_iff]
  simp [normalized, Json.IsFinite, hgraph]

/-! ### Bodies with a graph -/

theorem graphOf_of_lookup {fields : List (Text × Json)} {v : Json} {g : Graph}
    (h : fields.lookup "graph".toList = some v) (hg : Graph.ofRecord v = .ok g) :
    graphOf (.obj fields) = .ok g := by
  cases v with
  | obj w =>
      rw [graphOf, Json.fieldOrNull_of_lookup h]
      simp only [hg]
      rfl
  | _ => cases hg

theorem graphOf_of_lacking {fields : List (Text × Json)}
    (h : fields.lookup "graph".toList = none ∨ fields.lookup "graph".toList = some .null ∨
      ∃ v e, fields.lookup "graph".toList = some v ∧ Graph.ofRecord v = .error e) :
    ∃ r, graphOf (.obj fields) = .error r ∧ r.status = 400 := by
  unfold graphOf
  rcases h with h | h | ⟨v, e, h, he⟩
  · rw [Json.fieldOrNull_of_missing h]
    exact ⟨.graphMissing, rfl, rfl⟩
  · rw [Json.fieldOrNull_of_lookup h]
    exact ⟨.graphMissing, rfl, rfl⟩
  · rw [Json.fieldOrNull_of_lookup h]
    cases v with
    | null => exact ⟨.graphMissing, rfl, rfl⟩
    | _ => exact ⟨.badGraph e, by simp only [he]; rfl, rfl⟩

/-- The diagram of a graph with the figures about it. -/
def drawn (g : Graph) (keepStyles fenced : Bool) : Json :=
  .obj (("code".toList, .str (g.diagram keepStyles fenced)) :: figures g.summary)

theorem allFinite_drawn (g : Graph) (keepStyles fenced : Bool) :
    (drawn g keepStyles fenced).allFinite = true := by
  rw [Json.allFinite_iff]
  simp [drawn, figures, Json.IsFinite]

/-- The graph that a body carries is drawn as the body chooses. -/
theorem generate_of_carries (settings : Settings) {body : Bytes} {fields : List (Text × Json)}
    {v : Json} {g : Graph} (hfields : Carries body (.obj fields))
    (hv : fields.lookup "graph".toList = some v) (hg : Graph.ofRecord v = .ok g) :
    generate settings body =
      .ok (drawn g (choice (.obj fields) "preserve_styles" settings.keepStyles)
        (choice (.obj fields) "fenced" settings.fenced)) := by
  have hgraph : graphOf (.obj fields) = .ok g := graphOf_of_lookup hv hg
  rw [generate, readBody_of_carries hfields]
  simp only [bind, Except.bind, hgraph]
  rfl

/-- A body of a graph is at fault or accepted. -/
theorem generate_cases (settings : Settings) (body : Bytes) :
    (LacksGraph body ∧ ∃ r, generate settings body = .error r ∧ r.status = 400) ∨
      ¬ LacksGraph body ∧ ∃ g keepStyles fenced,
        generate settings body = .ok (drawn g keepStyles fenced) := by
  rcases readBody_cases body with ⟨fields, hfields⟩ | ⟨hnone, r, hr, hstatus⟩
  · by_cases hlacks : fields.lookup "graph".toList = none ∨
        fields.lookup "graph".toList = some .null ∨
          ∃ v e, fields.lookup "graph".toList = some v ∧ Graph.ofRecord v = .error e
    · obtain ⟨r, hr, hstatus⟩ := graphOf_of_lacking hlacks
      refine .inl ⟨fun fields' hfields' => ?_, r, ?_, hstatus⟩
      · rw [hfields.lookup_unique hfields']
        exact hlacks
      · rw [generate, readBody_of_carries hfields]
        simp only [bind, Except.bind, hr]
    · refine .inr ⟨fun h => hlacks (h fields hfields), ?_⟩
      cases hv : fields.lookup "graph".toList with
      | none => exact absurd (.inl hv) hlacks
      | some v =>
          cases hg : Graph.ofRecord v with
          | error e => exact absurd (.inr (.inr ⟨v, e, hv, hg⟩)) hlacks
          | ok g => exact ⟨g, _, _, generate_of_carries settings hfields hv hg⟩
  · refine .inl ⟨fun fields hfields => absurd hfields (hnone fields), r, ?_, hstatus⟩
    rw [generate, hr]
    rfl

/-! ## Answers -/

/-- How a body that should carry a diagram is answered: status 400 says that it carries none, status
413 that it is too long, and an accepted diagram is answered with what is made of it. -/
structure AnswersCode (settings : Settings) (body : Bytes) (make : Text → Json) (a : Response) :
    Prop where
  lacking : a.status = 400 ↔ LacksCode body
  tooLong : a.status = 413 ↔
    ∃ code, CarriesCode body code ∧ settings.maxSourceLength < code.length
  accepted : ∀ code, CarriesCode body code → ¬ settings.maxSourceLength < code.length →
    a = ⟨200, (make code).write .compact⟩
  statuses : a.status = 400 ∨ a.status = 413 ∨ a.status = 200

/-- How a body that should carry a graph is answered: status 400 says that it carries none, and a
graph is answered with its diagram, drawn as the body chooses. -/
structure AnswersGraph (settings : Settings) (body : Bytes) (a : Response) : Prop where
  lacking : a.status = 400 ↔ LacksGraph body
  accepted : ∀ fields v g, Carries body (.obj fields) → fields.lookup "graph".toList = some v →
    Graph.ofRecord v = .ok g →
      a = ⟨200, (drawn g (choice (.obj fields) "preserve_styles" settings.keepStyles)
        (choice (.obj fields) "fenced" settings.fenced)).write .compact⟩
  statuses : a.status = 400 ∨ a.status = 200

theorem CarriesCode.not_lacksCode {body : Bytes} {code : Text} (h : CarriesCode body code) :
    ¬ LacksCode body := by
  obtain ⟨fields, hfields, hcode⟩ := h
  exact fun hlacks => hlacks fields hfields code hcode

theorem CarriesCode.unique {body : Bytes} {code code' : Text} (h : CarriesCode body code)
    (h' : CarriesCode body code') : code' = code := by
  obtain ⟨fields, hfields, hcode⟩ := h
  obtain ⟨fields', hfields', hcode'⟩ := h'
  rw [hfields.lookup_unique hfields', hcode] at hcode'
  exact (Json.str.inj (Option.some.inj hcode')).symm

/-- What is made of the diagram that a body is accepted with answers the body. -/
theorem answersCode_receive (settings : Settings) (body : Bytes) {make : Text → Json}
    (hfinite : ∀ code, (make code).allFinite = true) :
    AnswersCode settings body make (.ofResult 200 ((receive settings body).map make)) := by
  rcases receive_cases settings body with ⟨hlacks, r, hreceive, hstatus⟩ |
    ⟨code, hcode, hlong, hreceive⟩ | ⟨code, hcode, hlength, hreceive⟩
  · have h400 : r.response.status = 400 := (Rejection.status_response r).trans hstatus
    rw [hreceive]
    exact {
      lacking := iff_of_true h400 hlacks
      tooLong := by
        refine iff_of_false ?_ fun ⟨code, hcode, _⟩ => hcode.not_lacksCode hlacks
        simp [Except.map, Response.ofResult, h400]
      accepted := fun code hcode => absurd hlacks hcode.not_lacksCode
      statuses := .inl h400 }
  · have h413 : (Rejection.codeTooLong settings.maxSourceLength).response.status = 413 :=
      Rejection.status_response _
    rw [hreceive]
    exact {
      lacking := by
        refine iff_of_false ?_ hcode.not_lacksCode
        simp [Except.map, Response.ofResult, h413]
      tooLong := iff_of_true h413 ⟨code, hcode, hlong⟩
      accepted := by
        intro code' hcode' hlength
        rw [hcode.unique hcode'] at hlength
        exact absurd hlong hlength
      statuses := .inr (.inl h413) }
  · have h200 : Response.ofResult 200 ((receive settings body).map make) =
        ⟨200, (make code).write .compact⟩ := by
      rw [hreceive]
      exact Response.json_of_allFinite (hfinite code) 200
    rw [h200]
    exact {
      lacking := iff_of_false (by simp) hcode.not_lacksCode
      tooLong := by
        refine iff_of_false (by simp) ?_
        rintro ⟨code', hcode', hlong⟩
        rw [hcode.unique hcode'] at hlong
        exact hlength hlong
      accepted := by
        intro code' hcode' _
        rw [hcode.unique hcode']
      statuses := .inr (.inr rfl) }

/-- A graph is answered with its diagram. -/
theorem answersGraph_generate (settings : Settings) (body : Bytes) :
    AnswersGraph settings body (.ofResult 200 (generate settings body)) := by
  have haccepted : ∀ fields v g, Carries body (.obj fields) →
      fields.lookup "graph".toList = some v → Graph.ofRecord v = .ok g →
        Response.ofResult 200 (generate settings body) =
          ⟨200, (drawn g (choice (.obj fields) "preserve_styles" settings.keepStyles)
            (choice (.obj fields) "fenced" settings.fenced)).write .compact⟩ := by
    intro fields v g hfields hv hg
    rw [generate_of_carries settings hfields hv hg]
    exact Response.json_of_allFinite (allFinite_drawn g _ _) 200
  rcases generate_cases settings body with ⟨hlacks, r, hr, hstatus⟩ |
    ⟨hgraph, g, keepStyles, fenced, hg⟩
  · have h400 : (Response.ofResult 200 (generate settings body)).status = 400 := by
      rw [hr]
      exact (Rejection.status_response r).trans hstatus
    exact ⟨iff_of_true h400 hlacks, haccepted, .inl h400⟩
  · have h200 : (Response.ofResult 200 (generate settings body)).status = 200 := by
      rw [hg, Response.ofResult, Response.json_of_allFinite (allFinite_drawn g _ _)]
    exact ⟨iff_of_false (by rw [h200]; decide) hgraph, haccepted, .inr h200⟩

theorem respond_generate {s : Service} {r : Request} (hr : s.route r = .ok .generate) :
    AnswersGraph s.settings r.body (s.respond r).1 := by
  rw [respond_fst hr]
  exact answersGraph_generate s.settings r.body

/-- The figures about a graph count what its record lists. -/
theorem counts_drawn (g : Graph) (keepStyles fenced : Bool) :
    ∃ nodes edges, g.toRecord.field? "nodes".toList = some (.arr nodes) ∧
      g.toRecord.field? "edges".toList = some (.arr edges) ∧
      (drawn g keepStyles fenced).field? "node_count".toList = some (.int nodes.length) ∧
      (drawn g keepStyles fenced).field? "edge_count".toList = some (.int edges.length) := by
  refine ⟨_, _, rfl, rfl, ?_, ?_⟩
  · rw [List.length_map, Keyed.values, List.length_map]
    rfl
  · rw [List.length_map]
    rfl

/-- A service that accepts diagrams of no more than so many characters. -/
def serviceUpTo (length : Int) : Service where
  settings := { maxSourceLength := length }
  route := .byPath
  ids := { letters := fun _ => .last 25, readings := fun _ => .zero }

/-- The diagram of one dotted edge. -/
def dottedCode : Text := "graph LR\na -.-> b".toList

/-- The request to normalize it. -/
def dottedRequest : Request :=
  .post .normalize (Utf8.encode "\x7b\"code\": \"graph LR\\na -.-> b\"\x7d".toList)

/-- The fields that send the graph of it back, for a diagram without a fence. -/
def dottedFields : List (Text × Json) := [
  ("graph".toList, (Graph.ofDiagram dottedCode).toRecord),
  ("preserve_styles".toList, .bool true),
  ("fenced".toList, .bool false)]

/-- The request that sends it back. -/
def dottedReturn : Request :=
  .post .generate (Utf8.encode (Json.write .compact (.obj dottedFields)))

/-- Such a service hands a body to the endpoint that it was posted to. -/
theorem route_serviceUpTo (length : Int) {e : Endpoint} (h : e.method = "POST".toList)
    (body : Bytes) : (serviceUpTo length).route (.post e body) = .ok e :=
  endpoint_post Router.exact_byPath.complete h body

theorem carries_dottedReturn : Carries dottedReturn.body (.obj dottedFields) := by
  refine ⟨Json.write .compact (.obj dottedFields), by decide +kernel,
    Json.read_write Json.readable_compact ?_ ?_⟩
  · have hgraph := Graph.distinctKeys_toRecord (Graph.storable_ofDiagram dottedCode)
    simpa [dottedFields, Json.DistinctKeys, Json.HasDistinctKeys] using hgraph
  · have hsize : (Graph.ofDiagram dottedCode).nodes.size ≤ 10 ^ (Json.maxIntegerDigits - 3) := by
      calc (Graph.ofDiagram dottedCode).nodes.size = 2 := by decide +kernel
        _ ≤ 10 ^ 1 := by decide
        _ ≤ 10 ^ (Json.maxIntegerDigits - 3) := Nat.pow_le_pow_right (by decide) (by decide)
    have hgraph := Graph.readableIntegers_ofDiagram hsize
    simpa [dottedFields, Json.ReadableIntegers, Json.HasReadableDigits] using hgraph

end Service

end Flowchart
