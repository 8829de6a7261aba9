import Flowchart.Proofs.Binary64.Rounding
import Flowchart.Proofs.Service.Conversion

/-!
# How requests for new elements are answered

A request for a new node or edge is rejected, fails, or is answered with the record of the new
element (`Service.creations_classified`). Which of these happens is a matter of the values in the
body and of the clock: two values give coordinates, one of them is no number, or one of them is an
integer too large to be near one (`Service.coordinates_cases`). A request that nothing is wrong with
fails all the same if the clock reads no time, or if the record has a number that is not finite.
-/

set_option autoImplicit false

namespace Flowchart.Service

/-! ## Coordinates -/

/-- A value is no number: it is neither a number nor a truth value, nor a text that is read as a
number. -/
inductive IsNoNumber : Json → Prop where
  | null : IsNoNumber .null
  | arr (items : List Json) : IsNoNumber (.arr items)
  | obj (fields : List (Text × Json)) : IsNoNumber (.obj fields)
  | str {t : Text} (h : Numeral.Input.number? t = none) : IsNoNumber (.str t)

/-- A value is an integer that is too large to be near a number. -/
inductive IsTooLarge : Json → Prop where
  | int {n : Int} (h : Binary64.integerBound ≤ n.natAbs) : IsTooLarge (.int n)

theorem IsNoNumber.coordinate_eq {v : Json} (h : IsNoNumber v) :
    coordinate v = .error .notANumber := by
  cases h with
  | str h => rw [coordinate, h, Option.elim_none]
  | _ => rfl

theorem coordinate_int (n : Int) :
    coordinate (.int n) = (Binary64.ofInt? n).elim (.error .tooLarge) .ok := rfl

theorem IsTooLarge.coordinate_eq {v : Json} (h : IsTooLarge v) :
    coordinate v = .error .tooLarge := by
  cases h with
  | @int n h => rw [coordinate_int, (Binary64.ofInt?_eq_none_iff n).mpr h, Option.elim_none]

/-- A value gives a number as a coordinate, unless it is no number or too large. -/
theorem coordinate_cases (v : Json) :
    IsNoNumber v ∨ IsTooLarge v ∨ ∃ x, coordinate v = .ok x := by
  cases v with
  | null => exact .inl .null
  | bool b => exact .inr (.inr ⟨_, rfl⟩)
  | int n =>
      cases h : Binary64.ofInt? n with
      | none => exact .inr (.inl (.int ((Binary64.ofInt?_eq_none_iff n).mp h)))
      | some x => exact .inr (.inr ⟨x, by rw [coordinate_int, h, Option.elim_some]⟩)
  | float x => exact .inr (.inr ⟨x, rfl⟩)
  | str t =>
      cases h : Numeral.Input.number? t with
      | none => exact .inl (.str h)
      | some x => exact .inr (.inr ⟨x, by rw [coordinate, h, Option.elim_some]⟩)
  | arr items => exact .inl (.arr items)
  | obj fields => exact .inl (.obj fields)

/-- The coordinates that two values give, or what is wrong with the first that gives none. -/
def coordinates (x y : Json) : Except CoordinateError (Binary64 × Binary64) := do
  let p ← coordinate x
  let q ← coordinate y
  return (p, q)

/-- The first of two values that gives no coordinate is no number. -/
inductive IsNoPosition (x y : Json) : Prop where
  | first (h : IsNoNumber x)
  | second {p : Binary64} (hx : coordinate x = .ok p) (h : IsNoNumber y)

/-- The first of two values that gives no coordinate is too large. -/
inductive IsTooFar (x y : Json) : Prop where
  | first (h : IsTooLarge x)
  | second {p : Binary64} (hx : coordinate x = .ok p) (h : IsTooLarge y)

theorem IsNoPosition.coordinates_eq {x y : Json} (h : IsNoPosition x y) :
    coordinates x y = .error .notANumber := by
  cases h with
  | first h => rw [coordinates, h.coordinate_eq]; rfl
  | second hx h => rw [coordinates, hx, h.coordinate_eq]; rfl

theorem IsTooFar.coordinates_eq {x y : Json} (h : IsTooFar x y) :
    coordinates x y = .error .tooLarge := by
  cases h with
  | first h => rw [coordinates, h.coordinate_eq]; rfl
  | second hx h => rw [coordinates, hx, h.coordinate_eq]; rfl

theorem coordinates_of_ok {x y : Json} {p q : Binary64} (hx : coordinate x = .ok p)
    (hy : coordinate y = .ok q) : coordinates x y = .ok (p, q) := by
  rw [coordinates, hx, hy]
  rfl

theorem coordinates_cases (x y : Json) :
    IsNoPosition x y ∨ IsTooFar x y ∨ ∃ p q, coordinate x = .ok p ∧ coordinate y = .ok q := by
  rcases coordinate_cases x with hx | hx | ⟨p, hx⟩
  · exact .inl (.first hx)
  · exact .inr (.inl (.first hx))
  · rcases coordinate_cases y with hy | hy | ⟨q, hy⟩
    · exact .inl (.second hx hy)
    · exact .inr (.inl (.second hx hy))
    · exact .inr (.inr ⟨p, q, hx, hy⟩)

/-! ## Bodies that ask for a node -/

/-- A value asks for a node of a shape, at the coordinates that two values give. A shape that is
missing is a rectangle, a position that does not count as given is empty, and a coordinate that is
missing is zero. -/
structure AsksForNode (v : Json) (shape : Shape) (x y : Json) : Prop where
  shape : (v.field? "shape".toList).getD (.str Shape.rectangle.name) = .str shape.name
  position : ∃ fields, (v.given? "position".toList).getD (.obj []) = .obj fields ∧
    ((Json.obj fields).field? "x".toList).getD (.int 0) = x ∧
      ((Json.obj fields).field? "y".toList).getD (.int 0) = y

/-- The label of the node that a value asks for; one that does not count as given is that of the
shape. -/
def labelOf (v : Json) (shape : Shape) : Text :=
  ((v.given? "label".toList).getD (.str shape.defaultLabel)).display

theorem shapeOf_eq_ok_iff (v : Json) (shape : Shape) :
    shapeOf v = .ok shape ↔
      (v.field? "shape".toList).getD (.str Shape.rectangle.name) = .str shape.name := by
  unfold shapeOf
  generalize (v.field? "shape".toList).getD (.str Shape.rectangle.name) = w
  constructor
  · intro h
    split at h
    · next shape' hshape =>
        cases h
        cases w with
        | str name => exact congrArg Json.str (Vocabulary.name_of_ofName? hshape).symm
        | _ => cases hshape
    · cases h
  · rintro rfl
    have hshape : Shape.named? (.str shape.name) = some shape := Vocabulary.ofName?_name shape
    rw [hshape]

theorem coordinatesOf_eq {v : Json} {fields : List (Text × Json)}
    (h : (v.given? "position".toList).getD (.obj []) = .obj fields) :
    coordinatesOf v = coordinates (((Json.obj fields).field? "x".toList).getD (.int 0))
      (((Json.obj fields).field? "y".toList).getD (.int 0)) := by
  unfold coordinatesOf
  rw [show (v.field? "position".toList).bind Json.ifTruthy = v.given? "position".toList from rfl, h]
  rfl

theorem label_eq (v : Json) (shape : Shape) :
    (((v.field? "label".toList).bind Json.ifTruthy).map Json.display).getD shape.defaultLabel =
      labelOf v shape := by
  rw [labelOf, Json.given?]
  cases (v.field? "label".toList).bind Json.ifTruthy <;> rfl

theorem ofBody_eq {v : Json} {shape : Shape} (h : shapeOf v = .ok shape) :
    NodeOrder.ofBody v =
      match coordinatesOf v with
      | .error .notANumber => .error .badPosition
      | .error .tooLarge => .ok none
      | .ok (x, y) => .ok (some { shape, x, y, label := labelOf v shape }) := by
  unfold NodeOrder.ofBody
  rw [h]
  simp only [bind, Except.bind, label_eq]
  rfl

theorem ofBody_of_asks {v x y : Json} {shape : Shape} (h : AsksForNode v shape x y) :
    NodeOrder.ofBody v =
      match coordinates x y with
      | .error .notANumber => .error .badPosition
      | .error .tooLarge => .ok none
      | .ok (x, y) => .ok (some { shape, x, y, label := labelOf v shape }) := by
  obtain ⟨fields, hposition, rfl, rfl⟩ := h.position
  rw [ofBody_eq ((shapeOf_eq_ok_iff v shape).mpr h.shape), coordinatesOf_eq hposition]

/-- A value that asks for no node is rejected. -/
theorem ofBody_of_not_asks {v : Json} (h : ∀ shape x y, ¬ AsksForNode v shape x y) :
    ∃ r, NodeOrder.ofBody v = .error r ∧ r.status = 400 := by
  cases hshape : shapeOf v with
  | error r =>
      have hr : r = .unknownShape := by
        unfold shapeOf at hshape
        split at hshape
        · cases hshape
        · exact (Except.error.inj hshape).symm
      refine ⟨r, ?_, hr ▸ rfl⟩
      rw [NodeOrder.ofBody, hshape]
      rfl
  | ok shape =>
      refine ⟨.badPosition, ?_, rfl⟩
      have hposition : coordinatesOf v = .error .notANumber := by
        unfold coordinatesOf
        split
        · next fields hfields =>
            exact absurd ⟨(shapeOf_eq_ok_iff v shape).mp hshape, fields, hfields, rfl, rfl⟩
              (h shape _ _)
        · rfl
      rw [ofBody_eq hshape, hposition]

/-! ## Time -/

/-- The next clock reading is a time: its milliseconds are a finite number. -/
def ReadsTime (ids : IdSource) : Prop := ((ids.readings ids.count).scaleBy 1000).isFinite = true

theorem exists_stamp_iff (ids : IdSource) : (∃ stamp, ids.stamp = .ok stamp) ↔ ReadsTime ids := by
  unfold IdSource.stamp milliseconds ReadsTime
  generalize (ids.readings ids.count).scaleBy 1000 = x
  cases x <;> simp [Except.map, Binary64.isFinite]

/-- An identifier is drawn if the clock reads a time. -/
theorem exists_map_stamp_iff (ids : IdSource) (id : Text → Text) :
    (∃ t, ids.stamp.map id = .ok t) ↔ ReadsTime ids := by
  rw [← exists_stamp_iff]
  cases ids.stamp <;> simp [Except.map]

theorem exists_nodeId_iff (ids : IdSource) : (∃ id, ids.nodeId = .ok id) ↔ ReadsTime ids :=
  exists_map_stamp_iff ids _

theorem exists_edgeId_iff (ids : IdSource) (source target : Text) :
    (∃ id, ids.edgeId source target = .ok id) ↔ ReadsTime ids :=
  exists_map_stamp_iff ids _

/-! ## Answers -/

/-- How a request for a new element is answered: status 400 says that it is at fault, status 500
that it fails, and what it gives is sent back with status 201. -/
structure AnswersCreation (lacks fails : Prop) (gives : Json → Prop) (a : Response) : Prop where
  rejected : a.status = 400 ↔ lacks
  failed : a.status = 500 ↔ fails
  created : ∀ v, gives v → a = ⟨201, v.write .compact⟩
  statuses : a.status = 400 ∨ a.status = 500 ∨ ∃ v, gives v

/-- It is enough to know what follows from each of three cases that leave no other. -/
theorem answersCreation_of_cases {lacks fails : Prop} {gives : Json → Prop} {a : Response}
    (hlacks : lacks → a.status = 400) (hfails : fails → a.status = 500)
    (hgives : ∀ v, gives v → a = ⟨201, v.write .compact⟩)
    (hcases : lacks ∨ fails ∨ ∃ v, gives v) : AnswersCreation lacks fails gives a where
  rejected := by
    refine ⟨fun hstatus => ?_, hlacks⟩
    rcases hcases with h | h | ⟨v, h⟩
    · exact h
    · rw [hfails h] at hstatus
      cases hstatus
    · rw [hgives v h] at hstatus
      cases hstatus
  failed := by
    refine ⟨fun hstatus => ?_, hfails⟩
    rcases hcases with h | h | ⟨v, h⟩
    · rw [hlacks h] at hstatus
      cases hstatus
    · exact h
    · rw [hgives v h] at hstatus
      cases hstatus
  created := hgives
  statuses := hcases.imp hlacks (.imp_left hfails)

/-- A response with a value that is not finite fails. -/
theorem Response.status_json_of_not_allFinite {v : Json} (h : v.allFinite = false) (status : Nat) :
    (Response.json status v).status = 500 := by
  rw [Response.json, h]
  rfl

/-! ### Nodes -/

/-- No object that a body carries asks for a node at a position. -/
def LacksNode (body : Bytes) : Prop :=
  ∀ fields shape x y, Carries body (.obj fields) → AsksForNode (.obj fields) shape x y →
    IsNoPosition x y

/-- Why a request for a node fails: a coordinate is too large or not finite, or the clock reads no
time. -/
inductive FailsOnNode (ids : IdSource) (body : Bytes) : Prop where
  | tooFar {fields : List (Text × Json)} {shape : Shape} {x y : Json}
      (hbody : Carries body (.obj fields)) (hasks : AsksForNode (.obj fields) shape x y)
      (h : IsTooFar x y)
  | notFinite {fields : List (Text × Json)} {shape : Shape} {x y : Json} {p q : Binary64}
      (hbody : Carries body (.obj fields)) (hasks : AsksForNode (.obj fields) shape x y)
      (hx : coordinate x = .ok p) (hy : coordinate y = .ok q)
      (h : (p.isFinite && q.isFinite) = false)
  | noTime {fields : List (Text × Json)} {shape : Shape} {x y : Json} {p q : Binary64}
      (hbody : Carries body (.obj fields)) (hasks : AsksForNode (.obj fields) shape x y)
      (hx : coordinate x = .ok p) (hy : coordinate y = .ok q) (h : ¬ ReadsTime ids)

/-- The record of the node that a body asks for, if nothing fails. -/
inductive GivesNode (ids : IdSource) (body : Bytes) : Json → Prop where
  | record {fields : List (Text × Json)} {shape : Shape} {x y : Json} {p q : Binary64} {id : Text}
      (hbody : Carries body (.obj fields)) (hasks : AsksForNode (.obj fields) shape x y)
      (hx : coordinate x = .ok p) (hy : coordinate y = .ok q)
      (hfinite : (p.isFinite && q.isFinite) = true) (hid : ids.nodeId = .ok id) :
      GivesNode ids body (Node.toRecord {
        id, label := labelOf (.obj fields) shape, shape := .known shape
        position := ⟨.float p, .float q⟩ })

section Node

variable {ids : IdSource} {body : Bytes} {fields : List (Text × Json)} {shape : Shape} {x y : Json}
  {p q : Binary64}

theorem createNode_of_asks (hbody : Carries body (.obj fields))
    (hasks : AsksForNode (.obj fields) shape x y) :
    (createNode ids body).1 =
      match coordinates x y with
      | .error .notANumber => Rejection.badPosition.response
      | .error .tooLarge => .internalError
      | .ok (p, q) => created Node.toRecord (newNode ids (.str shape.name)
          (.arr [.float p, .float q]) (labelOf (.obj fields) shape)).1 := by
  unfold createNode
  rw [readBody_of_carries hbody]
  simp only [bind, Except.bind, ofBody_of_asks hasks]
  cases coordinates x y with
  | error e => cases e <;> rfl
  | ok position => rfl

theorem newNode_eq (label : Text) :
    newNode ids (.str shape.name) (.arr [.float p, .float q]) label =
      ((ids.nodeId.mapError BuildError.noTime).map fun id =>
        { id, label, shape := .known shape, position := ⟨.float p, .float q⟩ }, ids.next) := by
  have hshape : Shape.named? (.str shape.name) = some shape := Vocabulary.ofName?_name shape
  unfold newNode
  rw [hshape]
  simp only [Position.ofParts, Json.parts?]
  cases ids.nodeId <;> rfl

/-- The record of a node is as finite as its coordinates. -/
theorem allFinite_toRecord_node (id label : Text) :
    (Node.toRecord {
        id, label, shape := .known shape, position := ⟨.float p, .float q⟩ }).allFinite =
      (p.isFinite && q.isFinite) := by
  simp [Node.toRecord, Position.toRecord, Json.allFinite, Json.fieldsFinite]

theorem createNode_of_ok (hbody : Carries body (.obj fields))
    (hasks : AsksForNode (.obj fields) shape x y) (hx : coordinate x = .ok p)
    (hy : coordinate y = .ok q) :
    (createNode ids body).1 =
      created Node.toRecord ((ids.nodeId.mapError BuildError.noTime).map fun id =>
        { id, label := labelOf (.obj fields) shape, shape := .known shape
          position := ⟨.float p, .float q⟩ }) := by
  rw [createNode_of_asks hbody hasks, coordinates_of_ok hx hy]
  simp only [newNode_eq]

theorem status_createNode_of_lacks (h : LacksNode body) : (createNode ids body).1.status = 400 := by
  rcases readBody_cases body with ⟨fields, hfields⟩ | ⟨-, r, hr, hstatus⟩
  · by_cases hasks : ∃ shape x y, AsksForNode (.obj fields) shape x y
    · obtain ⟨shape, x, y, hasks⟩ := hasks
      rw [createNode_of_asks hfields hasks, (h fields shape x y hfields hasks).coordinates_eq]
      exact Rejection.status_response .badPosition
    · obtain ⟨r, hr, hstatus⟩ := ofBody_of_not_asks fun shape x y hasks' =>
        hasks ⟨shape, x, y, hasks'⟩
      unfold createNode
      rw [readBody_of_carries hfields]
      simp only [bind, Except.bind, hr]
      rw [Rejection.status_response, hstatus]
  · unfold createNode
    rw [hr]
    simp only [bind, Except.bind]
    rw [Rejection.status_response, hstatus]

theorem status_createNode_of_fails (h : FailsOnNode ids body) :
    (createNode ids body).1.status = 500 := by
  cases h with
  | tooFar hbody hasks h =>
      rw [createNode_of_asks hbody hasks, h.coordinates_eq]
      rfl
  | noTime hbody hasks hx hy h =>
      rw [createNode_of_ok hbody hasks hx hy]
      cases hid : ids.nodeId with
      | error e => rfl
      | ok id => exact absurd ((exists_nodeId_iff ids).mp ⟨id, hid⟩) h
  | notFinite hbody hasks hx hy h =>
      rw [createNode_of_ok hbody hasks hx hy]
      cases ids.nodeId with
      | error e => rfl
      | ok id =>
          -- the node is made, and its record cannot be written
          refine Response.status_json_of_not_allFinite ?_ 201
          rw [allFinite_toRecord_node, h]

theorem createNode_of_gives {v : Json} (h : GivesNode ids body v) :
    (createNode ids body).1 = ⟨201, v.write .compact⟩ := by
  cases h with
  | record hbody hasks hx hy hfinite hid =>
      rw [createNode_of_ok hbody hasks hx hy, hid]
      refine Response.json_of_allFinite ?_ 201
      rw [allFinite_toRecord_node, hfinite]

/-- A request for a node is at fault, or it fails, or it gives a node. -/
theorem node_cases (ids : IdSource) (body : Bytes) :
    LacksNode body ∨ FailsOnNode ids body ∨ ∃ v, GivesNode ids body v := by
  by_cases hlacks : LacksNode body
  · exact .inl hlacks
  · simp only [LacksNode, not_forall] at hlacks
    obtain ⟨fields, shape, x, y, hbody, hasks, hposition⟩ := hlacks
    refine .inr ?_
    rcases coordinates_cases x y with h | h | ⟨p, q, hx, hy⟩
    · exact absurd h hposition
    · exact .inl (.tooFar hbody hasks h)
    cases hfinite : p.isFinite && q.isFinite with
    | false => exact .inl (.notFinite hbody hasks hx hy hfinite)
    | true =>
        by_cases htime : ReadsTime ids
        · obtain ⟨id, hid⟩ := (exists_nodeId_iff ids).mpr htime
          exact .inr ⟨_, .record hbody hasks hx hy hfinite hid⟩
        · exact .inl (.noTime hbody hasks hx hy htime)

theorem answersCreation_node (ids : IdSource) (body : Bytes) :
    AnswersCreation (LacksNode body) (FailsOnNode ids body) (GivesNode ids body)
      (createNode ids body).1 :=
  answersCreation_of_cases status_createNode_of_lacks status_createNode_of_fails
    (fun _ => createNode_of_gives) (node_cases ids body)

end Node

/-! ### Edges -/

/-- A value asks for an edge between two values, which count as given. -/
structure AsksForEdge (v source target : Json) : Prop where
  source : v.given? "source".toList = some source
  target : v.given? "target".toList = some target

/-- No object that a body carries asks for an edge. -/
def LacksEdge (body : Bytes) : Prop :=
  ∀ fields source target, Carries body (.obj fields) → ¬ AsksForEdge (.obj fields) source target

/-- Why a request for an edge fails: the label has a number that is not finite, or the clock reads
no time. -/
inductive FailsOnEdge (ids : IdSource) (body : Bytes) : Prop where
  | notFinite {fields : List (Text × Json)} {source target : Json}
      (hbody : Carries body (.obj fields)) (hasks : AsksForEdge (.obj fields) source target)
      (h : ¬ ((Json.obj fields).fieldOrNull "label".toList).Everywhere Json.IsFinite)
  | noTime {fields : List (Text × Json)} {source target : Json}
      (hbody : Carries body (.obj fields)) (hasks : AsksForEdge (.obj fields) source target)
      (h : ¬ ReadsTime ids)

/-- The record of the edge that a body asks for, if nothing fails. -/
inductive GivesEdge (ids : IdSource) (body : Bytes) : Json → Prop where
  | record {fields : List (Text × Json)} {source target : Json} {id : Text}
      (hbody : Carries body (.obj fields)) (hasks : AsksForEdge (.obj fields) source target)
      (hfinite : ((Json.obj fields).fieldOrNull "label".toList).Everywhere Json.IsFinite)
      (hid : ids.edgeId source.display target.display = .ok id) :
      GivesEdge ids body (Edge.toRecord {
        id, source := source.display, target := target.display
        label := ((Json.obj fields).fieldOrNull "label".toList).ifTruthy })

section Edge

variable {ids : IdSource} {body : Bytes} {fields : List (Text × Json)} {source target : Json}

theorem edgeOrder_of_asks {v : Json} (h : AsksForEdge v source target) :
    EdgeOrder.ofBody v = .ok {
      source := source.display, target := target.display
      label := v.fieldOrNull "label".toList } := by
  have hsource : (v.field? "source".toList).bind Json.ifTruthy = some source := h.source
  have htarget : (v.field? "target".toList).bind Json.ifTruthy = some target := h.target
  rw [EdgeOrder.ofBody, hsource, htarget]

/-- A value that asks for no edge is rejected. -/
theorem edgeOrder_of_not_asks {v : Json} (h : ∀ source target, ¬ AsksForEdge v source target) :
    EdgeOrder.ofBody v = .error .endsMissing := by
  unfold EdgeOrder.ofBody
  split
  · next source target hsource htarget => exact absurd ⟨hsource, htarget⟩ (h source target)
  · rfl

theorem createEdge_of_asks (hbody : Carries body (.obj fields))
    (hasks : AsksForEdge (.obj fields) source target) :
    (createEdge ids body).1 =
      created Edge.toRecord ((ids.edgeId source.display target.display).map fun id => {
        id, source := source.display, target := target.display
        label := ((Json.obj fields).fieldOrNull "label".toList).ifTruthy }) := by
  unfold createEdge
  rw [readBody_of_carries hbody]
  simp only [bind, Except.bind, edgeOrder_of_asks hasks, newEdge]

/-- A value that does not count as given has no number that is not finite. -/
theorem allFinite_of_not_truthy {v : Json} (h : ¬ v.isTruthy = true) : v.allFinite = true := by
  cases v with
  | float x =>
      cases x with
      | finite negative rank => rfl
      | infinite negative | nan => exact absurd rfl h
  | arr items =>
      cases items with
      | nil => rfl
      | cons item items => exact absurd rfl h
  | obj fields =>
      cases fields with
      | nil => rfl
      | cons field fields => exact absurd rfl h
  | _ => rfl

/-- The record of an edge is as finite as its label. -/
theorem allFinite_toRecord_edge (id source target : Text) (label : Json) :
    (Edge.toRecord { id, source, target, label := label.ifTruthy }).allFinite =
      label.allFinite := by
  have hlabel : (label.ifTruthy.getD .null).allFinite = label.allFinite := by
    unfold Json.ifTruthy
    split
    · rfl
    · next htruthy => exact (allFinite_of_not_truthy htruthy).symm
  simp [Edge.toRecord, Json.allFinite, Json.fieldsFinite, hlabel]

theorem status_createEdge_of_lacks (h : LacksEdge body) : (createEdge ids body).1.status = 400 := by
  unfold createEdge
  rcases readBody_cases body with ⟨fields, hfields⟩ | ⟨-, r, hr, hstatus⟩
  · have horder : EdgeOrder.ofBody (.obj fields) = .error .endsMissing :=
      edgeOrder_of_not_asks fun source target => h fields source target hfields
    rw [readBody_of_carries hfields]
    simp only [bind, Except.bind, horder]
    exact Rejection.status_response .endsMissing
  · rw [hr]
    simp only [bind, Except.bind]
    rw [Rejection.status_response, hstatus]

theorem status_createEdge_of_fails (h : FailsOnEdge ids body) :
    (createEdge ids body).1.status = 500 := by
  cases h with
  | @noTime fields source target hbody hasks h =>
      rw [createEdge_of_asks hbody hasks]
      cases hid : ids.edgeId source.display target.display with
      | error e => rfl
      | ok id => exact absurd ((exists_edgeId_iff ids _ _).mp ⟨id, hid⟩) h
  | @notFinite fields source target hbody hasks h =>
      rw [createEdge_of_asks hbody hasks]
      cases ids.edgeId source.display target.display with
      | error e => rfl
      | ok id =>
          refine Response.status_json_of_not_allFinite ?_ 201
          rwa [allFinite_toRecord_edge, ← Bool.not_eq_true, Json.allFinite_iff]

theorem createEdge_of_gives {v : Json} (h : GivesEdge ids body v) :
    (createEdge ids body).1 = ⟨201, v.write .compact⟩ := by
  cases h with
  | record hbody hasks hfinite hid =>
      rw [createEdge_of_asks hbody hasks, hid]
      refine Response.json_of_allFinite ?_ 201
      rwa [allFinite_toRecord_edge, Json.allFinite_iff]

/-- A request for an edge is at fault, or it fails, or it gives an edge. -/
theorem edge_cases (ids : IdSource) (body : Bytes) :
    LacksEdge body ∨ FailsOnEdge ids body ∨ ∃ v, GivesEdge ids body v := by
  by_cases hlacks : LacksEdge body
  · exact .inl hlacks
  · simp only [LacksEdge, not_forall, not_not] at hlacks
    obtain ⟨fields, source, target, hbody, hasks⟩ := hlacks
    refine .inr ?_
    by_cases hfinite : ((Json.obj fields).fieldOrNull "label".toList).Everywhere Json.IsFinite
    · by_cases htime : ReadsTime ids
      · obtain ⟨id, hid⟩ := (exists_edgeId_iff ids source.display target.display).mpr htime
        exact .inr ⟨_, .record hbody hasks hfinite hid⟩
      · exact .inl (.noTime hbody hasks htime)
    · exact .inl (.notFinite hbody hasks hfinite)

theorem answersCreation_edge (ids : IdSource) (body : Bytes) :
    AnswersCreation (LacksEdge body) (FailsOnEdge ids body) (GivesEdge ids body)
      (createEdge ids body).1 :=
  answersCreation_of_cases status_createEdge_of_lacks status_createEdge_of_fails
    (fun _ => createEdge_of_gives) (edge_cases ids body)

end Edge

/-- **How requests for new elements are answered.** A request for a node or an edge that is at fault
gets status 400, one that fails gets status 500, and any other gets the record of the new element
with status 201. -/
theorem creations_classified (s : Service) (r : Request) :
    (s.route r = .ok .nodes →
      AnswersCreation (LacksNode r.body) (FailsOnNode s.ids r.body) (GivesNode s.ids r.body)
        (s.respond r).1) ∧
      (s.route r = .ok .edges →
        AnswersCreation (LacksEdge r.body) (FailsOnEdge s.ids r.body) (GivesEdge s.ids r.body)
          (s.respond r).1) := by
  constructor
  · intro hr
    rw [respond_fst hr]
    exact answersCreation_node s.ids r.body
  · intro hr
    rw [respond_fst hr]
    exact answersCreation_edge s.ids r.body

/-- What a request for a node nowhere carries. -/
def nowhereFields : List (Text × Json) := [
  ("position".toList, .obj [("x".toList, .float (.infinite true)), ("y".toList, .float .nan)])]

/-- A request for a node nowhere. -/
def nowhereRequest : Request :=
  .post .nodes (Utf8.encode "\x7b\"position\": \x7b\"x\": -1e999, \"y\": NaN\x7d\x7d".toList)

/-- The request for an edge with one end. -/
def looseRequest : Request := .post .edges (Utf8.encode "\x7b\"source\": \"a\"\x7d".toList)

/-- What the request for an edge with both ends carries. -/
def tiedFields : List (Text × Json) :=
  [("source".toList, .str "a".toList), ("target".toList, .int 1)]

/-- The request for an edge with both ends. -/
def tiedRequest : Request :=
  .post .edges (Utf8.encode "\x7b\"source\": \"a\", \"target\": 1\x7d".toList)

/-- The node nowhere fails, the edge with one end is rejected, and the edge with both ends is sent
back. -/
theorem creations_classified_ends :
    ((serviceUpTo 100).respond nowhereRequest).1.status = 500 ∧
      ((serviceUpTo 100).respond looseRequest).1.status = 400 ∧
        ∃ v : Json, ((serviceUpTo 100).respond tiedRequest).1 = ⟨201, v.write .compact⟩ ∧
          v.field? "target".toList = some (.str "1".toList) := by
  have hnowhere : Carries nowhereRequest.body (.obj nowhereFields) := ⟨_, by rfl, by rfl⟩
  have hloose : Carries looseRequest.body (.obj [("source".toList, .str "a".toList)]) :=
    ⟨_, by rfl, by rfl⟩
  have htied : Carries tiedRequest.body (.obj tiedFields) := ⟨_, by rfl, by rfl⟩
  refine ⟨?_, ?_, ?_⟩
  · have hanswer := (creations_classified (serviceUpTo 100) nowhereRequest).1 (route_serviceUpTo _ rfl _)
    have hasks : AsksForNode (.obj nowhereFields) .rectangle (.float (.infinite true))
        (.float .nan) := ⟨rfl, _, rfl, rfl, rfl⟩
    exact hanswer.failed.mpr (.notFinite hnowhere hasks rfl rfl rfl)
  · have hanswer := (creations_classified (serviceUpTo 100) looseRequest).2 (route_serviceUpTo _ rfl _)
    refine hanswer.rejected.mpr fun fields source target hfields hasks => ?_
    obtain rfl := Json.obj.inj (hfields.unique hloose)
    cases hasks.target
  · have hanswer := (creations_classified (serviceUpTo 100) tiedRequest).2 (route_serviceUpTo _ rfl _)
    have htime : ReadsTime (serviceUpTo 100).ids := by
      unfold ReadsTime
      decide +kernel
    obtain ⟨id, hid⟩ := (exists_edgeId_iff (serviceUpTo 100).ids (Json.str "a".toList).display
      (Json.int 1).display).mpr htime
    have hasks : AsksForEdge (.obj tiedFields) (.str "a".toList) (.int 1) := ⟨rfl, rfl⟩
    have hlabel : ((Json.obj tiedFields).fieldOrNull "label".toList).Everywhere Json.IsFinite :=
      Json.everywhere_null.mpr trivial
    have htarget : (Json.int 1).display = "1".toList := by decide +kernel
    exact ⟨_, hanswer.created _ (.record htied hasks hlabel hid),
      congrArg (fun t => some (Json.str t)) htarget⟩

/-- The request for a node at a coordinate of so many digits. -/
def farRequest (digits : Nat) : Request :=
  .post .nodes (Utf8.encode ("\x7b\"position\": \x7b\"x\": ".toList ++
    List.replicate digits '1' ++ "\x7d\x7d".toList))

/-- The request for an edge with a label that is no number. -/
def oddRequest : Request :=
  .post .edges (Utf8.encode "\x7b\"source\": 1, \"target\": 2, \"label\": [NaN]\x7d".toList)

/-- A coordinate of 310 digits, an infinite one and a label with a not-a-number in it are not
rejected, although the clock reads a finite time: the service fails on all three. -/
theorem creations_fail :
    (∀ i, ((serviceUpTo 100).ids.readings i).isFinite = true) ∧
      ((serviceUpTo 100).respondAll [farRequest 310, nowhereRequest, oddRequest]).map
        Response.status = [500, 500, 500] := by
  have hfinite : Binary64.zero.isFinite = true := by decide +kernel
  exact ⟨fun _ => hfinite, by decide +kernel⟩

end Flowchart.Service
