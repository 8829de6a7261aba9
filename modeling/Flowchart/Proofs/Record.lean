import Flowchart.Proofs.Keyed
import Flowchart.Record

/-!
# What reading a record reports and keeps

A value that is no graph is refused with its first fault, in a fixed order: the value itself, the two
lists, the nodes, the edges (`RecordError.inValue` lists them). Each reader reports the faults of its
own part (`Reports`), and where one reader comes after another the faults of the first come first
(`Reports.bind`). A graph that is read loses no record: each node is that of the last record with its
identifier (`Node.IsOf`), and the edges are those of the records, one by one (`Edge.IsOf`). Both
halves are `Graph.ofRecord_reports_or_keeps`.
-/

set_option autoImplicit false

namespace Flowchart

/-! ## What an object gives -/

namespace Json

/-- The value is an object with a field that is neither null, false, zero nor empty. -/
def Gives (key : Text) (v : Json) : Prop :=
  ∃ fields w, v = .obj fields ∧ fields.lookup key = some w ∧ w.isTruthy = true

/-- A field gives its value, and only if the value counts as given. -/
theorem given?_eq_some_iff (key : Text) (v w : Json) :
    v.given? key = some w ↔ v.field? key = some w ∧ w.isTruthy = true := by
  rw [given?, Option.bind_eq_some_iff]
  constructor
  · rintro ⟨u, hu, hgiven⟩
    rw [ifTruthy] at hgiven
    split at hgiven
    · next htruthy =>
        cases hgiven
        exact ⟨hu, htruthy⟩
    · cases hgiven
  · rintro ⟨hw, htruthy⟩
    exact ⟨w, hw, if_pos htruthy⟩

theorem gives_iff (key : Text) (v : Json) : v.Gives key ↔ (v.given? key).isSome = true := by
  rw [Option.isSome_iff_exists]
  constructor
  · rintro ⟨fields, w, rfl, hw, htruthy⟩
    exact ⟨w, (given?_eq_some_iff key _ w).mpr ⟨hw, htruthy⟩⟩
  · rintro ⟨w, hw⟩
    obtain ⟨hfield, htruthy⟩ := (given?_eq_some_iff key v w).mp hw
    cases v with
    | obj fields => exact ⟨fields, w, rfl, hfield, htruthy⟩
    | _ => cases hfield

instance (key : Text) (v : Json) : Decidable (v.Gives key) :=
  decidable_of_iff _ (gives_iff key v).symm

theorem given?_eq_none_iff (key : Text) (v : Json) : v.given? key = none ↔ ¬ v.Gives key := by
  rw [gives_iff]
  cases v.given? key <;> simp

end Json

/-! ## Faults -/

/-- The records of a list, if there is one. -/
def RecordList.records (list : RecordList) (v : Json) : List Json :=
  match v.fieldOrNull list.key with
  | .arr records => records
  | _ => []

namespace RecordError

/-- The fault of a list: it is there, and neither null nor a list. -/
def inList (list : RecordList) (v : Json) : List RecordError :=
  match v.fieldOrNull list.key with
  | .null | .arr _ => []
  | w => [notAList list w]

/-- The fault of the record of a node. -/
def inNode (v : Json) : List RecordError :=
  if v.Gives "id".toList then [] else [nodeWithoutId v]

/-- The fault of the record of an edge. -/
def inEdge (v : Json) : List RecordError :=
  if v.Gives "source".toList ∧ v.Gives "target".toList then [] else [edgeWithoutEnds v]

/-- The faults of a value, in the order in which they are reported. -/
def inValue (v : Json) : List RecordError :=
  match v with
  | .obj _ =>
    inList .nodes v ++ (inList .edges v ++ ((RecordList.nodes.records v).flatMap inNode ++
      (RecordList.edges.records v).flatMap inEdge))
  | _ => [notAnObject]

end RecordError

/-! ## Values without faults -/

namespace RecordError

theorem inList_eq_nil_iff (list : RecordList) (v : Json) :
    inList list v = [] ↔
      ∀ w, v.field? list.key = some w → w = .null ∨ ∃ items, w = .arr items := by
  unfold inList Json.fieldOrNull
  cases v.field? list.key with
  | none => simp
  | some w => cases w <;> simp

theorem inNode_eq_nil_iff (v : Json) : inNode v = [] ↔ v.Gives "id".toList := by
  unfold inNode
  split <;> simp_all

theorem inEdge_eq_nil_iff (v : Json) :
    inEdge v = [] ↔ v.Gives "source".toList ∧ v.Gives "target".toList := by
  unfold inEdge
  split <;> simp_all

/-- The value is a graph: an object whose lists are lists, or null, or not there, of nodes with an
identifier and of edges with both ends. -/
theorem inValue_eq_nil_iff (v : Json) :
    inValue v = [] ↔
      (∃ fields, v = .obj fields) ∧
        (∀ (list : RecordList) (w : Json), v.field? list.key = some w →
          w = .null ∨ ∃ items, w = .arr items) ∧
        (∀ r ∈ RecordList.nodes.records v, r.Gives "id".toList) ∧
        ∀ r ∈ RecordList.edges.records v, r.Gives "source".toList ∧ r.Gives "target".toList := by
  cases v with
  | obj fields =>
      rw [inValue, List.append_eq_nil_iff, List.append_eq_nil_iff, List.append_eq_nil_iff,
        List.flatMap_eq_nil_iff, List.flatMap_eq_nil_iff, inList_eq_nil_iff, inList_eq_nil_iff]
      simp only [inNode_eq_nil_iff, inEdge_eq_nil_iff]
      constructor
      · rintro ⟨hnodes, hedges, hrest⟩
        refine ⟨⟨fields, rfl⟩, ?_, hrest⟩
        intro list
        cases list with
        | nodes => exact hnodes
        | edges => exact hedges
      · rintro ⟨-, hlists, hrest⟩
        exact ⟨hlists .nodes, hlists .edges, hrest⟩
  | _ => simp [inValue]

end RecordError

/-! ## Reporting -/

section Reports

variable {ε α β : Type}

/-- A reading fails with the first of some faults, and succeeds if there are none. -/
def Reports (faults : List ε) (reading : Except ε α) : Prop :=
  ∀ e, reading = .error e ↔ faults.head? = some e

theorem reports_ok (a : α) : Reports ([] : List ε) (.ok a) := by
  intro e
  simp

theorem reports_error (e : ε) : Reports [e] (.error e : Except ε α) := by
  intro e'
  simp

theorem Reports.eq_nil {faults : List ε} {a : α} (h : Reports faults (.ok a)) : faults = [] := by
  cases faults with
  | nil => rfl
  | cons e rest => cases (h e).mpr rfl

/-- The faults of what is read later come later. -/
theorem Reports.bind {faults faults' : List ε} {reading : Except ε α} {next : α → Except ε β}
    (h : Reports faults reading) (h' : ∀ a, reading = .ok a → Reports faults' (next a)) :
    Reports (faults ++ faults') (reading >>= next) := by
  cases hr : reading with
  | error e =>
      rw [hr] at h
      have hhead := (h e).mp rfl
      cases faults with
      | nil => cases hhead
      | cons first rest =>
          rw [List.head?_cons, Option.some.injEq] at hhead
          subst hhead
          intro e'
          simp [Bind.bind, Except.bind]
  | ok a =>
      rw [hr] at h
      rw [h.eq_nil]
      exact h' a hr

theorem Reports.map {faults : List ε} {reading : Except ε α} (h : Reports faults reading)
    (f : α → β) : Reports faults (reading.map f) := by
  intro e
  rw [← h e]
  cases reading <;> simp [Except.map]

/-- What a reading of two steps gives, the second step gives after the first. -/
theorem exists_of_bind_eq_ok {reading : Except ε α} {next : α → Except ε β} {b : β}
    (h : (reading >>= next) = .ok b) : ∃ a, reading = .ok a ∧ next a = .ok b := by
  cases hr : reading with
  | error e =>
      rw [hr] at h
      cases h
  | ok a =>
      rw [hr] at h
      exact ⟨a, rfl, h⟩

theorem Reports.ok_iff {faults : List ε} {reading : Except ε α} (h : Reports faults reading) :
    (∃ a, reading = .ok a) ↔ faults = [] := by
  constructor
  · rintro ⟨a, rfl⟩
    exact h.eq_nil
  · rintro rfl
    cases hr : reading with
    | error e => cases (h e).mp hr
    | ok a => exact ⟨a, rfl⟩

end Reports

theorem reports_recordsOf (list : RecordList) (v : Json) :
    Reports (RecordError.inList list v) (recordsOf list v) := by
  unfold RecordError.inList recordsOf
  cases v.fieldOrNull list.key <;> first | exact reports_ok _ | exact reports_error _

theorem eq_records_of_recordsOf {list : RecordList} {v : Json} {records : List Json}
    (h : recordsOf list v = .ok records) : records = list.records v := by
  unfold recordsOf at h
  unfold RecordList.records
  cases hv : v.fieldOrNull list.key <;> rw [hv] at h <;> cases h <;> rfl

theorem Node.reports_ofRecord (v : Json) : Reports (RecordError.inNode v) (Node.ofRecord v) := by
  unfold RecordError.inNode Node.ofRecord
  cases h : v.given? "id".toList with
  | none =>
      rw [if_neg ((Json.given?_eq_none_iff _ v).mp h)]
      exact reports_error _
  | some id =>
      rw [if_pos ((Json.gives_iff _ v).mpr (by rw [h]; rfl))]
      exact reports_ok _

theorem Edge.reports_ofRecord (index : Int) (v : Json) :
    Reports (RecordError.inEdge v) (Edge.ofRecord index v) := by
  unfold RecordError.inEdge Edge.ofRecord
  cases hs : v.given? "source".toList with
  | none =>
      rw [if_neg fun h => (Json.given?_eq_none_iff _ v).mp hs h.1]
      exact reports_error _
  | some source =>
      cases ht : v.given? "target".toList with
      | none =>
          rw [if_neg fun h => (Json.given?_eq_none_iff _ v).mp ht h.2]
          exact reports_error _
      | some target =>
          rw [if_pos ⟨(Json.gives_iff _ v).mpr (by rw [hs]; rfl),
            (Json.gives_iff _ v).mpr (by rw [ht]; rfl)⟩]
          exact reports_ok _

theorem reports_nodesOfRecords (records : List Json) :
    Reports (records.flatMap RecordError.inNode) (nodesOfRecords records) := by
  unfold nodesOfRecords
  generalize (Keyed.empty : Keyed Text Node) = nodes
  induction records generalizing nodes with
  | nil => exact reports_ok nodes
  | cons v rest ih =>
      rw [List.flatMap_cons, List.foldlM_cons]
      exact ((Node.reports_ofRecord v).map _).bind fun nodes _ => ih nodes

theorem reports_edgesOfRecords (index : Nat) (records : List Json) :
    Reports (records.flatMap RecordError.inEdge) (edgesOfRecords index records) := by
  induction records generalizing index with
  | nil => exact reports_ok []
  | cons v rest ih =>
      rw [List.flatMap_cons, edgesOfRecords]
      refine (Edge.reports_ofRecord index v).bind fun e _ => ?_
      exact (ih (index + 1)).map fun es => e :: es

/-- A value is refused with its first fault. -/
theorem Graph.reports_ofRecord (v : Json) : Reports (RecordError.inValue v) (Graph.ofRecord v) := by
  cases v with
  | obj fields =>
      refine (reports_recordsOf .nodes _).bind fun nodeRecords hnodes => ?_
      refine (reports_recordsOf .edges _).bind fun edgeRecords hedges => ?_
      rw [← eq_records_of_recordsOf hnodes, ← eq_records_of_recordsOf hedges]
      refine (reports_nodesOfRecords nodeRecords).bind fun nodes _ => ?_
      exact (reports_edgesOfRecords 0 edgeRecords).map _
  | _ => exact reports_error _

/-! ## What is kept -/

/-- The text that a record has for an identifier. -/
def Json.idText (v : Json) : Text := (v.fieldOrNull "id".toList).display

/-- The coordinate of a record: that of its position, or zero. -/
def Json.coordinate (key : Text) (v : Json) : Json :=
  (((v.field? "position".toList).bind (Json.given? key)).getD (.int 0))

/-- The node that a record describes. -/
structure Node.IsOf (v : Json) (n : Node) : Prop where
  id : n.id = v.idText
  /-- A label that is missing or null is the identifier. -/
  label : (v.fieldOrNull "label".toList = .null → n.label = n.id) ∧
    (v.fieldOrNull "label".toList ≠ .null → n.label = (v.fieldOrNull "label".toList).display)
  /-- A shape is kept by its name; everything else is a rectangle. -/
  shape : (∀ s : Shape, v.field? "shape".toList = some (.str s.name) → n.shape = .known s) ∧
    ((∀ s : Shape, v.field? "shape".toList ≠ some (.str s.name)) → n.shape = .known .rectangle)
  position : n.position = ⟨v.coordinate "x".toList, v.coordinate "y".toList⟩

/-- The edge that the record at a place in the order describes. -/
structure Edge.IsOf (index : Nat) (v : Json) (e : Edge) : Prop where
  source : ∃ w, v.given? "source".toList = some w ∧ e.source = w.display
  target : ∃ w, v.given? "target".toList = some w ∧ e.target = w.display
  /-- An identifier that is not given is made of the ends and the place. -/
  id : (∀ w, v.given? "id".toList = some w → e.id = w.display) ∧
    (v.given? "id".toList = none →
      e.id = 'e' :: e.source ++ '-' :: e.target ++ '-' :: Numeral.decimal index)
  label : e.label = v.given? "label".toList
  animated : e.animated = (v.given? "animated".toList).isSome
  emphasized : e.emphasized = (v.given? "emphasized".toList).isSome

/-- The graph that a value describes. -/
structure Graph.IsOf (v : Json) (g : Graph) : Prop where
  /-- There is one node for each identifier, placed where it first occurs. -/
  keys : g.nodes.keys = ((RecordList.nodes.records v).map Json.idText).eraseDups
  /-- It holds what the last record with its identifier says. -/
  nodes : ∀ key n, g.nodes.get? key = some n → n.id = key ∧
    ∃ before r later, RecordList.nodes.records v = before ++ r :: later ∧ n.IsOf r ∧
      ∀ r' ∈ later, r'.idText ≠ key
  /-- There is one edge for each record, in order. -/
  length_edges : g.edges.length = (RecordList.edges.records v).length
  edges : ∀ (i : Nat) (r : Json) (e : Edge), (RecordList.edges.records v)[i]? = some r →
    g.edges[i]? = some e → e.IsOf i r
  /-- A direction is kept by its name, in letters of either case; everything else is top-down. -/
  direction : (∀ (d : Direction) (w : Json), v.given? "direction".toList = some w →
      w.display.map Char.toUpper = d.name → g.direction = .known d) ∧
    ((∀ (d : Direction) (w : Json), v.given? "direction".toList = some w →
      w.display.map Char.toUpper ≠ d.name) → g.direction = .known .td)

theorem Json.fieldOrNull_of_given? {key : Text} {v w : Json} (h : v.given? key = some w) :
    v.fieldOrNull key = w := by
  rw [fieldOrNull, ((given?_eq_some_iff key v w).mp h).1, Option.getD_some]

theorem Json.isNull_iff (v : Json) : v.isNull = true ↔ v = .null := by
  cases v <;> simp [Json.isNull]

/-- The word of a name that is none is looked for in vain. -/
theorem Vocabulary.ofName?_eq_none {α : Type} [Vocabulary α] {t : Text}
    (h : ∀ a : α, t ≠ Vocabulary.name a) : (Vocabulary.ofName? t : Option α) = none := by
  cases hname : (Vocabulary.ofName? t : Option α) with
  | none => rfl
  | some a => exact absurd (Vocabulary.name_of_ofName? hname).symm (h a)

theorem shapeOfRecord_spec (v : Json) :
    (∀ s : Shape, v.field? "shape".toList = some (.str s.name) →
        shapeOfRecord (v.fieldOrNull "shape".toList) = s) ∧
      ((∀ s : Shape, v.field? "shape".toList ≠ some (.str s.name)) →
        shapeOfRecord (v.fieldOrNull "shape".toList) = .rectangle) := by
  constructor
  · intro s hs
    have hname : Vocabulary.ofName? s.name = some s := Vocabulary.ofName?_name s
    rw [Json.fieldOrNull, hs, Option.getD_some, shapeOfRecord, hname, Option.getD_some]
  · intro hs
    rw [Json.fieldOrNull]
    cases hv : v.field? "shape".toList with
    | none => rfl
    | some w =>
        cases w with
        | str name =>
            have hnone : (Vocabulary.ofName? name : Option Shape) = none :=
              Vocabulary.ofName?_eq_none fun s hname => hs s (by rw [hv, hname]; rfl)
            rw [Option.getD_some, shapeOfRecord, hnone, Option.getD_none]
        | _ => rfl

theorem directionOfRecord_spec (v : Json) :
    (∀ (d : Direction) (w : Json), v.given? "direction".toList = some w →
        w.display.map Char.toUpper = d.name → directionOfRecord v = d) ∧
      ((∀ (d : Direction) (w : Json), v.given? "direction".toList = some w →
        w.display.map Char.toUpper ≠ d.name) → directionOfRecord v = .td) := by
  unfold directionOfRecord
  constructor
  · intro d w hw hname
    have hword : Vocabulary.ofName? d.name = some d := Vocabulary.ofName?_name d
    rw [hw]
    dsimp only
    rw [hname, hword, Option.getD_some]
  · intro h
    cases hw : v.given? "direction".toList with
    | none => rfl
    | some w =>
        have hnone : (Vocabulary.ofName? (w.display.map Char.toUpper) : Option Direction) = none :=
          Vocabulary.ofName?_eq_none fun d hd => h d w hw hd
        dsimp only
        rw [hnone, Option.getD_none]

theorem position_ofRecord (v : Json) : Position.ofRecord (v.fieldOrNull "position".toList) =
    ⟨v.coordinate "x".toList, v.coordinate "y".toList⟩ := by
  unfold Position.ofRecord Json.coordinate Json.fieldOrNull
  cases v.field? "position".toList with
  | none => rfl
  | some p => rfl

theorem Node.isOf_of_ofRecord {v : Json} {n : Node} (h : Node.ofRecord v = .ok n) : n.IsOf v := by
  unfold Node.ofRecord at h
  cases hid : v.given? "id".toList with
  | none =>
      rw [hid] at h
      cases h
  | some id =>
      rw [hid] at h
      obtain rfl := Except.ok.inj h
      have hshape := shapeOfRecord_spec v
      exact {
        id := by rw [Json.idText, Json.fieldOrNull_of_given? hid]
        label := by
          refine ⟨fun hnull => ?_, fun hnull => ?_⟩
          · exact if_pos ((Json.isNull_iff _).mpr hnull)
          · exact if_neg fun hnull' => hnull ((Json.isNull_iff _).mp hnull')
        shape := ⟨fun s hs => congrArg Named.known (hshape.1 s hs),
          fun hs => congrArg Named.known (hshape.2 hs)⟩
        position := position_ofRecord v }

theorem Edge.isOf_of_ofRecord {index : Nat} {v : Json} {e : Edge}
    (h : Edge.ofRecord index v = .ok e) : e.IsOf index v := by
  unfold Edge.ofRecord at h
  cases hs : v.given? "source".toList with
  | none =>
      rw [hs] at h
      cases h
  | some source =>
      cases ht : v.given? "target".toList with
      | none =>
          rw [hs, ht] at h
          cases h
      | some target =>
          rw [hs, ht] at h
          obtain rfl := Except.ok.inj h
          exact {
            source := ⟨source, hs, rfl⟩
            target := ⟨target, ht, rfl⟩
            id := by
              constructor
              · intro w hw
                dsimp only
                rw [hw]
              · intro hnone
                dsimp only
                rw [hnone]
                rfl
            label := rfl
            animated := rfl
            emphasized := rfl }

/-- The nodes that are read are those of the records, written one after the other. -/
theorem exists_nodes_of_nodesOfRecords {records : List Json} {nodes : Keyed Text Node}
    (h : nodesOfRecords records = .ok nodes) :
    ∃ pairs : List (Json × Node), pairs.map Prod.fst = records ∧
      (∀ pair ∈ pairs, Node.ofRecord pair.1 = .ok pair.2) ∧
      nodes = Keyed.empty.putAll (pairs.map fun pair => (pair.2.id, pair.2)) := by
  unfold nodesOfRecords at h
  generalize (Keyed.empty : Keyed Text Node) = start at h ⊢
  induction records generalizing start with
  | nil =>
      cases h
      exact ⟨[], rfl, by simp, rfl⟩
  | cons v rest ih =>
      rw [List.foldlM_cons] at h
      obtain ⟨next, hnext, hrest⟩ := exists_of_bind_eq_ok h
      cases hn : Node.ofRecord v with
      | error e =>
          rw [hn] at hnext
          cases hnext
      | ok n =>
          rw [hn] at hnext
          obtain rfl := Except.ok.inj hnext
          obtain ⟨pairs, hfst, hpairs, rfl⟩ := ih (start.put n.id n) hrest
          refine ⟨(v, n) :: pairs, by rw [List.map_cons, hfst], ?_, rfl⟩
          intro pair hmem
          rcases List.mem_cons.mp hmem with rfl | hmem
          · exact hn
          · exact hpairs pair hmem

theorem edges_of_edgesOfRecords {index : Nat} {records : List Json} {edges : List Edge}
    (h : edgesOfRecords index records = .ok edges) :
    edges.length = records.length ∧ ∀ (i : Nat) (r : Json) (e : Edge), records[i]? = some r →
      edges[i]? = some e → Edge.ofRecord (index + i : Nat) r = .ok e := by
  induction records generalizing index edges with
  | nil =>
      cases h
      exact ⟨rfl, by simp⟩
  | cons v rest ih =>
      rw [edgesOfRecords] at h
      obtain ⟨e, he, hrest⟩ := exists_of_bind_eq_ok h
      obtain ⟨es, hes, hcons⟩ := exists_of_bind_eq_ok hrest
      obtain rfl := Except.ok.inj hcons
      obtain ⟨hlength, hedges⟩ := ih hes
      refine ⟨by rw [List.length_cons, List.length_cons, hlength], ?_⟩
      intro i r e' hr he'
      cases i with
      | zero =>
          cases hr
          cases he'
          exact he
      | succ i =>
          rw [Nat.add_comm i 1, ← Nat.add_assoc]
          exact hedges i r e' hr he'

/-- The nodes under the identifiers of the records, each with the content of the last one. -/
theorem nodes_of_nodesOfRecords {records : List Json} {nodes : Keyed Text Node}
    (h : nodesOfRecords records = .ok nodes) :
    nodes.keys = (records.map Json.idText).eraseDups ∧
      ∀ key n, nodes.get? key = some n → n.id = key ∧
        ∃ before r later, records = before ++ r :: later ∧ n.IsOf r ∧
          ∀ r' ∈ later, r'.idText ≠ key := by
  obtain ⟨pairs, rfl, hpairs, rfl⟩ := exists_nodes_of_nodesOfRecords h
  have hid : ∀ pair ∈ pairs, pair.2.id = pair.1.idText := fun pair hmem =>
    (Node.isOf_of_ofRecord (hpairs pair hmem)).id
  constructor
  · rw [Keyed.keys_putAll, List.map_map, List.map_map]
    exact congrArg List.eraseDups (List.map_congr_left hid)
  · intro key n hn
    obtain ⟨before, later, heq, hlater⟩ := Keyed.exists_last_of_get?_putAll hn
    -- the pairs before and after the last one come from pairs of records and nodes
    obtain ⟨left, right, rfl, -, hright⟩ := List.map_eq_append_iff.mp heq
    obtain ⟨pair, after, rfl, hpair, hafter⟩ := List.map_eq_cons_iff.mp hright
    obtain ⟨hkey, rfl⟩ := Prod.mk.inj hpair
    have hmem : pair ∈ left ++ pair :: after := by simp
    refine ⟨hkey, left.map Prod.fst, pair.1, after.map Prod.fst, by simp,
      Node.isOf_of_ofRecord (hpairs pair hmem), ?_⟩
    intro r' hr'
    obtain ⟨pair', hmem', rfl⟩ := List.mem_map.mp hr'
    rw [← hid pair' (by simp [hmem'])]
    exact hlater (pair'.2.id, pair'.2) (hafter ▸ List.mem_map_of_mem hmem')

/-- The parts of a graph that is read are read one by one. -/
theorem Graph.parts_of_ofRecord {v : Json} {g : Graph} (h : Graph.ofRecord v = .ok g) :
    nodesOfRecords (RecordList.nodes.records v) = .ok g.nodes ∧
      edgesOfRecords 0 (RecordList.edges.records v) = .ok g.edges ∧
        g.direction = .known (directionOfRecord v) := by
  cases v with
  | obj fields =>
      obtain ⟨nodeRecords, hnodeRecords, h⟩ := exists_of_bind_eq_ok h
      obtain ⟨edgeRecords, hedgeRecords, h⟩ := exists_of_bind_eq_ok h
      obtain ⟨nodes, hnodes, h⟩ := exists_of_bind_eq_ok h
      obtain ⟨edges, hedges, h⟩ := exists_of_bind_eq_ok h
      obtain rfl := Except.ok.inj h
      rw [eq_records_of_recordsOf hnodeRecords] at hnodes
      rw [eq_records_of_recordsOf hedgeRecords] at hedges
      exact ⟨hnodes, hedges, rfl⟩
  | _ => cases h

/-- A graph that is read is that of its records. -/
theorem Graph.isOf_of_ofRecord {v : Json} {g : Graph} (h : Graph.ofRecord v = .ok g) :
    g.IsOf v := by
  obtain ⟨hnodes, hedges, hdirection⟩ := Graph.parts_of_ofRecord h
  obtain ⟨hkeys, hnodes⟩ := nodes_of_nodesOfRecords hnodes
  obtain ⟨hlength, hedges⟩ := edges_of_edgesOfRecords hedges
  have hname := directionOfRecord_spec v
  exact {
    keys := hkeys
    nodes := hnodes
    length_edges := hlength
    edges := fun i r e hr he => by
      have hread := hedges i r e hr he
      rw [Nat.zero_add] at hread
      exact Edge.isOf_of_ofRecord hread
    direction := by
      rw [hdirection]
      exact ⟨fun d w hw hd => congrArg Named.known (hname.1 d w hw hd),
        fun hd => congrArg Named.known (hname.2 hd)⟩ }

/-- **What is refused and what is kept.** A value is refused exactly if it is no object, or one of its
lists is there and neither null nor a list, or a record of a node gives no identifier, or a record of
an edge lacks an end; and it is refused with the first of its faults. Otherwise no record is lost. -/
theorem Graph.ofRecord_reports_or_keeps (v : Json) :
    ((∃ e, Graph.ofRecord v = .error e) ↔
      (∀ fields, v ≠ .obj fields) ∨
        (∃ (list : RecordList) (w : Json), v.field? list.key = some w ∧ w ≠ .null ∧
          ∀ items, w ≠ .arr items) ∨
        (∃ r ∈ RecordList.nodes.records v, ¬ r.Gives "id".toList) ∨
        ∃ r ∈ RecordList.edges.records v,
          ¬ r.Gives "source".toList ∨ ¬ r.Gives "target".toList) ∧
      (∀ e, Graph.ofRecord v = .error e ↔ (RecordError.inValue v).head? = some e) ∧
      ∀ g, Graph.ofRecord v = .ok g → g.IsOf v := by
  refine ⟨?_, Graph.reports_ofRecord v, fun g h => Graph.isOf_of_ofRecord h⟩
  have hreports := Graph.reports_ofRecord v
  have hfaults : (∃ e, Graph.ofRecord v = .error e) ↔ ¬ RecordError.inValue v = [] := by
    rw [← hreports.ok_iff]
    cases Graph.ofRecord v <;> simp
  rw [hfaults, RecordError.inValue_eq_nil_iff]
  constructor
  · intro h
    by_contra hnot
    push Not at hnot
    obtain ⟨hobject, hlists, hnodes, hedges⟩ := hnot
    refine h ⟨hobject, fun list w hw => ?_, hnodes, hedges⟩
    by_cases hnull : w = .null
    · exact Or.inl hnull
    · exact Or.inr (hlists list w hw hnull)
  · rintro h ⟨⟨fields, rfl⟩, hlists, hnodes, hedges⟩
    rcases h with hobject | ⟨list, w, hw, hnull, hitems⟩ | ⟨r, hr, hgives⟩ | ⟨r, hr, hgives⟩
    · exact hobject fields rfl
    · rcases hlists list w hw with rfl | ⟨items, rfl⟩
      · exact hnull rfl
      · exact hitems items rfl
    · exact hgives (hnodes r hr)
    · rcases hgives with hgives | hgives
      · exact hgives (hedges r hr).1
      · exact hgives (hedges r hr).2

end Flowchart
