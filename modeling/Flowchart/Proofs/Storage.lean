import Flowchart.Proofs.FileTree
import Flowchart.Proofs.Json.LineEnd
import Flowchart.Proofs.Json.RoundTrip
import Flowchart.Proofs.Storable
import Flowchart.Proofs.Utf8
import Flowchart.Storage

/-!
# Saving and loading

A storable graph is read back from its record as it is, but for the coordinates that do not count as
given, which all become zero (`Graph.ofRecord_toRecord`). For the graph of a diagram and for a graph
that was read from a record nothing changes at all. On the way through a file the bytes, the line
ends and the text of the record are read as they were written, so loading what was saved gives a
graph with alike nodes and edges in the same order (`Graph.load_save`).
-/

set_option autoImplicit false

namespace Flowchart

/-! ## Records -/

/-- The position that is read from the record of a position. -/
def Position.restored (p : Position) : Position where
  x := p.x.ifTruthy.getD (.int 0)
  y := p.y.ifTruthy.getD (.int 0)

/-- The node that is read from the record of a node. -/
def Node.restored (n : Node) : Node := { n with position := n.position.restored }

/-- The graph that is read from the record of a graph. -/
def Graph.restored (g : Graph) : Graph :=
  { g with nodes := Keyed.empty.putAll (g.nodes.values.map fun n => (n.id, n.restored)) }

theorem Json.ifTruthy_str {t : Text} (h : t ≠ []) : (Json.str t).ifTruthy = some (.str t) := by
  simp [Json.ifTruthy, Json.isTruthy, h]

theorem Json.isSome_ifTruthy_bool (b : Bool) : (Json.bool b).ifTruthy.isSome = b := by
  cases b <;> rfl

theorem Node.ofRecord_toRecord {n : Node} (hid : n.id ≠ [])
    (hshape : ∃ shape : Shape, n.shape = .known shape) :
    Node.ofRecord n.toRecord = .ok n.restored := by
  obtain ⟨shape, hshape⟩ := hshape
  have hname : Vocabulary.ofName? shape.name = some shape := Vocabulary.ofName?_name shape
  have hid : n.toRecord.given? "id".toList = some (.str n.id) := Json.ifTruthy_str hid
  have hword : Named.known (shapeOfRecord (n.toRecord.fieldOrNull "shape".toList)) = n.shape := by
    calc Named.known (shapeOfRecord (n.toRecord.fieldOrNull "shape".toList))
        = .known (shapeOfRecord (.str n.shape.name)) := rfl
      _ = .known ((Vocabulary.ofName? shape.name).getD .rectangle) := by
        rw [hshape]
        rfl
      _ = n.shape := by rw [hname, hshape, Option.getD_some]
  unfold Node.ofRecord
  rw [hid]
  dsimp only
  rw [hword]
  rfl

theorem Edge.ofRecord_toRecord {e : Edge} (hends : e.id ≠ [] ∧ e.source ≠ [] ∧ e.target ≠ [])
    (hlabel : ∀ label ∈ e.label, label.isTruthy = true) (index : Int) :
    Edge.ofRecord index e.toRecord = .ok e := by
  have hid : e.toRecord.given? "id".toList = some (.str e.id) := Json.ifTruthy_str hends.1
  have hsource : e.toRecord.given? "source".toList = some (.str e.source) :=
    Json.ifTruthy_str hends.2.1
  have htarget : e.toRecord.given? "target".toList = some (.str e.target) :=
    Json.ifTruthy_str hends.2.2
  have hlabel : e.toRecord.given? "label".toList = e.label := by
    calc e.toRecord.given? "label".toList = (e.label.getD .null).ifTruthy := rfl
      _ = e.label := by
        cases hvalue : e.label with
        | none => rfl
        | some label => exact if_pos (hlabel label hvalue)
  have hanimated : (e.toRecord.given? "animated".toList).isSome = e.animated :=
    Json.isSome_ifTruthy_bool e.animated
  have hemphasized : (e.toRecord.given? "emphasized".toList).isSome = e.emphasized :=
    Json.isSome_ifTruthy_bool e.emphasized
  unfold Edge.ofRecord
  rw [hsource, htarget]
  dsimp only
  rw [hid, hlabel, hanimated, hemphasized]
  rfl

/-! ### Lists of records -/

/-- The records of nodes are read as nodes, written one after the other. -/
theorem nodesOfRecords_map {nodes : List Node}
    (h : ∀ n ∈ nodes, Node.ofRecord n.toRecord = .ok n.restored) :
    nodesOfRecords (nodes.map Node.toRecord) =
      .ok (Keyed.empty.putAll (nodes.map fun n => (n.id, n.restored))) := by
  unfold nodesOfRecords
  generalize (Keyed.empty : Keyed Text Node) = start
  induction nodes generalizing start with
  | nil => rfl
  | cons n nodes ih =>
      have hmore := ih (fun m hm => h m (List.mem_cons_of_mem n hm)) (start.put n.id n.restored)
      rw [List.map_cons, List.foldlM_cons, h n (by simp)]
      exact hmore

theorem edgesOfRecords_map {edges : List Edge}
    (h : ∀ e ∈ edges, ∀ index, Edge.ofRecord index e.toRecord = .ok e) (index : Nat) :
    edgesOfRecords index (edges.map Edge.toRecord) = .ok edges := by
  induction edges generalizing index with
  | nil => rfl
  | cons e edges ih =>
      have hmore := ih (fun d hd => h d (List.mem_cons_of_mem e hd)) (index + 1)
      rw [List.map_cons, edgesOfRecords, h e (by simp), hmore]
      rfl

/-! ### Graphs -/

namespace Graph

variable {g : Graph}

theorem directionOfRecord_toRecord {d : Direction} (h : g.direction = .known d) :
    directionOfRecord g.toRecord = d := by
  obtain ⟨nodes, edges, direction⟩ := g
  obtain rfl := h
  cases d <;> rfl

/-- A storable graph is read from its record. -/
theorem ofRecord_toRecord (h : g.Storable) : ofRecord g.toRecord = .ok g.restored := by
  obtain ⟨direction, hdirection⟩ := h.direction
  have hnodes := nodesOfRecords_map fun n hn => Node.ofRecord_toRecord (h.ids n hn) (h.shapes n hn)
  have hedges := edgesOfRecords_map (fun e he => Edge.ofRecord_toRecord (h.edges e he)
    fun label hlabel => (h.labels e he label hlabel).1) 0
  have hname := directionOfRecord_toRecord hdirection
  calc ofRecord g.toRecord
      = (do
          let nodes ← nodesOfRecords (g.nodes.values.map Node.toRecord)
          let edges ← edgesOfRecords 0 (g.edges.map Edge.toRecord)
          return { nodes, edges, direction := .known (directionOfRecord g.toRecord) }) := rfl
    _ = .ok g.restored := by
      rw [hnodes, hedges, hname, ← hdirection]
      rfl

/-! ## What is read back -/

/-- The entries stand where they stood. -/
theorem entries_restored (hkeys : ∀ key n, g.nodes.get? key = some n → n.id = key) :
    g.restored.nodes.entries = g.nodes.entries.map fun entry => (entry.1, entry.2.restored) := by
  have hpairs : (g.nodes.values.map fun n => (n.id, n.restored)) =
      g.nodes.entries.map fun entry => (entry.1, entry.2.restored) := by
    rw [Keyed.values, List.map_map]
    refine List.map_congr_left fun entry hmem => ?_
    have hid := hkeys entry.1 entry.2 ((Keyed.get?_eq_some_iff g.nodes _ _).mpr hmem)
    rw [Function.comp_apply, hid]
  have hdistinct := g.nodes.distinct
  rw [restored, hpairs]
  refine Keyed.entries_putAll ?_
  rw [List.map_map]
  exact hdistinct

theorem keys_restored (hkeys : ∀ key n, g.nodes.get? key = some n → n.id = key) :
    g.restored.nodes.keys = g.nodes.keys := by
  rw [Keyed.keys, entries_restored hkeys, List.map_map]
  rfl

/-- A graph of which every position is read back as it is, is read back as it is. -/
theorem restored_eq_self (hkeys : ∀ key n, g.nodes.get? key = some n → n.id = key)
    (hpositions : ∀ n ∈ g.nodes.values, n.position.restored = n.position) : g.restored = g := by
  have hentries : g.restored.nodes.entries = g.nodes.entries := by
    rw [entries_restored hkeys]
    conv => rhs; rw [← List.map_id g.nodes.entries]
    refine List.map_congr_left fun entry hmem => ?_
    have hmem' : entry.2 ∈ g.nodes.values := List.mem_map_of_mem hmem
    rw [Node.restored, hpositions _ hmem']
    rfl
  have hnodes : g.restored.nodes = g.nodes := Keyed.eq_of_entries hentries
  calc g.restored = { g with nodes := g.restored.nodes } := rfl
    _ = g := by rw [hnodes]

end Graph

/-! ### Settled positions -/

/-- A coordinate that counts as given, or is the integer zero, is read back as it is. -/
theorem Json.getD_ifTruthy {v : Json} (h : v.isTruthy = true ∨ v = .int 0) :
    v.ifTruthy.getD (.int 0) = v := by
  rcases h with h | rfl
  · rw [ifTruthy, if_pos h, Option.getD_some]
  · rfl

theorem Position.restored_gridPosition (i : Nat) :
    (gridPosition i).restored = gridPosition i := by
  have hx : (Json.int (50 + 200 * (i % 3 : Nat))).isTruthy = true := by
    simp [Json.isTruthy]
    omega
  have hy : (Json.int (50 + 150 * (i / 3 : Nat))).isTruthy = true := by
    simp [Json.isTruthy]
    omega
  rw [gridPosition_natCast, restored, Json.getD_ifTruthy (Or.inl hx), Json.getD_ifTruthy (Or.inl hy)]

theorem Position.restored_ofRecord (v : Json) : (ofRecord v).restored = ofRecord v := by
  have hcoordinate (key : Text) : ((v.given? key).getD (.int 0)).ifTruthy.getD (.int 0) =
      (v.given? key).getD (.int 0) := by
    refine Json.getD_ifTruthy ?_
    cases hkey : v.given? key with
    | none => exact Or.inr rfl
    | some w => exact Or.inl (Json.of_given? hkey).2
  rw [restored, ofRecord, hcoordinate, hcoordinate]

theorem Node.restored_ofRecord {v : Json} {n : Node} (h : Node.ofRecord v = .ok n) :
    n.position.restored = n.position := by
  rw [(Node.isOf_of_ofRecord h).position, ← position_ofRecord, Position.restored_ofRecord]

namespace Graph

variable {g : Graph}

/-- The graph of a diagram is read back as it is. -/
theorem ofRecord_toRecord_ofDiagram (t : Text) :
    ofRecord (ofDiagram t).toRecord = .ok (ofDiagram t) := by
  have hsame : (ofDiagram t).restored = ofDiagram t := by
    refine restored_eq_self (fun _ _ h => id_of_get?_ofDiagram h) fun n hn => ?_
    obtain ⟨i, hi⟩ := List.getElem?_of_mem hn
    rw [position_of_getElem? hi, Position.restored_gridPosition]
  rw [ofRecord_toRecord (storable_ofDiagram t), hsame]

/-- A graph that was read from a record is read back as it is. -/
theorem ofRecord_toRecord_ofRecord {v : Json} (hv : v.Sound) (h : ofRecord v = .ok g) :
    ofRecord g.toRecord = .ok g := by
  have hstorable := storable_of_ofRecord h hv
  have hsame : g.restored = g := by
    refine restored_eq_self hstorable.keys fun n hn => ?_
    obtain ⟨r, -, hread⟩ := exists_record_of_mem_nodes h hn
    exact Node.restored_ofRecord hread
  rw [ofRecord_toRecord hstorable, hsame]

end Graph

/-! ## Likeness -/

theorem Json.IsCoordinate.alike_restored {v : Json} (h : v.IsCoordinate) :
    v.alike (v.ifTruthy.getD (.int 0)) = true := by
  obtain ⟨hv, hsound⟩ := h
  cases htruthy : v.isTruthy with
  | true =>
      rw [Json.getD_ifTruthy (Or.inl htruthy)]
      exact Json.alike_self hsound.distinctKeys
  | false =>
      have hnumber : v.isNumber = true := by simpa [htruthy] using hv
      rw [Json.ifTruthy, htruthy, if_neg (by decide), Option.getD_none]
      exact Json.alike_zero hnumber htruthy

theorem Node.alike_restored {n : Node}
    (h : n.position.x.IsCoordinate ∧ n.position.y.IsCoordinate) : n.alike n.restored = true := by
  have hdeclaration : n.toDeclaration = n.restored.toDeclaration := rfl
  rw [Node.alike, decide_eq_true hdeclaration]
  simp only [restored, Position.restored, h.1.alike_restored, h.2.alike_restored, Bool.and_self]

theorem Edge.alike_self {e : Edge} (h : ∀ label ∈ e.label, label.isTruthy = true ∧ label.Sound) :
    e.alike e = true := by
  have hlabel : (e.label.getD .null).alike (e.label.getD .null) = true := by
    cases hlabel : e.label with
    | none => rfl
    | some label => exact Json.alike_self (h label hlabel).2.distinctKeys
  simp [Edge.alike, hlabel]

theorem alikeLists_self {α : Type} {like : α → α → Bool} {items : List α}
    (h : ∀ a ∈ items, like a a = true) : alikeLists like items items = true := by
  induction items with
  | nil => rfl
  | cons a items ih =>
      rw [alikeLists, h a (by simp), ih fun b hb => h b (List.mem_cons_of_mem a hb)]
      rfl

namespace Graph

variable {g : Graph}

/-- A storable graph is like the graph that is read back. -/
theorem alike_restored (h : g.Storable) : g.alike g.restored = true := by
  have hdirection : g.direction = g.restored.direction := rfl
  have hedges : alikeLists Edge.alike g.edges g.restored.edges = true :=
    alikeLists_self fun e he => Edge.alike_self (h.labels e he)
  have hsize : g.nodes.size = g.restored.nodes.size := by
    rw [Keyed.size, Keyed.size, entries_restored h.keys, List.length_map]
  have hnodes : ∀ entry ∈ g.nodes.entries,
      g.restored.nodes.get? entry.1 = some entry.2.restored ∧
        entry.2.alike entry.2.restored = true := by
    intro entry hmem
    constructor
    · rw [Keyed.get?_eq_some_iff, entries_restored h.keys]
      exact List.mem_map_of_mem hmem
    · exact Node.alike_restored (h.coordinates entry.2 (List.mem_map_of_mem hmem))
  simp only [alike, hdirection, hedges, hsize, decide_true, Bool.and_eq_true, beq_self_eq_true,
    List.all_eq_true, and_true, true_and]
  intro entry hmem
  obtain ⟨hget, halike⟩ := hnodes entry hmem
  rw [hget]
  exact halike

end Graph

/-! ## Files -/

theorem Node.distinctKeys_toRecord {n : Node}
    (h : n.position.x.IsCoordinate ∧ n.position.y.IsCoordinate) : n.toRecord.DistinctKeys := by
  have hx : n.position.x.Everywhere Json.HasDistinctKeys := h.1.2.distinctKeys
  have hy : n.position.y.Everywhere Json.HasDistinctKeys := h.2.2.distinctKeys
  simp [toRecord, Position.toRecord, Json.DistinctKeys, Json.HasDistinctKeys, hx, hy]

theorem Edge.distinctKeys_toRecord {e : Edge}
    (h : ∀ label ∈ e.label, label.isTruthy = true ∧ label.Sound) : e.toRecord.DistinctKeys := by
  have hlabel : (e.label.getD .null).Everywhere Json.HasDistinctKeys := by
    cases hlabel : e.label with
    | none => exact Json.sound_null.distinctKeys
    | some label => exact (h label hlabel).2.distinctKeys
  simp [toRecord, Json.DistinctKeys, Json.HasDistinctKeys, hlabel]

namespace Graph

variable {g : Graph}

theorem distinctKeys_toRecord (h : g.Storable) : g.toRecord.DistinctKeys := by
  have hnodes (n : Node) (hn : n ∈ g.nodes.values) : n.toRecord.Everywhere Json.HasDistinctKeys :=
    Node.distinctKeys_toRecord (h.coordinates n hn)
  have hedges (e : Edge) (he : e ∈ g.edges) : e.toRecord.Everywhere Json.HasDistinctKeys :=
    Edge.distinctKeys_toRecord (h.labels e he)
  simp [toRecord, Json.DistinctKeys, Json.HasDistinctKeys]
  exact ⟨hnodes, hedges⟩

/-- The text of a record is read as the record, unless an integer in it is too long. -/
theorem read_fileText (h : g.Storable) (hintegers : g.toRecord.ReadableIntegers) :
    Json.read g.fileText = .ok g.toRecord :=
  Json.read_write Json.readable_indented (distinctKeys_toRecord h) hintegers

/-- The coordinates of a place on the grid are too long to be read only if there are too many
nodes. -/
theorem readableIntegers_ofDiagram {t : Text}
    (h : (ofDiagram t).nodes.size ≤ 10 ^ (Json.maxIntegerDigits - 3)) :
    (ofDiagram t).toRecord.ReadableIntegers := by
  obtain ⟨m, hm⟩ : ∃ m, Json.maxIntegerDigits = 3 + m := ⟨4297, rfl⟩
  rw [hm, Nat.add_sub_cancel_left] at h
  have hdigits {k : Nat} (hk : k ≤ 50 + 50 * 10 ^ m ∨ k ≤ 450) :
      (Json.int k).HasReadableDigits := by
    have hpos : 0 < 10 ^ m := Nat.pow_pos (by decide)
    refine Numeral.length_ofNat_le (by decide) ?_
    calc k < 10 ^ 3 * 10 ^ m := by omega
      _ = (8 + 2) ^ Json.maxIntegerDigits := by rw [hm, Nat.pow_add]
  have hnodes : ∀ n ∈ (ofDiagram t).nodes.values, n.toRecord.Everywhere Json.HasReadableDigits := by
    intro n hn
    obtain ⟨i, hi⟩ := List.getElem?_of_mem hn
    obtain ⟨hlt, -⟩ := List.getElem?_eq_some_iff.mp hi
    rw [Keyed.values, List.length_map, ← Keyed.size] at hlt
    have hx := hdigits (k := 50 + 200 * (i % 3)) (.inr (by omega))
    have hy := hdigits (k := 50 + 150 * (i / 3)) (.inl (by omega))
    have hposition := (position_of_getElem? hi).trans (gridPosition_natCast i)
    simpa [Node.toRecord, Position.toRecord, hposition, Json.HasReadableDigits] using
      And.intro hx hy
  have hedges : ∀ e ∈ (ofDiagram t).edges, e.toRecord.Everywhere Json.HasReadableDigits := by
    intro e he
    have hlabel : (e.label.getD .null).Everywhere Json.HasReadableDigits := by
      cases hvalue : e.label with
      | none => simp [Json.HasReadableDigits]
      | some label =>
          obtain ⟨x, rfl, -⟩ := legibleLabel_of_mem_edges he hvalue
          simp [Json.HasReadableDigits]
    simp [Edge.toRecord, Json.HasReadableDigits, hlabel]
  simp [toRecord, Json.ReadableIntegers, Json.HasReadableDigits]
  exact ⟨hnodes, hedges⟩

/-- The text that is loaded is the text that was saved. -/
theorem load_of_save {tree : FileTree} {p : FilePath} (hsave : (g.save tree p).1 = .ok ()) :
    load (g.save tree p).2 p = (Graph.ofText g.fileText).mapError .noGraph := by
  have hwrite : tree.write p (Utf8.encode g.fileText) = (.ok (), (g.save tree p).2) :=
    Prod.ext hsave rfl
  have hlines : Text.unifyLineEnds g.fileText = g.fileText :=
    Text.unifyLineEnds_eq_self (Json.return_not_mem_write g.toRecord)
  rw [load, FileTree.read_write hwrite]
  calc _ = (do
          let text ← (Utf8.decode (Utf8.encode g.fileText)).mapError
            fun e => LoadError.noText (.undecodable e)
          (Graph.ofText (Text.unifyLineEnds text)).mapError .noGraph) := rfl
    _ = (Graph.ofText (Text.unifyLineEnds g.fileText)).mapError .noGraph := by
      rw [Utf8.decode_encode]
      rfl
    _ = (Graph.ofText g.fileText).mapError .noGraph := by rw [hlines]

/-- **Saving and loading lose nothing.** A storable graph whose text is read as its record is loaded
from the file that was saved, with the same nodes and edges in the same order; and the text is read
so unless an integer in it is too long. The graph of a diagram, and every graph that is read from a
record, is storable and is read back from its record as it is. -/
theorem load_save :
    (∀ g : Graph, g.Storable → Json.read g.fileText = .ok g.toRecord →
        ∀ (tree : FileTree) (p : FilePath), (g.save tree p).1 = .ok () →
          ∃ h, load (g.save tree p).2 p = .ok h ∧ h.nodes.keys = g.nodes.keys ∧
            g.alike h = true) ∧
      (∀ g : Graph, g.Storable → g.toRecord.ReadableIntegers →
        Json.read g.fileText = .ok g.toRecord) ∧
      (∀ t : Text, (ofDiagram t).Storable ∧ ofRecord (ofDiagram t).toRecord = .ok (ofDiagram t)) ∧
      ∀ (v : Json) (g : Graph), v.Sound → ofRecord v = .ok g →
        g.Storable ∧ ofRecord g.toRecord = .ok g := by
  refine ⟨?_, fun g h hintegers => read_fileText h hintegers,
    fun t => ⟨storable_ofDiagram t, ofRecord_toRecord_ofDiagram t⟩,
    fun v g hv h => ⟨storable_of_ofRecord h hv, ofRecord_toRecord_ofRecord hv h⟩⟩
  intro g hg hread tree p hsave
  refine ⟨g.restored, ?_, keys_restored hg.keys, alike_restored hg⟩
  rw [load_of_save hsave, ofText, hread]
  dsimp only
  rw [ofRecord_toRecord hg]
  rfl

/-! ### A graph with values of every kind -/

/-- A node with a zero, a list for a coordinate, an empty label, and an identifier that is escaped. -/
def oddNode : Node where
  id := ['"', '\\', '\n', '\x00', '\u2028', '😀']
  label := []
  shape := .known .circle
  position := ⟨.float (.finite true ⟨0, by decide⟩), .arr [.null, .bool false]⟩

/-- An edge with an object for a label, and ends that are no nodes. -/
def oddEdge : Edge where
  id := ['e']
  source := ['a']
  target := ['b']
  label := some (.obj [("k".toList, .float (.infinite true)), ([], .int (-7))])
  animated := true

/-- A graph of one such node and one such edge. -/
def oddGraph : Graph where
  nodes := Keyed.empty.put oddNode.id oddNode
  edges := [oddEdge]
  direction := .known .bt

theorem storable_oddGraph : oddGraph.Storable where
  keys key n h := by
    have hmem : (key, n) ∈ [(oddNode.id, oddNode)] := (Keyed.get?_eq_some_iff _ _ _).mp h
    obtain ⟨rfl, rfl⟩ := Prod.mk.inj (List.mem_singleton.mp hmem)
    rfl
  ids n h := by
    obtain rfl := List.mem_singleton.mp h
    decide
  shapes n h := by
    obtain rfl := List.mem_singleton.mp h
    exact ⟨.circle, rfl⟩
  coordinates n h := by
    obtain rfl := List.mem_singleton.mp h
    refine ⟨⟨Or.inl rfl, ?_, ?_⟩, ⟨Or.inr rfl, ?_, ?_⟩⟩
    all_goals simp [oddNode, Json.DistinctKeys, Json.NoNaN, Json.HasDistinctKeys]
  edges e h := by
    obtain rfl := List.mem_singleton.mp h
    decide
  labels e h label hlabel := by
    obtain rfl := List.mem_singleton.mp h
    cases hlabel
    refine ⟨rfl, ?_, ?_⟩
    all_goals simp [Json.DistinctKeys, Json.NoNaN, Json.HasDistinctKeys]
  direction := ⟨.bt, rfl⟩

theorem readableIntegers_oddGraph : oddGraph.toRecord.ReadableIntegers := by
  have hdigit : (Numeral.decimal (Int.natAbs (-7))).length ≤ Json.maxIntegerDigits := by
    rw [Numeral.decimal, Numeral.ofNat_of_lt (by decide)]
    decide
  have hnodes : oddGraph.nodes.values = [oddNode] := rfl
  simp only [Json.ReadableIntegers, toRecord, hnodes]
  simpa [Json.HasReadableDigits, oddGraph, oddNode, oddEdge, Node.toRecord, Edge.toRecord,
    Position.toRecord] using hdigit

/-- A record with identifiers, ends and a label of other kinds. -/
def oddRecord : Json := .obj [
  ("nodes".toList, .arr [.obj [("id".toList, .int 7)]]),
  ("edges".toList, .arr [.obj [
    ("source".toList, .bool true),
    ("target".toList, .arr [.null]),
    ("label".toList, .float (.infinite false))]])]

theorem sound_oddRecord : oddRecord.Sound := by
  constructor
  · simp [oddRecord, Json.DistinctKeys, Json.HasDistinctKeys]
  · simp [oddRecord, Json.NoNaN]

/-- The graph and the record are kept. -/
theorem load_save_odd :
    (∃ h, load (oddGraph.save {} (.ofText "kept/odd.json".toList)).2
        (.ofText "kept/odd.json".toList) = .ok h ∧
      h.nodes.keys = oddGraph.nodes.keys ∧ oddGraph.alike h = true) ∧
    ∃ g, ofRecord oddRecord = .ok g ∧ ofRecord g.toRecord = .ok g := by
  have hread := load_save.2.1 oddGraph storable_oddGraph readableIntegers_oddGraph
  refine ⟨load_save.1 oddGraph storable_oddGraph hread {} _ rfl, _, rfl, ?_⟩
  exact (load_save.2.2.2 oddRecord _ sound_oddRecord rfl).2

end Graph

end Flowchart
