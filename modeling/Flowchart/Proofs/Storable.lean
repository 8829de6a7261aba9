import Flowchart.Proofs.Binary64.NumberText
import Flowchart.Proofs.Json.Part
import Flowchart.Proofs.Record
import Flowchart.Proofs.WellFormed

/-!
# Graphs that records keep

Reading a record gives defaults to what does not count as given, so not every graph can be told from
its record: an edge may have an empty identifier, a shape may be none of the four. `Graph.Storable`
says which graphs can. The graph of any diagram is one (`Graph.storable_ofDiagram`), and so is every
graph that is read from a record (`Graph.storable_of_ofRecord`).
-/

set_option autoImplicit false

namespace Flowchart

/-! ## Values -/

namespace Json

/-- A value that is equal to itself: no object has a key twice, and no number is not-a-number. -/
structure Sound (v : Json) : Prop where
  distinctKeys : v.DistinctKeys
  noNaN : v.NoNaN

theorem Sound.of_part {v w : Json} (h : w.Sound) (hv : Part v w) : v.Sound :=
  ⟨h.distinctKeys.of_part hv, h.noNaN.of_part hv⟩

theorem sound_null : null.Sound where
  distinctKeys := (everywhere_null).mpr trivial
  noNaN := (everywhere_null).mpr (by simp)

theorem sound_int (n : Int) : (int n).Sound where
  distinctKeys := (everywhere_int n).mpr trivial
  noNaN := (everywhere_int n).mpr (by simp)

theorem sound_str (t : Text) : (str t).Sound where
  distinctKeys := (everywhere_str t).mpr trivial
  noNaN := (everywhere_str t).mpr (by simp)

theorem part_of_field? {key : Text} {v w : Json} (h : v.field? key = some w) : Part w v := by
  cases v with
  | obj fields =>
      obtain ⟨before, after, rfl, -⟩ := List.lookup_eq_some_iff.mp h
      exact .field (List.mem_append_right before List.mem_cons_self) (.self w)
  | _ => cases h

/-- What a field gives is a part of the value, and counts as given. -/
theorem of_given? {key : Text} {v w : Json} (h : v.given? key = some w) :
    Part w v ∧ w.isTruthy = true := by
  obtain ⟨hfield, htruthy⟩ := (given?_eq_some_iff key v w).mp h
  exact ⟨part_of_field? hfield, htruthy⟩

/-! ### Values as texts -/

theorem text_ne_nil (x : Binary64) : x.text displayWords ≠ [] := by
  cases x with
  | finite negative rank =>
      obtain ⟨n, hproper, htext, -⟩ := Binary64.exists_numberText displayWords negative rank
      rw [htext, NumberText.text]
      simp [hproper.whole_ne_nil]
  | infinite negative => cases negative <;> decide
  | nan => decide

theorem spelled_ne_nil (v : Json) : v.spelled ≠ [] := by
  cases v with
  | null => decide
  | bool b => cases b <;> decide
  | int n =>
      cases n with
      | ofNat n => exact Numeral.ofNat_ne_nil 8 n
      | negSucc n => simp [spelled, Numeral.signedDecimal]
  | float x => exact text_ne_nil x
  | str t => simp [spelled, quoted]
  | arr items => cases items <;> simp [spelled]
  | obj fields => cases fields <;> simp [spelled]

/-- A value that counts as given has a text. -/
theorem display_ne_nil {v : Json} (h : v.isTruthy = true) : v.display ≠ [] := by
  cases v with
  | str t => simpa [isTruthy, display] using h
  | _ => exact spelled_ne_nil _

end Json

/-! ## Storable graphs -/

/-- A coordinate that a record keeps: a number, or any value that counts as given. -/
def Json.IsCoordinate (v : Json) : Prop :=
  (v.isNumber = true ∨ v.isTruthy = true) ∧ v.Sound

/-- A graph that can be told from its record. -/
structure Graph.Storable (g : Graph) : Prop where
  keys : ∀ key n, g.nodes.get? key = some n → n.id = key
  ids : ∀ n ∈ g.nodes.values, n.id ≠ []
  shapes : ∀ n ∈ g.nodes.values, ∃ shape : Shape, n.shape = .known shape
  coordinates : ∀ n ∈ g.nodes.values, n.position.x.IsCoordinate ∧ n.position.y.IsCoordinate
  edges : ∀ e ∈ g.edges, e.id ≠ [] ∧ e.source ≠ [] ∧ e.target ≠ []
  labels : ∀ e ∈ g.edges, ∀ label ∈ e.label, label.isTruthy = true ∧ label.Sound
  direction : ∃ direction : Direction, g.direction = .known direction

namespace Graph

theorem ne_nil_of_mem_keys_ofDiagram {t key : Text} (h : key ∈ (ofDiagram t).nodes.keys) :
    key ≠ [] := by
  obtain ⟨n, hn⟩ := Option.isSome_iff_exists.mp ((Keyed.mem_keys_iff _ _).mp h)
  rw [← id_of_get?_ofDiagram hn]
  exact (isPart_id_of_mem_values (Keyed.mem_values hn)).ne_nil

/-- The graph of a diagram is storable. -/
theorem storable_ofDiagram (t : Text) : (ofDiagram t).Storable where
  keys _ _ h := id_of_get?_ofDiagram h
  ids _ h := (isPart_id_of_mem_values h).ne_nil
  shapes n h := by
    rcases regular_or_raw_of_mem_values h with ⟨-, hshape, -⟩ | ⟨-, -, hshape⟩
    · exact hshape
    · exact ⟨.rectangle, hshape⟩
  coordinates n h := by
    obtain ⟨i, hi⟩ := List.getElem?_of_mem h
    rw [position_of_getElem? hi]
    exact ⟨⟨Or.inl rfl, Json.sound_int _⟩, ⟨Or.inl rfl, Json.sound_int _⟩⟩
  edges e h := by
    obtain ⟨hsource, htarget⟩ := mem_keys_of_mem_edges h
    obtain ⟨k, -, i, rfl⟩ := exists_connection_of_mem_edges h
    exact ⟨List.cons_ne_nil _ _, ne_nil_of_mem_keys_ofDiagram hsource,
      ne_nil_of_mem_keys_ofDiagram htarget⟩
  labels e h label hlabel := by
    obtain ⟨x, rfl, hx⟩ := legibleLabel_of_mem_edges h hlabel
    exact ⟨by simpa [Json.isTruthy] using hx.ne_nil, Json.sound_str x⟩
  direction := ⟨directionOf t, direction_ofDiagram t⟩

end Graph

/-! ## Graphs of records -/

theorem Position.isCoordinate_ofRecord {v : Json} (h : v.Sound) :
    (Position.ofRecord v).x.IsCoordinate ∧ (Position.ofRecord v).y.IsCoordinate := by
  have hgiven (key : Text) : ((v.given? key).getD (.int 0)).IsCoordinate := by
    cases hkey : v.given? key with
    | none => exact ⟨Or.inl rfl, Json.sound_int 0⟩
    | some w =>
        obtain ⟨hpart, htruthy⟩ := Json.of_given? hkey
        exact ⟨Or.inr htruthy, h.of_part hpart⟩
  exact ⟨hgiven _, hgiven _⟩

theorem Json.Sound.fieldOrNull {v : Json} (h : v.Sound) (key : Text) :
    (v.fieldOrNull key).Sound := by
  rw [Json.fieldOrNull]
  cases hkey : v.field? key with
  | none => exact Json.sound_null
  | some w => exact h.of_part (Json.part_of_field? hkey)

/-- The node of a record is one that a record keeps. -/
theorem Node.storable_of_ofRecord {v : Json} {n : Node} (h : Node.ofRecord v = .ok n)
    (hv : v.Sound) :
    n.id ≠ [] ∧ (∃ shape : Shape, n.shape = .known shape) ∧
      n.position.x.IsCoordinate ∧ n.position.y.IsCoordinate := by
  unfold Node.ofRecord at h
  split at h
  · cases h
  · next id hid =>
      obtain rfl := Except.ok.inj h
      exact ⟨Json.display_ne_nil (Json.of_given? hid).2, ⟨_, rfl⟩,
        Position.isCoordinate_ofRecord (hv.fieldOrNull _)⟩

/-- The edge of a record is one that a record keeps. -/
theorem Edge.storable_of_ofRecord {index : Int} {v : Json} {e : Edge}
    (h : Edge.ofRecord index v = .ok e) (hv : v.Sound) :
    (e.id ≠ [] ∧ e.source ≠ [] ∧ e.target ≠ []) ∧
      ∀ label ∈ e.label, label.isTruthy = true ∧ label.Sound := by
  unfold Edge.ofRecord at h
  split at h
  · next source target hsource htarget =>
      obtain rfl := Except.ok.inj h
      refine ⟨⟨?_, Json.display_ne_nil (Json.of_given? hsource).2,
        Json.display_ne_nil (Json.of_given? htarget).2⟩, ?_⟩
      · dsimp only
        split
        · next id hid => exact Json.display_ne_nil (Json.of_given? hid).2
        · exact List.cons_ne_nil _ _
      · intro label hlabel
        obtain ⟨hpart, htruthy⟩ := Json.of_given? hlabel
        exact ⟨htruthy, hv.of_part hpart⟩
  · cases h

theorem RecordList.part_of_mem_records {list : RecordList} {v r : Json}
    (h : r ∈ list.records v) : Json.Part r v := by
  rw [records, Json.fieldOrNull] at h
  cases hfield : v.field? list.key with
  | none =>
      rw [hfield] at h
      cases h
  | some w =>
      rw [hfield, Option.getD_some] at h
      split at h
      · next items => exact (Json.Part.item h (.self r)).trans (Json.part_of_field? hfield)
      · cases h

namespace Graph

section

variable {v : Json} {g : Graph} (h : ofRecord v = .ok g)

include h

theorem exists_record_of_mem_nodes {n : Node} (hn : n ∈ g.nodes.values) :
    ∃ r ∈ RecordList.nodes.records v, Node.ofRecord r = .ok n := by
  obtain ⟨pairs, hfst, hpairs, hnodes⟩ :=
    exists_nodes_of_nodesOfRecords (parts_of_ofRecord h).1
  obtain ⟨key, hkey⟩ := (Keyed.mem_values_iff _ n).mp hn
  rw [hnodes] at hkey
  obtain ⟨before, later, heq, -⟩ := Keyed.exists_last_of_get?_putAll hkey
  have hmem : (key, n) ∈ pairs.map fun pair => (pair.2.id, pair.2) := by
    rw [heq]
    simp
  obtain ⟨pair, hpair, hcons⟩ := List.mem_map.mp hmem
  obtain ⟨-, rfl⟩ := Prod.mk.inj hcons
  refine ⟨pair.1, ?_, hpairs pair hpair⟩
  rw [← hfst]
  exact List.mem_map_of_mem hpair

theorem exists_record_of_mem_edges {e : Edge} (he : e ∈ g.edges) :
    ∃ r ∈ RecordList.edges.records v, ∃ index, Edge.ofRecord index r = .ok e := by
  obtain ⟨hlength, hedges⟩ := edges_of_edgesOfRecords (parts_of_ofRecord h).2.1
  obtain ⟨i, hi⟩ := List.getElem?_of_mem he
  obtain ⟨hlt, -⟩ := List.getElem?_eq_some_iff.mp hi
  have hr := List.getElem?_eq_getElem (hlength ▸ hlt)
  exact ⟨_, List.mem_of_getElem? hr, _, hedges i _ e hr hi⟩

/-- A graph that is read from a record is storable. -/
theorem storable_of_ofRecord (hv : v.Sound) : g.Storable := by
  have hnode {n : Node} (hn : n ∈ g.nodes.values) : n.id ≠ [] ∧
      (∃ shape : Shape, n.shape = .known shape) ∧ n.position.x.IsCoordinate ∧
        n.position.y.IsCoordinate := by
    obtain ⟨r, hr, hread⟩ := exists_record_of_mem_nodes h hn
    exact Node.storable_of_ofRecord hread (hv.of_part (RecordList.part_of_mem_records hr))
  have hedge {e : Edge} (he : e ∈ g.edges) : (e.id ≠ [] ∧ e.source ≠ [] ∧ e.target ≠ []) ∧
      ∀ label ∈ e.label, label.isTruthy = true ∧ label.Sound := by
    obtain ⟨r, hr, index, hread⟩ := exists_record_of_mem_edges h he
    exact Edge.storable_of_ofRecord hread (hv.of_part (RecordList.part_of_mem_records hr))
  have hof := isOf_of_ofRecord h
  exact {
    keys := fun key n hn => (hof.nodes key n hn).1
    ids := fun n hn => (hnode hn).1
    shapes := fun n hn => (hnode hn).2.1
    coordinates := fun n hn => (hnode hn).2.2
    edges := fun e he => (hedge he).1
    labels := fun e he => (hedge he).2
    direction := ⟨_, (parts_of_ofRecord h).2.2⟩ }

end

end Graph

end Flowchart
