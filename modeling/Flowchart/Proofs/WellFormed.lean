import Flowchart.Proofs.Align
import Flowchart.Proofs.Numeral
import Flowchart.Proofs.Origin

/-!
# What every graph that was read satisfies

Whatever the text, the graph that is read from it is well formed (`Graph.ofDiagram_wellFormed`). Its
labels and identifiers are those of parts of lines. Its nodes stand on the grid in the order in which
they came: a declaration of a new node takes the next place, and nothing that is read later moves a
node (`Graph.get?_foldl_apply`). Its edges are numbered, and the number can be read off the identifier
(`Edge.defaultId_inj`), so no two edges share one.
-/

set_option autoImplicit false

namespace Flowchart

/-! ## Well-formed graphs -/

/-- A graph as reading makes it. -/
structure Graph.WellFormed (g : Graph) : Prop where
  direction : ∃ d : Direction, g.direction = .known d
  keys : ∀ key n, g.nodes.get? key = some n → n.id = key
  /-- An identifier is a trimmed text within one line. -/
  ids : ∀ n ∈ g.nodes.values, n.id ≠ [] ∧ n.id.trim = n.id ∧ '\n' ∉ n.id
  /-- A node has an identifier and says something of some shape, or it is raw text. -/
  nodes : ∀ n ∈ g.nodes.values,
    (Text.isIdentifier n.id = true ∧ (∃ shape, n.shape = .known shape) ∧ n.label ≠ []) ∨
      (Text.isIdentifier n.id = false ∧ n.label = n.id ∧ n.shape = .known .rectangle)
  /-- Three nodes stand in a row, and the rows follow one another. -/
  positions : ∀ (i : Nat) (n : Node), g.nodes.values[i]? = some n →
    n.position = ⟨.int (50 + 200 * (i % 3 : Nat)), .int (50 + 150 * (i / 3 : Nat))⟩
  ends : ∀ e ∈ g.edges, e.source ∈ g.nodes.keys ∧ e.target ∈ g.nodes.keys
  edgeIds : ∀ (i : Nat) (e : Edge), g.edges[i]? = some e →
    e.id = 'e' :: e.source ++ '-' :: e.target ++ '-' :: Numeral.decimal i
  styles : ∀ e ∈ g.edges, ¬ (e.animated = true ∧ e.emphasized = true)
  /-- A label is a trimmed text within one line and without bars. -/
  labels : ∀ e ∈ g.edges, ∀ label ∈ e.label,
    ∃ x : Text, label = .str x ∧ x ≠ [] ∧ x.trim = x ∧ '|' ∉ x ∧ '\n' ∉ x

/-! ## Positions -/

theorem gridPosition_natCast (i : Nat) :
    gridPosition i = ⟨.int (50 + 200 * (i % 3 : Nat)), .int (50 + 150 * (i / 3 : Nat))⟩ := by
  rw [gridPosition, gridColumns, Int.fmod_eq_emod_of_nonneg _ (by decide),
    Int.fdiv_eq_ediv_of_nonneg _ (by decide), Int.natCast_emod, Int.natCast_ediv, Int.mul_comm 200,
    Int.mul_comm 150]
  rfl

namespace Graph

/-- The nodes stand on the grid in the order in which they came. -/
def Gridded (g : Graph) : Prop :=
  g.nodes.values.map Node.position = (List.range g.nodes.size).map fun i : Nat => gridPosition i

/-- A declaration puts a new node on the next place of the grid, and moves no other. -/
theorem Gridded.declare {g : Graph} (h : g.Gridded) (d : Declaration) : (g.declare d).Gridded := by
  cases hn : g.nodes.get? d.id with
  | none =>
      have hkey : d.id ∉ g.nodes.keys := (Keyed.get?_eq_none_iff _ _).mp hn
      have hnodes : (g.declare d).nodes = g.nodes.put d.id ⟨d, gridPosition g.nodes.size⟩ := by
        rw [Graph.declare, hn]
      have hvalues : (g.declare d).nodes.values =
          g.nodes.values ++ [⟨d, gridPosition g.nodes.size⟩] := by
        rw [hnodes, Keyed.values_put_of_not_mem hkey]
      have hsize : (g.declare d).nodes.size = g.nodes.size + 1 := by
        rw [← Keyed.length_values, hvalues, List.length_append, Keyed.length_values,
          List.length_singleton]
      rw [Gridded] at h
      rw [Gridded, hvalues, hsize, List.range_succ, List.map_append, List.map_append, h]
      rfl
  | some n =>
      have hkey : d.id ∈ g.nodes.keys := (Keyed.mem_keys_iff _ _).mpr (by rw [hn]; rfl)
      have hnodes : (g.declare d).nodes = g.nodes.put d.id (n.declaredAs d) := by
        rw [Graph.declare, hn]
      have hsize : (g.declare d).nodes.size = g.nodes.size := by
        rw [← Keyed.length_keys, keys_declare_of_mem g d hkey, Keyed.length_keys]
      rw [Gridded] at h
      rw [Gridded, hsize, ← h, hnodes]
      exact Keyed.map_values_put hn (Node.declaredAs_position n d)

theorem Gridded.apply {g : Graph} (h : g.Gridded) (s : Statement) : (g.apply s).Gridded := by
  cases s with
  | declare node => exact h.declare node
  | connect source target label animated emphasized => exact (h.declare source).declare target

theorem Gridded.foldl_apply {g : Graph} (h : g.Gridded) (ss : List Statement) :
    (ss.foldl Graph.apply g).Gridded := by
  induction ss generalizing g with
  | nil => exact h
  | cons s rest ih => exact ih (h.apply s)

theorem gridded_ofDiagram (t : Text) : (ofDiagram t).Gridded := by
  refine Gridded.foldl_apply ?_ _
  unfold Gridded
  rfl

theorem position_of_getElem? {t : Text} {i : Nat} {n : Node}
    (h : (ofDiagram t).nodes.values[i]? = some n) : n.position = gridPosition i := by
  have hget := congrArg (·[i]?) (gridded_ofDiagram t)
  obtain ⟨hi, -⟩ := List.getElem?_eq_some_iff.mp h
  rw [Keyed.length_values] at hi
  simpa [h, List.getElem?_range hi] using hget

/-- No two nodes share a position. -/
theorem nodup_positions (t : Text) : ((ofDiagram t).nodes.values.map Node.position).Nodup := by
  rw [gridded_ofDiagram t, List.Nodup, List.pairwise_map]
  refine List.nodup_range.imp fun hij heq => hij ?_
  exact Int.ofNat.inj (gridPosition_injective heq)

/-- A declaration leaves every node that is there where it is. -/
theorem get?_declare {g : Graph} {key : Text} {n : Node} (h : g.nodes.get? key = some n)
    (d : Declaration) : ∃ n', (g.declare d).nodes.get? key = some n' ∧ n'.position = n.position := by
  unfold declare
  cases hd : g.nodes.get? d.id with
  | none =>
      refine ⟨n, ?_, rfl⟩
      rw [Keyed.get?_put, if_neg, h]
      rintro rfl
      rw [hd] at h
      cases h
  | some m =>
      by_cases hkey : key = d.id
      · subst hkey
        rw [hd, Option.some.injEq] at h
        subst h
        exact ⟨m.declaredAs d, by simp [Keyed.get?_put], Node.declaredAs_position m d⟩
      · exact ⟨n, by simp [Keyed.get?_put, hkey, h], rfl⟩

/-- Whatever is read later, a node stays where it is. -/
theorem get?_foldl_apply (ss : List Statement) {g : Graph} {key : Text} {n : Node}
    (h : g.nodes.get? key = some n) :
    ∃ n', (ss.foldl apply g).nodes.get? key = some n' ∧ n'.position = n.position := by
  induction ss generalizing g n with
  | nil => exact ⟨n, h, rfl⟩
  | cons s rest ih =>
      have hstep : ∃ n', (g.apply s).nodes.get? key = some n' ∧ n'.position = n.position := by
        cases s with
        | declare node => exact get?_declare h node
        | connect source target label animated emphasized =>
            obtain ⟨n', hn', hpos'⟩ := get?_declare h source
            obtain ⟨n'', hn'', hpos''⟩ := get?_declare hn' target
            exact ⟨n'', hn'', hpos''.trans hpos'⟩
      obtain ⟨n', hn', hpos'⟩ := hstep
      obtain ⟨n'', hn'', hpos''⟩ := ih hn'
      exact ⟨n'', hn'', hpos''.trans hpos'⟩

end Graph

/-! ## Edges -/

/-- The place of an edge can be read off its identifier, whatever its ends hold. -/
theorem Edge.defaultId_inj {source source' target target' : Text} {i j : Nat}
    (h : defaultId source target i = defaultId source' target' j) : i = j := by
  refine Numeral.ofNat_injective (b := 8) (by decide) ?_
  exact (cut_last (Numeral.dash_not_mem_ofNat (by decide) i)
    (Numeral.dash_not_mem_ofNat (by decide) j) h).2

namespace Graph

variable {t : Text}

theorem getElem?_edges {i : Nat} {e : Edge} (h : (ofDiagram t).edges[i]? = some e) :
    ∃ k ∈ connections t, e = Edge.ofConnection i k := by
  rw [edges_eq_mapIdx, List.getElem?_mapIdx] at h
  obtain ⟨k, hk, rfl⟩ := Option.map_eq_some_iff.mp h
  exact ⟨k, List.mem_of_getElem? hk, rfl⟩

/-- No two edges share an identifier. -/
theorem nodup_edgeIds (t : Text) : ((ofDiagram t).edges.map Edge.id).Nodup := by
  rw [List.Nodup, List.pairwise_map, List.pairwise_iff_getElem]
  intro i j hi hj hij heq
  obtain ⟨k, -, hk⟩ := getElem?_edges (List.getElem?_eq_getElem hi)
  obtain ⟨k', -, hk'⟩ := getElem?_edges (List.getElem?_eq_getElem hj)
  rw [hk, hk'] at heq
  exact hij.ne (Edge.defaultId_inj heq)

theorem mem_keys_of_mem_edges {e : Edge} (h : e ∈ (ofDiagram t).edges) :
    e.source ∈ (ofDiagram t).nodes.keys ∧ e.target ∈ (ofDiagram t).nodes.keys := by
  have hemits := emits_of_mem_edges h
  obtain ⟨⟨source, target⟩, hends⟩ := Option.isSome_iff_exists.mp hemits
  obtain ⟨hs, ht⟩ := (endpoints?_eq_some_iff _ e source target).mp hends
  exact ⟨(Keyed.mem_keys_iff _ _).mpr (by rw [hs]; rfl),
    (Keyed.mem_keys_iff _ _).mpr (by rw [ht]; rfl)⟩

/-- An edge comes from a connection of a kept line. -/
theorem exists_keptLine_of_mem_edges {e : Edge} (h : e ∈ (ofDiagram t).edges) :
    ∃ line k i, KeptLine line ∧ Connection.ofLine? line = some k ∧ e = Edge.ofConnection i k := by
  obtain ⟨k, hk, i, rfl⟩ := exists_connection_of_mem_edges h
  obtain ⟨line, hline, hparts⟩ := exists_line_of_mem_connections hk
  exact ⟨line, k, i, keptLine_of_mem_bearingLines hline, hparts, rfl⟩

theorem styles_of_mem_edges {e : Edge} (h : e ∈ (ofDiagram t).edges) :
    ¬ (e.animated = true ∧ e.emphasized = true) := by
  obtain ⟨line, k, i, hline, hk, rfl⟩ := exists_keptLine_of_mem_edges h
  simpa [Edge.ofConnection] using (afterSource_spec hline hk).1.not_dotted_and_thick

theorem legibleLabel_of_mem_edges {e : Edge} (h : e ∈ (ofDiagram t).edges) {label : Json}
    (hlabel : label ∈ e.label) : ∃ x : Text, label = .str x ∧ LegibleLabel x := by
  obtain ⟨line, k, i, hline, hk, rfl⟩ := exists_keptLine_of_mem_edges h
  rw [Edge.ofConnection] at hlabel
  dsimp only at hlabel
  split at hlabel
  · cases hlabel
  · next hne => exact ⟨_, (Option.mem_some_iff.mp hlabel).symm, legibleLabel_of_trim hline hk hne⟩

/-! ## Nodes -/

/-- The identifier of a node is a part of a line. -/
theorem isPart_id_of_mem_values {n : Node} (h : n ∈ (ofDiagram t).nodes.values) :
    Text.IsPart n.id := by
  obtain ⟨key, hkey⟩ := (Keyed.mem_values_iff _ _).mp h
  cases hid : Text.isIdentifier n.id with
  | true => exact isPart_identifier hid
  | false => exact (raw_of_get? hkey hid).isPart

theorem regular_or_raw_of_mem_values {n : Node} (h : n ∈ (ofDiagram t).nodes.values) :
    (Text.isIdentifier n.id = true ∧ (∃ shape, n.shape = .known shape) ∧ n.label ≠ []) ∨
      (Text.isIdentifier n.id = false ∧ n.label = n.id ∧ n.shape = .known .rectangle) := by
  obtain ⟨key, hkey⟩ := (Keyed.mem_values_iff _ _).mp h
  obtain ⟨u, hu, hd⟩ := exists_text_of_get? hkey
  cases hid : Text.isIdentifier n.id with
  | true =>
      refine Or.inl ⟨rfl, (regular_of_get? hkey hid).shape, ?_⟩
      rcases Declaration.ofText_cases hu.oneLine with ⟨-, hne, -, -⟩ | hraw
      · rwa [hd]
      · rw [hd, hraw]
        exact hu.ne_nil
  | false =>
      have hraw := (raw_of_get? hkey hid).declares
      exact Or.inr ⟨rfl, congrArg Declaration.label hraw, congrArg Declaration.shape hraw⟩

/-- **Every graph that is read is well formed**, its nodes have positions of their own and its edges
identifiers of their own; and reading on from any graph moves none of its nodes. -/
theorem ofDiagram_wellFormed (t : Text) :
    (ofDiagram t).WellFormed ∧ ((ofDiagram t).nodes.values.map Node.position).Nodup ∧
      ((ofDiagram t).edges.map Edge.id).Nodup ∧
      ∀ (g : Graph) (ss : List Statement) (key : Text) (n : Node), g.nodes.get? key = some n →
        ∃ n', (ss.foldl apply g).nodes.get? key = some n' ∧ n'.position = n.position := by
  refine ⟨?_, nodup_positions t, nodup_edgeIds t, fun g ss key n h => get?_foldl_apply ss h⟩
  exact {
    direction := ⟨directionOf t, direction_ofDiagram t⟩
    keys := fun key n h => id_of_get?_ofDiagram h
    ids := fun n h =>
      have hpart := isPart_id_of_mem_values h
      ⟨hpart.ne_nil, hpart.trimmed.trim_eq, hpart.oneLine⟩
    nodes := fun n h => regular_or_raw_of_mem_values h
    positions := fun i n h => (position_of_getElem? h).trans (gridPosition_natCast i)
    ends := fun e h => mem_keys_of_mem_edges h
    edgeIds := fun i e h => by
      obtain ⟨k, -, rfl⟩ := getElem?_edges h
      rfl
    styles := fun e h => styles_of_mem_edges h
    labels := fun e h label hlabel => by
      obtain ⟨x, hx, hlegible⟩ := legibleLabel_of_mem_edges h hlabel
      exact ⟨x, hx, hlegible.ne_nil, hlegible.trimmed.trim_eq, hlegible.noBar, hlegible.oneLine⟩ }

end Graph

end Flowchart
