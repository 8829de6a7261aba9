import Flowchart.Proofs.WellFormed

/-!
# Diagrams one after the other

The graph of two texts with a line feed between them is determined by the graphs of the two, and by
whether the first text says anything at all (`Graph.ofDiagram_append`). Its nodes are those of the
first, each with what the second declares about it, and then the nodes that are new in the second;
its edges are those of the first and then those of the second, numbered on.

All declarations of the second text count as one, the declaration that they settle
(`Declaration.settled?_append`). Positions follow from the order of the nodes, because the nodes of
every graph that is read stand on the grid (`Graph.values_ofDiagram`).
-/

set_option autoImplicit false

namespace Flowchart

/-- The edge with the identifier of another place in the order. -/
def Edge.numbered (e : Edge) (index : Nat) : Edge :=
  { e with id := defaultId e.source e.target index }

namespace Graph

/-- A node after what another graph says about it. -/
def redeclared (h : Graph) (n : Node) : Node :=
  (h.nodes.get? n.id).elim n fun m => n.declaredAs m.toDeclaration

/-- The nodes of two graphs: those of the first, each after what the second says about it, and those
that only the second has. -/
def joinedNodes (g h : Graph) : List Node :=
  g.nodes.values.map h.redeclared ++ h.nodes.values.filter fun m => !g.nodes.contains m.id

@[simp] theorem id_redeclared (h : Graph) (n : Node) : (h.redeclared n).id = n.id := by
  unfold redeclared
  cases h.nodes.get? n.id with
  | none => rfl
  | some m => exact Node.declaredAs_id n _

/-- A node that is not bare is left as it is. -/
theorem redeclared_of_label_ne (h : Graph) {n : Node} (hn : n.label ≠ n.id) :
    h.redeclared n = n := by
  have hbare : n.isBare = false := by simpa [Declaration.isBare] using hn
  unfold redeclared
  cases h.nodes.get? n.id with
  | none => rfl
  | some m =>
      rw [Option.elim_some, Node.declaredAs, hbare, Bool.false_and]
      rfl

/-! ## Nodes in order -/

/-- The nodes of a graph that was read are what is declared under its keys, on the grid. -/
theorem values_ofDiagram (t : Text) :
    (ofDiagram t).nodes.values =
      ((ofDiagram t).nodes.keys.filterMap (ofDiagram t).declared?).mapIdx
        fun i d => ⟨d, gridPosition i⟩ := by
  have hkeys : ∀ key n, (ofDiagram t).nodes.get? key = some n → n.id = key :=
    fun _ _ hn => id_of_get?_ofDiagram hn
  rw [← map_id_values hkeys, ← map_toDeclaration_eq hkeys fun _ hn => hn, eq_comm,
    List.mapIdx_eq_iff]
  intro i
  rw [List.getElem?_map, Option.map_map]
  cases hn : (ofDiagram t).nodes.values[i]? with
  | none => rfl
  | some n =>
      have hposition := position_of_getElem? hn
      rw [Option.map_some, Function.comp_apply, ← hposition]

/-- The entries of a graph that was read are its nodes under their identifiers. -/
theorem entries_ofDiagram (t : Text) :
    (ofDiagram t).nodes.entries = (ofDiagram t).nodes.values.map fun n => (n.id, n) := by
  rw [Keyed.values, List.map_map]
  symm
  apply (List.map_congr_left ?_).trans (List.map_id _)
  rintro ⟨key, n⟩ hmem
  have hid : n.id = key := id_of_get?_ofDiagram ((Keyed.get?_eq_some_iff _ key n).mpr hmem)
  simp [hid]

/-- Dropping repetitions and choosing items can be done in either order. -/
theorem eraseDups_filter (p : Text → Bool) (ids : List Text) :
    (ids.filter p).eraseDups = ids.eraseDups.filter p := by
  induction ids using List.reverseRecOn with
  | nil => rfl
  | append_singleton ids id ih =>
      have hsingle : [id].eraseDups = [id] := rfl
      rw [List.filter_append, List.eraseDups_append, List.eraseDups_append, List.filter_append, ih]
      -- the last item is new or not, and chosen or not
      by_cases hp : p id = true <;> by_cases hmem : id ∈ ids <;>
        simp [hp, hmem, List.removeAll, hsingle]

section Append

variable (t u : Text)

/-- The nodes of the first text come first, and then those that are new in the second. -/
theorem keys_append :
    (ofDiagram (t ++ '\n' :: u)).nodes.keys =
      (ofDiagram t).nodes.keys ++
        (ofDiagram u).nodes.keys.filter fun id => !(ofDiagram t).nodes.contains id := by
  rw [keys_ofDiagram, statements_append, List.flatMap_append, List.map_append,
    List.eraseDups_append, List.removeAll, eraseDups_filter, ← keys_ofDiagram, ← keys_ofDiagram]
  congr 1
  refine List.filter_congr fun id _ => ?_
  congr 1
  rw [Bool.eq_iff_iff, List.contains_iff_mem, Keyed.contains_eq_true_iff, keys_ofDiagram,
    List.mem_eraseDups]

/-- What both texts settle about an identifier. -/
theorem declared?_append (id : Text) :
    (ofDiagram (t ++ '\n' :: u)).declared? id =
      Declaration.jointly ((ofDiagram t).declared? id) ((ofDiagram u).declared? id) := by
  rw [declared?_ofDiagram, declared?_ofDiagram, declared?_ofDiagram, statements_append,
    List.flatMap_append, Declaration.settled?_append]

/-- A node of the first text is declared again by the second. -/
theorem declared?_append_of_get? {key : Text} {n : Node}
    (hn : (ofDiagram t).nodes.get? key = some n) :
    (ofDiagram (t ++ '\n' :: u)).declared? key =
      some ((ofDiagram u).redeclared n).toDeclaration := by
  obtain rfl : n.id = key := id_of_get?_ofDiagram hn
  rw [declared?_append, declared?, hn, Option.map_some, redeclared, declared?]
  cases hm : (ofDiagram u).nodes.get? n.id with
  | none => rfl
  | some m =>
      have hid : m.id = n.id := id_of_get?_ofDiagram hm
      rw [Option.map_some, Option.elim_some, Node.toDeclaration_declaredAs hid,
        Declaration.jointly]

/-- A node that is new in the second text is what the second text says. -/
theorem declared?_append_of_not_contains {key : Text}
    (h : (ofDiagram t).nodes.contains key = false) :
    (ofDiagram (t ++ '\n' :: u)).declared? key = (ofDiagram u).declared? key := by
  have hnone : (ofDiagram t).nodes.get? key = none := by
    rwa [Keyed.contains, Option.isSome_eq_false_iff, Option.isNone_iff_eq_none] at h
  rw [declared?_append, declared?, hnone, Option.map_none, Declaration.jointly]

/-- The nodes of both texts are declared as the joined nodes are. -/
theorem filterMap_declared?_append :
    (ofDiagram (t ++ '\n' :: u)).nodes.keys.filterMap (ofDiagram (t ++ '\n' :: u)).declared? =
      ((ofDiagram t).joinedNodes (ofDiagram u)).map Node.toDeclaration := by
  have hkeys : ∀ v : Text, ∀ key n, (ofDiagram v).nodes.get? key = some n → n.id = key :=
    fun _ _ _ hn => id_of_get?_ofDiagram hn
  rw [keys_append, List.filterMap_append, joinedNodes, List.map_append]
  congr 1
  · -- the nodes of the first text
    rw [← map_id_values (hkeys t), List.filterMap_map, List.map_map, ← List.filterMap_eq_map]
    refine List.filterMap_congr fun n hn => ?_
    obtain ⟨key, hkey⟩ := (Keyed.mem_values_iff _ n).mp hn
    obtain rfl : n.id = key := hkeys t key n hkey
    exact declared?_append_of_get? t u hkey
  · -- the nodes that are new in the second
    rw [map_toDeclaration_eq (hkeys u) fun _ hn => (List.mem_filter.mp hn).1,
      ← map_id_values (hkeys u), List.filter_map]
    refine List.filterMap_congr fun id hid => ?_
    obtain ⟨m, hm, rfl⟩ := List.mem_map.mp hid
    have hnew := (List.mem_filter.mp hm).2
    rw [Function.comp_apply, Bool.not_eq_true'] at hnew
    exact declared?_append_of_not_contains t u hnew

/-- The nodes of both texts are the joined nodes, on the grid. -/
theorem values_append :
    (ofDiagram (t ++ '\n' :: u)).nodes.values =
      ((ofDiagram t).joinedNodes (ofDiagram u)).mapIdx
        fun i n => { n with position := gridPosition i } := by
  rw [values_ofDiagram, filterMap_declared?_append, List.mapIdx_eq_iff]
  intro i
  rw [List.getElem?_mapIdx, List.getElem?_map, Option.map_map]
  rfl

theorem entries_append :
    (ofDiagram (t ++ '\n' :: u)).nodes.entries =
      ((ofDiagram t).joinedNodes (ofDiagram u)).mapIdx
        fun i n => (n.id, { n with position := gridPosition i }) := by
  rw [entries_ofDiagram, values_append, eq_comm, List.mapIdx_eq_iff]
  intro i
  rw [List.getElem?_map, List.getElem?_mapIdx, Option.map_map]
  rfl

/-! ## Edges and direction -/

/-- The edges of a text are numbered from the first. -/
theorem mapIdx_numbered_edges :
    ((ofDiagram t).edges.mapIdx fun i e => e.numbered i) = (ofDiagram t).edges := by
  rw [edges_eq_mapIdx, List.mapIdx_mapIdx]
  rfl

/-- The edges of the second text are numbered on after those of the first. -/
theorem edges_append :
    (ofDiagram (t ++ '\n' :: u)).edges =
      (ofDiagram t).edges ++
        (ofDiagram u).edges.mapIdx fun i e => e.numbered ((ofDiagram t).edges.length + i) := by
  have hlength : (ofDiagram t).edges.length = (connections t).length := by
    rw [edges_eq_mapIdx, List.length_mapIdx]
  rw [edges_eq_mapIdx, connections_append, List.mapIdx_append, edges_eq_mapIdx u,
    List.mapIdx_mapIdx, hlength, ← edges_eq_mapIdx]
  congr 1
  rw [List.mapIdx_eq_mapIdx_iff]
  intro i _
  rw [Nat.add_comm i]
  rfl

theorem direction_append :
    (ofDiagram (t ++ '\n' :: u)).direction =
      if keptLines t = [] then (ofDiagram u).direction else (ofDiagram t).direction := by
  rw [direction_ofDiagram, direction_ofDiagram, direction_ofDiagram, directionOf, keptLines_append,
    directionOf, directionOf]
  cases keptLines t with
  | nil => rfl
  | cons line rest => rfl

/-- A node of the first text keeps its place in the order, and all that it says unless it is bare. -/
theorem getElem?_values_append {i : Nat} {n : Node}
    (hn : (ofDiagram t).nodes.values[i]? = some n) :
    ∃ n', (ofDiagram (t ++ '\n' :: u)).nodes.values[i]? = some n' ∧ n'.id = n.id ∧
      n'.position = n.position ∧ (n.label ≠ n.id → n' = n) := by
  have hposition := position_of_getElem? hn
  obtain ⟨hi, -⟩ := List.getElem?_eq_some_iff.mp hn
  have hjoined : ((ofDiagram t).joinedNodes (ofDiagram u))[i]? =
      some ((ofDiagram u).redeclared n) := by
    rw [joinedNodes, List.getElem?_append_left (by rwa [List.length_map]), List.getElem?_map, hn,
      Option.map_some]
  refine ⟨{ (ofDiagram u).redeclared n with position := gridPosition i }, ?_, ?_, ?_, ?_⟩
  · rw [values_append, List.getElem?_mapIdx, hjoined, Option.map_some]
  · exact id_redeclared (ofDiagram u) n
  · exact hposition.symm
  · intro hlabel
    rw [redeclared_of_label_ne (ofDiagram u) hlabel, ← hposition]

end Append

/-- **The graph of two texts is put together from their graphs.** The direction is that of the first
text, unless it says nothing; the nodes are the joined nodes, on the grid; the edges of the second
text are numbered on. So a text that is added to a diagram moves and changes no edge and no node that
is there, but for the label and the shape of a bare node. -/
theorem ofDiagram_append (t u : Text) :
    let g := ofDiagram t
    let h := ofDiagram u
    let whole := ofDiagram (t ++ '\n' :: u)
    whole.direction = (if keptLines t = [] then h.direction else g.direction) ∧
      (whole.nodes.entries = (g.joinedNodes h).mapIdx
        fun i n => (n.id, { n with position := gridPosition i })) ∧
      (h.edges.mapIdx fun i e => e.numbered i) = h.edges ∧
      (whole.edges = g.edges ++ h.edges.mapIdx fun i e => e.numbered (g.edges.length + i)) ∧
      ∀ (i : Nat) (n : Node), g.nodes.values[i]? = some n →
        ∃ n', whole.nodes.values[i]? = some n' ∧ n'.id = n.id ∧ n'.position = n.position ∧
          (n.label ≠ n.id → n' = n) := by
  intro g h whole
  exact ⟨direction_append t u, entries_append t u, mapIdx_numbered_edges u, edges_append t u,
    fun i n hn => getElem?_values_append t u hn⟩

end Graph

end Flowchart
