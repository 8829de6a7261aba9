import Flowchart.Diagram.Reading
import Flowchart.Proofs.Keyed
import Flowchart.Proofs.Line

/-!
# What a diagram says

Reading applies the statements of a diagram in turn and keeps one graph. This module gives the
result in closed form, from the list of all declarations in the order in which they stand
(`Graph.ofDiagram_reading`): the keys are the declared identifiers in the order of their first
mention, a node says what its declarations settle (`Declaration.settled?`), and every connection
makes one edge.

The nodes depend on the declarations alone (`Graph.nodes_foldl_apply`) and the edges on the
connections alone (`Graph.edges_foldl_apply`), so each is a fold of its own.
-/

set_option autoImplicit false

namespace Flowchart

/-! ## What declarations settle -/

namespace Declaration

/-- What a list of declarations settles about an identifier: the first declaration of it that says
more than that it exists, or else the first declaration of it. -/
def settled? (ds : List Declaration) (id : Text) : Option Declaration :=
  (ds.find? fun d => decide (d.id = id) && !d.isBare).or (ds.find? fun d => decide (d.id = id))

/-- What two lists of declarations settle together, given what each settles: what the first does,
unless that is bare and the second settles more. -/
def jointly : Option Declaration → Option Declaration → Option Declaration
  | none, e => e
  | some d, none => some d
  | some d, some e => some (if d.isBare && !e.isBare then e else d)

/-- Nothing is settled exactly about an identifier that is not declared. -/
theorem settled?_eq_none_iff (ds : List Declaration) (id : Text) :
    settled? ds id = none ↔ ∀ d ∈ ds, d.id ≠ id := by
  constructor
  · intro h
    have h' := (Option.or_eq_none_iff.mp h).2
    simpa using h'
  · intro h
    refine Option.or_eq_none_iff.mpr ⟨?_, ?_⟩
    · rw [List.find?_eq_none]
      intro d hd
      simp [h d hd]
    · rw [List.find?_eq_none]
      intro d hd
      simp [h d hd]

/-- What is settled about an identifier is one of its declarations. -/
theorem mem_of_settled? {ds : List Declaration} {id : Text} {d : Declaration}
    (h : settled? ds id = some d) : d ∈ ds ∧ d.id = id := by
  rcases Option.or_eq_some_iff.mp h with h | ⟨-, h⟩
  · have hp := List.find?_some h
    simp only [Bool.and_eq_true, decide_eq_true_eq] at hp
    exact ⟨List.mem_of_find?_eq_some h, hp.1⟩
  · exact ⟨List.mem_of_find?_eq_some h, by simpa using List.find?_some h⟩

/-- Some declaration says more than that the node exists, and the first such one is settled; or
all declarations are bare, and the first of them is settled. -/
theorem settled?_cases (ds : List Declaration) (id : Text) :
    (∃ d, (ds.find? fun d => decide (d.id = id) && !d.isBare) = some d ∧
        settled? ds id = some d ∧ d.isBare = false) ∨
      (ds.find? fun d => decide (d.id = id) && !d.isBare) = none ∧
        (settled? ds id = ds.find? fun d => decide (d.id = id)) ∧
          ∀ d ∈ settled? ds id, d.isBare = true := by
  cases hfull : ds.find? fun d => decide (d.id = id) && !d.isBare with
  | some d =>
      have hp := List.find?_some hfull
      simp only [Bool.and_eq_true, Bool.not_eq_true'] at hp
      exact Or.inl ⟨d, rfl, by rw [settled?, hfull, Option.some_or], hp.2⟩
  | none =>
      have hsettled : settled? ds id = ds.find? fun d => decide (d.id = id) := by
        rw [settled?, hfull, Option.none_or]
      refine Or.inr ⟨rfl, hsettled, fun d hd => ?_⟩
      rw [hsettled] at hd
      have hall := List.find?_eq_none.mp hfull d (List.mem_of_find?_eq_some hd)
      have hid : d.id = id := by simpa using List.find?_some hd
      simpa [hid] using hall

/-- What two lists of declarations settle together depends on what each settles. -/
theorem settled?_append (ds es : List Declaration) (id : Text) :
    settled? (ds ++ es) id = jointly (settled? ds id) (settled? es id) := by
  rw [settled?, List.find?_append, List.find?_append]
  rcases settled?_cases ds id with ⟨d, hfull, hsettled, hd⟩ | ⟨hfull, hsettled, hbare⟩
  · -- the first list already says more
    rw [hfull, hsettled]
    cases settled? es id <;> simp [jointly, hd]
  · rw [hfull, Option.none_or, ← hsettled]
    rcases settled?_cases es id with ⟨e, hfull', hsettled', he⟩ | ⟨hfull', hsettled', hbare'⟩
    · -- the second list is the first to say more
      rw [hfull', hsettled', Option.some_or]
      cases hds : settled? ds id with
      | none => rfl
      | some d => simp [jointly, hbare d hds, he]
    · rw [hfull', Option.none_or, ← hsettled']
      cases settled? ds id with
      | none => rfl
      | some d =>
          cases hes : settled? es id with
          | none => rfl
          | some e => simp [jointly, hbare' e hes]

theorem settled?_singleton (d : Declaration) (id : Text) :
    settled? [d] id = if d.id = id then some d else none := by
  by_cases hid : d.id = id
  · cases hb : d.isBare <;> simp [settled?, hid, hb]
  · simp [settled?, hid]

/-- A declaration settles nothing about other identifiers. -/
theorem settled?_concat_of_ne (ds : List Declaration) {d : Declaration} {id : Text}
    (h : d.id ≠ id) : settled? (ds ++ [d]) id = settled? ds id := by
  rw [settled?_append, settled?_singleton, if_neg h]
  cases settled? ds id <;> rfl

/-- The first declaration of an identifier settles it. -/
theorem settled?_concat_of_none (ds : List Declaration) (d : Declaration)
    (h : settled? ds d.id = none) : settled? (ds ++ [d]) d.id = some d := by
  rw [settled?_append, h, settled?_singleton, if_pos rfl, jointly]

/-- A further declaration counts if nothing has said more than that the node exists, and it does. -/
theorem settled?_concat_of_some (ds : List Declaration) (d : Declaration) {e : Declaration}
    (h : settled? ds d.id = some e) :
    settled? (ds ++ [d]) d.id = some (if e.isBare && !d.isBare then d else e) := by
  rw [settled?_append, h, settled?_singleton, if_pos rfl, jointly]

/-- The first declaration of an identifier settles it, if it says more than that it exists. -/
theorem settled?_of_first {before : List Declaration} {d : Declaration}
    (hbefore : ∀ e ∈ before, e.id ≠ d.id) (hd : d.isBare = false) (after : List Declaration) :
    settled? (before ++ d :: after) d.id = some d := by
  have hnone : (before.find? fun e => decide (e.id = d.id) && !e.isBare) = none := by
    rw [List.find?_eq_none]
    intro e he
    simp [hbefore e he]
  simp [settled?, List.find?_append, hnone, hd]

end Declaration

/-! ## Nodes -/

/-- A further declaration of a node replaces what is declared about it, or nothing. -/
theorem Node.toDeclaration_declaredAs {n : Node} {d : Declaration} (h : d.id = n.id) :
    (n.declaredAs d).toDeclaration = if n.isBare && !d.isBare then d else n.toDeclaration := by
  obtain ⟨id, label, shape⟩ := d
  obtain rfl : id = n.id := h
  unfold declaredAs
  split <;> rfl

namespace Graph

/-- What the graph says about an identifier: the declaration of its node. -/
def declared? (g : Graph) (id : Text) : Option Declaration :=
  (g.nodes.get? id).map Node.toDeclaration

theorem declared?_eq_none_iff (g : Graph) (id : Text) :
    g.declared? id = none ↔ id ∉ g.nodes.keys := by
  rw [declared?, Option.map_eq_none_iff, Keyed.get?_eq_none_iff]

theorem keys_declare_of_mem (g : Graph) (d : Declaration) (h : d.id ∈ g.nodes.keys) :
    (g.declare d).nodes.keys = g.nodes.keys := by
  unfold declare
  split <;> simp [Keyed.keys_put, h]

theorem keys_declare_of_not_mem (g : Graph) (d : Declaration) (h : d.id ∉ g.nodes.keys) :
    (g.declare d).nodes.keys = g.nodes.keys ++ [d.id] := by
  unfold declare
  split <;> simp [Keyed.keys_put, h]

theorem declared?_declare_of_ne (g : Graph) {d : Declaration} {id : Text} (h : d.id ≠ id) :
    (g.declare d).declared? id = g.declared? id := by
  unfold declare declared?
  split <;> simp [Keyed.get?_put, Ne.symm h]

theorem declared?_declare_of_none (g : Graph) (d : Declaration) (h : g.declared? d.id = none) :
    (g.declare d).declared? d.id = some d := by
  have hn : g.nodes.get? d.id = none := Option.map_eq_none_iff.mp h
  simp [declare, hn, declared?, Keyed.get?_put]

theorem declared?_declare_of_some (g : Graph) (d : Declaration) {e : Declaration}
    (h : g.declared? d.id = some e) (hid : e.id = d.id) :
    (g.declare d).declared? d.id = some (if e.isBare && !d.isBare then d else e) := by
  obtain ⟨n, hn, rfl⟩ := Option.map_eq_some_iff.mp h
  have hd : (g.declare d).declared? d.id = some (n.declaredAs d).toDeclaration := by
    simp [declare, hn, declared?, Keyed.get?_put]
  rw [hd, Node.toDeclaration_declaredAs hid.symm]

/-- The nodes after declarations of a graph that says `before`: each identifier has what all
declarations settle, those of `before` included. -/
theorem declared?_foldl_declare (g : Graph) (before ds : List Declaration)
    (hg : ∀ id, g.declared? id = Declaration.settled? before id) (id : Text) :
    (ds.foldl declare g).declared? id = Declaration.settled? (before ++ ds) id := by
  -- `before` keeps the declarations made so far; one more changes what it settles and nothing else
  induction ds generalizing g before with
  | nil => simp [hg]
  | cons d rest ih =>
      rw [List.foldl_cons, ih (g.declare d) (before ++ [d]), List.append_assoc,
        List.singleton_append]
      intro id'
      by_cases hid : d.id = id'
      · subst hid
        cases hs : Declaration.settled? before d.id with
        | none =>
            rw [Declaration.settled?_concat_of_none before d hs]
            exact declared?_declare_of_none g d (by rw [hg, hs])
        | some e =>
            rw [Declaration.settled?_concat_of_some before d hs]
            exact declared?_declare_of_some g d (by rw [hg, hs]) (Declaration.mem_of_settled? hs).2
      · rw [declared?_declare_of_ne g hid, Declaration.settled?_concat_of_ne before hid, hg]

/-- The keys after declarations: every new identifier once, in the order of first mention. -/
theorem keys_foldl_declare (g : Graph) (before : List Text) (ds : List Declaration)
    (hg : g.nodes.keys = before.eraseDups) :
    (ds.foldl declare g).nodes.keys = (before ++ ds.map Declaration.id).eraseDups := by
  induction ds generalizing g before with
  | nil => simp [hg]
  | cons d rest ih =>
      rw [List.foldl_cons, ih (g.declare d) (before ++ [d.id]), List.append_assoc,
        List.singleton_append, List.map_cons]
      rw [List.eraseDups_append, ← hg]
      -- an identifier that is there already keeps its place
      by_cases hmem : d.id ∈ before
      · rw [keys_declare_of_mem g d (by rwa [hg, List.mem_eraseDups])]
        simp [hmem, List.removeAll]
      · rw [keys_declare_of_not_mem g d (by rwa [hg, List.mem_eraseDups])]
        simp [hmem, List.removeAll, List.eraseDups_cons]

/-! ## Statements -/

theorem nodes_declare_congr {g h : Graph} (hgh : g.nodes = h.nodes) (d : Declaration) :
    (g.declare d).nodes = (h.declare d).nodes := by
  unfold declare
  rw [hgh]
  cases h.nodes.get? d.id <;> rfl

theorem nodes_foldl_declare_congr {g h : Graph} (hgh : g.nodes = h.nodes) (ds : List Declaration) :
    (ds.foldl declare g).nodes = (ds.foldl declare h).nodes := by
  induction ds generalizing g h with
  | nil => exact hgh
  | cons d rest ih => exact ih (nodes_declare_congr hgh d)

/-- Statements change the nodes as their declarations do. -/
theorem nodes_foldl_apply (g : Graph) (ss : List Statement) :
    (ss.foldl apply g).nodes = ((ss.flatMap Statement.declarations).foldl declare g).nodes := by
  induction ss generalizing g with
  | nil => rfl
  | cons s rest ih =>
      rw [List.foldl_cons, ih, List.flatMap_cons, List.foldl_append]
      -- an edge is added after its two nodes are declared, and leaves them alone
      cases s with
      | declare node => rfl
      | connect source target label animated emphasized =>
          have h : (g.apply (.connect source target label animated emphasized)).nodes =
              ((g.declare source).declare target).nodes := rfl
          exact nodes_foldl_declare_congr h _

theorem edges_declare (g : Graph) (d : Declaration) : (g.declare d).edges = g.edges := by
  unfold declare
  split <;> rfl

theorem direction_declare (g : Graph) (d : Declaration) :
    (g.declare d).direction = g.direction := by
  unfold declare
  split <;> rfl

/-- Statements do not change the direction. -/
theorem direction_foldl_apply (g : Graph) (ss : List Statement) :
    (ss.foldl apply g).direction = g.direction := by
  induction ss generalizing g with
  | nil => rfl
  | cons s rest ih =>
      rw [List.foldl_cons, ih]
      cases s with
      | declare node => exact direction_declare g node
      | connect source target label animated emphasized =>
          simp [apply, addEdge, direction_declare]

/-- The edges that statements add, when the first of them is the edge of the given index. -/
def edgesFrom : (index : Nat) → List Statement → List Edge
  | _, [] => []
  | index, .declare _ :: rest => edgesFrom index rest
  | index, .connect source target label animated emphasized :: rest =>
    { id := Edge.defaultId source.id target.id index
      source := source.id
      target := target.id
      label := label.map .str
      animated
      emphasized } :: edgesFrom (index + 1) rest

/-- Statements add one edge for each connection and change none. -/
theorem edges_foldl_apply (g : Graph) (ss : List Statement) :
    (ss.foldl apply g).edges = g.edges ++ edgesFrom g.edges.length ss := by
  induction ss generalizing g with
  | nil => simp [edgesFrom]
  | cons s rest ih =>
      rw [List.foldl_cons, ih]
      cases s with
      | declare node => simp [apply, edges_declare, edgesFrom]
      | connect source target label animated emphasized =>
          simp [apply, addEdge, edges_declare, edgesFrom]

/-! ## Lines -/

end Graph

namespace Statement

/-- Whether a line bears on the graph: it is no header and no bound of a subgraph, and if it
connects nothing it is not about styling. -/
def bears (line : Text) : Bool :=
  !isFraming line && ((Connection.ofLine? line).isSome || !isStyling line)

/-- The statement of a line that bears on the graph. -/
def ofBearing (line : Text) : Statement :=
  match Connection.ofLine? line with
  | some k => ofConnection k
  | none => declare (Declaration.ofText line)

theorem ofLine?_eq (line : Text) :
    ofLine? line = if bears line then some (ofBearing line) else none := by
  unfold ofLine? bears ofBearing
  cases isFraming line with
  | true => rfl
  | false => cases Connection.ofLine? line <;> cases isStyling line <;> rfl

/-- The declarations of a line: two texts that it connects, or its own text. -/
def declarationsOf (line : Text) : List Declaration :=
  match Connection.ofLine? line with
  | some k => [Declaration.ofText k.source.trim, Declaration.ofText k.target.trim]
  | none => [Declaration.ofText line]

theorem declarations_ofBearing (line : Text) :
    (ofBearing line).declarations = declarationsOf line := by
  unfold ofBearing declarationsOf
  split <;> rfl

end Statement

/-- The edge that a connection makes, given its place in the order of edges. -/
def Edge.ofConnection (index : Nat) (k : Connection) : Edge :=
  let source := (Declaration.ofText k.source.trim).id
  let target := (Declaration.ofText k.target.trim).id
  let label := (k.label.getD []).trim
  { id := Edge.defaultId source target index
    source
    target
    label := if label = [] then none else some (.str label)
    animated := k.arrow.contains '.'
    emphasized := k.arrow.contains '=' }

theorem Edge.source_ofConnection (index : Nat) (k : Connection) :
    (Edge.ofConnection index k).source = (Declaration.ofText k.source.trim).id := rfl

theorem Edge.target_ofConnection (index : Nat) (k : Connection) :
    (Edge.ofConnection index k).target = (Declaration.ofText k.target.trim).id := rfl

theorem statements_append (t u : Text) :
    statements (t ++ '\n' :: u) = statements t ++ statements u := by
  rw [statements, keptLines_append, List.filterMap_append]
  rfl

/-- The lines of a diagram that bear on the graph. -/
def bearingLines (t : Text) : List Text := (keptLines t).filter Statement.bears

theorem statements_eq_map (t : Text) : statements t = (bearingLines t).map Statement.ofBearing := by
  unfold statements bearingLines
  -- a line makes a statement exactly if it bears on the graph
  induction keptLines t with
  | nil => rfl
  | cons line rest ih =>
      rw [List.filterMap_cons, Statement.ofLine?_eq, List.filter_cons]
      cases Statement.bears line <;> simp [ih]

/-- The connections of a diagram, in order. -/
def connections (t : Text) : List Connection := (bearingLines t).filterMap Connection.ofLine?

theorem bearingLines_append (t u : Text) :
    bearingLines (t ++ '\n' :: u) = bearingLines t ++ bearingLines u := by
  rw [bearingLines, keptLines_append, List.filter_append]
  rfl

theorem connections_append (t u : Text) :
    connections (t ++ '\n' :: u) = connections t ++ connections u := by
  rw [connections, bearingLines_append, List.filterMap_append]
  rfl

namespace Graph

theorem edgesFrom_map_ofBearing (index : Nat) (lines : List Text) :
    edgesFrom index (lines.map Statement.ofBearing) =
      (lines.filterMap Connection.ofLine?).mapIdx fun i k => Edge.ofConnection (index + i) k := by
  -- the index counts the connections before a line, not the lines
  induction lines generalizing index with
  | nil => rfl
  | cons line rest ih =>
      rw [List.map_cons, List.filterMap_cons, Statement.ofBearing]
      cases Connection.ofLine? line with
      | none => exact ih index
      | some k =>
          simp only [Statement.ofConnection, edgesFrom, List.mapIdx_cons, ih]
          congr 1
          · cases h : (k.label.getD []).trim <;>
              simp [Edge.ofConnection, h, Arrow.isAnimated, Arrow.isEmphasized]
          · congr 1
            funext i k
            rw [Nat.add_assoc, Nat.add_comm 1 i]

/-- The nodes of a diagram say what its declarations settle. -/
theorem declared?_ofDiagram (t : Text) (id : Text) :
    (ofDiagram t).declared? id =
      Declaration.settled? ((statements t).flatMap Statement.declarations) id := by
  rw [ofDiagram, declared?, nodes_foldl_apply]
  exact declared?_foldl_declare _ [] _ (fun _ => rfl) id

theorem keys_ofDiagram (t : Text) :
    (ofDiagram t).nodes.keys =
      (((statements t).flatMap Statement.declarations).map Declaration.id).eraseDups := by
  rw [ofDiagram, nodes_foldl_apply]
  exact keys_foldl_declare _ [] _ rfl

theorem edges_ofDiagram (t : Text) : (ofDiagram t).edges = edgesFrom 0 (statements t) := by
  rw [ofDiagram, edges_foldl_apply]
  rfl

/-- Every connection makes one edge. -/
theorem edges_eq_mapIdx (t : Text) :
    (ofDiagram t).edges = (connections t).mapIdx Edge.ofConnection := by
  rw [edges_ofDiagram, statements_eq_map, edgesFrom_map_ofBearing]
  simp [connections]

/-- The graph of a text depends on the first line that it keeps and on its statements. -/
theorem ofDiagram_congr {t u : Text} (hfirst : (keptLines u).head? = (keptLines t).head?)
    (hstatements : statements u = statements t) : ofDiagram u = ofDiagram t := by
  rw [ofDiagram, ofDiagram, hstatements, directionOf, directionOf, hfirst]

theorem direction_ofDiagram (t : Text) : (ofDiagram t).direction = .known (directionOf t) :=
  direction_foldl_apply _ _

/-- Every key is the identifier of its node. -/
theorem id_of_get?_ofDiagram {t : Text} {key : Text} {n : Node}
    (h : (ofDiagram t).nodes.get? key = some n) : n.id = key := by
  have hsettled := declared?_ofDiagram t key
  rw [declared?, h] at hsettled
  exact (Declaration.mem_of_settled? hsettled.symm).2

/-- **The reading of a diagram in closed form.** Of the lines that bear on the graph, let the
declarations be those of their parts, in order. The keys are the declared identifiers in the order
of first mention; each node says what its declarations settle; and the edges are those of the
connecting lines, in order. -/
theorem ofDiagram_reading (t : Text) :
    let ds := (bearingLines t).flatMap Statement.declarationsOf
    (ofDiagram t).nodes.keys = (ds.map Declaration.id).eraseDups ∧
      (∀ id, ((ofDiagram t).nodes.get? id).map Node.toDeclaration = Declaration.settled? ds id) ∧
      (ofDiagram t).edges =
        ((bearingLines t).filterMap Connection.ofLine?).mapIdx Edge.ofConnection := by
  intro ds
  have hds : (statements t).flatMap Statement.declarations = ds := by
    rw [statements_eq_map, List.flatMap_map]
    exact congrArg (bearingLines t).flatMap (funext Statement.declarations_ofBearing)
  refine ⟨?_, ?_, ?_⟩
  · rw [keys_ofDiagram, hds]
  · intro id
    have hid := declared?_ofDiagram t id
    rwa [hds] at hid
  · exact edges_eq_mapIdx t

end Graph

end Flowchart
