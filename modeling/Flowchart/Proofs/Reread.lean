import Flowchart.Proofs.Legible

/-!
# Reading the diagram of a legible graph

The graph that is read back from the diagram of a legible graph says the same about every identifier
(`Legible.declared?_reread`), has the edges whose two nodes are there, redrawn
(`Legible.edges_reread`), and is written in the same way again (`Legible.diagram_reread`).

The writer keeps the nodes it has mentioned and the reader the nodes that were declared. What ties
them together is `DeclaresFirst`: a list of declarations in which each node is first declared as the
graph has it, and after that either so again or by its identifier alone.
-/

set_option autoImplicit false

namespace Flowchart

/-! ## First declarations -/

namespace Declaration

/-- After the identifiers `mentioned`, each declaration is the one `meant` for its
identifier, or a bare one of an identifier mentioned before. -/
def DeclaresFirst (meant : Text → Option Declaration) : List Text → List Declaration → Prop
  | _, [] => True
  | mentioned, d :: rest =>
    (meant d.id = some d ∨ d.id ∈ mentioned ∧ d.isBare = true) ∧
      DeclaresFirst meant (d.id :: mentioned) rest

/-- One more declaration keeps what is settled, if it says the same or is bare. -/
theorem settled?_concat_of_meant {meant : Text → Option Declaration} {before : List Declaration}
    (hbefore : ∀ id ∈ before.map Declaration.id, settled? before id = meant id) {d : Declaration}
    (hd : meant d.id = some d ∨ d.id ∈ before.map Declaration.id ∧ d.isBare = true) :
    ∀ id ∈ (before ++ [d]).map Declaration.id, settled? (before ++ [d]) id = meant id := by
  intro id hid
  rw [List.map_append, List.mem_append] at hid
  by_cases heq : d.id = id
  · subst heq
    -- only the declaration's own identifier is in question: it is new, or settled as it is meant
    cases hs : settled? before d.id with
    | none =>
        rw [settled?_concat_of_none before d hs]
        rcases hd with hd | ⟨hmem, -⟩
        · exact hd.symm
        · obtain ⟨e, he, heid⟩ := List.mem_map.mp hmem
          exact absurd heid ((settled?_eq_none_iff before d.id).mp hs e he)
    | some e =>
        have hmem := mem_of_settled? hs
        have hmeant := hbefore d.id (List.mem_map.mpr ⟨e, hmem⟩)
        rw [settled?_concat_of_some before d hs, ← hmeant, hs]
        rcases hd with hd | ⟨-, hbare⟩
        · rw [← hmeant, hs, Option.some.injEq] at hd
          rw [hd, ite_self]
        · rw [hbare, Bool.not_true, Bool.and_false, if_neg Bool.false_ne_true]
  · rw [settled?_concat_of_ne before heq]
    rcases hid with hid | hid
    · exact hbefore id hid
    · exact absurd (List.mem_singleton.mp hid).symm heq

/-- Declarations that declare every node first as it is meant settle just that. -/
theorem settled?_of_declaresFirst {meant : Text → Option Declaration} {ds : List Declaration}
    (before : List Declaration)
    (hbefore : ∀ id ∈ before.map Declaration.id, settled? before id = meant id)
    (h : DeclaresFirst meant (before.map Declaration.id).reverse ds) :
    ∀ id ∈ (before ++ ds).map Declaration.id, settled? (before ++ ds) id = meant id := by
  -- the settled part grows by one declaration at each step
  induction ds generalizing before with
  | nil => rwa [List.append_nil]
  | cons d rest ih =>
      obtain ⟨hd, hrest⟩ := h
      rw [List.mem_reverse] at hd
      rw [List.append_cons]
      exact ih (before ++ [d]) (settled?_concat_of_meant hbefore hd) (by simpa using hrest)

end Declaration

/-! ## Mentions -/

/-- The two ends of an edge. -/
def Edge.ends (e : Edge) : List Text := [e.source, e.target]

namespace Graph

/-- The edges that have a line of their own. -/
def emitted (g : Graph) : List Edge := g.edges.filter g.emits

section Keys

variable {g : Graph} (hkeys : ∀ key n, g.nodes.get? key = some n → n.id = key)

include hkeys

/-- The nodes of an emitted edge are those that it names. -/
theorem ids_of_endpoints? {e : Edge} {source target : Node}
    (h : g.endpoints? e = some (source, target)) : source.id = e.source ∧ target.id = e.target := by
  obtain ⟨hs, ht⟩ := (endpoints?_eq_some_iff g e source target).mp h
  exact ⟨hkeys _ _ hs, hkeys _ _ ht⟩

theorem mentionsAfter_eq (mentioned : List Text) (es : List Edge) :
    g.mentionsAfter mentioned es =
      ((es.filter g.emits).flatMap Edge.ends).reverse ++ mentioned := by
  -- an edge that lacks a node mentions nothing and is not emitted; any other mentions its two ends
  induction es generalizing mentioned with
  | nil => rfl
  | cons e rest ih =>
      rw [mentionsAfter, List.filter_cons, emits]
      cases hends : g.endpoints? e with
      | none => exact ih mentioned
      | some ends =>
          obtain ⟨source, target⟩ := ends
          obtain ⟨hs, ht⟩ := ids_of_endpoints? hkeys hends
          rw [Option.isSome_some, if_pos rfl]
          change g.mentionsAfter (target.id :: source.id :: mentioned) rest = _
          rw [ih, hs, ht]
          simp [Edge.ends]

/-- The identifiers that the statements of edges declare, in order. -/
theorem ids_drawings (keepStyles : Bool) (mentioned : List Text) (es : List Edge) :
    (((g.drawings mentioned es).map fun d => d.statement keepStyles).flatMap
        Statement.declarations).map Declaration.id = (es.filter g.emits).flatMap Edge.ends := by
  induction es generalizing mentioned with
  | nil => rfl
  | cons e rest ih =>
      rw [drawings, List.filter_cons, emits]
      cases hends : g.endpoints? e with
      | none => exact ih mentioned
      | some ends =>
          obtain ⟨source, target⟩ := ends
          obtain ⟨hs, ht⟩ := ids_of_endpoints? hkeys hends
          rw [Option.isSome_some, if_pos rfl, List.map_cons, List.flatMap_cons, List.flatMap_cons,
            List.map_append, ih]
          simp [Drawing.statement, Statement.declarations, Edge.ends, hs, ht]

/-- A mention of a node of the graph declares what the graph says, or the identifier alone. -/
theorem declared?_mentionDeclaration {key : Text} {n : Node} (hn : g.nodes.get? key = some n)
    (mentioned : List Text) (startsLine : Bool) :
    g.declared? n.id = some (n.mentionDeclaration mentioned startsLine) ∨
      n.id ∈ mentioned ∧ (n.mentionDeclaration mentioned startsLine).isBare = true := by
  have hid := hkeys key n hn
  unfold Node.mentionDeclaration
  split
  · next h =>
      right
      rw [Bool.and_eq_true, List.contains_iff_mem] at h
      exact ⟨h.1, by simp [Declaration.isBare]⟩
  · left
    rw [declared?, hid, hn]
    rfl

/-- The statements of edges declare every node first as the graph has it. -/
theorem declaresFirst_drawings (keepStyles : Bool) (mentioned : List Text) (es : List Edge)
    {rest : List Declaration}
    (hrest : Declaration.DeclaresFirst g.declared? (g.mentionsAfter mentioned es) rest) :
    Declaration.DeclaresFirst g.declared? mentioned
      (((g.drawings mentioned es).map fun d => d.statement keepStyles).flatMap
        Statement.declarations ++ rest) := by
  induction es generalizing mentioned with
  | nil => exact hrest
  | cons e more ih =>
      rw [mentionsAfter] at hrest
      rw [drawings]
      cases hends : g.endpoints? e with
      | none =>
          rw [hends] at hrest
          exact ih mentioned hrest
      | some ends =>
          obtain ⟨source, target⟩ := ends
          obtain ⟨hs, ht⟩ := (endpoints?_eq_some_iff g e source target).mp hends
          rw [hends] at hrest
          -- the source counts as mentioned when the target is
          have hsource := declared?_mentionDeclaration hkeys hs mentioned true
          have htarget := declared?_mentionDeclaration hkeys ht (source.id :: mentioned) false
          refine ⟨?_, ?_, ?_⟩
          · rwa [Node.mentionDeclaration_id]
          · rwa [Node.mentionDeclaration_id, Node.mentionDeclaration_id]
          · rw [Node.mentionDeclaration_id, Node.mentionDeclaration_id]
            exact ih _ hrest

omit hkeys in
theorem declaresFirst_nodes (mentioned : List Text) (ns : List Node)
    (hns : ∀ n ∈ ns, g.declared? n.id = some n.toDeclaration) :
    Declaration.DeclaresFirst g.declared? mentioned (ns.map Node.toDeclaration) := by
  induction ns generalizing mentioned with
  | nil => trivial
  | cons n rest ih =>
      exact ⟨Or.inl (hns n List.mem_cons_self),
        ih _ fun m hm => hns m (List.mem_cons_of_mem n hm)⟩

end Keys

/-- The edges that the statements of edges add. -/
theorem edgesFrom_drawings {g : Graph}
    (hkeys : ∀ key n, g.nodes.get? key = some n → n.id = key) (keepStyles : Bool) (index : Nat)
    (mentioned : List Text) (es : List Edge) :
    edgesFrom index ((g.drawings mentioned es).map fun d => d.statement keepStyles) =
      (es.filter g.emits).mapIdx fun i e => e.redrawn keepStyles (index + i) := by
  -- the index goes on by one for each edge that is drawn, as in the order of the edges read back
  induction es generalizing index mentioned with
  | nil => rfl
  | cons e rest ih =>
      rw [drawings, List.filter_cons, emits]
      cases hends : g.endpoints? e with
      | none => exact ih index mentioned
      | some ends =>
          obtain ⟨source, target⟩ := ends
          obtain ⟨hs, ht⟩ := ids_of_endpoints? hkeys hends
          rw [Option.isSome_some, if_pos rfl, List.mapIdx_cons, List.map_cons, Drawing.statement,
            edgesFrom, ih]
          simp only [Node.mentionDeclaration_id, hs, ht, Edge.redrawn]
          congr 2
          funext i e
          rw [Nat.add_assoc, Nat.add_comm 1 i]

theorem edgesFrom_declare (index : Nat) (before : List Statement) (ns : List Node) :
    edgesFrom index (before ++ ns.map fun n => .declare n.toDeclaration) =
      edgesFrom index before := by
  -- declarations of nodes add no edges
  induction before generalizing index with
  | nil =>
      induction ns with
      | nil => rfl
      | cons n rest ih => exact ih
  | cons s rest ih =>
      cases s with
      | declare node => exact ih index
      | connect source target label animated emphasized =>
          rw [List.cons_append, edgesFrom, edgesFrom, ih]

/-! ## Nodes that no edge mentions -/

section Unmentioned

variable {g : Graph} (hkeys : ∀ key n, g.nodes.get? key = some n → n.id = key)

include hkeys

/-- The nodes stand under their identifiers. -/
theorem map_id_values : g.nodes.values.map (fun n => n.id) = g.nodes.keys := by
  rw [Keyed.values, Keyed.keys, List.map_map]
  refine List.map_congr_left fun entry hmem => ?_
  exact hkeys entry.1 entry.2 ((Keyed.get?_eq_some_iff g.nodes _ _).mpr hmem)

theorem declared?_of_mem_values {n : Node} (hn : n ∈ g.nodes.values) :
    g.declared? n.id = some n.toDeclaration := by
  obtain ⟨key, hkey⟩ := (Keyed.mem_values_iff _ n).mp hn
  rw [declared?, hkeys key n hkey, hkey]
  rfl

theorem map_id_unmentioned :
    g.unmentioned.map (fun n => n.id) =
      g.nodes.keys.filter fun id => !(g.emitted.flatMap Edge.ends).contains id := by
  rw [unmentioned, ← map_id_values hkeys, List.filter_map, mentionsAfter_eq hkeys]
  congr 1
  refine List.filter_congr fun n _ => ?_
  simp [emitted]

/-- Nodes of a graph are told by their identifiers. -/
theorem map_toDeclaration_eq {ns : List Node} (hns : ∀ n ∈ ns, n ∈ g.nodes.values) :
    ns.map Node.toDeclaration = (ns.map fun n => n.id).filterMap g.declared? := by
  rw [List.filterMap_map, ← List.filterMap_eq_map]
  refine List.filterMap_congr fun n hn => ?_
  exact (declared?_of_mem_values hkeys (hns n hn)).symm

/-- The nodes that no edge mentions are told by their identifiers. -/
theorem map_toDeclaration_unmentioned :
    g.unmentioned.map Node.toDeclaration =
      (g.unmentioned.map fun n => n.id).filterMap g.declared? :=
  map_toDeclaration_eq hkeys fun _ hn => (List.mem_filter.mp hn).1

end Unmentioned

theorem eraseDups_of_nodup {l : List Text} (h : l.Nodup) : l.eraseDups = l := by
  induction l with
  | nil => rfl
  | cons a rest ih =>
      rw [List.nodup_cons] at h
      have hfilter : rest.filter (fun b => !b == a) = rest := by
        rw [List.filter_eq_self]
        rintro b hb
        have hne : b ≠ a := fun heq => h.1 (heq ▸ hb)
        simpa using hne
      rw [List.eraseDups_cons, hfilter, ih h.2]

/-- Of a list without repetitions, what is new after other items is all that is not among them. -/
theorem filter_eraseDups_append {before l : List Text} (h : l.Nodup)
    (hnew : ∀ a ∈ l, a ∉ before) :
    (before ++ l).eraseDups.filter (fun a => !before.contains a) = l := by
  have hbefore : before.eraseDups.filter (fun a => !before.contains a) = [] := by
    rw [List.filter_eq_nil_iff]
    intro a ha
    simpa using List.mem_eraseDups.mp ha
  have hl : l.filter (fun a => !before.contains a) = l := by
    rw [List.filter_eq_self]
    intro a ha
    simpa using hnew a ha
  have hremove : l.removeAll before = l := by
    rw [List.removeAll, List.filter_eq_self]
    intro a ha
    simpa using hnew a ha
  rw [List.eraseDups_append, List.filter_append, hbefore, hremove, eraseDups_of_nodup h, hl,
    List.nil_append]

end Graph

/-! ## Lines that are written again -/

namespace Edge

variable {e : Edge} (keepStyles : Bool) (index : Nat)

/-- The label of an edge that is redrawn is written as before. -/
theorem writtenLabel_redrawn (h : ∀ x ∈ e.writtenLabel, x ≠ []) :
    (e.redrawn keepStyles index).writtenLabel = e.writtenLabel := by
  rw [writtenLabel, redrawn]
  cases hx : e.writtenLabel with
  | none => rfl
  | some x =>
      have hne := h x hx
      simp [Json.ifTruthy, Json.isTruthy, hne, Json.display]

theorem writtenArrow_redrawn :
    (e.redrawn keepStyles index).writtenArrow keepStyles = e.writtenArrow keepStyles := by
  unfold writtenArrow redrawn
  cases keepStyles <;> cases e.emphasized <;> cases e.animated <;> rfl

end Edge

namespace Node

theorem mention_congr {m n : Node} (h : m.toDeclaration = n.toDeclaration)
    (mentioned : List Text) (startsLine : Bool) :
    m.mention mentioned startsLine = n.mention mentioned startsLine := by
  obtain ⟨d, position⟩ := m
  obtain ⟨d', position'⟩ := n
  cases h
  rfl

end Node

namespace Graph

section Same

variable {g g' : Graph} (hsame : ∀ id, g'.declared? id = g.declared? id)

include hsame

/-- Graphs that say the same have the same nodes, positions apart. -/
theorem get?_of_same {key : Text} {n : Node} (hn : g.nodes.get? key = some n) :
    ∃ n', g'.nodes.get? key = some n' ∧ n'.toDeclaration = n.toDeclaration := by
  have h := hsame key
  rw [declared?, declared?, hn] at h
  exact Option.map_eq_some_iff.mp h

theorem endpoints?_of_same {e : Edge} {source target : Node}
    (h : g.endpoints? e = some (source, target)) :
    ∃ source' target', g'.endpoints? e = some (source', target') ∧
      source'.toDeclaration = source.toDeclaration ∧
      target'.toDeclaration = target.toDeclaration := by
  obtain ⟨hs, ht⟩ := (endpoints?_eq_some_iff g e source target).mp h
  obtain ⟨source', hs', hsource⟩ := get?_of_same hsame hs
  obtain ⟨target', ht', htarget⟩ := get?_of_same hsame ht
  exact ⟨source', target', (endpoints?_eq_some_iff g' e source' target').mpr ⟨hs', ht'⟩,
    hsource, htarget⟩

theorem emits_of_same (e : Edge) (h : g.emits e = true) : g'.emits e = true := by
  obtain ⟨⟨source, target⟩, hends⟩ := Option.isSome_iff_exists.mp h
  obtain ⟨source', target', hends', -, -⟩ := endpoints?_of_same hsame hends
  rw [emits, hends']
  rfl

/-- Redrawn edges have the lines of the edges that were drawn. -/
theorem bodies_redrawn (keepStyles : Bool) (index : Nat) (mentioned : List Text)
    {es : List Edge} (h : ∀ e ∈ es.filter g.emits, ∀ x ∈ e.writtenLabel, x ≠ []) :
    ((g'.drawings mentioned
        ((es.filter g.emits).mapIdx fun i e => e.redrawn keepStyles (index + i))).map
          fun d => d.body keepStyles) =
      (g.drawings mentioned es).map fun d => d.body keepStyles := by
  -- `mentioned` is the same on both sides, since nodes that say the same have the same identifier
  induction es generalizing mentioned index with
  | nil => rfl
  | cons e rest ih =>
      rw [List.filter_cons, emits] at h
      rw [List.filter_cons, emits, drawings]
      cases hends : g.endpoints? e with
      | none =>
          rw [hends] at h
          exact ih index mentioned h
      | some ends =>
          obtain ⟨source, target⟩ := ends
          obtain ⟨source', target', hends', hsource, htarget⟩ := endpoints?_of_same hsame hends
          have hends'' : g'.endpoints? (e.redrawn keepStyles (index + 0)) =
              some (source', target') := hends'
          have hs : source'.id = source.id := congrArg Declaration.id hsource
          have ht : target'.id = target.id := congrArg Declaration.id htarget
          have hindex : (fun i (e : Edge) => e.redrawn keepStyles (index + (i + 1))) =
              fun i e => e.redrawn keepStyles (index + 1 + i) := by
            funext i e
            rw [Nat.add_assoc, Nat.add_comm 1 i]
          rw [hends, Option.isSome_some, if_pos rfl] at h
          have hlabel := h e List.mem_cons_self
          have hrest := ih (index + 1) (target.id :: source.id :: mentioned) fun e he =>
            h e (List.mem_cons_of_mem _ he)
          rw [Option.isSome_some, if_pos rfl, List.mapIdx_cons, drawings, hends'', hindex]
          simp only [List.map_cons, hs, ht, hrest]
          simp only [Drawing.body, Drawing.sourceText, Drawing.targetText, hs,
            Node.mention_congr hsource, Node.mention_congr htarget, Edge.writtenArrow_redrawn,
            Edge.writtenLabel_redrawn keepStyles _ hlabel]

end Same

theorem header_congr {g g' : Graph} (h : g'.headerDirection = g.headerDirection) :
    g'.header = g.header :=
  congrArg (fun d : Direction => "flowchart ".toList ++ d.name) h

/-- The lines of nodes depend on what is declared about them. -/
theorem map_declaration_congr {ms ns : List Node}
    (h : ms.map Node.toDeclaration = ns.map Node.toDeclaration) :
    (ms.map fun n => indent ++ n.declaration) = ns.map fun n => indent ++ n.declaration := by
  have hfactor : ∀ l : List Node, (l.map fun n => indent ++ n.declaration) =
      (l.map Node.toDeclaration).map
        fun d => indent ++ Node.declaration { toDeclaration := d } := by
    intro l
    rw [List.map_map]
    rfl
  -- the position of a node is not written
  rw [hfactor, hfactor, h]

theorem flatMap_ends_redrawn (keepStyles : Bool) (es : List Edge) :
    (es.mapIdx fun i e => e.redrawn keepStyles i).flatMap Edge.ends = es.flatMap Edge.ends := by
  have hfst : (es.zipIdx.map Prod.fst).flatMap Edge.ends = es.flatMap Edge.ends := by
    rw [List.zipIdx_map_fst]
  rw [List.mapIdx_eq_zipIdx_map, List.flatMap_map, ← hfst, List.flatMap_map]
  rfl

/-! ## Edges and nodes that are read -/

/-- A text says the edges of a graph, as they are drawn, and then some of its nodes. -/
def Says (g : Graph) (keepStyles : Bool) (ns : List Node) (t : Text) : Prop :=
  statements t = ((g.drawings [] g.edges).map fun d => d.statement keepStyles) ++
    ns.map fun n => .declare n.toDeclaration

section Says

variable {g : Graph} (hkeys : ∀ key n, g.nodes.get? key = some n → n.id = key)
  {keepStyles : Bool} {ns : List Node} {t : Text} (h : g.Says keepStyles ns t)

include h

theorem Says.declarations :
    (statements t).flatMap Statement.declarations =
      ((g.drawings [] g.edges).map fun d => d.statement keepStyles).flatMap
          Statement.declarations ++ ns.map Node.toDeclaration := by
  rw [h, List.flatMap_append]
  congr 1
  rw [List.flatMap_map]
  exact List.map_eq_flatMap.symm

include hkeys

/-- The identifiers that are declared: the ends of the edges that are drawn, then the nodes. -/
theorem Says.ids :
    ((statements t).flatMap Statement.declarations).map Declaration.id =
      g.emitted.flatMap Edge.ends ++ ns.map (fun n => n.id) := by
  rw [h.declarations, List.map_append, ids_drawings hkeys, List.map_map]
  rfl

/-- **What is said about a node is read back**, and no other node is. -/
theorem Says.declared?_eq (hns : ∀ n ∈ ns, n ∈ g.nodes.values) (id : Text) :
    (ofDiagram t).declared? id =
      if id ∈ g.emitted.flatMap Edge.ends ++ ns.map (fun n => n.id) then g.declared? id
      else none := by
  rw [declared?_ofDiagram]
  have hfirst := declaresFirst_drawings hkeys keepStyles [] g.edges
    (declaresFirst_nodes _ ns fun n hn => declared?_of_mem_values hkeys (hns n hn))
  have hsettled := Declaration.settled?_of_declaresFirst [] (fun _ hmem => nomatch hmem) hfirst
  rw [List.nil_append, ← h.declarations] at hsettled
  split
  · next hid => exact hsettled id (by rwa [h.ids hkeys])
  · next hid =>
      rw [Declaration.settled?_eq_none_iff]
      rintro d hd rfl
      exact hid (h.ids hkeys ▸ List.mem_map_of_mem hd)

end Says

/-! ## The graph that is read back -/

section Reread

variable {g : Graph} (h : g.Legible) (keepStyles fenced : Bool)

include h

omit keepStyles fenced in
theorem Legible.writtenLabel_ne_nil :
    ∀ e ∈ g.edges.filter g.emits, ∀ x ∈ e.writtenLabel, x ≠ [] := by
  intro e he x hx
  rw [← map_edge_drawings g []] at he
  obtain ⟨d, hd, rfl⟩ := List.mem_map.mp he
  exact ((h.edges d hd).label x hx).ne_nil

theorem Legible.direction_reread :
    (ofDiagram (g.diagram keepStyles fenced)).direction = .known g.headerDirection := by
  rw [direction_ofDiagram, h.directionOf_diagram]

theorem Legible.headerDirection_reread :
    (ofDiagram (g.diagram keepStyles fenced)).headerDirection = g.headerDirection := by
  rw [headerDirection, h.direction_reread]
  rfl

theorem Legible.says_diagram : g.Says keepStyles g.unmentioned (g.diagram keepStyles fenced) :=
  h.statements_diagram keepStyles fenced

/-- The identifiers that a diagram declares: the ends of the edges that are drawn, then the nodes
that no edge mentions. -/
theorem Legible.ids_diagram :
    ((statements (g.diagram keepStyles fenced)).flatMap Statement.declarations).map
        Declaration.id = g.emitted.flatMap Edge.ends ++ g.unmentioned.map (fun n => n.id) :=
  (h.says_diagram keepStyles fenced).ids h.keys

/-- Every node is written: on the line of an edge, or on its own. -/
theorem Legible.mem_ids_of_mem_keys {id : Text} (hid : id ∈ g.nodes.keys) :
    id ∈ g.emitted.flatMap Edge.ends ++ g.unmentioned.map (fun n => n.id) := by
  rw [map_id_unmentioned h.keys, List.mem_append, List.mem_filter]
  by_cases hmem : id ∈ g.emitted.flatMap Edge.ends
  · exact Or.inl hmem
  · exact Or.inr ⟨hid, by simpa using hmem⟩

/-- **A diagram that is read back says the same about every node.** -/
theorem Legible.declared?_reread (id : Text) :
    (ofDiagram (g.diagram keepStyles fenced)).declared? id = g.declared? id := by
  rw [(h.says_diagram keepStyles fenced).declared?_eq h.keys fun n hn => (List.mem_filter.mp hn).1]
  split
  · rfl
  · next hid => exact ((declared?_eq_none_iff g id).mpr fun hmem => hid (h.mem_ids_of_mem_keys hmem)).symm

theorem Legible.edges_reread :
    (ofDiagram (g.diagram keepStyles fenced)).edges =
      g.emitted.mapIdx fun i e => e.redrawn keepStyles i := by
  rw [edges_ofDiagram, h.statements_diagram, edgesFrom_declare, edgesFrom_drawings h.keys]
  simp only [Nat.zero_add]
  rfl

/-- Every edge that is read back has both its nodes. -/
theorem Legible.emitted_reread :
    (ofDiagram (g.diagram keepStyles fenced)).emitted =
      (ofDiagram (g.diagram keepStyles fenced)).edges := by
  rw [emitted, h.edges_reread, List.filter_eq_self]
  intro e he
  obtain ⟨i, hi, rfl⟩ := List.mem_mapIdx.mp he
  refine emits_of_same (h.declared?_reread keepStyles fenced) _ ?_
  exact (List.mem_filter.mp (List.getElem_mem hi)).2

theorem Legible.ends_reread :
    (ofDiagram (g.diagram keepStyles fenced)).emitted.flatMap Edge.ends =
      g.emitted.flatMap Edge.ends := by
  rw [h.emitted_reread, h.edges_reread, flatMap_ends_redrawn]

/-- The nodes that no edge mentions are read back in their order. -/
theorem Legible.unmentioned_reread :
    (ofDiagram (g.diagram keepStyles fenced)).unmentioned.map Node.toDeclaration =
      g.unmentioned.map Node.toDeclaration := by
  have hnew : ∀ id ∈ g.unmentioned.map (fun n => n.id), id ∉ g.emitted.flatMap Edge.ends := by
    intro id hid
    rw [map_id_unmentioned h.keys] at hid
    simpa using (List.mem_filter.mp hid).2
  have hnodup : (g.unmentioned.map fun n => n.id).Nodup := by
    rw [map_id_unmentioned h.keys]
    exact (Keyed.nodup_keys g.nodes).sublist List.filter_sublist
  have hids : (ofDiagram (g.diagram keepStyles fenced)).unmentioned.map (fun n => n.id) =
      g.unmentioned.map fun n => n.id := by
    rw [map_id_unmentioned fun _ _ hn => id_of_get?_ofDiagram hn, h.ends_reread, keys_ofDiagram,
      h.ids_diagram]
    -- read back, the keys are the ends of edges and then the nodes that no edge mentions
    exact filter_eraseDups_append hnodup hnew
  rw [map_toDeclaration_unmentioned fun _ _ hn => id_of_get?_ofDiagram hn, hids,
    map_toDeclaration_unmentioned h.keys, funext (h.declared?_reread keepStyles fenced)]

theorem Legible.edgeLines_reread :
    ((ofDiagram (g.diagram keepStyles fenced)).edgeLines keepStyles []
        (ofDiagram (g.diagram keepStyles fenced)).edges).1 =
      (g.edgeLines keepStyles [] g.edges).1 := by
  have hbodies := bodies_redrawn (h.declared?_reread keepStyles fenced) keepStyles 0 []
    h.writtenLabel_ne_nil
  have hlines := congrArg (List.map fun body => indent ++ body) hbodies
  simp only [Nat.zero_add, List.map_map] at hlines
  rw [edgeLines_fst, edgeLines_fst, h.edges_reread]
  exact hlines

/-- **The diagram of a legible graph is stable.** Read back and written in the same way, it is the
same text. -/
theorem Legible.diagram_reread :
    (ofDiagram (g.diagram keepStyles fenced)).diagram keepStyles fenced =
      g.diagram keepStyles fenced := by
  have hheader := header_congr (h.headerDirection_reread keepStyles fenced)
  have hlines := h.edgeLines_reread keepStyles fenced
  have hunmentioned := h.unmentioned_reread keepStyles fenced
  -- header, lines of edges and lines of nodes are all that is written
  generalize ofDiagram (g.diagram keepStyles fenced) = g' at *
  rw [diagram_eq, diagram_eq, diagramLines_eq, diagramLines_eq, hheader, hlines,
    map_declaration_congr hunmentioned]

end Reread

end Graph

end Flowchart
