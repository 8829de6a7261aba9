import Flowchart.Proofs.Reread

/-!
# The layout of a diagram

The writer goes down the edges and keeps the nodes that it has mentioned. What it writes can be said
without them (`Graph.diagram_layout`). The ends of the edges that are drawn, each source before its
target, are the places of a diagram; a place holds a node in full if the node stands there for the
first time, or if it is a source that would make the line a header or a subgraph, and by its
identifier otherwise. Nodes that stand at no place have lines of their own.

The list that the writer keeps holds the places it has passed, the last first. This is the invariant
that ties both together (`Graph.edgeLines_layout`).
-/

set_option autoImplicit false

namespace Flowchart.Graph

/-! ## Places -/

/-- The graph without the edges that lack a node. -/
def withoutDangling (g : Graph) : Graph :=
  { g with edges := g.edges.filter fun e => g.nodes.contains e.source && g.nodes.contains e.target }

/-- The places of a diagram: the ends of the edges that are drawn, each source before its target. -/
def places (g : Graph) : List Text := g.withoutDangling.edges.flatMap Edge.ends

/-- Whether the place of a given index holds a node in full: the node stands there for the first
time, or at the start of a line that its identifier would make a header or a subgraph. Sources stand
at even indices. -/
def InFull (places : List Text) (index : Nat) (id : Text) : Prop :=
  id ∉ places.take index ∨ index % 2 = 0 ∧ Keyword.readsAsStatement id = true

instance (places : List Text) (index : Nat) (id : Text) : Decidable (InFull places index id) :=
  inferInstanceAs (Decidable (_ ∨ _))

/-- The text that declares the node of an identifier. -/
def fullText (g : Graph) (id : Text) : Text := (g.nodes.get? id).elim id Node.declaration

/-- The text of the place of a given index. -/
def placeText (g : Graph) (index : Nat) (id : Text) : Text :=
  if InFull g.places index id then g.fullText id else id

/-- The line of the edge that is drawn at a given index. -/
def edgeLineAt (g : Graph) (keepStyles : Bool) (index : Nat) (e : Edge) : Text :=
  indent ++ g.placeText (2 * index) e.source ++ ' ' :: e.connector keepStyles ++ ' ' ::
    g.placeText (2 * index + 1) e.target

/-- The nodes that stand at no place, in order. -/
def lone (g : Graph) : List Node := g.nodes.values.filter fun n => !g.places.contains n.id

/-- The lines of a diagram, without those of a fence. -/
def layout (g : Graph) (keepStyles : Bool) : List Text :=
  g.header :: (g.withoutDangling.edges.mapIdx (g.edgeLineAt keepStyles) ++
    g.lone.map fun n => indent ++ n.declaration)

/-- How often a node is written in full, at a place or on a line of its own. -/
def timesInFull (g : Graph) (id : Text) : Nat :=
  (List.range g.places.length).countP
      (fun index => decide (g.places[index]? = some id ∧ InFull g.places index id)) +
    g.lone.countP fun n => decide (n.id = id)

/-- The places that hold a node in full though it has stood at a place before. -/
def Redeclares (places : List Text) (id : Text) (index : Nat) : Prop :=
  places[index]? = some id ∧ id ∈ places.take index ∧ index % 2 = 0 ∧
    Keyword.readsAsStatement id = true

instance (places : List Text) (id : Text) (index : Nat) : Decidable (Redeclares places id index) :=
  inferInstanceAs (Decidable (_ ∧ _))

/-! ## Edges that are drawn -/

theorem emits_eq_contains (g : Graph) (e : Edge) :
    g.emits e = (g.nodes.contains e.source && g.nodes.contains e.target) := by
  rw [emits, endpoints?, Keyed.contains, Keyed.contains]
  cases g.nodes.get? e.source <;> cases g.nodes.get? e.target <;> rfl

/-- The edges that are drawn are those that lack no node. -/
theorem edges_withoutDangling (g : Graph) : g.withoutDangling.edges = g.emitted :=
  List.filter_congr fun e _ => (emits_eq_contains g e).symm

theorem withoutDangling_withoutDangling (g : Graph) :
    g.withoutDangling.withoutDangling = g.withoutDangling := by
  have hedges : g.withoutDangling.withoutDangling.edges = g.withoutDangling.edges :=
    List.filter_filter.trans (List.filter_congr fun e _ => Bool.and_self _)
  calc g.withoutDangling.withoutDangling
      = { g.withoutDangling with edges := g.withoutDangling.withoutDangling.edges } := rfl
    _ = g.withoutDangling := by rw [hedges]

theorem places_withoutDangling (g : Graph) : g.withoutDangling.places = g.places := by
  rw [places, withoutDangling_withoutDangling, places]

/-- Edges that lack a node leave no trace in the layout. -/
theorem layout_withoutDangling (g : Graph) (keepStyles : Bool) :
    g.withoutDangling.layout keepStyles = g.layout keepStyles := by
  have hline : g.withoutDangling.edgeLineAt keepStyles = g.edgeLineAt keepStyles := by
    funext index e
    simp only [edgeLineAt, placeText, places_withoutDangling]
    rfl
  rw [layout, withoutDangling_withoutDangling, hline, lone, places_withoutDangling]
  rfl

/-! ## Lines -/

theorem length_flatMap_ends (es : List Edge) : (es.flatMap Edge.ends).length = 2 * es.length := by
  induction es with
  | nil => rfl
  | cons e rest ih =>
      rw [List.flatMap_cons, List.length_append, ih, List.length_cons]
      change 2 + 2 * rest.length = 2 * (rest.length + 1)
      omega

/-- What stands before the source and before the target of an edge that is drawn. -/
theorem take_places {g : Graph} {before after : List Edge} {e : Edge}
    (hedges : g.withoutDangling.edges = before ++ e :: after) :
    g.places.take (2 * before.length) = before.flatMap Edge.ends ∧
      g.places.take (2 * before.length + 1) = before.flatMap Edge.ends ++ [e.source] := by
  have hplaces : g.places =
      before.flatMap Edge.ends ++ e.source :: e.target :: after.flatMap Edge.ends := by
    rw [places, hedges, List.flatMap_append, List.flatMap_cons]
    rfl
  rw [hplaces, ← length_flatMap_ends before]
  refine ⟨List.take_append_length, ?_⟩
  rw [List.take_length_add_append]
  rfl

/-- A mention is the text of its place, if the nodes mentioned before are those of the places
before. -/
theorem mention_eq_placeText {g : Graph} {id : Text} {n : Node} (hn : g.nodes.get? id = some n)
    (hid : n.id = id) {mentioned : List Text} {index : Nat}
    (hmentioned : id ∈ mentioned ↔ id ∈ g.places.take index) {startsLine : Bool}
    (hstarts : startsLine = true ↔ index % 2 = 0) :
    n.mention mentioned startsLine = g.placeText index id := by
  have hfull : g.fullText id = n.declaration := by rw [fullText, hn, Option.elim_some]
  have hcontains : mentioned.contains id = true ↔ id ∈ g.places.take index := by
    rw [List.contains_iff_mem, hmentioned]
  rw [Node.mention, placeText, hfull, hid]
  by_cases h : InFull g.places index id
  · -- the writer would have to know the node and to be free to leave out the declaration
    rw [if_pos h, if_neg]
    intro hbare
    rw [Bool.and_eq_true, Bool.not_eq_true', Bool.and_eq_false_iff] at hbare
    rcases h with hfirst | ⟨heven, hreads⟩
    · exact hfirst (hcontains.mp hbare.1)
    · rcases hbare.2 with hodd | hsilent
      · rw [hstarts.mpr heven] at hodd
        cases hodd
      · rw [hreads] at hsilent
        cases hsilent
  · -- the node is known, and does not start a line that its identifier would turn into another
    rw [if_neg h, if_pos]
    rw [InFull, not_or, not_not] at h
    rw [Bool.and_eq_true, Bool.not_eq_true', Bool.and_eq_false_iff]
    refine ⟨hcontains.mpr h.1, ?_⟩
    by_cases heven : index % 2 = 0
    · exact Or.inr (Bool.eq_false_iff.mpr fun hreads => h.2 ⟨heven, hreads⟩)
    · exact Or.inl (Bool.eq_false_iff.mpr fun hstart => heven (hstarts.mp hstart))

section Keys

variable {g : Graph} (hkeys : ∀ key n, g.nodes.get? key = some n → n.id = key)

include hkeys

/-- The line of an edge whose ends follow the places of the edges `before`. -/
theorem edgeLine_layout {before after : List Edge} {e : Edge} {source target : Node}
    (hends : g.endpoints? e = some (source, target))
    (hedges : g.withoutDangling.edges = before ++ e :: after) (keepStyles : Bool) :
    edgeLine keepStyles (before.flatMap Edge.ends).reverse source target e =
      g.edgeLineAt keepStyles before.length e := by
  obtain ⟨hs, ht⟩ := (endpoints?_eq_some_iff g e source target).mp hends
  have hsid : source.id = e.source := hkeys _ _ hs
  have htid : target.id = e.target := hkeys _ _ ht
  obtain ⟨htake, htake'⟩ := take_places hedges
  have hsource : source.mention (before.flatMap Edge.ends).reverse true =
      g.placeText (2 * before.length) e.source := by
    apply mention_eq_placeText hs hsid
    · rw [htake, List.mem_reverse]
    · -- sources stand at even indices
      simp
  have htarget : target.mention (source.id :: (before.flatMap Edge.ends).reverse) false =
      g.placeText (2 * before.length + 1) e.target := by
    apply mention_eq_placeText ht htid
    · rw [htake', hsid, List.mem_cons, List.mem_reverse, List.mem_append, List.mem_singleton,
        or_comm]
    · -- targets stand at odd indices
      constructor
      · intro h
        cases h
      · omega
  rw [edgeLine, edgeLineAt, hsource, htarget]

/-- **What is written after some edges depends on their ends alone.** The writer has mentioned the
places that it has passed, and goes on with the lines of the layout. -/
theorem edgeLines_layout (keepStyles : Bool) (before es : List Edge)
    (hedges : g.withoutDangling.edges = before ++ es.filter g.emits) :
    (g.edgeLines keepStyles (before.flatMap Edge.ends).reverse es).1 =
      (es.filter g.emits).mapIdx fun i e => g.edgeLineAt keepStyles (before.length + i) e := by
  -- an edge that lacks a node is passed over on both sides; any other joins the edges `before`
  induction es generalizing before with
  | nil => rfl
  | cons e rest ih =>
      rw [List.filter_cons, emits] at hedges ⊢
      rw [edgeLines]
      cases hends : g.endpoints? e with
      | none =>
          rw [hends] at hedges
          exact ih before hedges
      | some ends =>
          obtain ⟨source, target⟩ := ends
          obtain ⟨hs, ht⟩ := ids_of_endpoints? hkeys hends
          rw [hends, Option.isSome_some, if_pos rfl] at hedges
          have hline := edgeLine_layout hkeys hends hedges keepStyles
          have hpassed : target.id :: source.id :: (before.flatMap Edge.ends).reverse =
              ((before ++ [e]).flatMap Edge.ends).reverse := by
            rw [List.flatMap_append, List.reverse_append, hs, ht]
            rfl
          have hrest := ih (before ++ [e]) (by rw [hedges, List.append_assoc]; rfl)
          rw [Option.isSome_some, if_pos rfl, List.mapIdx_cons]
          simp only [hline, hpassed, hrest, List.length_append, List.length_singleton]
          congr 2
          funext i e
          rw [Nat.add_assoc, Nat.add_comm 1 i]

theorem lone_eq_unmentioned : g.lone = g.unmentioned := by
  rw [lone, unmentioned, mentionsAfter_eq hkeys, places, edges_withoutDangling]
  refine List.filter_congr fun n _ => ?_
  simp [emitted]

/-- The lines that are written are those of the layout. -/
theorem diagramLines_eq_layout (keepStyles : Bool) :
    g.diagramLines keepStyles = g.layout keepStyles := by
  have hlines := edgeLines_layout hkeys keepStyles [] g.edges (edges_withoutDangling g)
  rw [List.flatMap_nil, List.reverse_nil] at hlines
  simp only [List.length_nil, Nat.zero_add] at hlines
  rw [diagramLines_eq, hlines, layout, lone_eq_unmentioned hkeys, edges_withoutDangling]
  rfl

end Keys

/-! ## Nodes in full -/

/-- Of the places up to a given one, an identifier stands at one for the first time, if at any. -/
theorem countP_first (places : List Text) (id : Text) {n : Nat} (hn : n ≤ places.length) :
    (List.range n).countP
        (fun index => decide (places[index]? = some id ∧ id ∉ places.take index)) =
      if id ∈ places.take n then 1 else 0 := by
  induction n with
  | zero => simp
  | succ n ih =>
      have hlt : n < places.length := hn
      have hmem : id ∈ places.take (n + 1) ↔ id ∈ places.take n ∨ places[n] = id := by
        rw [List.take_succ_eq_append_getElem hlt, List.mem_append, List.mem_singleton, eq_comm]
      rw [List.range_succ, List.countP_append, ih (Nat.le_of_lt hlt), List.countP_singleton,
        List.getElem?_eq_getElem hlt]
      -- the last place counts if it is the first of its identifier
      by_cases hbefore : id ∈ places.take n
      · simp [hmem, hbefore]
      · by_cases hat : places[n] = id <;> simp [hmem, hbefore, hat]

/-- A node is in full where it first stands, and where it is declared again. -/
theorem countP_inFull (places : List Text) (id : Text) :
    (List.range places.length).countP
        (fun index => decide (places[index]? = some id ∧ InFull places index id)) =
      (if id ∈ places then 1 else 0) +
        (List.range places.length).countP fun index => decide (Redeclares places id index) := by
  have hfirst := countP_first places id (Nat.le_refl places.length)
  rw [List.take_length] at hfirst
  rw [List.countP_eq_countP_filter_add _ _ fun index => decide (id ∉ places.take index),
    List.countP_filter, List.countP_filter, ← hfirst]
  congr 1
  · apply List.countP_congr
    intro index _
    rw [Bool.and_eq_true, decide_eq_true_iff, decide_eq_true_iff, decide_eq_true_iff, InFull]
    tauto
  · apply List.countP_congr
    intro index _
    rw [Bool.and_eq_true, Bool.not_eq_true', decide_eq_true_iff, decide_eq_false_iff_not,
      decide_eq_true_iff, InFull, Redeclares]
    tauto

section Keys

variable {g : Graph} (hkeys : ∀ key n, g.nodes.get? key = some n → n.id = key)

include hkeys

/-- A node has a line of its own exactly if it stands at no place. -/
theorem countP_lone {n : Node} (hn : n ∈ g.nodes.values) :
    (g.lone.countP fun m => decide (m.id = n.id)) = if n.id ∈ g.places then 0 else 1 := by
  have hids : g.lone.map (fun m => m.id) =
      g.nodes.keys.filter fun id => !g.places.contains id := by
    rw [lone, ← map_id_values hkeys, List.filter_map]
    rfl
  have hnodup : (g.lone.map fun m => m.id).Nodup := by
    rw [hids]
    exact (Keyed.nodup_keys g.nodes).sublist List.filter_sublist
  have hmem : n.id ∈ g.nodes.keys := by
    rw [← map_id_values hkeys]
    exact List.mem_map_of_mem hn
  have hcount : (g.lone.countP fun m => decide (m.id = n.id)) =
      (g.lone.map fun m => m.id).count n.id := by
    rw [List.count, List.countP_map]
    exact List.countP_congr fun m _ => by simp
  rw [hcount, hnodup.count, hids]
  by_cases h : n.id ∈ g.places <;> simp [h, hmem]

/-- **Every node is written in full once, and again only where the keywords ask for it.** -/
theorem timesInFull_eq {n : Node} (hn : n ∈ g.nodes.values) :
    g.timesInFull n.id =
      1 + (List.range g.places.length).countP fun i => decide (Redeclares g.places n.id i) := by
  rw [timesInFull, countP_inFull, countP_lone hkeys hn]
  by_cases h : n.id ∈ g.places
  · rw [if_pos h, if_pos h]
    omega
  · rw [if_neg h, if_neg h]
    omega

end Keys

/-! ## Orphans -/

/-- The places are the ends of the edges that are drawn. -/
theorem touches_withoutDangling (g : Graph) (id : Text) :
    g.withoutDangling.touches id = g.places.contains id := by
  rw [touches, places, Bool.eq_iff_iff, List.any_eq_true, List.contains_iff_mem, List.mem_flatMap]
  refine exists_congr fun e => and_congr_right fun _ => ?_
  rw [Bool.or_eq_true, decide_eq_true_iff, decide_eq_true_iff, Edge.ends, List.mem_cons,
    List.mem_singleton]
  exact or_congr eq_comm eq_comm

/-- The nodes at no place are the orphans of the graph without the edges that lack a node. -/
theorem lone_eq_orphans (g : Graph) : g.lone = g.withoutDangling.orphans := by
  rw [lone, orphans]
  refine List.filter_congr fun n _ => ?_
  rw [touches_withoutDangling]

/-- An edge that lacks a node makes fewer orphans. -/
theorem orphans_sublist_lone (g : Graph) : g.orphans.Sublist g.lone := by
  rw [lone_eq_orphans]
  refine List.monotone_filter_right g.nodes.values fun n hn => ?_
  rw [Bool.not_eq_true'] at hn ⊢
  rw [touches, List.any_eq_false] at hn ⊢
  intro e he
  exact hn e (List.mem_filter.mp he).1

/-- A road map: a node that is called like a header starts two lines, raw text stands at two places,
one road leads nowhere, and a town lies on no road. -/
def roadMap : Graph where
  nodes := ⟨[
    ("town".toList, ⟨⟨"town".toList, "Town".toList, .known .circle⟩, {}⟩),
    ("graph".toList, ⟨⟨"graph".toList, "Map".toList, .known .diamond⟩, {}⟩),
    ("a road".toList, ⟨⟨"a road".toList, "a road".toList, .known .rectangle⟩, {}⟩)], by decide⟩
  edges := [
    { id := "e".toList, source := "town".toList, target := "sea".toList },
    { id := "f".toList, source := "graph".toList, target := "a road".toList, emphasized := true },
    { id := "g".toList, source := "graph".toList, target := "graph".toList },
    { id := "h".toList, source := "a road".toList, target := "graph".toList,
      label := some (.str "x".toList) }]
  direction := .foreign "up".toList (by decide)

end Flowchart.Graph
