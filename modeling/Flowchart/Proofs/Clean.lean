import Flowchart.Proofs.Plain
import Flowchart.Proofs.Reread

/-!
# Clean graphs

A graph is clean if its identifiers, labels and shapes are such as a diagram can hold
(`Graph.Clean`). Writing a clean graph and reading the diagram gives the graph back: the same
direction, the same nodes, and the edges whose two nodes are there (`Graph.ofDiagram_diagram`). Its
nodes may be any in number and in any order, and its edges may be repeated, loop, or lack a node.
-/

set_option autoImplicit false

namespace Flowchart.Graph

/-- A graph whose nodes and labels a diagram can hold. -/
structure Writable (g : Graph) : Prop where
  keys : ∀ key n, g.nodes.get? key = some n → n.id = key
  identifier : ∀ key n, g.nodes.get? key = some n → Text.isIdentifier n.id = true
  shape : ∀ key n, g.nodes.get? key = some n → ∃ shape, n.shape = .known shape
  label : ∀ key n, g.nodes.get? key = some n →
    n.label ≠ [] ∧ '\n' ∉ n.label ∧ ¬ Arrow.HasArrow n.label
  rounded : ∀ key n, g.nodes.get? key = some n → ¬ Declaration.LooksCircular n.toDeclaration
  /-- A label that is given is a trimmed text without bars and line feeds. -/
  edgeLabel : ∀ e ∈ g.edges, ∀ v ∈ e.label.bind Json.ifTruthy,
    ∃ x : Text, v = .str x ∧ x.trim = x ∧ '|' ∉ x ∧ '\n' ∉ x

/-- A graph that a diagram can hold. -/
structure Clean (g : Graph) : Prop extends Writable g where
  /-- A node that no edge mentions does not begin like styling. -/
  styling : ∀ key n, g.nodes.get? key = some n →
    (∀ e ∈ g.edges, (g.endpoints? e).isSome = true → e.source ≠ n.id ∧ e.target ≠ n.id) →
      ∀ word ∈ Statement.stylingWords, ¬ word <+: n.id

section Writable

variable {g : Graph} (h : g.Writable)

include h

theorem Writable.plain {key : Text} {n : Node} (hn : g.nodes.get? key = some n) :
    n.toDeclaration.Plain := by
  obtain ⟨shape, hshape⟩ := h.shape key n hn
  obtain ⟨hne, hlf, harrow⟩ := h.label key n hn
  have hid := h.identifier key n hn
  have hw : '\n' ∉ n.toDeclaration.written :=
    Declaration.not_mem_written hshape Declaration.line_feed_not_mem_delimiters
      (not_mem_identifier hid (by decide)) hlf
  exact ⟨⟨hid, ⟨shape, hshape⟩, hw,
    Declaration.ofText_written hid hne hw hshape (h.rounded key n hn)⟩, harrow⟩

/-- The labels of edges are written as they are. -/
theorem Writable.label_eq {e : Edge} (he : e ∈ g.edges) :
    e.writtenLabel.map Json.str = e.label.bind Json.ifTruthy := by
  have hlabel := h.edgeLabel e he
  unfold Edge.writtenLabel
  cases hv : e.label.bind Json.ifTruthy with
  | none => rfl
  | some v =>
      obtain ⟨x, rfl, -⟩ := hlabel v hv
      rfl

theorem Writable.legibleLabel {e : Edge} (he : e ∈ g.edges) :
    ∀ x ∈ e.writtenLabel, LegibleLabel x := by
  intro x hx
  have heq := h.label_eq he
  rw [Option.mem_def] at hx
  rw [hx, Option.map_some] at heq
  obtain ⟨y, hy, htrim, hbar, hlf⟩ := h.edgeLabel e he (.str x) heq.symm
  cases hy
  refine ⟨⟨(Text.trimmed_iff x).mpr htrim, ?_, hlf⟩, hbar⟩
  -- a label that is not given is not written
  rintro rfl
  obtain ⟨v, -, hv⟩ := Option.bind_eq_some_iff.mp heq.symm
  unfold Json.ifTruthy at hv
  split at hv
  · next htruthy =>
      cases hv
      cases htruthy
  · cases hv

theorem Writable.readable {key : Text} {n : Node} (hn : g.nodes.get? key = some n) : n.Readable :=
  Node.readable_of_regular (h.plain hn).toRegular

/-- The lines of edges are legible, whatever the nodes are called. -/
theorem Writable.legible_of_mem_drawings {d : Drawing} (hd : d ∈ g.drawings [] g.edges) :
    d.Legible := by
  obtain ⟨he, hs, ht⟩ := get?_of_mem_drawings hd
  exact ⟨Node.legibleSource_of_plain (h.plain hs) _, h.legibleLabel he,
    Node.legibleTarget_of_regular (h.plain ht).toRegular _ _⟩

/-- A node that no edge mentions is an end of no edge that is drawn. -/
theorem Writable.not_mem_ends_of_mem_unmentioned {n : Node} (hn : n ∈ g.unmentioned) :
    n.id ∉ g.emitted.flatMap Edge.ends := by
  have hunmentioned := (List.mem_filter.mp hn).2
  rw [mentionsAfter_eq h.keys] at hunmentioned
  intro hmem
  rw [emitted] at hmem
  simp [hmem] at hunmentioned

end Writable

/-- **Clean graphs are legible.** -/
theorem Clean.legible {g : Graph} (h : g.Clean) : g.Legible where
  keys := h.keys
  readable := fun _ _ hn => h.toWritable.readable hn
  edges := fun _ hd => h.toWritable.legible_of_mem_drawings hd
  lines := by
    intro n hn
    obtain ⟨key, hkey⟩ := exists_get?_of_mem_unmentioned hn
    have hends := h.toWritable.not_mem_ends_of_mem_unmentioned hn
    rw [Node.declaration_of_identifier (h.identifier key n hkey)]
    refine (h.toWritable.plain hkey).legibleLine (h.styling key n hkey fun e he hemits => ?_)
    have hne : ∀ id ∈ e.ends, id ≠ n.id := by
      rintro id hid rfl
      exact hends (List.mem_flatMap.mpr ⟨e, List.mem_filter.mpr ⟨he, hemits⟩, hid⟩)
    exact ⟨hne _ (by simp [Edge.ends]), hne _ (by simp [Edge.ends])⟩

/-- The nodes that a diagram declares come in the order of the edges, then in that of the graph. -/
theorem Legible.keys_reread {g : Graph} (h : g.Legible) (keepStyles fenced : Bool) :
    (ofDiagram (g.diagram keepStyles fenced)).nodes.keys =
      (g.emitted.flatMap Edge.ends ++ g.nodes.keys).eraseDups := by
  have hremove : ∀ l : List Text, l.removeAll (g.emitted.flatMap Edge.ends) =
      l.filter fun id => !(g.emitted.flatMap Edge.ends).contains id := by
    intro l
    rfl
  rw [keys_ofDiagram, h.ids_diagram, List.eraseDups_append, List.eraseDups_append, hremove,
    hremove, map_id_unmentioned h.keys, List.filter_filter]
  simp only [Bool.and_self]

/-- **A clean graph is read back from its diagram.** -/
theorem ofDiagram_diagram {g : Graph} (h : g.Clean) (keepStyles fenced : Bool) :
    let g' := ofDiagram (g.diagram keepStyles fenced)
    let drawn := g.edges.filter fun e => (g.endpoints? e).isSome
    g'.direction = .known (g.direction.wordOr .td) ∧
      g'.nodes.keys =
        (drawn.flatMap (fun e => [e.source, e.target]) ++ g.nodes.keys).eraseDups ∧
      (∀ id, (g'.nodes.get? id).map Node.toDeclaration =
        (g.nodes.get? id).map Node.toDeclaration) ∧
      g'.edges = drawn.mapIdx fun i e =>
        { id := Edge.defaultId e.source e.target i
          source := e.source
          target := e.target
          label := e.label.bind Json.ifTruthy
          animated := keepStyles && e.animated && !e.emphasized
          emphasized := keepStyles && e.emphasized } := by
  intro g' drawn
  refine ⟨h.legible.direction_reread keepStyles fenced, h.legible.keys_reread keepStyles fenced,
    h.legible.declared?_reread keepStyles fenced, ?_⟩
  have hedges : g'.edges = drawn.mapIdx fun i e => e.redrawn keepStyles i :=
    h.legible.edges_reread keepStyles fenced
  -- each edge keeps its label, since it is a text that is written as it is
  rw [hedges, List.mapIdx_eq_mapIdx_iff]
  intro i hi
  have hmem : drawn[i] ∈ g.edges := (List.mem_filter.mp (List.getElem_mem hi)).1
  rw [Edge.redrawn, h.toWritable.label_eq hmem]

/-- A clean graph with keywords for identifiers, a loop, a label, and an edge that lacks a node. -/
def sampleGraph : Graph where
  nodes := ⟨[
    ("end".toList, ⟨⟨"end".toList, "Stop (now)".toList, .known .circle⟩, {}⟩),
    ("Graph".toList, ⟨⟨"Graph".toList, "a[b]".toList, .known .rounded⟩, {}⟩)], by decide⟩
  edges := [
    ⟨"x".toList, "Graph".toList, "Graph".toList, some (.str "a b".toList), true, true⟩,
    ⟨"y".toList, "end".toList, "style".toList, none, false, false⟩]
  direction := .foreign "XY".toList (by decide)

theorem sampleGraph_nodes {key : Text} {n : Node} (h : sampleGraph.nodes.get? key = some n) :
    (key = "end".toList ∧ n.toDeclaration = ⟨"end".toList, "Stop (now)".toList, .known .circle⟩) ∨
      key = "Graph".toList ∧
        n.toDeclaration = ⟨"Graph".toList, "a[b]".toList, .known .rounded⟩ := by
  rw [Keyed.get?_eq_some_iff, sampleGraph, List.mem_cons, List.mem_singleton] at h
  rcases h with h | h
  · left
    cases h
    exact ⟨rfl, rfl⟩
  · right
    cases h
    exact ⟨rfl, rfl⟩

theorem sampleGraph_clean : sampleGraph.Clean where
  keys := by
    intro key n hn
    rcases sampleGraph_nodes hn with ⟨rfl, hd⟩ | ⟨rfl, hd⟩ <;> rw [hd]
  identifier := by
    intro key n hn
    rcases sampleGraph_nodes hn with ⟨-, hd⟩ | ⟨-, hd⟩ <;> rw [hd] <;> decide
  shape := by
    intro key n hn
    rcases sampleGraph_nodes hn with ⟨-, hd⟩ | ⟨-, hd⟩ <;> rw [hd] <;> exact ⟨_, rfl⟩
  label := by
    intro key n hn
    rcases sampleGraph_nodes hn with ⟨-, hd⟩ | ⟨-, hd⟩ <;> rw [hd] <;> decide
  rounded := by
    intro key n hn
    rcases sampleGraph_nodes hn with ⟨-, hd⟩ | ⟨-, hd⟩ <;> rw [hd] <;> rintro ⟨hround, m, -, hm⟩
    · cases hround
    · cases hm
  edgeLabel := by
    intro e he v hv
    rw [sampleGraph, List.mem_cons, List.mem_singleton] at he
    rcases he with rfl | rfl
    · exact ⟨"a b".toList, (Option.mem_some_iff.mp hv).symm, by decide, by decide, by decide⟩
    · cases hv
  styling := by
    intro key n hn _
    rcases sampleGraph_nodes hn with ⟨-, hd⟩ | ⟨-, hd⟩ <;> rw [hd] <;> decide

theorem ofDiagram_diagram_sampleGraph :
    sampleGraph.Clean ∧
      (ofDiagram (sampleGraph.diagram true true)).direction = .known .td ∧
      (ofDiagram (sampleGraph.diagram true true)).edges =
        [⟨Edge.defaultId "Graph".toList "Graph".toList 0, "Graph".toList, "Graph".toList,
          some (.str "a b".toList), false, true⟩] := by
  obtain ⟨hdirection, -, -, hedges⟩ := ofDiagram_diagram sampleGraph_clean true true
  exact ⟨sampleGraph_clean, hdirection, hedges.trans rfl⟩

end Flowchart.Graph
