import Flowchart.Proofs.Clean

/-!
# Nodes that are called like styling

A line that connects nothing and begins with a word of styling is dropped, so the line of a node
whose identifier begins with such a word says nothing (`Statement.read?_styled`). Such a node is
read back from a diagram if an edge that is drawn mentions it, and only then; every other node is
read back in any case, also one that is called like a header or a bound of a subgraph
(`Graph.get?_reread`).
-/

set_option autoImplicit false

namespace Flowchart

/-! ## Lines that are dropped -/

/-- An identifier begins like a line of styling. -/
def Text.Styled (id : Text) : Prop := ∃ word ∈ Statement.stylingWords, word <+: id

instance (id : Text) : Decidable (Text.Styled id) :=
  inferInstanceAs (Decidable (∃ word ∈ Statement.stylingWords, word <+: id))

theorem Declaration.isStyling_written {d : Declaration} (h : d.Regular)
    (hstyled : Text.Styled d.id) :
    Statement.isStyling d.written = true := by
  obtain ⟨o, x, hw, -⟩ := h.exists_opening
  obtain ⟨word, hword, hprefix⟩ := hstyled
  rw [Statement.isStyling, List.any_eq_true]
  refine ⟨word, hword, List.isPrefixOf_iff_prefix.mpr ?_⟩
  rw [hw]
  exact hprefix.trans (List.prefix_append _ _)

/-- The line of a plain node that begins like styling makes no statement. -/
theorem Statement.read?_styled {d : Declaration} (h : d.Plain) (hstyled : Text.Styled d.id) :
    read? (Graph.indent ++ d.written) = none := by
  have hkept : keptLine? (Graph.indent ++ d.written) = some d.written :=
    keptLine?_append Graph.isBlank_of_mem_indent h.isPart_written.trimmed h.isPart_written.ne_nil
      h.noRemark (h.legibleTarget none).noSemicolon
  have hconnection : Connection.ofLine? d.written = none :=
    Connection.ofLine?_eq_none h.oneLine h.legibleSource.noArrow
  rw [read?, hkept, Option.bind_some, ofLine?, h.noFraming, if_neg Bool.false_ne_true, hconnection,
    Declaration.isStyling_written h.toRegular hstyled]
  rfl

namespace Graph

section Writable

variable {g : Graph} (h : g.Writable)

include h

/-- Of the lines of lone nodes, those remain that do not begin like styling. -/
theorem Writable.filterMap_unmentioned :
    (g.unmentioned.map fun n => indent ++ n.declaration).filterMap Statement.read? =
      (g.unmentioned.filter fun n => !decide (Text.Styled n.id)).map
        fun n => .declare n.toDeclaration := by
  rw [List.filterMap_map, ← List.filterMap_eq_map, List.filterMap_filter]
  refine List.filterMap_congr fun n hn => ?_
  obtain ⟨key, hkey⟩ := exists_get?_of_mem_unmentioned hn
  have hplain := h.plain hkey
  have hdeclaration := Node.declaration_of_identifier hplain.identifier
  rw [Function.comp_apply, hdeclaration]
  by_cases hstyled : Text.Styled n.id
  · rw [Statement.read?_styled hplain hstyled]
    simp [hstyled]
  · have hline : LegibleLine n.toDeclaration.written :=
      hplain.legibleLine fun word hword hprefix => hstyled ⟨word, hword, hprefix⟩
    rw [read?_line hline, hplain.reads]
    simp [hstyled]

/-- The diagram of a writable graph says its edges, and its lone nodes but for those that begin like
styling. -/
theorem Writable.says_diagram (keepStyles fenced : Bool) :
    g.Says keepStyles (g.unmentioned.filter fun n => !decide (Text.Styled n.id))
      (g.diagram keepStyles fenced) := by
  have hnodes : ∀ n ∈ g.unmentioned, '\n' ∉ n.declaration := by
    intro n hn
    obtain ⟨key, hkey⟩ := exists_get?_of_mem_unmentioned hn
    rw [Node.declaration_of_identifier (h.identifier key n hkey)]
    exact (h.plain hkey).oneLine
  have hedges : ∀ d ∈ g.drawings [] g.edges, d.Legible := fun d hd => h.legible_of_mem_drawings hd
  rw [Says, statements_diagram (oneLine_diagramLines hedges hnodes),
    filterMap_edgeLines (fun _ _ hn => h.readable hn) hedges, h.filterMap_unmentioned]

end Writable

/-- An edge that is drawn starts or ends at a node. -/
def Mentions (g : Graph) (id : Text) : Prop :=
  ∃ e ∈ g.edges, (g.endpoints? e).isSome = true ∧ (e.source = id ∨ e.target = id)

instance (g : Graph) (id : Text) : Decidable (g.Mentions id) :=
  inferInstanceAs (Decidable (∃ e ∈ g.edges,
    (g.endpoints? e).isSome = true ∧ (e.source = id ∨ e.target = id)))

theorem mentions_iff (g : Graph) (id : Text) :
    g.Mentions id ↔ id ∈ g.emitted.flatMap Edge.ends := by
  simp only [Mentions, emitted, List.mem_flatMap, List.mem_filter, emits, Edge.ends, List.mem_cons,
    List.not_mem_nil, or_false, and_assoc, eq_comm]

/-- A node has a line that is read: that of an edge, or one of its own that is not dropped. -/
theorem Writable.mem_said_iff {g : Graph} (h : g.Writable) {key : Text} {n : Node}
    (hn : g.nodes.get? key = some n) :
    key ∈ g.emitted.flatMap Edge.ends ++
        (g.unmentioned.filter fun m => !decide (Text.Styled m.id)).map (fun m => m.id) ↔
      g.Mentions key ∨ ¬ Text.Styled key := by
  have hid : n.id = key := h.keys key n hn
  rw [List.mem_append, ← mentions_iff]
  constructor
  · rintro (hmention | hmem)
    · exact .inl hmention
    · obtain ⟨m, hm, rfl⟩ := List.mem_map.mp hmem
      exact .inr (by simpa using (List.mem_filter.mp hm).2)
  · rintro (hmention | hstyled)
    · exact .inl hmention
    · by_cases hmention : g.Mentions key
      · exact .inl hmention
      · refine .inr (List.mem_map.mpr ⟨n, ?_, hid⟩)
        refine List.mem_filter.mpr ⟨List.mem_filter.mpr ⟨?_, ?_⟩, ?_⟩
        · exact Keyed.mem_values hn
        · rw [mentionsAfter_eq h.keys, hid]
          rw [mentions_iff, emitted] at hmention
          simp [hmention]
        · simp [hid, hstyled]

/-- **A node is read back unless it stands alone and is called like styling.** Whatever else its
identifier is or begins with, a node keeps its label and its shape. -/
theorem get?_reread {g : Graph} (h : g.Writable) (keepStyles fenced : Bool) {key : Text} {n : Node}
    (hn : g.nodes.get? key = some n) :
    (g.Mentions n.id ∨ ¬ Text.Styled n.id →
      ∃ m, (ofDiagram (g.diagram keepStyles fenced)).nodes.get? key = some m ∧
        m.toDeclaration = n.toDeclaration) ∧
    (¬ (g.Mentions n.id ∨ ¬ Text.Styled n.id) →
      (ofDiagram (g.diagram keepStyles fenced)).nodes.get? key = none) := by
  obtain rfl : n.id = key := h.keys key n hn
  have hread := (h.says_diagram keepStyles fenced).declared?_eq h.keys
    (fun m hm => (List.mem_filter.mp (List.mem_filter.mp hm).1).1) n.id
  have hsaid : g.declared? n.id = some n.toDeclaration :=
    declared?_of_mem_values h.keys (Keyed.mem_values hn)
  constructor
  · intro hkept
    rw [if_pos ((h.mem_said_iff hn).mpr hkept), hsaid] at hread
    exact Option.map_eq_some_iff.mp hread
  · intro hdropped
    rw [if_neg fun hmem => hdropped ((h.mem_said_iff hn).mp hmem)] at hread
    exact Option.map_eq_none_iff.mp hread

/-- A room for lessons that stands alone, a plan that is called like styling, and a bell that is
called like the end of a subgraph. -/
def schoolGraph : Graph where
  nodes := ⟨[
    ("classroom".toList, ⟨⟨"classroom".toList, "Room 1".toList, .known .rectangle⟩, {}⟩),
    ("style".toList, ⟨⟨"style".toList, "Plan".toList, .known .diamond⟩, {}⟩),
    ("end".toList, ⟨⟨"end".toList, "Bell".toList, .known .circle⟩, {}⟩)], by decide⟩
  edges := [{ id := "e".toList, source := "style".toList, target := "style".toList }]

theorem schoolGraph_nodes {key : Text} {n : Node} (h : schoolGraph.nodes.get? key = some n) :
    n = ⟨⟨"classroom".toList, "Room 1".toList, .known .rectangle⟩, {}⟩ ∧ key = "classroom".toList ∨
      n = ⟨⟨"style".toList, "Plan".toList, .known .diamond⟩, {}⟩ ∧ key = "style".toList ∨
        n = ⟨⟨"end".toList, "Bell".toList, .known .circle⟩, {}⟩ ∧ key = "end".toList := by
  rw [Keyed.get?_eq_some_iff, schoolGraph, List.mem_cons, List.mem_cons, List.mem_singleton] at h
  simp only [Prod.mk.injEq] at h
  tauto

theorem schoolGraph_writable : schoolGraph.Writable where
  keys key n hn := by
    rcases schoolGraph_nodes hn with ⟨rfl, rfl⟩ | ⟨rfl, rfl⟩ | ⟨rfl, rfl⟩ <;> rfl
  identifier key n hn := by
    rcases schoolGraph_nodes hn with ⟨rfl, -⟩ | ⟨rfl, -⟩ | ⟨rfl, -⟩ <;> decide
  shape key n hn := by
    rcases schoolGraph_nodes hn with ⟨rfl, -⟩ | ⟨rfl, -⟩ | ⟨rfl, -⟩ <;> exact ⟨_, rfl⟩
  label key n hn := by
    rcases schoolGraph_nodes hn with ⟨rfl, -⟩ | ⟨rfl, -⟩ | ⟨rfl, -⟩ <;> decide
  rounded key n hn := by
    rcases schoolGraph_nodes hn with ⟨rfl, -⟩ | ⟨rfl, -⟩ | ⟨rfl, -⟩ <;> rintro ⟨hround, -⟩ <;>
      cases hround
  edgeLabel e he v hv := by
    obtain rfl := List.mem_singleton.mp he
    cases hv

/-- The room is not read back; the plan and the bell are. -/
theorem get?_reread_schoolGraph :
    (ofDiagram (schoolGraph.diagram true false)).nodes.get? "classroom".toList = none ∧
      (∃ m, (ofDiagram (schoolGraph.diagram true false)).nodes.get? "style".toList = some m ∧
        m.toDeclaration = ⟨"style".toList, "Plan".toList, .known .diamond⟩) ∧
      ∃ m, (ofDiagram (schoolGraph.diagram true false)).nodes.get? "end".toList = some m ∧
        m.toDeclaration = ⟨"end".toList, "Bell".toList, .known .circle⟩ := by
  have hroom : schoolGraph.nodes.get? "classroom".toList =
      some ⟨⟨"classroom".toList, "Room 1".toList, .known .rectangle⟩, {}⟩ := rfl
  have hplan : schoolGraph.nodes.get? "style".toList =
      some ⟨⟨"style".toList, "Plan".toList, .known .diamond⟩, {}⟩ := rfl
  have hbell : schoolGraph.nodes.get? "end".toList =
      some ⟨⟨"end".toList, "Bell".toList, .known .circle⟩, {}⟩ := rfl
  exact ⟨(get?_reread schoolGraph_writable true false hroom).2 (by decide),
    (get?_reread schoolGraph_writable true false hplan).1 (by decide),
    (get?_reread schoolGraph_writable true false hbell).1 (by decide)⟩

/-- Not every node of a writable graph is read back. -/
theorem not_all_read_back :
    ¬ ∀ g : Graph, g.Writable → ∀ (key : Text) (n : Node), g.nodes.get? key = some n →
      ∃ m, (ofDiagram g.diagram).nodes.get? key = some m ∧ m.toDeclaration = n.toDeclaration := by
  intro hall
  obtain ⟨m, hm, -⟩ := hall schoolGraph schoolGraph_writable "classroom".toList _ rfl
  have hnone : ((ofDiagram schoolGraph.diagram).nodes.get? "classroom".toList).isNone = true := by
    decide +kernel
  rw [hm] at hnone
  cases hnone

end Graph

end Flowchart
