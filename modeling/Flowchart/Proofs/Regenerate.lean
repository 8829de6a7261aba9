import Flowchart.Proofs.Align
import Flowchart.Proofs.Origin

/-!
# The lines of a regenerated diagram

The diagram that is written for the graph of a text has a line for each of its edges and for each
node that no edge mentions. Its parts are parts of kept lines (`Drawing.Sound`), so it is cut into
just these lines (`Graph.lines_regenerated`), and a line of a node connects nothing
(`Graph.connection?_unmentioned`). If the diagram is the text that was read, the line of every edge
is read as the connection that the edge came from (`Graph.exists_connection_of_fixed`).
-/

set_option autoImplicit false

namespace Flowchart

/-! ## What whole lines contribute -/

namespace Statement

/-- What is kept of a line that bears on the graph. -/
def bearing? (line : Text) : Option Text := (keptLine? line).filter bears

/-- The connection that a whole line makes. -/
def connection? (line : Text) : Option Connection := (bearing? line).bind Connection.ofLine?

theorem bearing?_eq_some_iff (line kept : Text) :
    bearing? line = some kept ↔ keptLine? line = some kept ∧ bears kept = true := by
  rw [bearing?, Option.filter_eq_some_iff]

end Statement

theorem bearingLines_eq_filterMap (t : Text) :
    bearingLines t = t.lines.filterMap Statement.bearing? := List.filter_filterMap

theorem connections_eq_filterMap (t : Text) :
    connections t = t.lines.filterMap Statement.connection? := by
  rw [connections, bearingLines_eq_filterMap, List.filterMap_filterMap]
  rfl

/-! ## Drawings of what was read -/

/-- A drawing whose parts are parts of lines. -/
structure Drawing.Sound (d : Drawing) : Prop where
  source : Text.IsPart d.sourceText
  label : ∀ x ∈ d.edge.writtenLabel, LegibleLabel x
  target : Text.IsPart d.targetText

theorem Drawing.Sound.isPart_body {d : Drawing} (h : d.Sound) (keepStyles : Bool) :
    Text.IsPart (d.body keepStyles) where
  trimmed := by
    refine Text.Trimmed.append h.source.trimmed.head h.source.ne_nil (fun c hc => ?_)
      (List.cons_ne_nil ' ' _)
    refine h.target.trimmed.last c ?_
    have hsuffix : d.targetText <:+ ' ' :: (d.edge.writtenArrow keepStyles ++
        (barred d.edge.writtenLabel ++ ' ' :: d.targetText)) :=
      ⟨' ' :: (d.edge.writtenArrow keepStyles ++ (barred d.edge.writtenLabel ++ [' '])), by simp⟩
    obtain ⟨v, hv⟩ := hsuffix
    rwa [← hv, List.getLast?_append_of_ne_nil v h.target.ne_nil] at hc
  ne_nil := List.append_ne_nil_of_right_ne_nil _ (List.cons_ne_nil ' ' _)
  oneLine := not_mem_edge h.source.oneLine (d.edge.writtenArrow_mem keepStyles) h.label
    h.target.oneLine

namespace Graph

variable {t : Text}

theorem isPart_id_of_get? {key : Text} {n : Node} (h : (ofDiagram t).nodes.get? key = some n) :
    Text.IsPart n.id := by
  cases hid : Text.isIdentifier n.id with
  | true => exact isPart_identifier hid
  | false => exact (raw_of_get? h hid).isPart

theorem isPart_declaration_of_get? {key : Text} {n : Node}
    (h : (ofDiagram t).nodes.get? key = some n) : Text.IsPart n.declaration := by
  cases hid : Text.isIdentifier n.id with
  | true =>
      rw [Node.declaration_of_identifier hid]
      exact (regular_of_get? h hid).isPart_written
  | false =>
      rw [(raw_of_get? h hid).declaration_eq]
      exact isPart_id_of_get? h

theorem isPart_mention_of_get? {key : Text} {n : Node}
    (h : (ofDiagram t).nodes.get? key = some n) (mentioned : List Text) (startsLine : Bool) :
    Text.IsPart (n.mention mentioned startsLine) := by
  rcases n.mention_cases mentioned startsLine with ⟨heq, -⟩ | heq <;> rw [heq]
  · exact isPart_id_of_get? h
  · exact isPart_declaration_of_get? h

theorem sound_of_mem_drawings {d : Drawing}
    (h : d ∈ (ofDiagram t).drawings [] (ofDiagram t).edges) : d.Sound := by
  obtain ⟨he, hs, ht⟩ := get?_of_mem_drawings h
  refine ⟨isPart_mention_of_get? hs _ _, ?_, isPart_mention_of_get? ht _ _⟩
  obtain ⟨k, hconnection, i, hedge⟩ := exists_connection_of_mem_edges he
  obtain ⟨line, hline, hk⟩ := exists_line_of_mem_connections hconnection
  rw [hedge]
  exact legibleLabel_of_ofConnection (keptLine_of_mem_bearingLines hline) hk i

/-! ## Lines -/

section Lines

variable (keepStyles fenced : Bool)

/-- The lines of the edges and nodes of a graph. -/
def bodyLines (g : Graph) : List Text :=
  ((g.drawings [] g.edges).map fun d => indent ++ d.body keepStyles) ++
    g.unmentioned.map fun n => indent ++ n.declaration

theorem diagramLines_eq_bodyLines (g : Graph) :
    g.diagramLines keepStyles = g.header :: g.bodyLines keepStyles := by
  rw [diagramLines_eq, edgeLines_fst]
  rfl

theorem oneLine_bodyLines {line : Text} (h : line ∈ (ofDiagram t).bodyLines keepStyles) :
    '\n' ∉ line := by
  have hindent : ∀ {x : Text}, '\n' ∉ x → '\n' ∉ indent ++ x := by
    intro x hx
    simpa [indent] using hx
  rcases List.mem_append.mp h with h | h
  · obtain ⟨d, hd, rfl⟩ := List.mem_map.mp h
    exact hindent ((sound_of_mem_drawings hd).isPart_body keepStyles).oneLine
  · obtain ⟨n, hn, rfl⟩ := List.mem_map.mp h
    obtain ⟨key, hkey⟩ := exists_get?_of_mem_unmentioned hn
    exact hindent (isPart_declaration_of_get? hkey).oneLine

/-- The diagram of a graph that was read is cut into the lines it was written in. -/
theorem lines_regenerated :
    ((ofDiagram t).diagram keepStyles fenced).lines =
      fence fenced ((ofDiagram t).header :: (ofDiagram t).bodyLines keepStyles) := by
  rw [← diagramLines_eq_bodyLines]
  refine lines_diagram (fun line hmem => ?_) fenced
  rw [diagramLines_eq_bodyLines] at hmem
  rcases List.mem_cons.mp hmem with rfl | hmem
  · exact (header_facts _).2.2.2
  · exact oneLine_bodyLines keepStyles hmem

theorem bearing?_header (g : Graph) : Statement.bearing? g.header = none := by
  obtain ⟨hkept, hframing, -, -⟩ := g.header_facts
  rw [Statement.bearing?, hkept, Option.filter_some, Statement.bears, hframing]
  rfl

theorem bearingLines_regenerated :
    bearingLines ((ofDiagram t).diagram keepStyles fenced) =
      ((ofDiagram t).bodyLines keepStyles).filterMap Statement.bearing? := by
  rw [bearingLines_eq_filterMap, lines_regenerated, filterMap_fence (by decide) (by decide),
    List.filterMap_cons_none (bearing?_header _)]

end Lines

/-- The declaration of a node that no edge mentions is the line that it comes from, or holds no
arrow. -/
theorem ofLine?_declaration_of_mem_unmentioned {n : Node} (hn : n ∈ (ofDiagram t).unmentioned) :
    Connection.ofLine? n.declaration = none := by
  obtain ⟨line, hline, hnone, hd⟩ := exists_line_of_mem_unmentioned hn
  obtain ⟨key, hkey⟩ := exists_get?_of_mem_unmentioned hn
  have hkept := keptLine_of_mem_bearingLines hline
  cases hid : Text.isIdentifier n.id with
  | true =>
      have hregular := regular_of_get? hkey hid
      rw [Node.declaration_of_identifier hid]
      rcases Declaration.ofText_cases hkept.oneLine with ⟨-, -, -, hw⟩ | hof
      · rw [hd, hw]
        exact hnone
      · have hplain : n.toDeclaration.Plain := by
          refine ⟨hregular, ?_⟩
          rw [hd, hof] at hid ⊢
          exact not_hasArrow_identifier hid
        exact Connection.ofLine?_eq_none hregular.oneLine hplain.legibleSource.noArrow
  | false =>
      have hraw := raw_of_get? hkey hid
      rw [hd] at hid
      rw [hraw.declaration_eq, hd, Declaration.ofText_of_raw hkept.oneLine hid]
      exact hnone

/-- The line of a node that no edge mentions connects nothing. -/
theorem connection?_unmentioned {n : Node} (hn : n ∈ (ofDiagram t).unmentioned) :
    Statement.connection? (indent ++ n.declaration) = none := by
  obtain ⟨key, hkey⟩ := exists_get?_of_mem_unmentioned hn
  have hpart := isPart_declaration_of_get? hkey
  have hdeclaration := ofLine?_declaration_of_mem_unmentioned hn
  cases hb : Statement.bearing? (indent ++ n.declaration) with
  | none => rw [Statement.connection?, hb, Option.bind_none]
  | some kept =>
      rw [Statement.connection?, hb, Option.bind_some]
      have hprefix := isPrefix_of_keptLine? ((Statement.bearing?_eq_some_iff _ _).mp hb).1
      rw [hpart.trimmed.trim_indent] at hprefix
      cases hk : Connection.ofLine? kept with
      | none => rfl
      | some k =>
          have hsome :=
            Connection.isSome_ofLine?_of_isPrefix hpart.oneLine hprefix (by rw [hk]; rfl)
          rw [hdeclaration] at hsome
          cases hsome

/-- Every connection makes an edge, and every edge is drawn. -/
theorem map_edge_drawings_ofDiagram :
    ((ofDiagram t).drawings [] (ofDiagram t).edges).map Drawing.edge =
      (connections t).mapIdx Edge.ofConnection := by
  have hdrawings := map_edge_drawings (ofDiagram t) [] (ofDiagram t).edges
  have hemitted : (ofDiagram t).edges.filter (ofDiagram t).emits = (ofDiagram t).edges :=
    emitted_ofDiagram
  rw [hdrawings, hemitted, edges_eq_mapIdx]

/-! ## Diagrams that are regenerated as they are -/

theorem map_eq_of_filterMap {α β : Type} {f : α → Option β} {l : List α}
    (h : ∀ a ∈ l, (f a).isSome = true) : l.map f = (l.filterMap f).map some := by
  induction l with
  | nil => rfl
  | cons a rest ih =>
      obtain ⟨b, hb⟩ := Option.isSome_iff_exists.mp (h a List.mem_cons_self)
      rw [List.filterMap_cons_some hb, List.map_cons, List.map_cons, hb,
        ih fun a ha => h a (List.mem_cons_of_mem _ ha)]

section Fixed

variable {keepStyles fenced : Bool} (hfix : (ofDiagram t).diagram keepStyles fenced = t)

include hfix

theorem connections_of_fixed :
    connections t = ((ofDiagram t).drawings [] (ofDiagram t).edges).filterMap
      fun d => Statement.connection? (indent ++ d.body keepStyles) := by
  have hlines := lines_regenerated (t := t) keepStyles fenced
  rw [hfix] at hlines
  have hheader : Statement.connection? (ofDiagram t).header = none := by
    rw [Statement.connection?, bearing?_header, Option.bind_none]
  have hunmentioned : ((ofDiagram t).unmentioned.map fun n => indent ++ n.declaration).filterMap
      Statement.connection? = [] := by
    rw [List.filterMap_map, List.filterMap_eq_nil_iff]
    exact fun n hn => connection?_unmentioned hn
  rw [connections_eq_filterMap, hlines, filterMap_fence (by decide) (by decide),
    List.filterMap_cons_none hheader, bodyLines, List.filterMap_append, hunmentioned,
    List.append_nil, List.filterMap_map]
  rfl

/-- There are as many connections as edges, so the line of every edge is one of them. -/
theorem map_connection?_of_fixed :
    (((ofDiagram t).drawings [] (ofDiagram t).edges).map
        fun d => Statement.connection? (indent ++ d.body keepStyles)) =
      (connections t).map some := by
  have hlength : (connections t).length =
      ((ofDiagram t).drawings [] (ofDiagram t).edges).length := by
    have hedges := congrArg List.length (map_edge_drawings_ofDiagram (t := t))
    rw [List.length_map, List.length_mapIdx] at hedges
    exact hedges.symm
  -- nothing is lost where there are as many results as lines
  have hconnections := connections_of_fixed hfix
  rw [hconnections, List.filterMap_length_eq_length] at hlength
  rw [map_eq_of_filterMap hlength, ← hconnections]

/-- **The line of every edge is read as the connection that the edge came from.** -/
theorem exists_connection_of_fixed {i : Nat} {d : Drawing}
    (hd : ((ofDiagram t).drawings [] (ofDiagram t).edges)[i]? = some d) :
    ∃ k, (connections t)[i]? = some k ∧
      Statement.connection? (indent ++ d.body keepStyles) = some k ∧
      d.edge = Edge.ofConnection i k := by
  have hmap := congrArg (fun l => l[i]?) (map_connection?_of_fixed hfix)
  simp only [List.getElem?_map, hd, Option.map_some] at hmap
  obtain ⟨k, hk, hread⟩ := Option.map_eq_some_iff.mp hmap.symm
  refine ⟨k, hk, hread.symm, ?_⟩
  have hedges := congrArg (fun l => l[i]?) (map_edge_drawings_ofDiagram (t := t))
  simp only [List.getElem?_map, List.getElem?_mapIdx, hd, hk, Option.map_some,
    Option.some.injEq] at hedges
  exact hedges

end Fixed

end Graph

end Flowchart
