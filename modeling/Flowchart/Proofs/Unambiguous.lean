import Flowchart.Proofs.Safe

/-!
# Reading what was read and written

A text may be read into nodes that no line can be written for: labels with arrows in them, and raw
text that begins like a label, ends with a semicolon, or starts a line like a header. These are the
only hazards. The graph of any text that is free of them (`Graph.Unambiguous`) is safe
(`Graph.Unambiguous.safe`), so writing it and reading the diagram loses nothing
(`Graph.reread_ofDiagram`).
-/

set_option autoImplicit false

namespace Flowchart

namespace Graph

/-- A graph without the nodes that no line can be written for. -/
structure Unambiguous (g : Graph) : Prop where
  noArrow : ∀ n ∈ g.nodes.values, Text.isIdentifier n.id = true → ¬ Arrow.HasArrow n.label
  noBar : ∀ n ∈ g.nodes.values, Text.isIdentifier n.id = false → n.id.head? ≠ some '|'
  noSemicolon : ∀ n ∈ g.nodes.values, Text.isIdentifier n.id = false → n.id.getLast? ≠ some ';'
  noStatement : ∀ n ∈ g.nodes.values, Text.isIdentifier n.id = false →
    (∃ e ∈ g.edges, e.source = n.id) → Keyword.readsAsStatement n.id = false

instance (g : Graph) : Decidable g.Unambiguous :=
  decidable_of_iff
    ((∀ n ∈ g.nodes.values, Text.isIdentifier n.id = true → ¬ Arrow.HasArrow n.label) ∧
      (∀ n ∈ g.nodes.values, Text.isIdentifier n.id = false → n.id.head? ≠ some '|') ∧
      (∀ n ∈ g.nodes.values, Text.isIdentifier n.id = false → n.id.getLast? ≠ some ';') ∧
      ∀ n ∈ g.nodes.values, Text.isIdentifier n.id = false →
        (∃ e ∈ g.edges, e.source = n.id) → Keyword.readsAsStatement n.id = false)
    ⟨fun ⟨harrow, hbar, hsemicolon, hstatement⟩ => ⟨harrow, hbar, hsemicolon, hstatement⟩,
      fun ⟨harrow, hbar, hsemicolon, hstatement⟩ => ⟨harrow, hbar, hsemicolon, hstatement⟩⟩

section Unambiguous

variable {t : Text} (h : (ofDiagram t).Unambiguous)

include h

theorem Unambiguous.plain {key : Text} {n : Node} (hn : (ofDiagram t).nodes.get? key = some n)
    (hid : Text.isIdentifier n.id = true) : n.toDeclaration.Plain :=
  ⟨regular_of_get? hn hid, h.noArrow n (Keyed.mem_values hn) hid⟩

/-- The source of a drawing is that of the line it comes from, or written for a plain node. -/
theorem Unambiguous.safe_source {d : Drawing}
    (hd : d ∈ (ofDiagram t).drawings [] (ofDiagram t).edges) :
    ¬ Arrow.HasArrow d.sourceText.tail ∧ Keyword.readsAsStatement d.sourceText = false := by
  obtain ⟨he, hs, -⟩ := get?_of_mem_drawings hd
  cases hid : Text.isIdentifier d.source.id with
  | true =>
      have hsource := Node.legibleSource_of_plain (h.plain hs hid) d.mentioned
      exact ⟨hsource.noArrow, hsource.noStatement⟩
  | false =>
      constructor
      · obtain ⟨line, hline, k, hk, hsource⟩ := exists_source_of_raw hd hid
        rw [hsource]
        exact Connection.not_hasArrow_tail hline.oneLine hk
      · rw [Drawing.sourceText, (raw_of_get? hs hid).mention_eq]
        exact h.noStatement _ (Keyed.mem_values hs) hid ⟨_, he, (id_of_get?_ofDiagram hs).symm⟩

/-- The target of a drawing is raw text or written for a regular node. -/
theorem Unambiguous.safe_target {d : Drawing}
    (hd : d ∈ (ofDiagram t).drawings [] (ofDiagram t).edges) :
    d.targetText.getLast? ≠ some ';' ∧
      (d.edge.writtenLabel = none → ¬ Connection.StartsLabelled d.targetText) := by
  obtain ⟨-, -, ht⟩ := get?_of_mem_drawings hd
  cases hid : Text.isIdentifier d.target.id with
  | true =>
      have htarget := Node.legibleTarget_of_regular (regular_of_get? ht hid) d.edge.writtenLabel
        (d.source.id :: d.mentioned)
      exact ⟨fun hlast => htarget.noSemicolon ';' hlast rfl, htarget.noLabel⟩
  | false =>
      rw [Drawing.targetText, (raw_of_get? ht hid).mention_eq]
      refine ⟨h.noSemicolon _ (Keyed.mem_values ht) hid, fun _ => ?_⟩
      rintro ⟨x, after, heq, -, -⟩
      exact h.noBar _ (Keyed.mem_values ht) hid (by rw [heq]; rfl)

/-- **An unambiguous graph that is read is safe.** -/
theorem Unambiguous.safe : (ofDiagram t).Safe where
  edges := by
    intro d hd
    obtain ⟨harrow, hstatement⟩ := h.safe_source hd
    obtain ⟨hsemicolon, hlabel⟩ := h.safe_target hd
    exact ⟨harrow, hstatement, hsemicolon, hlabel⟩
  lines := by
    intro n hn hlast
    obtain ⟨key, hkey⟩ := exists_get?_of_mem_unmentioned hn
    cases hid : Text.isIdentifier n.id with
    | true =>
        rw [Node.declaration_of_identifier hid] at hlast
        exact ((regular_of_get? hkey hid).legibleTarget none).noSemicolon ';' hlast rfl
    | false =>
        rw [(raw_of_get? hkey hid).declaration_eq] at hlast
        exact h.noSemicolon n (Keyed.mem_values hkey) hid hlast

theorem Unambiguous.legible : (ofDiagram t).Legible := h.safe.legible

end Unambiguous

theorem mapIdx_redrawn_edges (t : Text) (keepStyles : Bool) :
    ((ofDiagram t).edges.mapIdx fun i e => e.redrawn keepStyles i) =
      (ofDiagram t).edges.map fun e =>
        { e with
          animated := keepStyles && e.animated
          emphasized := keepStyles && e.emphasized } := by
  rw [List.mapIdx_eq_iff]
  intro i
  rw [List.getElem?_map, edges_eq_mapIdx, List.getElem?_mapIdx]
  cases hi : (connections t)[i]? with
  | none => rfl
  | some k =>
      obtain ⟨line, hline, hk⟩ := exists_line_of_mem_connections (List.mem_of_getElem? hi)
      have harrow := (afterSource_spec (keptLine_of_mem_bearingLines hline) hk).1
      simp only [Option.map_some, Edge.redrawn_ofConnection harrow keepStyles i]

/-- **Reading, writing and reading again loses nothing.** The graph of a text is read back from its
diagram, if it is unambiguous: the same direction, the same nodes, and the same edges, whose styles
are kept if they are written. Written again, it is the same diagram. -/
theorem reread_ofDiagram (t : Text) (h : (ofDiagram t).Unambiguous) (keepStyles fenced : Bool) :
    let g := ofDiagram t
    let g' := ofDiagram (g.diagram keepStyles fenced)
    g'.direction = g.direction ∧
      (∀ id, (g'.nodes.get? id).map Node.toDeclaration =
        (g.nodes.get? id).map Node.toDeclaration) ∧
      g'.edges = g.edges.map (fun e =>
        { e with
          animated := keepStyles && e.animated
          emphasized := keepStyles && e.emphasized }) ∧
      g'.diagram keepStyles fenced = g.diagram keepStyles fenced := by
  intro g g'
  refine ⟨?_, h.legible.declared?_reread keepStyles fenced, ?_,
    h.legible.diagram_reread keepStyles fenced⟩
  · have hdirection : g'.direction = .known g.headerDirection :=
      h.legible.direction_reread keepStyles fenced
    rw [hdirection, headerDirection, direction_ofDiagram]
    rfl
  · have hedges : g'.edges = g.emitted.mapIdx fun i e => e.redrawn keepStyles i :=
      h.legible.edges_reread keepStyles fenced
    rw [hedges, emitted_ofDiagram]
    exact mapIdx_redrawn_edges t keepStyles

/-- Raw text as a source, as a target and on a line of its own. -/
def roughDiagram : Text := "my node==>B\x7bx y\x7d\nhello world ;\nA-.->|a b|my node".toList

theorem reread_roughDiagram :
    (ofDiagram roughDiagram).Unambiguous ∧
      (ofDiagram ((ofDiagram roughDiagram).diagram true false)).diagram true false =
        "flowchart TD\n  my node ==> B\x7bx y\x7d\n  A[A] -.->|a b| my node\n  hello world".toList := by
  have hunambiguous : (ofDiagram roughDiagram).Unambiguous := by
    decide +kernel
  obtain ⟨-, -, -, hstable⟩ := reread_ofDiagram roughDiagram hunambiguous true false
  exact ⟨hunambiguous, hstable.trans (by decide +kernel)⟩

end Graph

end Flowchart
