import Flowchart.Proofs.Safe
import Flowchart.Proofs.FixedPoint

/-!
# Normalized diagrams

A text is normalized by reading it and writing the graph. Normalizing twice may change what
normalizing once has written: `x ; ;` is normalized to the line `x ;`, whose semicolon is dropped
when it is read. It changes nothing just if the first diagram is that of a legible graph; and if no
edge is written with an arrow in its source, just if the graph of the text is safe
(`normalized_normalized`).
-/

set_option autoImplicit false

namespace Flowchart

/-! ## Lines that are joined in one way -/

/-- What follows an arrow tells the label from the target. -/
theorem barred_inj {l l' : Option Text} {q q' : Text} (hl : ∀ x ∈ l, LegibleLabel x)
    (hl' : ∀ x ∈ l', LegibleLabel x) (hq : Text.IsPart q) (hq' : Text.IsPart q')
    (h : barred l ++ ' ' :: q = barred l' ++ ' ' :: q') : l = l' ∧ q = q' := by
  cases l with
  | none =>
      cases l' with
      | none => exact ⟨rfl, List.tail_eq_of_cons_eq h⟩
      | some x' => cases List.head_eq_of_cons_eq h
  | some x =>
      cases l' with
      | none => cases List.head_eq_of_cons_eq h
      | some x' =>
          -- a label between bars is read, whatever the target
          have hread := Connection.labelAndTarget?_label (hl x rfl).noBar hq.oneLine hq.ne_nil
            hq.trimmed.head
          have hread' := Connection.labelAndTarget?_label (hl' x' rfl).noBar hq'.oneLine hq'.ne_nil
            hq'.trimmed.head
          have hbars : '|' :: (x ++ '|' :: ' ' :: q) = '|' :: (x' ++ '|' :: ' ' :: q') := by
            simpa [barred] using h
          have heq := hread.symm.trans (hbars ▸ hread')
          rw [Option.some.injEq, Prod.mk.injEq] at heq
          exact heq

namespace Drawing

variable {d : Drawing}

/-- Without an arrow in its source, the line of a drawing is read with that source. -/
theorem Sound.exists_connection (h : d.Sound) (harrow : ¬ Arrow.HasArrow d.sourceText.tail)
    (keepStyles : Bool) :
    ∃ l q, Connection.ofLine? (d.body keepStyles) =
      some ⟨d.sourceText, d.edge.writtenArrow keepStyles, l, q⟩ := by
  have hmem := d.edge.writtenArrow_mem keepStyles
  have hlf : '\n' ∉ barred d.edge.writtenLabel ++ ' ' :: d.targetText := by
    simp [not_mem_barred h.label, h.target.oneLine]
  have hlf' : '\n' ∉ d.edge.writtenArrow keepStyles ++
      (barred d.edge.writtenLabel ++ ' ' :: d.targetText) := by
    simp [not_mem_connectors hmem, not_mem_barred h.label, h.target.oneLine]
  obtain ⟨⟨l, q⟩, hparts⟩ := Option.isSome_iff_exists.mp
    ((Connection.isSome_labelAndTarget?_iff hlf).mpr
      (List.append_ne_nil_of_right_ne_nil _ (List.cons_ne_nil _ _)))
  exact ⟨l, q, Connection.ofLine?_source h.source.oneLine hlf' h.source.ne_nil
    h.source.trimmed.last harrow (Connection.afterSource?_connector hmem hparts)⟩

/-- A drawing without an arrow in its source is legible if its line is that of a legible one. -/
theorem Legible.of_body {d' : Drawing} (h' : d'.Legible) (h : d.Sound) {keepStyles : Bool}
    (harrow : ¬ Arrow.HasArrow d.sourceText.tail)
    (hbody : d.body keepStyles = d'.body keepStyles) : d.Legible := by
  obtain ⟨l, q, hread⟩ := h.exists_connection harrow keepStyles
  have hread' := ofLine?_edge h'.source (d'.edge.writtenArrow_mem keepStyles) h'.label h'.target
  rw [hbody, body, hread', Option.some.injEq, Connection.mk.injEq] at hread
  obtain ⟨hsource, hconnector, -, -⟩ := hread
  have hrest : barred d.edge.writtenLabel ++ ' ' :: d.targetText =
      barred d'.edge.writtenLabel ++ ' ' :: d'.targetText := by
    rw [body, body, hsource, List.append_cancel_left_eq, hconnector] at hbody
    exact List.append_cancel_left (List.tail_eq_of_cons_eq hbody)
  obtain ⟨hlabel, htarget⟩ := barred_inj h.label h'.label h.target h'.target.toIsPart hrest
  refine ⟨hsource ▸ h'.source, h.label, ?_⟩
  rw [hlabel, htarget]
  exact h'.target

end Drawing

namespace Graph

theorem fence_inj {fenced : Bool} {lines lines' : List Text}
    (h : fence fenced lines = fence fenced lines') : lines = lines' := by
  cases fenced with
  | false => exact h
  | true => exact List.append_cancel_right (List.tail_eq_of_cons_eq h)

section SameDiagram

variable {t : Text} {g : Graph} (hg : g.Legible) {keepStyles fenced : Bool}
  (hsame : g.diagram keepStyles fenced = (ofDiagram t).diagram keepStyles fenced)

include hg hsame

/-- Equal diagrams have equal lines. -/
theorem bodyLines_of_same : g.bodyLines keepStyles = (ofDiagram t).bodyLines keepStyles := by
  have hlines := hg.lines_diagram keepStyles fenced
  rw [hsame, lines_regenerated, diagramLines_eq_bodyLines] at hlines
  exact (List.tail_eq_of_cons_eq (fence_inj hlines)).symm

/-- The graph of a text is legible if its diagram is that of a legible graph and no edge is written
with an arrow in its source. -/
theorem legible_of_same (harrow : ∀ d ∈ (ofDiagram t).drawings [] (ofDiagram t).edges,
    ¬ Arrow.HasArrow d.sourceText.tail) : (ofDiagram t).Legible where
  keys := fun _ _ hn => id_of_get?_ofDiagram hn
  readable := fun _ _ hn => readable_of_get? hn
  edges := by
    intro d hd
    have hsound := sound_of_mem_drawings hd
    have hmem : indent ++ d.body keepStyles ∈ g.bodyLines keepStyles := by
      rw [bodyLines_of_same hg hsame]
      exact List.mem_append_left _ (List.mem_map_of_mem hd)
    rcases List.mem_append.mp hmem with hmem | hmem
    · obtain ⟨d', hd', hbody⟩ := List.mem_map.mp hmem
      exact (hg.edges d' hd').of_body hsound (harrow d hd) (List.append_cancel_left hbody).symm
    · -- the line of a node connects nothing
      obtain ⟨n, hn, hbody⟩ := List.mem_map.mp hmem
      obtain ⟨l, q, hread⟩ := hsound.exists_connection (harrow d hd) keepStyles
      rw [← List.append_cancel_left hbody, (hg.lines n hn).noConnection] at hread
      cases hread
  lines := by
    intro n hn
    have hmem : indent ++ n.declaration ∈ g.bodyLines keepStyles := by
      rw [bodyLines_of_same hg hsame]
      exact List.mem_append_right _ (List.mem_map_of_mem hn)
    rcases List.mem_append.mp hmem with hmem | hmem
    · -- the line of an edge does
      obtain ⟨d, hd, hbody⟩ := List.mem_map.mp hmem
      have hlegible := hg.edges d hd
      have hread := ofLine?_edge hlegible.source (d.edge.writtenArrow_mem keepStyles)
        hlegible.label hlegible.target
      have hnone := ofLine?_declaration_of_mem_unmentioned hn
      rw [← List.append_cancel_left hbody, Drawing.body, hread] at hnone
      cases hnone
    · obtain ⟨m, hm, hdeclaration⟩ := List.mem_map.mp hmem
      rw [← List.append_cancel_left hdeclaration]
      exact hg.lines m hm

end SameDiagram

end Graph

/-! ## Normalizing twice -/

/-- The diagram that is written for the graph of a text. -/
def normalized (keepStyles fenced : Bool) (t : Text) : Text :=
  (Graph.ofDiagram t).diagram keepStyles fenced

/-- **When normalizing again changes nothing.** In general, just when the normalized text is the
diagram of a legible graph. If no edge is written with an arrow in its source, just when the graph
that was read is safe. -/
theorem normalized_normalized (keepStyles fenced : Bool) (t : Text) :
    let once := normalized keepStyles fenced t
    let g := Graph.ofDiagram t
    (normalized keepStyles fenced once = once ↔
      ∃ g' : Graph, g'.Legible ∧ g'.diagram keepStyles fenced = once) ∧
    ((∀ d ∈ g.drawings [] g.edges, ¬ Arrow.HasArrow d.sourceText.tail) →
      (normalized keepStyles fenced once = once ↔ g.Safe)) := by
  intro once g
  refine ⟨Graph.fixed_iff once keepStyles fenced, fun harrow => ?_⟩
  rw [← Graph.legible_iff_safe]
  constructor
  · intro hfix
    obtain ⟨g', hg', hsame⟩ := (Graph.fixed_iff once keepStyles fenced).mp hfix
    exact Graph.legible_of_same hg' hsame harrow
  · intro hlegible
    exact hlegible.diagram_reread keepStyles fenced

/-- One semicolon is dropped each time that a line is read. -/
theorem normalized_normalized_semicolons :
    let t := "x ; ;".toList
    normalized true false t = "flowchart TD\n  x ;".toList ∧
      normalized true false (normalized true false t) = "flowchart TD\n  x[x]".toList ∧
      normalized true false (normalized true false t) ≠ normalized true false t := by
  decide +kernel

end Flowchart
