import Flowchart.Proofs.Regenerate

/-!
# Safe graphs

The parts of a graph that was read are parts of kept lines already, so little is left to ask of
them. A drawing is safe if its source holds no arrow and does not read as a statement, and its
target does not end with a semicolon or begin like a label (`Drawing.Safe`); and no other line may
end with a semicolon (`Graph.Safe`). The graph of a text is legible just if it is safe
(`Graph.legible_iff_safe`).
-/

set_option autoImplicit false

namespace Flowchart

/-- A drawing without the hazards that parts of lines may bring. -/
structure Drawing.Safe (d : Drawing) : Prop where
  noArrow : ¬ Arrow.HasArrow d.sourceText.tail
  noStatement : Keyword.readsAsStatement d.sourceText = false
  noSemicolon : d.targetText.getLast? ≠ some ';'
  noLabel : d.edge.writtenLabel = none → ¬ Connection.StartsLabelled d.targetText

theorem Drawing.Legible.safe {d : Drawing} (h : d.Legible) : d.Safe where
  noArrow := h.source.noArrow
  noStatement := h.source.noStatement
  noSemicolon := fun hlast => h.target.noSemicolon ';' hlast rfl
  noLabel := h.target.noLabel

namespace Graph

/-- A graph whose drawings are safe and whose other lines do not end with a semicolon. -/
structure Safe (g : Graph) : Prop where
  edges : ∀ d ∈ g.drawings [] g.edges, d.Safe
  lines : ∀ n ∈ g.unmentioned, n.declaration.getLast? ≠ some ';'

variable {t : Text}

/-! ## What parts of lines bring -/

/-- Raw text is the source of the line that it comes from. -/
theorem exists_source_of_raw {d : Drawing}
    (h : d ∈ (ofDiagram t).drawings [] (ofDiagram t).edges)
    (hid : Text.isIdentifier d.source.id = false) :
    ∃ line, KeptLine line ∧ ∃ k, Connection.ofLine? line = some k ∧ d.sourceText = k.source := by
  obtain ⟨he, hs, -⟩ := get?_of_mem_drawings h
  obtain ⟨k, hconnection, i, hedge⟩ := exists_connection_of_mem_edges he
  obtain ⟨line, hline, hk⟩ := exists_line_of_mem_connections hconnection
  have hkept := keptLine_of_mem_bearingLines hline
  have hsource := isPart_source hkept hk
  have hdeclared : d.source.id = (Declaration.ofText k.source).id := by
    rw [id_of_get?_ofDiagram hs, hedge, Edge.source_ofConnection, hsource.trimmed.trim_eq]
  have hraw := Declaration.ofText_of_raw hsource.oneLine (hdeclared ▸ hid)
  refine ⟨line, hkept, k, hk, ?_⟩
  rw [Drawing.sourceText, (raw_of_get? hs hid).mention_eq, hdeclared, hraw]

/-- A source that was read is no remark. -/
theorem isRemark_sourceText {d : Drawing}
    (h : d ∈ (ofDiagram t).drawings [] (ofDiagram t).edges) : isRemark d.sourceText = false := by
  cases hid : Text.isIdentifier d.source.id with
  | true =>
      obtain ⟨-, hs, -⟩ := get?_of_mem_drawings h
      rcases d.source.mention_cases d.mentioned true with ⟨heq, -⟩ | heq
      · rw [Drawing.sourceText, heq, ← List.append_nil d.source.id]
        exact isRemark_identifier_append hid []
      · rw [Drawing.sourceText, heq, Node.declaration_of_identifier hid]
        exact (regular_of_get? hs hid).noRemark
  | false =>
      obtain ⟨line, hline, k, hk, hsource⟩ := exists_source_of_raw h hid
      rw [hsource]
      exact isRemark_source hline hk

/-- The declaration of a node that no edge mentions goes on like the line that it comes from. -/
theorem exists_line_of_declaration {n : Node} (hn : n ∈ (ofDiagram t).unmentioned) :
    ∃ line ∈ bearingLines t, Connection.ofLine? line = none ∧
      (n.declaration = line ∨ Text.isIdentifier n.id = true ∧ n.id <+: line) := by
  obtain ⟨line, hline, hnone, hd⟩ := exists_line_of_mem_unmentioned hn
  obtain ⟨key, hkey⟩ := exists_get?_of_mem_unmentioned hn
  have hkept := keptLine_of_mem_bearingLines hline
  refine ⟨line, hline, hnone, ?_⟩
  cases hid : Text.isIdentifier n.id with
  | true =>
      refine Or.inr ⟨rfl, ?_⟩
      rcases Declaration.ofText_cases hkept.oneLine with ⟨-, -, ⟨shape, hshape⟩, hw⟩ | hof
      · rw [← hw, ← hd, Declaration.written_known (hd ▸ hshape)]
        exact List.prefix_append _ _
      · have hsame : n.id = line := by
          rw [congrArg Declaration.id hd, hof]
        exact hsame ▸ List.prefix_refl line
  | false =>
      left
      rw [(raw_of_get? hkey hid).declaration_eq]
      rw [hd] at hid ⊢
      rw [Declaration.ofText_of_raw hkept.oneLine hid]

/-- A node that no edge mentions is legible unless it ends with a semicolon. -/
theorem legibleLine_of_noSemicolon {n : Node} (hn : n ∈ (ofDiagram t).unmentioned)
    (hlast : n.declaration.getLast? ≠ some ';') : LegibleLine n.declaration := by
  obtain ⟨key, hkey⟩ := exists_get?_of_mem_unmentioned hn
  obtain ⟨line, hline, hnone, hdeclaration⟩ := exists_line_of_declaration hn
  have hpart := isPart_declaration_of_get? hkey
  have hstyle := isStyling_of_mem_bearingLines hline hnone
  have hconnection := ofLine?_declaration_of_mem_unmentioned hn
  have hsemicolon : ∀ c ∈ n.declaration.getLast?, c ≠ ';' := by
    rintro c hc rfl
    exact hlast hc
  rcases hdeclaration with rfl | ⟨hid, hprefix⟩
  · exact ⟨hpart, (keptLine_of_mem_bearingLines hline).noRemark, hsemicolon,
      isFraming_of_mem_bearingLines hline, hstyle, hconnection⟩
  · have hregular := regular_of_get? hkey hid
    rw [Node.declaration_of_identifier hid] at hpart hsemicolon hconnection ⊢
    refine ⟨hpart, hregular.noRemark, hsemicolon, hregular.noFraming, hregular.noStyling ?_,
      hconnection⟩
    -- the line begins with the identifier
    intro word hword hstart
    have hany := List.any_eq_false.mp hstyle word hword
    exact hany (List.isPrefixOf_iff_prefix.mpr (hstart.trans hprefix))

/-! ## Safe graphs are legible -/

theorem Safe.legible (h : (ofDiagram t).Safe) : (ofDiagram t).Legible where
  keys := fun _ _ hn => id_of_get?_ofDiagram hn
  readable := fun _ _ hn => readable_of_get? hn
  edges := by
    intro d hd
    have hsound := sound_of_mem_drawings hd
    have hsafe := h.edges d hd
    refine ⟨⟨hsound.source, isRemark_sourceText hd, hsafe.noStatement, hsafe.noArrow⟩,
      hsound.label, ⟨hsound.target, ?_, hsafe.noLabel⟩⟩
    rintro c hc rfl
    exact hsafe.noSemicolon hc
  lines := fun n hn => legibleLine_of_noSemicolon hn (h.lines n hn)

theorem Legible.safe {g : Graph} (h : g.Legible) : g.Safe where
  edges := fun d hd => (h.edges d hd).safe
  lines := fun n hn hlast => (h.lines n hn).noSemicolon ';' hlast rfl

/-- **The graph of a text is legible just if it is safe.** -/
theorem legible_iff_safe (t : Text) : (ofDiagram t).Legible ↔ (ofDiagram t).Safe :=
  ⟨Legible.safe, Safe.legible⟩

end Graph

end Flowchart
