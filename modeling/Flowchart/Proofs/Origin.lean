import Flowchart.Proofs.Plain
import Flowchart.Proofs.Reread

/-!
# Where the parts of a graph come from

Every part of a graph that was read is a part of a kept line. An edge comes from the connection of
a line (`Graph.exists_connection_of_mem_edges`), which gives its source, its label and its target; a
node that no edge mentions is declared by a whole line (`Graph.exists_line_of_mem_unmentioned`); and
what any node says is declared by one part of a line (`Graph.exists_text_of_get?`), so it is regular
or raw text.
-/

set_option autoImplicit false

namespace Flowchart

/-! ## Parts of a kept line -/

/-- A line as it is kept: a part that is no remark. -/
structure KeptLine (line : Text) : Prop extends Text.IsPart line where
  noRemark : isRemark line = false

theorem keptLine_of_mem {t line : Text} (h : line ∈ keptLines t) : KeptLine line := by
  obtain ⟨htrim, hne, hremark, hlf⟩ := keptLines_spec h
  exact ⟨⟨htrim, hne, hlf⟩, hremark⟩

section Parts

variable {line : Text} (hline : KeptLine line) {k : Connection}
  (hk : Connection.ofLine? line = some k)

include hline hk

theorem isPart_source : Text.IsPart k.source where
  trimmed := Connection.trimmed_source hline.oneLine hline.trimmed hk
  ne_nil := by
    obtain ⟨r, -, hne, -⟩ := (Connection.ofLine?_eq_some_iff hline.oneLine k).mp hk
    exact hne
  oneLine := by
    obtain ⟨r, heq, -⟩ := (Connection.ofLine?_eq_some_iff hline.oneLine k).mp hk
    intro hmem
    exact hline.oneLine (heq ▸ List.mem_append_left r hmem)

theorem isRemark_source : isRemark k.source = false := by
  obtain ⟨r, heq, -⟩ := (Connection.ofLine?_eq_some_iff hline.oneLine k).mp hk
  cases hremark : isRemark k.source with
  | false => rfl
  | true =>
      have h := isRemark_of_isPrefix (heq ▸ List.prefix_append k.source r) hremark
      rw [hline.noRemark] at h
      cases h

/-- What follows the source of a line: the arrow, the label and the target are parts of it. -/
theorem afterSource_spec :
    Arrow.Token k.arrow ∧ k.target ≠ [] ∧ k.target <:+ line ∧
      ∀ x ∈ k.label, '|' ∉ x ∧ x <:+: line := by
  obtain ⟨r, heq, -, hr, -⟩ := (Connection.ofLine?_eq_some_iff hline.oneLine k).mp hk
  have hsuffix : r <:+ line := heq ▸ List.suffix_append k.source r
  obtain ⟨harrow, hne, htarget, hlabel⟩ :=
    Connection.afterSource?_spec (fun hmem => hline.oneLine (hsuffix.subset hmem)) hr
  exact ⟨harrow, hne, htarget.trans hsuffix, fun x hx =>
    ⟨(hlabel x hx).1, (hlabel x hx).2.trans hsuffix.isInfix⟩⟩

theorem isPart_target : Text.IsPart k.target.trim where
  trimmed := Text.trimmed_trim _
  ne_nil := by
    obtain ⟨-, hne, hsuffix, -⟩ := afterSource_spec hline hk
    exact Text.trim_ne_nil hne fun c hc =>
      hline.trimmed.last c (Text.getLast?_of_suffix hsuffix c hc)
  oneLine := by
    obtain ⟨-, -, hsuffix, -⟩ := afterSource_spec hline hk
    intro hmem
    exact hline.oneLine (hsuffix.subset (Text.trim_subset hmem))

/-- A label that is read is legible unless it is blank. -/
theorem legibleLabel_of_trim (hne : (k.label.getD []).trim ≠ []) :
    LegibleLabel (k.label.getD []).trim := by
  obtain ⟨-, -, -, hlabel⟩ := afterSource_spec hline hk
  cases hl : k.label with
  | none =>
      rw [hl] at hne
      exact absurd rfl hne
  | some x =>
      rw [hl] at hne
      obtain ⟨hbar, hsub⟩ := hlabel x hl
      refine ⟨⟨Text.trimmed_trim x, hne, ?_⟩, ?_⟩
      · exact fun hmem => hline.oneLine (hsub.subset (Text.trim_subset hmem))
      · exact fun hmem => hbar (Text.trim_subset hmem)

end Parts

/-! ## Lines that bear on the graph -/

section Bearing

variable {t line : Text} (h : line ∈ bearingLines t)

include h

theorem keptLine_of_mem_bearingLines : KeptLine line := keptLine_of_mem (List.mem_filter.mp h).1

theorem isFraming_of_mem_bearingLines : Statement.isFraming line = false := by
  have hbears := (List.mem_filter.mp h).2
  rw [Statement.bears, Bool.and_eq_true, Bool.not_eq_true'] at hbears
  exact hbears.1

theorem isStyling_of_mem_bearingLines (hnone : Connection.ofLine? line = none) :
    Statement.isStyling line = false := by
  have hbears := (List.mem_filter.mp h).2
  rw [Statement.bears, hnone, Bool.and_eq_true] at hbears
  simpa using hbears.2

theorem mem_statements_of_mem_bearingLines : Statement.ofBearing line ∈ statements t := by
  rw [statements_eq_map]
  exact List.mem_map_of_mem h

end Bearing

theorem exists_line_of_mem_connections {t : Text} {k : Connection} (h : k ∈ connections t) :
    ∃ line ∈ bearingLines t, Connection.ofLine? line = some k := List.mem_filterMap.mp h

namespace Graph

variable {t : Text}

/-! ## Edges -/

theorem exists_connection_of_mem_edges {e : Edge} (h : e ∈ (ofDiagram t).edges) :
    ∃ k ∈ connections t, ∃ i, e = Edge.ofConnection i k := by
  rw [edges_eq_mapIdx, List.mem_mapIdx] at h
  obtain ⟨i, hi, rfl⟩ := h
  exact ⟨(connections t)[i], List.getElem_mem hi, i, rfl⟩

/-- A declaration of a line puts its identifier among the keys. -/
theorem mem_keys_of_mem_declarations {line : Text} (hline : line ∈ bearingLines t) {d : Declaration}
    (hd : d ∈ (Statement.ofBearing line).declarations) : d.id ∈ (ofDiagram t).nodes.keys := by
  rw [keys_ofDiagram, List.mem_eraseDups]
  exact List.mem_map_of_mem
    (List.mem_flatMap.mpr ⟨_, mem_statements_of_mem_bearingLines hline, hd⟩)

/-- Every edge that is read has both its nodes. -/
theorem emits_of_mem_edges {e : Edge} (h : e ∈ (ofDiagram t).edges) :
    (ofDiagram t).emits e = true := by
  obtain ⟨k, hk, i, rfl⟩ := exists_connection_of_mem_edges h
  obtain ⟨line, hline, hparts⟩ := exists_line_of_mem_connections hk
  -- the line of the edge declares both its ends
  have hkeys : ∀ d ∈ (Statement.ofConnection k).declarations,
      ((ofDiagram t).nodes.get? d.id).isSome = true := by
    intro d hd
    rw [← Keyed.mem_keys_iff]
    refine mem_keys_of_mem_declarations hline ?_
    rwa [Statement.ofBearing, hparts]
  have hsource := hkeys (Declaration.ofText k.source.trim) (by
    simp [Statement.ofConnection, Statement.declarations])
  have htarget := hkeys (Declaration.ofText k.target.trim) (by
    simp [Statement.ofConnection, Statement.declarations])
  obtain ⟨source, hs⟩ := Option.isSome_iff_exists.mp hsource
  obtain ⟨target, ht⟩ := Option.isSome_iff_exists.mp htarget
  rw [emits, (endpoints?_eq_some_iff _ _ source target).mpr ⟨hs, ht⟩]
  rfl

theorem emitted_ofDiagram : (ofDiagram t).emitted = (ofDiagram t).edges :=
  List.filter_eq_self.mpr fun _ he => emits_of_mem_edges he

/-! ## Nodes -/

/-- What a node says is declared by a line. -/
theorem exists_line_of_get? {key : Text} {n : Node} (h : (ofDiagram t).nodes.get? key = some n) :
    ∃ line ∈ bearingLines t, n.toDeclaration ∈ Statement.declarationsOf line := by
  -- what is settled about a key is one of the declarations of its lines
  have hsettled := declared?_ofDiagram t key
  rw [declared?, h] at hsettled
  obtain ⟨hmem, -⟩ := Declaration.mem_of_settled? hsettled.symm
  rw [statements_eq_map, List.mem_flatMap] at hmem
  obtain ⟨s, hs, hd⟩ := hmem
  obtain ⟨line, hline, rfl⟩ := List.mem_map.mp hs
  exact ⟨line, hline, by rwa [← Statement.declarations_ofBearing]⟩

/-- What a node says is what a part of a line declares. -/
theorem exists_text_of_get? {key : Text} {n : Node} (h : (ofDiagram t).nodes.get? key = some n) :
    ∃ u : Text, Text.IsPart u ∧ n.toDeclaration = Declaration.ofText u := by
  obtain ⟨line, hline, hmem⟩ := exists_line_of_get? h
  have hkept := keptLine_of_mem_bearingLines hline
  unfold Statement.declarationsOf at hmem
  cases hk : Connection.ofLine? line with
  | none =>
      rw [hk, List.mem_singleton] at hmem
      exact ⟨line, hkept.toIsPart, hmem⟩
  | some k =>
      have hsource := isPart_source hkept hk
      simp only [hk, List.mem_cons, List.not_mem_nil, or_false] at hmem
      rcases hmem with hmem | hmem
      · exact ⟨k.source, hsource, by rwa [hsource.trimmed.trim_eq] at hmem⟩
      · exact ⟨k.target.trim, isPart_target hkept hk, hmem⟩

/-- A node that no edge mentions is declared by a line of its own. -/
theorem exists_line_of_mem_unmentioned {n : Node} (h : n ∈ (ofDiagram t).unmentioned) :
    ∃ line ∈ bearingLines t, Connection.ofLine? line = none ∧
      n.toDeclaration = Declaration.ofText line := by
  have hid : n.id ∈ (ofDiagram t).unmentioned.map fun n => n.id := List.mem_map_of_mem h
  rw [map_id_unmentioned fun _ _ hn => id_of_get?_ofDiagram hn, emitted_ofDiagram,
    List.mem_filter] at hid
  obtain ⟨key, hkey⟩ := exists_get?_of_mem_unmentioned h
  obtain ⟨line, hline, hmem⟩ := exists_line_of_get? hkey
  refine ⟨line, hline, ?_⟩
  unfold Statement.declarationsOf at hmem
  cases hk : Connection.ofLine? line with
  | none =>
      rw [hk, List.mem_singleton] at hmem
      exact ⟨rfl, hmem⟩
  | some k =>
      -- the node would be an end of the edge of this line
      exfalso
      have hconnection : k ∈ connections t := List.mem_filterMap.mpr ⟨line, hline, hk⟩
      obtain ⟨i, hi, hik⟩ := List.getElem_of_mem hconnection
      have hedge : Edge.ofConnection i k ∈ (ofDiagram t).edges := by
        rw [edges_eq_mapIdx, List.mem_mapIdx]
        exact ⟨i, hi, by rw [hik]⟩
      have hends : n.id ∈ (Edge.ofConnection i k).ends := by
        simp only [hk, List.mem_cons, List.not_mem_nil, or_false] at hmem
        rcases hmem with hmem | hmem <;> simp [Edge.ends, Edge.ofConnection, hmem]
      have hcontains : n.id ∈ (ofDiagram t).edges.flatMap Edge.ends :=
        List.mem_flatMap.mpr ⟨_, hedge, hends⟩
      simp [hcontains] at hid

/-- Every node that is read has an identifier and is regular, or is raw text. -/
theorem regular_of_get? {key : Text} {n : Node} (h : (ofDiagram t).nodes.get? key = some n)
    (hid : Text.isIdentifier n.id = true) : n.toDeclaration.Regular := by
  obtain ⟨u, hu, hd⟩ := exists_text_of_get? h
  rw [hd] at hid ⊢
  exact Declaration.regular_ofText hu.oneLine hid

theorem raw_of_get? {key : Text} {n : Node} (h : (ofDiagram t).nodes.get? key = some n)
    (hid : Text.isIdentifier n.id = false) : n.Raw := by
  obtain ⟨u, hu, hd⟩ := exists_text_of_get? h
  -- the text that declares it declares itself
  have hraw := Declaration.ofText_of_raw hu.oneLine (by rwa [← hd])
  rw [hraw] at hd
  have hidu : n.id = u := congrArg Declaration.id hd
  subst hidu
  exact ⟨hu, hid, hd, by rw [hraw, hd]⟩

theorem readable_of_get? {key : Text} {n : Node} (h : (ofDiagram t).nodes.get? key = some n) :
    n.Readable := by
  cases hid : Text.isIdentifier n.id with
  | true => exact Node.readable_of_regular (regular_of_get? h hid)
  | false => exact (raw_of_get? h hid).readable

end Graph

/-! ## Edges that were read -/

namespace Edge

/-- The label that is written for an edge that was read. -/
theorem writtenLabel_ofConnection (index : Nat) (k : Connection) :
    (ofConnection index k).writtenLabel =
      if (k.label.getD []).trim = [] then none else some (k.label.getD []).trim := by
  rw [writtenLabel, ofConnection]
  dsimp only
  split
  · rfl
  · next hne => simp [Json.ifTruthy, Json.isTruthy, hne, Json.display]

/-- Redrawing an edge that was read changes no more than its styles. -/
theorem redrawn_ofConnection {k : Connection} (h : Arrow.Token k.arrow) (keepStyles : Bool)
    (index : Nat) :
    (ofConnection index k).redrawn keepStyles index =
      { ofConnection index k with
        animated := keepStyles && (ofConnection index k).animated
        emphasized := keepStyles && (ofConnection index k).emphasized } := by
  have hstyle : ((ofConnection index k).animated && !(ofConnection index k).emphasized) =
      (ofConnection index k).animated := by
    have hnot := h.not_dotted_and_thick
    simp only [ofConnection]
    cases hdot : k.arrow.contains '.' with
    | false => rfl
    | true =>
        have hequals : k.arrow.contains '=' = false := by
          simpa [List.contains_iff_mem.mp hdot] using hnot
        rw [hequals]
        rfl
  have hlabel : (ofConnection index k).writtenLabel.map Json.str =
      (ofConnection index k).label := by
    rw [writtenLabel_ofConnection, ofConnection]
    dsimp only
    split <;> rfl
  rw [redrawn, hlabel, Bool.and_assoc, hstyle]
  rfl

end Edge

theorem legibleLabel_of_ofConnection {line : Text} (hline : KeptLine line) {k : Connection}
    (hk : Connection.ofLine? line = some k) (index : Nat) :
    ∀ x ∈ (Edge.ofConnection index k).writtenLabel, LegibleLabel x := by
  intro x hx
  rw [Edge.writtenLabel_ofConnection] at hx
  split at hx
  · cases hx
  · next hne =>
      obtain rfl := Option.mem_some_iff.mp hx
      exact legibleLabel_of_trim hline hk hne

end Flowchart
