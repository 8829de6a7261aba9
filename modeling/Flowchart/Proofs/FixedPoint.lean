import Mathlib.Data.List.MinMax
import Flowchart.Proofs.Regenerate

/-!
# Fixed points of regeneration

Texts that are their own regenerated diagrams. If a line is written for an edge and read as the
connection that the edge came from, then it was split where it was joined, so the drawing is legible
(`Drawing.ReadBack.legible`); and the graph of a text that is regenerated as it is is legible
(`Graph.legible_of_fixed`). The fixed points of regeneration are just the diagrams of legible graphs
(`Graph.fixed_iff`).
-/

set_option autoImplicit false

namespace Flowchart

/-- The connection of a kept line, with the blanks and bars between its parts, up to its trimmed
target. -/
theorem exists_parts_trim {line : Text} (hline : KeptLine line) {k : Connection}
    (hk : Connection.ofLine? line = some k) :
    ∃ b mid, line = k.source ++ (b ++ (k.arrow ++ (mid ++ k.target.trim))) ∧
      (∀ c ∈ b, isBlank c = true) ∧ Arrow.Token k.arrow ∧ Connection.Between k.label mid := by
  obtain ⟨b, mid, hparts, hb, harrow, hmid⟩ := Connection.exists_parts hline.oneLine hk
  obtain ⟨-, -, hsuffix, -⟩ := afterSource_spec hline hk
  have htrim : k.target.trim = k.target.trimStart := Text.trim_eq_trimStart fun c hc =>
    hline.trimmed.last c (Text.getLast?_of_suffix hsuffix c hc)
  obtain ⟨b', hb', hblank⟩ := Text.exists_blanks_trimStart k.target
  refine ⟨b, mid ++ b', ?_, hb, harrow, ?_⟩
  · rw [htrim, List.append_assoc, ← hb']
    exact hparts
  · cases hlabel : k.label with
    | none =>
        rw [hlabel] at hmid
        intro c hc
        exact (List.mem_append.mp hc).elim (hmid c) (hblank c)
    | some x =>
        rw [hlabel] at hmid
        obtain ⟨hx, b₁, b₂, rfl, hb₁, hb₂⟩ := hmid
        -- blanks before the target are part of what stands between
        refine ⟨hx, b₁, b₂ ++ b', by simp, hb₁, fun c hc => ?_⟩
        exact (List.mem_append.mp hc).elim (hb₂ c) (hblank c)

/-! ## The line of one edge -/

/-- A drawing whose line is read as the connection `k` that its edge came from. -/
structure Drawing.ReadBack (d : Drawing) (keepStyles : Bool) (k : Connection) : Prop where
  sound : d.Sound
  reads : Statement.connection? (Graph.indent ++ d.body keepStyles) = some k
  label : d.edge.writtenLabel =
    if (k.label.getD []).trim = [] then none else some (k.label.getD []).trim
  id : d.target.id = (Declaration.ofText k.target.trim).id
  regular : Text.isIdentifier d.target.id = true → d.target.toDeclaration.Regular
  raw : Text.isIdentifier d.target.id = false → d.target.Raw
  /-- A target that was not mentioned before is what is declared here, if that says anything. -/
  first : d.target.id ∉ d.source.id :: d.mentioned →
    (Declaration.ofText k.target.trim).isBare = false →
      d.target.toDeclaration = Declaration.ofText k.target.trim

namespace Drawing

/-- What a drawing is written as before its target. -/
def beforeTarget (d : Drawing) (keepStyles : Bool) : Text :=
  d.sourceText ++ ' ' :: (d.edge.writtenArrow keepStyles ++ (barred d.edge.writtenLabel ++ [' ']))

theorem body_eq (d : Drawing) (keepStyles : Bool) :
    d.body keepStyles = d.beforeTarget keepStyles ++ d.targetText := by
  simp [body, beforeTarget]

namespace ReadBack

variable {d : Drawing} {keepStyles : Bool} {k : Connection} (h : d.ReadBack keepStyles k)

include h

theorem exists_line : ∃ line dropped, d.body keepStyles = line ++ dropped ∧
    (∀ c ∈ dropped, c = ';' ∨ isBlank c = true) ∧
    keptLine? (Graph.indent ++ d.body keepStyles) = some line ∧ Statement.bears line = true ∧
    KeptLine line ∧ Connection.ofLine? line = some k := by
  obtain ⟨line, hbearing, hk⟩ := Option.bind_eq_some_iff.mp h.reads
  obtain ⟨hkept, hbears⟩ := (Statement.bearing?_eq_some_iff _ _).mp hbearing
  have hbody := h.sound.isPart_body keepStyles
  have htrim : (Graph.indent ++ d.body keepStyles).trim = d.body keepStyles :=
    hbody.trimmed.trim_indent
  obtain ⟨dropped, hdropped, hjunk⟩ := exists_dropped_of_keptLine? hkept
  rw [htrim] at hdropped
  have hline : '\n' ∉ Graph.indent ++ d.body keepStyles := by
    have hlf := hbody.oneLine
    simpa [Graph.indent] using hlf
  exact ⟨line, dropped, hdropped, hjunk, hkept, hbears,
    ⟨⟨trimmed_of_keptLine? hkept, ne_nil_of_keptLine? hkept, not_mem_of_keptLine? hkept hline⟩,
      isRemark_of_keptLine? hkept⟩, hk⟩

/-- The target of the line as it was written. -/
theorem getLast?_body : (d.body keepStyles).getLast? = d.targetText.getLast? := by
  rw [body_eq, List.getLast?_append_of_ne_nil _ h.sound.target.ne_nil]

/-- Raw text is read as it was written. -/
theorem targetText_of_raw (hid : Text.isIdentifier d.target.id = false) :
    d.targetText = k.target.trim := by
  obtain ⟨line, -, -, -, -, -, hline, hk⟩ := h.exists_line
  have hread : Text.isIdentifier (Declaration.ofText k.target.trim).id = false := h.id ▸ hid
  rw [targetText, (h.raw hid).mention_eq, h.id,
    Declaration.ofText_of_raw (isPart_target hline hk).oneLine hread]

/-- A target with an identifier ends with a part of one or with a closing. -/
theorem getLast?_of_identifier (hid : Text.isIdentifier d.target.id = true) :
    ∀ c ∈ d.targetText.getLast?, Text.isIdentifierPart c = true ∨ c ∈ closings := by
  intro c hc
  rcases d.target.mention_cases (d.source.id :: d.mentioned) false with ⟨heq, -, -⟩ | heq
  · rw [targetText, heq] at hc
    exact Or.inl (Text.isIdentifierPart_of_mem hid c (List.mem_of_getLast? hc))
  · rw [targetText, heq, Node.declaration_of_identifier hid] at hc
    exact Or.inr ((h.regular hid).mem_closings c hc)

/-- **Nothing is dropped at the end of the line.** -/
theorem keptLine?_body :
    keptLine? (Graph.indent ++ d.body keepStyles) = some (d.body keepStyles) ∧
      Statement.bears (d.body keepStyles) = true ∧ KeptLine (d.body keepStyles) ∧
      Connection.ofLine? (d.body keepStyles) = some k := by
  obtain ⟨line, dropped, hbody, hjunk, hkept, hbears, hline, hk⟩ := h.exists_line
  suffices hnil : dropped = [] by
    rw [hnil, List.append_nil] at hbody
    rw [hbody] at hkept ⊢
    exact ⟨hkept, hbears, hline, hk⟩
  cases hid : Text.isIdentifier d.target.id with
  | true =>
      by_contra hne
      obtain ⟨c, hc⟩ := Text.exists_getLast? hne
      have hlast : c ∈ d.targetText.getLast? := by
        rw [← h.getLast?_body, hbody, List.getLast?_append_of_ne_nil _ hne]
        exact hc
      have hc' : c ≠ ';' ∧ isBlank c = false := by
        rcases h.getLast?_of_identifier hid c hlast with hpart | hclose
        · refine ⟨?_, isBlank_of_isIdentifierPart hpart⟩
          rintro rfl
          revert hpart
          decide
        · exact ⟨(closings_spec c hclose).1, (closings_spec c hclose).2.1⟩
      rcases hjunk c (List.mem_of_getLast? hc) with hsemicolon | hblank
      · exact hc'.1 hsemicolon
      · rw [hc'.2] at hblank
        cases hblank
  | false =>
      obtain ⟨b, mid, hparts, -⟩ := exists_parts_trim hline hk
      obtain ⟨u, c, hu, hc⟩ := exists_before_target d.sourceText d.edge.writtenLabel
        (d.edge.writtenArrow_mem keepStyles)
      have htarget := isPart_target hline hk
      have hsigns : ∀ c ∈ dropped, c ≠ '>' ∧ c ≠ '|' := by
        intro c hc
        rcases hjunk c hc with rfl | hblank
        · decide
        · constructor <;> rintro rfl <;> revert hblank <;> decide
      have hends : u ++ [c, ' '] ++ k.target.trim =
          (k.source ++ (b ++ (k.arrow ++ mid))) ++ (k.target.trim ++ dropped) := by
        rw [body_eq, h.targetText_of_raw hid, beforeTarget, hu, hparts] at hbody
        simpa using hbody
      exact eq_nil_of_dropped hc hsigns htarget.ne_nil htarget.trimmed.head hends

/-- The source that is read is no longer than the one that was written. -/
theorem source_isPrefix : k.source <+: d.sourceText := by
  obtain ⟨-, -, hline, hk⟩ := h.keptLine?_body
  have hlf := hline.oneLine
  rw [body] at hlf hk
  refine Connection.source_isPrefix hlf hk h.sound.source.ne_nil ?_
  have hlf' : '\n' ∉ barred d.edge.writtenLabel ++ ' ' :: d.targetText := fun hmem =>
    hlf (List.mem_append_right _ (List.mem_cons_of_mem _ (List.mem_append_right _ hmem)))
  -- something follows the written arrow, so the written source could be one
  obtain ⟨⟨l, q⟩, hparts⟩ := Option.isSome_iff_exists.mp
    ((Connection.isSome_labelAndTarget?_iff hlf').mpr
      (List.append_ne_nil_of_right_ne_nil _ (List.cons_ne_nil _ _)))
  rw [Connection.afterSource?_connector (d.edge.writtenArrow_mem keepStyles) hparts]
  rfl

theorem suffix_body : d.targetText <:+ d.body keepStyles ∧ k.target.trim <:+ d.body keepStyles := by
  obtain ⟨-, -, hline, hk⟩ := h.keptLine?_body
  obtain ⟨b, mid, hparts, -⟩ := exists_parts_trim hline hk
  refine ⟨⟨d.beforeTarget keepStyles, (d.body_eq keepStyles).symm⟩,
    ⟨k.source ++ (b ++ (k.arrow ++ mid)), ?_⟩⟩
  rw [hparts]
  simp

/-- The target that is read does not begin before the one that was written. -/
theorem eq_nil_of_target_append (hid : Text.isIdentifier d.target.id = true)
    (hfull : d.targetText = d.target.toDeclaration.written) {y : Text}
    (hy : y ++ d.targetText = k.target.trim) : y = [] := by
  by_contra hne
  obtain ⟨-, -, hline, hk⟩ := h.keptLine?_body
  obtain ⟨b, mid, hparts, -⟩ := exists_parts_trim hline hk
  have htarget := isPart_target hline hk
  have hread : Text.isIdentifier (Declaration.ofText k.target.trim).id = true := h.id ▸ hid
  have hregular := Declaration.regular_ofText htarget.oneLine hread
  -- `y` ends with the blank before the target that was written
  have hbefore : d.beforeTarget keepStyles = k.source ++ (b ++ (k.arrow ++ (mid ++ y))) := by
    have hsame : d.beforeTarget keepStyles ++ d.targetText =
        k.source ++ (b ++ (k.arrow ++ (mid ++ y))) ++ d.targetText := by
      rw [body_eq, ← hy] at hparts
      simpa using hparts
    exact List.append_cancel_right hsame
  have hblank : ' ' ∈ k.target.trim := by
    have hlast : y.getLast? = some ' ' := by
      rw [← List.getLast?_append_of_ne_nil (k.source ++ (b ++ (k.arrow ++ mid))) hne]
      have hbefore' : k.source ++ (b ++ (k.arrow ++ mid)) ++ y = d.beforeTarget keepStyles := by
        rw [hbefore]
        simp
      have hend : d.beforeTarget keepStyles = (d.sourceText ++ ' ' ::
          (d.edge.writtenArrow keepStyles ++ barred d.edge.writtenLabel)) ++ [' '] := by
        simp [beforeTarget]
      rw [hbefore', hend, List.getLast?_concat]
    rw [← hy]
    exact List.mem_append_left _ (List.mem_of_getLast? hlast)
  rcases Declaration.ofText_cases htarget.oneLine with ⟨-, -, -, hw⟩ | hof
  · cases hbare : (Declaration.ofText k.target.trim).isBare with
    | true =>
        rw [← hw] at hblank
        exact hregular.not_mem_written_of_bare hbare hblank
    | false =>
        -- a target in full was not mentioned before
        have hfresh : d.target.id ∉ d.source.id :: d.mentioned := by
          intro hmem
          have hmention : d.targetText = d.target.id := by
            rw [targetText, Node.mention, List.contains_iff_mem.mpr hmem]
            rfl
          obtain ⟨o, x, hopen, -⟩ := (h.regular hid).exists_opening
          rw [hmention, hopen] at hfull
          simp at hfull
        have heq := h.first hfresh hbare
        rw [hfull, heq, hw] at hy
        exact hne (List.append_left_eq_self.mp hy)
  · rw [hof] at hread
    have hpart := Text.isIdentifierPart_of_mem hread ' ' hblank
    revert hpart
    decide

/-- Nor does it begin after it. -/
theorem eq_nil_of_append_target (hid : Text.isIdentifier d.target.id = true)
    (hfull : d.targetText = d.target.toDeclaration.written) {z : Text}
    (hz : z ++ k.target.trim = d.targetText) : z = [] := by
  obtain ⟨-, -, hline, hk⟩ := h.keptLine?_body
  obtain ⟨b, mid, hparts, hb, harrow, hmid⟩ := exists_parts_trim hline hk
  cases z with
  | nil => rfl
  | cons c rest =>
      exfalso
      have hc : Text.isIdentifierPart c = true := by
        obtain ⟨o, x, hopen, -⟩ := (h.regular hid).exists_opening
        refine isIdentifierPart_of_head?_append hid (o :: x) c ?_
        rw [← hopen, ← hfull, ← hz]
        rfl
      have hsigns : ∀ c ∈ '|' :: Arrow.signs, Text.isIdentifierPart c = false :=
        List.forall_mem_cons.mpr ⟨rfl, isIdentifierPart_of_mem_signs⟩
      have hc' : c ∉ '|' :: Arrow.signs := fun hmem => by
        rw [hsigns c hmem] at hc
        cases hc
      have hsame : d.sourceText ++ ' ' :: (d.edge.writtenArrow keepStyles ++
          (barred d.edge.writtenLabel ++ ' ' :: (c :: rest))) ++ k.target.trim =
            k.source ++ (b ++ (k.arrow ++ mid)) ++ k.target.trim := by
        rw [body_eq, ← hz, beforeTarget] at hparts
        simpa using hparts
      exact not_target_of_longer (isBlank_of_isIdentifierPart hc)
        (fun hmem => hc' (List.mem_cons_of_mem _ hmem)) (fun heq => hc' (heq ▸ List.mem_cons_self))
        (d.edge.writtenArrow_mem keepStyles) h.label h.source_isPrefix hb harrow hmid
        (List.append_cancel_right hsame)

/-- **The target is read as it was written.** -/
theorem targetText_eq : d.targetText = k.target.trim := by
  cases hid : Text.isIdentifier d.target.id with
  | false => exact h.targetText_of_raw hid
  | true =>
      obtain ⟨-, -, hline, hk⟩ := h.keptLine?_body
      have htarget := isPart_target hline hk
      have hread : Text.isIdentifier (Declaration.ofText k.target.trim).id = true := h.id ▸ hid
      have hlast : k.target.trim.getLast? = d.targetText.getLast? := by
        obtain ⟨u, hu⟩ := h.suffix_body.2
        rw [← h.getLast?_body, ← hu,
          List.getLast?_append_of_ne_nil _ htarget.ne_nil]
      -- an identifier does not end like a declaration in full
      have hends : ∀ {id w : Text}, Text.isIdentifier id = true → (∀ c ∈ w.getLast?, c ∈ closings) →
          id.getLast? ≠ w.getLast? := by
        intro id w hid hw heq
        obtain ⟨c, hc⟩ := Text.exists_getLast? (Text.ne_nil_of_isIdentifier hid)
        have hpart := Text.isIdentifierPart_of_mem hid c (List.mem_of_getLast? hc)
        rw [(closings_spec c (hw c (heq ▸ hc))).2.2] at hpart
        cases hpart
      rcases Declaration.ofText_cases htarget.oneLine with ⟨-, -, -, hw⟩ | hof
      · have hregular := Declaration.regular_ofText htarget.oneLine hread
        rcases d.target.mention_cases (d.source.id :: d.mentioned) false with ⟨heq, -⟩ | heq
        · rw [targetText, heq, ← hw] at hlast
          exact absurd hlast.symm (hends hid hregular.mem_closings)
        · have hfull : d.targetText = d.target.toDeclaration.written :=
            heq.trans (Node.declaration_of_identifier hid)
          obtain ⟨htext, htrim⟩ := h.suffix_body
          -- both targets are ends of the line, and neither is longer
          rcases List.suffix_or_suffix_of_suffix htext htrim with ⟨y, hy⟩ | ⟨z, hz⟩
          · rw [← hy, h.eq_nil_of_target_append hid hfull hy, List.nil_append]
          · rw [← hz, h.eq_nil_of_append_target hid hfull hz, List.nil_append]
      · have heq' : d.target.id = k.target.trim := by
          rw [h.id, hof]
        rcases d.target.mention_cases (d.source.id :: d.mentioned) false with ⟨heq, -⟩ | heq
        · exact heq.trans heq'
        · rw [targetText, heq, Node.declaration_of_identifier hid, ← heq'] at hlast
          exact absurd hlast (hends hid (h.regular hid).mem_closings)

/-- The source is read as it was written, and a label is read only if one was written. -/
theorem sourceText_eq :
    k.source = d.sourceText ∧ (d.edge.writtenLabel = none → k.label = none) := by
  obtain ⟨-, -, hline, hk⟩ := h.keptLine?_body
  obtain ⟨b, mid, hparts, hb, harrow, hmid⟩ := exists_parts_trim hline hk
  refine source_eq_of_target (d.edge.writtenArrow_mem keepStyles) h.label
    h.sound.source.trimmed.last h.source_isPrefix hb harrow hmid ?_
  rw [body_eq, h.targetText_eq, beforeTarget] at hparts
  have hsame : d.beforeTarget keepStyles ++ k.target.trim =
      k.source ++ (b ++ (k.arrow ++ mid)) ++ k.target.trim := by
    rw [beforeTarget, hparts]
    simp
  exact List.append_cancel_right hsame

/-- **A drawing that is read back is legible.** -/
theorem legible : d.Legible where
  source := by
    obtain ⟨-, hbears, hline, hk⟩ := h.keptLine?_body
    refine ⟨h.sound.source, ?_, ?_, ?_⟩
    · cases hremark : isRemark d.sourceText with
      | false => rfl
      | true =>
          have hprefix : d.sourceText <+: d.body keepStyles := List.prefix_append _ _
          have hbody := isRemark_of_isPrefix hprefix hremark
          rw [hline.noRemark] at hbody
          cases hbody
    · rw [Statement.bears, Bool.and_eq_true, Bool.not_eq_true', body,
        Keyword.isFraming_append_blank] at hbears
      exact hbears.1
    · rw [← h.sourceText_eq.1]
      exact Connection.not_hasArrow_tail hline.oneLine hk
  label := h.sound.label
  target := by
    obtain ⟨hkept, -, hline, hk⟩ := h.keptLine?_body
    refine ⟨h.sound.target, ?_, fun hnone => ?_⟩
    · have htrim := (h.sound.isPart_body keepStyles).trimmed.trim_indent
      have hlast := getLast?_ne_of_keptLine? hkept htrim
      rwa [h.getLast?_body] at hlast
    · -- a target that begins like a label would have been read as one
      intro hstarts
      obtain ⟨r, hr, -, hafter, -⟩ := (Connection.ofLine?_eq_some_iff hline.oneLine k).mp hk
      obtain ⟨x, q, hread⟩ :=
        Connection.exists_labelAndTarget?_of_startsLabelled h.sound.target.oneLine hstarts
      rw [body, h.sourceText_eq.1, List.append_cancel_left_eq, hnone, barred, List.nil_append] at hr
      rw [← hr, Connection.afterSource?_connector (d.edge.writtenArrow_mem keepStyles) hread,
        h.sourceText_eq.2 hnone, Option.some.injEq, Prod.mk.injEq, Prod.mk.injEq] at hafter
      cases hafter.2.1

end ReadBack

end Drawing

/-! ## Texts that are regenerated as they are -/

/-- The declarations of a connection. -/
def Connection.declarations (k : Connection) : List Declaration :=
  [Declaration.ofText k.source.trim, Declaration.ofText k.target.trim]

namespace Graph

theorem flatMap_declarationsOf {lines : List Text}
    (h : ∀ line ∈ lines, (Statement.connection? line).isSome = true) :
    (lines.filterMap Statement.bearing?).flatMap Statement.declarationsOf =
      (lines.filterMap Statement.connection?).flatMap Connection.declarations := by
  induction lines with
  | nil => rfl
  | cons line rest ih =>
      obtain ⟨k, hk⟩ := Option.isSome_iff_exists.mp (h line List.mem_cons_self)
      obtain ⟨kept, hkept, hread⟩ := Option.bind_eq_some_iff.mp hk
      rw [List.filterMap_cons_some hkept, List.filterMap_cons_some hk, List.flatMap_cons,
        List.flatMap_cons, ih fun line hline => h line (List.mem_cons_of_mem _ hline),
        Statement.declarationsOf, hread]
      rfl

section Fixed

variable {t : Text} {keepStyles fenced : Bool}
  (hfix : (ofDiagram t).diagram keepStyles fenced = t)

include hfix

/-- The connections of the text come before its other lines. -/
theorem declarations_of_fixed :
    (statements t).flatMap Statement.declarations =
      (connections t).flatMap Connection.declarations ++
        (((ofDiagram t).unmentioned.map fun n => indent ++ n.declaration).filterMap
          Statement.bearing?).flatMap Statement.declarationsOf := by
  have hlines := bearingLines_regenerated (t := t) keepStyles fenced
  rw [hfix, bodyLines, List.filterMap_append] at hlines
  have hall : ∀ line ∈ ((ofDiagram t).drawings [] (ofDiagram t).edges).map
      (fun d => indent ++ d.body keepStyles), (Statement.connection? line).isSome = true := by
    intro line hline
    obtain ⟨d, hd, rfl⟩ := List.mem_map.mp hline
    obtain ⟨i, hi⟩ := List.mem_iff_getElem?.mp hd
    obtain ⟨k, -, hk, -⟩ := exists_connection_of_fixed hfix hi
    rw [hk]
    rfl
  have hconnections := connections_of_fixed hfix
  rw [← Function.comp_def, ← List.filterMap_map] at hconnections
  rw [statements_eq_map, List.flatMap_map, funext Statement.declarations_ofBearing, hlines,
    List.flatMap_append, flatMap_declarationsOf hall, ← hconnections]

/-- A target that was not mentioned before is what its line declares, if that says anything. -/
theorem toDeclaration_of_fresh {i : Nat} {d : Drawing}
    (hd : ((ofDiagram t).drawings [] (ofDiagram t).edges)[i]? = some d) {k : Connection}
    (hk : (connections t)[i]? = some k) (hedge : d.edge = Edge.ofConnection i k)
    (hfresh : d.target.id ∉ d.source.id :: d.mentioned)
    (hbare : (Declaration.ofText k.target.trim).isBare = false) :
    d.target.toDeclaration = Declaration.ofText k.target.trim := by
  have hkeys : ∀ key n, (ofDiagram t).nodes.get? key = some n → n.id = key :=
    fun _ _ hn => id_of_get?_ofDiagram hn
  have hids : ∀ {j d' k'}, ((ofDiagram t).drawings [] (ofDiagram t).edges)[j]? = some d' →
      d'.edge = Edge.ofConnection j k' →
        d'.source.id = (Declaration.ofText k'.source.trim).id ∧
          d'.target.id = (Declaration.ofText k'.target.trim).id := by
    intro j d' k' hd' hedge'
    have hends := ids_of_endpoints? hkeys (endpoints?_of_mem_drawings (List.mem_of_getElem? hd')).2
    rwa [hedge', Edge.source_ofConnection, Edge.target_ofConnection] at hends
  obtain ⟨hsource, htarget⟩ := hids hd hedge
  -- no declaration before this target is of its identifier
  have hbefore : ∀ e ∈ ((connections t).take i).flatMap Connection.declarations ++
      [Declaration.ofText k.source.trim], e.id ≠ (Declaration.ofText k.target.trim).id := by
    intro e he heq
    refine hfresh ?_
    rw [htarget, ← heq]
    rcases List.mem_append.mp he with he | he
    · obtain ⟨k', hk', he⟩ := List.mem_flatMap.mp he
      obtain ⟨j, hj⟩ := List.mem_iff_getElem?.mp hk'
      rw [List.getElem?_take] at hj
      split at hj
      · next hji =>
          have hlength := (List.getElem?_eq_some_iff.mp hd).1
          have hd' := List.getElem?_eq_getElem (Nat.lt_trans hji hlength)
          obtain ⟨k'', hk'', -, hedge'⟩ := exists_connection_of_fixed hfix hd'
          rw [hj, Option.some.injEq] at hk''
          subst hk''
          obtain ⟨hs, ht⟩ := hids hd' hedge'
          obtain ⟨hms, hmt⟩ := mem_mentioned_of_lt hji hd' hd
          rw [hs] at hms
          rw [ht] at hmt
          refine List.mem_cons_of_mem _ ?_
          simp only [Connection.declarations, List.mem_cons, List.not_mem_nil, or_false] at he
          rcases he with rfl | rfl
          · exact hms
          · exact hmt
      · cases hj
    · rw [List.mem_singleton.mp he, ← hsource]
      exact List.mem_cons_self
  have hsplit : connections t = (connections t).take i ++ k :: (connections t).drop (i + 1) := by
    obtain ⟨hi, hik⟩ := List.getElem?_eq_some_iff.mp hk
    rw [← hik, ← List.drop_eq_getElem_cons hi, List.take_append_drop]
  obtain ⟨-, -, ht⟩ := get?_of_mem_drawings (List.mem_of_getElem? hd)
  have hdeclared := declared?_ofDiagram t d.edge.target
  rw [declared?, ht, Option.map_some, declarations_of_fixed hfix, hsplit, List.flatMap_append,
    List.flatMap_cons, hedge, Edge.target_ofConnection] at hdeclared
  have hfirst := Declaration.settled?_of_first hbefore hbare
    (((connections t).drop (i + 1)).flatMap Connection.declarations ++
      (((ofDiagram t).unmentioned.map fun n => indent ++ n.declaration).filterMap
        Statement.bearing?).flatMap Statement.declarationsOf)
  simp only [Connection.declarations, List.append_assoc, List.cons_append, List.nil_append]
    at hdeclared hfirst
  rw [hfirst, Option.some.injEq] at hdeclared
  exact hdeclared

/-- Every drawing is read back. -/
theorem exists_readBack_of_fixed {d : Drawing}
    (hd : d ∈ (ofDiagram t).drawings [] (ofDiagram t).edges) : ∃ k, d.ReadBack keepStyles k := by
  obtain ⟨i, hi⟩ := List.mem_iff_getElem?.mp hd
  obtain ⟨k, hk, hread, hedge⟩ := exists_connection_of_fixed hfix hi
  obtain ⟨-, -, ht⟩ := get?_of_mem_drawings hd
  have hid := id_of_get?_ofDiagram ht
  refine ⟨k, sound_of_mem_drawings hd, hread, ?_, ?_, regular_of_get? ht, raw_of_get? ht,
    toDeclaration_of_fresh hfix hi hk hedge⟩
  · rw [hedge, Edge.writtenLabel_ofConnection]
  · rw [hid, hedge, Edge.target_ofConnection]

/-- A node that no edge mentions is declared by the line of such a node. -/
theorem exists_unmentioned_of_fixed {n : Node} (hn : n ∈ (ofDiagram t).unmentioned) :
    ∃ m ∈ (ofDiagram t).unmentioned, ∃ line,
      Statement.bearing? (indent ++ m.declaration) = some line ∧
        n.toDeclaration = Declaration.ofText line := by
  obtain ⟨line, hline, hnone, hdeclares⟩ := exists_line_of_mem_unmentioned hn
  have hlines := bearingLines_regenerated (t := t) keepStyles fenced
  rw [hfix] at hlines
  rw [hlines, List.mem_filterMap] at hline
  obtain ⟨whole, hwhole, hbearing⟩ := hline
  rcases List.mem_append.mp hwhole with hwhole | hwhole
  · -- the lines of edges connect
    exfalso
    obtain ⟨d, hd, rfl⟩ := List.mem_map.mp hwhole
    obtain ⟨i, hi⟩ := List.mem_iff_getElem?.mp hd
    obtain ⟨k, -, hk, -⟩ := exists_connection_of_fixed hfix hi
    rw [Statement.connection?, hbearing, Option.bind_some, hnone] at hk
    cases hk
  · obtain ⟨m, hm, rfl⟩ := List.mem_map.mp hwhole
    exact ⟨m, hm, line, hbearing, hdeclares⟩

omit hfix in
theorem isPart_declaration_of_mem_unmentioned {n : Node} (hn : n ∈ (ofDiagram t).unmentioned) :
    Text.IsPart n.declaration := by
  obtain ⟨key, hkey⟩ := exists_get?_of_mem_unmentioned hn
  exact isPart_declaration_of_get? hkey

omit hfix in
/-- What the line of a node loses when it is kept ends with a semicolon. -/
theorem exists_dropped_of_bearing? {m : Node} (hm : m ∈ (ofDiagram t).unmentioned) {line : Text}
    (hbearing : Statement.bearing? (indent ++ m.declaration) = some line) :
    ∃ dropped, m.declaration = line ++ dropped ∧
      (dropped ≠ [] → m.declaration.getLast? = some ';') := by
  have hpart := isPart_declaration_of_mem_unmentioned hm
  have hkept := ((Statement.bearing?_eq_some_iff _ _).mp hbearing).1
  obtain ⟨dropped, hdropped, hjunk⟩ := exists_dropped_of_keptLine? hkept
  rw [hpart.trimmed.trim_indent] at hdropped
  refine ⟨dropped, hdropped, fun hne => ?_⟩
  obtain ⟨c, hc⟩ := Text.exists_getLast? hne
  have hlast : m.declaration.getLast? = some c := by
    rw [hdropped, List.getLast?_append_of_ne_nil _ hne, hc]
  rcases hjunk c (List.mem_of_getLast? hc) with rfl | hblank
  · exact hlast
  · have hnot := hpart.trimmed.last c hlast
    rw [hblank] at hnot
    cases hnot

/-- If the line of a node ends with a semicolon, there is a longer one that does. -/
theorem exists_longer_of_semicolon {n : Node} (hn : n ∈ (ofDiagram t).unmentioned)
    (hlast : n.declaration.getLast? = some ';') :
    ∃ m ∈ (ofDiagram t).unmentioned, m.declaration.getLast? = some ';' ∧
      n.declaration.length < m.declaration.length := by
  obtain ⟨key, hkey⟩ := exists_get?_of_mem_unmentioned hn
  obtain ⟨m, hm, line, hbearing, hdeclares⟩ := exists_unmentioned_of_fixed hfix hn
  obtain ⟨dropped, hdropped, hsemicolon⟩ := exists_dropped_of_bearing? hm hbearing
  have hpart := isPart_declaration_of_mem_unmentioned hm
  have hlf : '\n' ∉ line := fun hmem => hpart.oneLine (hdropped ▸ List.mem_append_left _ hmem)
  cases hid : Text.isIdentifier n.id with
  | true =>
      have hclose := (regular_of_get? hkey hid).mem_closings ';' (by
        rwa [← Node.declaration_of_identifier hid])
      have hnot : ';' ∉ closings := by decide
      exact absurd hclose hnot
  | false =>
      -- raw text is kept of the other line as it is
      have hraw : n.declaration = line := by
        have hid' : Text.isIdentifier (Declaration.ofText line).id = false := by
          rwa [← hdeclares]
        rw [(raw_of_get? hkey hid).declaration_eq]
        rw [hdeclares, Declaration.ofText_of_raw hlf hid']
      have hne : dropped ≠ [] := by
        rintro rfl
        have hkept := ((Statement.bearing?_eq_some_iff _ _).mp hbearing).1
        rw [List.append_nil] at hdropped
        refine getLast?_ne_of_keptLine? hkept ?_ ';' (hraw ▸ hlast) rfl
        rw [hpart.trimmed.trim_indent, hdropped]
      refine ⟨m, hm, hsemicolon hne, ?_⟩
      rw [hdropped, List.length_append, hraw]
      have := List.length_pos_iff.mpr hne
      omega

/-- No line of a node ends with a semicolon, since none is the longest that does. -/
theorem noSemicolon_of_fixed {n : Node} (hn : n ∈ (ofDiagram t).unmentioned) :
    n.declaration.getLast? ≠ some ';' := by
  intro hlast
  have hmem : n ∈ (ofDiagram t).unmentioned.filter
      fun n => decide (n.declaration.getLast? = some ';') :=
    List.mem_filter.mpr ⟨hn, by simpa using hlast⟩
  -- among finitely many lines that end with a semicolon one is the longest
  obtain ⟨m, hm⟩ := Option.ne_none_iff_exists'.mp
    (mt List.argmax_eq_none.mp (List.ne_nil_of_mem hmem) :
      List.argmax (fun n : Node => n.declaration.length) _ ≠ none)
  obtain ⟨hmu, hml⟩ := List.mem_filter.mp (List.argmax_mem hm)
  obtain ⟨m', hmu', hml', hlt⟩ := exists_longer_of_semicolon hfix hmu (by simpa using hml)
  have hle := List.le_of_mem_argmax (List.mem_filter.mpr ⟨hmu', by simpa using hml'⟩) hm
  omega

/-- The line of a node is kept whole and bears on the graph. -/
theorem bearing?_of_fixed {n : Node} (hn : n ∈ (ofDiagram t).unmentioned) :
    Statement.bearing? (indent ++ n.declaration) = some n.declaration := by
  obtain ⟨m, hm, line, hbearing, hdeclares⟩ := exists_unmentioned_of_fixed hfix hn
  obtain ⟨dropped, hdropped, hsemicolon⟩ := exists_dropped_of_bearing? hm hbearing
  have hnil : dropped = [] := by
    by_contra hne
    exact noSemicolon_of_fixed hfix hm (hsemicolon hne)
  rw [hnil, List.append_nil] at hdropped
  obtain ⟨key, hkey⟩ := exists_get?_of_mem_unmentioned hm
  rw [← hdropped, (readable_of_get? hkey).full] at hdeclares
  have hsame : n.declaration = m.declaration :=
    congrArg (fun d => Node.declaration { toDeclaration := d }) hdeclares
  rw [hsame, hbearing, hdropped]

theorem legibleLine_of_fixed {n : Node} (hn : n ∈ (ofDiagram t).unmentioned) :
    LegibleLine n.declaration := by
  have hbearing := bearing?_of_fixed hfix hn
  have hpart := isPart_declaration_of_mem_unmentioned hn
  obtain ⟨hkept, hbears⟩ := (Statement.bearing?_eq_some_iff _ _).mp hbearing
  have hnone : Connection.ofLine? n.declaration = none := by
    have h := connection?_unmentioned hn
    rwa [Statement.connection?, hbearing, Option.bind_some] at h
  rw [Statement.bears, hnone, Bool.and_eq_true, Bool.not_eq_true'] at hbears
  refine ⟨hpart, isRemark_of_keptLine? hkept, ?_, hbears.1, by simpa using hbears.2, hnone⟩
  rintro c hc rfl
  exact noSemicolon_of_fixed hfix hn hc

/-- **The graph of a text that is regenerated as it is is legible.** -/
theorem legible_of_fixed : (ofDiagram t).Legible where
  keys := fun _ _ hn => id_of_get?_ofDiagram hn
  readable := fun _ _ hn => readable_of_get? hn
  edges := by
    intro d hd
    obtain ⟨k, hk⟩ := exists_readBack_of_fixed hfix hd
    exact hk.legible
  lines := fun _ hn => legibleLine_of_fixed hfix hn

end Fixed

/-- **The fixed points of regeneration are the diagrams of legible graphs.** -/
theorem fixed_iff (t : Text) (keepStyles fenced : Bool) :
    (ofDiagram t).diagram keepStyles fenced = t ↔
      ∃ g : Graph, g.Legible ∧ g.diagram keepStyles fenced = t := by
  constructor
  · intro hfix
    exact ⟨ofDiagram t, legible_of_fixed hfix, hfix⟩
  · rintro ⟨g, hg, rfl⟩
    exact hg.diagram_reread keepStyles fenced

end Graph

end Flowchart
