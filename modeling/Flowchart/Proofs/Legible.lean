import Flowchart.Diagram.Writing
import Flowchart.Proofs.Connection
import Flowchart.Proofs.Keyword
import Flowchart.Proofs.Reading

/-!
# Legible graphs

When the diagram of a graph is read, every line must be split where it was joined. This module says
what that asks of the parts of a line (`LegibleSource`, `LegibleTarget`, `LegibleLabel`,
`LegibleLine`) and of a graph (`Graph.Legible`), and proves that it is enough: the statements of the
diagram are the mentions that were written (`Graph.Legible.statements_diagram`).

Whether a node is written in full or by its identifier depends on the nodes mentioned before it, so
an edge is judged together with them (`Drawing`).
-/

set_option autoImplicit false

namespace Flowchart

/-! ## Parts of a line -/

/-- A text that can be a part of a line: trimmed, not empty, and without line feeds. -/
structure Text.IsPart (t : Text) : Prop where
  trimmed : Text.Trimmed t
  ne_nil : t ≠ []
  oneLine : '\n' ∉ t

/-- A text that is read back as the source of a connection. -/
structure LegibleSource (s : Text) : Prop extends Text.IsPart s where
  noRemark : isRemark s = false
  noStatement : Keyword.readsAsStatement s = false
  noArrow : ¬ Arrow.HasArrow s.tail

/-- A text that is read back as the target of a connection with the given label. -/
structure LegibleTarget (label : Option Text) (q : Text) : Prop extends Text.IsPart q where
  noSemicolon : ∀ c ∈ q.getLast?, c ≠ ';'
  noLabel : label = none → ¬ Connection.StartsLabelled q

/-- A text that is read back as a label between bars. -/
structure LegibleLabel (x : Text) : Prop extends Text.IsPart x where
  noBar : '|' ∉ x

/-- A text that is read back as a declaration on a line of its own. -/
structure LegibleLine (d : Text) : Prop extends Text.IsPart d where
  noRemark : isRemark d = false
  noSemicolon : ∀ c ∈ d.getLast?, c ≠ ';'
  noFraming : Statement.isFraming d = false
  noStyling : Statement.isStyling d = false
  noConnection : Connection.ofLine? d = none

/-- A label as it is written after an arrow. -/
def barred : Option Text → Text
  | none => []
  | some x => '|' :: (x ++ ['|'])

theorem labelAndTarget?_barred {l : Option Text} {q : Text} (hq : LegibleTarget l q)
    (hl : ∀ x ∈ l, LegibleLabel x) :
    Connection.labelAndTarget? (barred l ++ ' ' :: q) = some (l, q) := by
  cases l with
  | none =>
      exact Connection.labelAndTarget?_target hq.oneLine hq.ne_nil hq.trimmed.head (hq.noLabel rfl)
  | some x =>
      have h := Connection.labelAndTarget?_label (hl x rfl).noBar hq.oneLine hq.ne_nil
        hq.trimmed.head
      rw [barred, List.cons_append, List.append_assoc]
      exact h

/-! ## Lines that are read back -/

theorem Graph.isBlank_of_mem_indent : ∀ c ∈ Graph.indent, isBlank c = true :=
  List.all_eq_true.mp rfl

/-- A part is what is left of its indented line. -/
theorem Text.Trimmed.trim_indent {t : Text} (h : Trimmed t) : (Graph.indent ++ t).trim = t :=
  h.trim_append Graph.isBlank_of_mem_indent

/-- The statement that a whole line makes, if it makes one. -/
def Statement.read? (line : Text) : Option Statement := (keptLine? line).bind Statement.ofLine?

theorem statements_eq_filterMap (t : Text) : statements t = t.lines.filterMap Statement.read? :=
  List.filterMap_filterMap

theorem not_mem_barred {l : Option Text} (hl : ∀ x ∈ l, LegibleLabel x) : '\n' ∉ barred l := by
  cases l with
  | none => exact List.not_mem_nil
  | some x =>
      have hx := (hl x rfl).oneLine
      simp [barred, hx]

theorem not_mem_connectors {a : Text} (ha : a ∈ Connection.connectors) : '\n' ∉ a := by
  revert a
  decide

section Edge

variable {s a q : Text} {l : Option Text}

theorem not_mem_edge (hs : '\n' ∉ s) (ha : a ∈ Connection.connectors)
    (hl : ∀ x ∈ l, LegibleLabel x) (hq : '\n' ∉ q) :
    '\n' ∉ s ++ ' ' :: (a ++ (barred l ++ ' ' :: q)) := by
  simp [hs, not_mem_connectors ha, not_mem_barred hl, hq]

/-- **A written connection is read back**: its source, its arrow, its label and its target. -/
theorem ofLine?_edge (hs : LegibleSource s) (ha : a ∈ Connection.connectors)
    (hl : ∀ x ∈ l, LegibleLabel x) (hq : LegibleTarget l q) :
    Connection.ofLine? (s ++ ' ' :: (a ++ (barred l ++ ' ' :: q))) = some ⟨s, a, l, q⟩ := by
  have hrest : '\n' ∉ a ++ (barred l ++ ' ' :: q) := by
    simp [not_mem_connectors ha, not_mem_barred hl, hq.oneLine]
  exact Connection.ofLine?_source hs.oneLine hrest hs.ne_nil hs.trimmed.last hs.noArrow
    (Connection.afterSource?_connector ha (labelAndTarget?_barred hq hl))

/-- The indented line of a connection makes its statement. -/
theorem read?_edge (hs : LegibleSource s) (ha : a ∈ Connection.connectors)
    (hl : ∀ x ∈ l, LegibleLabel x) (hq : LegibleTarget l q) :
    Statement.read? (Graph.indent ++ (s ++ ' ' :: (a ++ (barred l ++ ' ' :: q)))) =
      some (.connect (Declaration.ofText s) (Declaration.ofText q) l (Arrow.isAnimated a)
        (Arrow.isEmphasized a)) := by
  -- the line ends like its target, so it is trimmed and keeps its last character
  have hend : q <:+ s ++ ' ' :: (a ++ (barred l ++ ' ' :: q)) :=
    ⟨s ++ ' ' :: (a ++ (barred l ++ [' '])), by simp⟩
  have hlast : ∀ c ∈ (s ++ ' ' :: (a ++ (barred l ++ ' ' :: q))).getLast?, c ∈ q.getLast? := by
    obtain ⟨v, hv⟩ := hend
    intro c hc
    rwa [← hv, List.getLast?_append_of_ne_nil v hq.ne_nil] at hc
  have htrim : Text.Trimmed (s ++ ' ' :: (a ++ (barred l ++ ' ' :: q))) :=
    Text.Trimmed.append hs.trimmed.head hs.ne_nil
      (fun c hc => hq.trimmed.last c (hlast c (by
        rwa [List.getLast?_append_of_ne_nil s (List.cons_ne_nil ' ' _)])))
      (List.cons_ne_nil ' ' _)
  have hremark : isRemark (s ++ ' ' :: (a ++ (barred l ++ ' ' :: q))) = false := by
    rw [isRemark_append_stop (by decide), hs.noRemark]
  have hkept : keptLine? (Graph.indent ++ (s ++ ' ' :: (a ++ (barred l ++ ' ' :: q)))) =
      some (s ++ ' ' :: (a ++ (barred l ++ ' ' :: q))) :=
    keptLine?_append Graph.isBlank_of_mem_indent htrim (by simp) hremark
      fun c hc => hq.noSemicolon c (hlast c hc)
  -- what frames the line is decided before the blank after its source
  rw [Statement.read?, hkept, Option.bind_some, Statement.ofLine?, Keyword.isFraming_append_blank,
    hs.noStatement, if_neg Bool.false_ne_true, ofLine?_edge hs ha hl hq]
  have hlabel : (l.getD []).trim = l.getD [] := by
    cases l with
    | none => rfl
    | some x => exact (hl x rfl).trimmed.trim_eq
  simp only [Statement.ofConnection, hlabel, hs.trimmed.trim_eq, hq.trimmed.trim_eq]
  cases l with
  | none => rfl
  | some x => simp [(hl x rfl).ne_nil]

end Edge

/-- An indented declaration on a line of its own makes its statement. -/
theorem read?_line {d : Text} (hd : LegibleLine d) :
    Statement.read? (Graph.indent ++ d) = some (.declare (Declaration.ofText d)) := by
  have hkept : keptLine? (Graph.indent ++ d) = some d :=
    keptLine?_append Graph.isBlank_of_mem_indent hd.trimmed hd.ne_nil hd.noRemark hd.noSemicolon
  rw [Statement.read?, hkept, Option.bind_some, Statement.ofLine?, hd.noFraming,
    if_neg Bool.false_ne_true, hd.noConnection, hd.noStyling]
  rfl

/-! ## Edges -/

namespace Edge

/-- The label that an edge is written with. -/
def writtenLabel (e : Edge) : Option Text := (e.label.bind Json.ifTruthy).map Json.display

/-- The arrow that an edge is written with. -/
def writtenArrow (e : Edge) (keepStyles : Bool) : Text :=
  if keepStyles && e.emphasized then "==>".toList
  else if keepStyles && e.animated then "-.->".toList
  else "-->".toList

theorem connector_eq (e : Edge) (keepStyles : Bool) :
    e.connector keepStyles = e.writtenArrow keepStyles ++ barred e.writtenLabel := by
  unfold connector writtenArrow writtenLabel
  cases e.label.bind Json.ifTruthy <;> simp [barred]

theorem writtenArrow_mem (e : Edge) (keepStyles : Bool) :
    e.writtenArrow keepStyles ∈ Connection.connectors := by
  unfold writtenArrow
  split
  · decide
  · split <;> decide

theorem isEmphasized_writtenArrow (e : Edge) (keepStyles : Bool) :
    Arrow.isEmphasized (e.writtenArrow keepStyles) = (keepStyles && e.emphasized) := by
  unfold writtenArrow
  cases keepStyles <;> cases e.emphasized <;> cases e.animated <;> rfl

theorem isAnimated_writtenArrow (e : Edge) (keepStyles : Bool) :
    Arrow.isAnimated (e.writtenArrow keepStyles) =
      (keepStyles && e.animated && !e.emphasized) := by
  unfold writtenArrow
  cases keepStyles <;> cases e.emphasized <;> cases e.animated <;> rfl

/-- The edge that is read back from the line of an edge, given its place in the order. An edge that
is both thick and dotted is written thick. -/
def redrawn (keepStyles : Bool) (index : Nat) (e : Edge) : Edge where
  id := defaultId e.source e.target index
  source := e.source
  target := e.target
  label := e.writtenLabel.map .str
  animated := keepStyles && e.animated && !e.emphasized
  emphasized := keepStyles && e.emphasized

end Edge

/-! ## Mentions -/

namespace Node

/-- What a mention of a node declares. -/
def mentionDeclaration (n : Node) (mentioned : List Text) (startsLine : Bool) : Declaration :=
  if mentioned.contains n.id && !(startsLine && Keyword.readsAsStatement n.id) then
    ⟨n.id, n.id, .known .rectangle⟩
  else n.toDeclaration

/-- A node is readable if both ways to mention it declare what they should. -/
structure Readable (n : Node) : Prop where
  full : Declaration.ofText n.declaration = n.toDeclaration
  bare : Declaration.ofText n.id = ⟨n.id, n.id, .known .rectangle⟩

theorem Readable.ofText_mention {n : Node} (h : n.Readable) (mentioned : List Text)
    (startsLine : Bool) :
    Declaration.ofText (n.mention mentioned startsLine) =
      n.mentionDeclaration mentioned startsLine := by
  unfold mention mentionDeclaration
  split
  · exact h.bare
  · exact h.full

@[simp] theorem mentionDeclaration_id (n : Node) (mentioned : List Text) (startsLine : Bool) :
    (n.mentionDeclaration mentioned startsLine).id = n.id := by
  unfold mentionDeclaration
  split <;> rfl

/-- A mention is the identifier of a node that was mentioned before, or its declaration. -/
theorem mention_cases (n : Node) (mentioned : List Text) (startsLine : Bool) :
    (n.mention mentioned startsLine = n.id ∧ n.id ∈ mentioned ∧
        (startsLine = true → Keyword.readsAsStatement n.id = false)) ∨
      n.mention mentioned startsLine = n.declaration := by
  unfold mention
  split
  · next h =>
      left
      simp only [Bool.and_eq_true, List.contains_iff_mem, Bool.not_eq_true',
        Bool.and_eq_false_imp] at h
      exact ⟨rfl, h⟩
  · exact Or.inr rfl

end Node

/-! ## Graphs -/

namespace Graph

/-- Whether both nodes of an edge are there. -/
def emits (g : Graph) (e : Edge) : Bool := (g.endpoints? e).isSome

theorem endpoints?_eq_some_iff (g : Graph) (e : Edge) (source target : Node) :
    g.endpoints? e = some (source, target) ↔
      g.nodes.get? e.source = some source ∧ g.nodes.get? e.target = some target := by
  unfold endpoints?
  cases g.nodes.get? e.source <;> cases g.nodes.get? e.target <;> simp

/-- The nodes mentioned by the lines of edges, after those `mentioned` before. -/
def mentionsAfter (g : Graph) : (mentioned : List Text) → List Edge → List Text
  | mentioned, [] => mentioned
  | mentioned, e :: rest =>
    match g.endpoints? e with
    | none => g.mentionsAfter mentioned rest
    | some (source, target) => g.mentionsAfter (target.id :: source.id :: mentioned) rest

/-- The nodes that no edge mentions, in order. -/
def unmentioned (g : Graph) : List Node :=
  g.nodes.values.filter fun n => !(g.mentionsAfter [] g.edges).contains n.id

theorem exists_get?_of_mem_unmentioned {g : Graph} {n : Node} (h : n ∈ g.unmentioned) :
    ∃ key, g.nodes.get? key = some n :=
  (Keyed.mem_values_iff _ n).mp (List.mem_filter.mp h).1

theorem edgeLines_snd (g : Graph) (keepStyles : Bool) (mentioned : List Text) (es : List Edge) :
    (g.edgeLines keepStyles mentioned es).2 = g.mentionsAfter mentioned es := by
  induction es generalizing mentioned with
  | nil => rfl
  | cons e rest ih =>
      rw [edgeLines, mentionsAfter]
      cases g.endpoints? e with
      | none => exact ih mentioned
      | some ends => exact ih _

/-- The lines of a graph: its header, its edges, and the nodes that no edge mentions. -/
theorem diagramLines_eq (g : Graph) (keepStyles : Bool) :
    g.diagramLines keepStyles =
      g.header :: ((g.edgeLines keepStyles [] g.edges).1 ++
        g.unmentioned.map fun n => indent ++ n.declaration) := by
  rw [unmentioned, ← edgeLines_snd g keepStyles]
  rfl

end Graph

/-! ## Drawings -/

/-- An edge as it is drawn: with its two nodes, after the nodes `mentioned`. -/
structure Drawing where
  edge : Edge
  source : Node
  target : Node
  mentioned : List Text

namespace Drawing

/-- How the source is mentioned. -/
def sourceText (d : Drawing) : Text := d.source.mention d.mentioned true

/-- How the target is mentioned, after the source. -/
def targetText (d : Drawing) : Text := d.target.mention (d.source.id :: d.mentioned) false

/-- The line of a drawing without its indentation. -/
def body (d : Drawing) (keepStyles : Bool) : Text :=
  d.sourceText ++ ' ' ::
    (d.edge.writtenArrow keepStyles ++ (barred d.edge.writtenLabel ++ ' ' :: d.targetText))

/-- The statement that a drawing makes. -/
def statement (d : Drawing) (keepStyles : Bool) : Statement :=
  .connect (d.source.mentionDeclaration d.mentioned true)
    (d.target.mentionDeclaration (d.source.id :: d.mentioned) false) d.edge.writtenLabel
    (keepStyles && d.edge.animated && !d.edge.emphasized) (keepStyles && d.edge.emphasized)

/-- A drawing is legible if each part of its line is. -/
structure Legible (d : Drawing) : Prop where
  source : LegibleSource d.sourceText
  label : ∀ x ∈ d.edge.writtenLabel, LegibleLabel x
  target : LegibleTarget d.edge.writtenLabel d.targetText

theorem edgeLine_eq (d : Drawing) (keepStyles : Bool) :
    Graph.edgeLine keepStyles d.mentioned d.source d.target d.edge =
      Graph.indent ++ d.body keepStyles := by
  rw [Graph.edgeLine, Edge.connector_eq, body]
  simp [sourceText, targetText]

variable {d : Drawing} (h : d.Legible) (keepStyles : Bool)

include h

theorem Legible.oneLine : '\n' ∉ d.body keepStyles :=
  not_mem_edge h.source.oneLine (d.edge.writtenArrow_mem keepStyles) h.label h.target.oneLine

/-- The line of a legible drawing makes the statement of the drawing. -/
theorem Legible.read?_body (hsource : d.source.Readable) (htarget : d.target.Readable) :
    Statement.read? (Graph.indent ++ d.body keepStyles) = some (d.statement keepStyles) := by
  have hline := read?_edge h.source (d.edge.writtenArrow_mem keepStyles) h.label h.target
  rwa [sourceText, targetText, hsource.ofText_mention, htarget.ofText_mention,
    d.edge.isAnimated_writtenArrow, d.edge.isEmphasized_writtenArrow] at hline

end Drawing

namespace Graph

/-- The drawings of the edges `es` after the nodes `mentioned`. -/
def drawings (g : Graph) : (mentioned : List Text) → List Edge → List Drawing
  | _, [] => []
  | mentioned, e :: rest =>
    match g.endpoints? e with
    | none => g.drawings mentioned rest
    | some (source, target) =>
      ⟨e, source, target, mentioned⟩ :: g.drawings (target.id :: source.id :: mentioned) rest

/-- The lines of edges are those of their drawings. -/
theorem edgeLines_fst (g : Graph) (keepStyles : Bool) (mentioned : List Text) (es : List Edge) :
    (g.edgeLines keepStyles mentioned es).1 =
      (g.drawings mentioned es).map fun d => indent ++ d.body keepStyles := by
  induction es generalizing mentioned with
  | nil => rfl
  | cons e rest ih =>
      rw [edgeLines, drawings]
      cases g.endpoints? e with
      | none => exact ih mentioned
      | some ends =>
          obtain ⟨source, target⟩ := ends
          rw [List.map_cons, ← ih, ← Drawing.edgeLine_eq]

/-- A drawing is that of an edge and its two nodes. -/
theorem endpoints?_of_mem_drawings {g : Graph} {mentioned : List Text} {es : List Edge}
    {d : Drawing} (h : d ∈ g.drawings mentioned es) :
    d.edge ∈ es ∧ g.endpoints? d.edge = some (d.source, d.target) := by
  induction es generalizing mentioned with
  | nil => cases h
  | cons e rest ih =>
      rw [drawings] at h
      cases hends : g.endpoints? e with
      | none =>
          rw [hends] at h
          exact ⟨List.mem_cons_of_mem e (ih h).1, (ih h).2⟩
      | some ends =>
          obtain ⟨source, target⟩ := ends
          rw [hends] at h
          rcases List.mem_cons.mp h with rfl | h
          · exact ⟨List.mem_cons_self, hends⟩
          · exact ⟨List.mem_cons_of_mem e (ih h).1, (ih h).2⟩

/-- The nodes of a drawing are those that its edge names. -/
theorem get?_of_mem_drawings {g : Graph} {mentioned : List Text} {es : List Edge} {d : Drawing}
    (h : d ∈ g.drawings mentioned es) :
    d.edge ∈ es ∧ g.nodes.get? d.edge.source = some d.source ∧
      g.nodes.get? d.edge.target = some d.target := by
  obtain ⟨he, hends⟩ := endpoints?_of_mem_drawings h
  exact ⟨he, (endpoints?_eq_some_iff g _ _ _).mp hends⟩

theorem subset_mentioned {g : Graph} {mentioned : List Text} {es : List Edge} {d : Drawing}
    (h : d ∈ g.drawings mentioned es) : mentioned ⊆ d.mentioned := by
  induction es generalizing mentioned with
  | nil => cases h
  | cons e rest ih =>
      rw [drawings] at h
      cases hends : g.endpoints? e with
      | none =>
          rw [hends] at h
          exact ih h
      | some ends =>
          obtain ⟨source, target⟩ := ends
          rw [hends] at h
          rcases List.mem_cons.mp h with rfl | h
          · exact List.Subset.refl _
          · exact fun id hid => ih h (List.mem_cons_of_mem _ (List.mem_cons_of_mem _ hid))

/-- Every node that is drawn is mentioned in the drawings after it. -/
theorem mem_mentioned_of_lt {g : Graph} {mentioned : List Text} {es : List Edge} {i j : Nat}
    {d d' : Drawing} (hij : i < j) (hd : (g.drawings mentioned es)[i]? = some d)
    (hd' : (g.drawings mentioned es)[j]? = some d') :
    d.source.id ∈ d'.mentioned ∧ d.target.id ∈ d'.mentioned := by
  -- going down the edges, a drawing is the first that is left, or both are among the rest
  induction es generalizing mentioned i j with
  | nil => cases hd
  | cons e rest ih =>
      rw [drawings] at hd hd'
      cases hends : g.endpoints? e with
      | none =>
          rw [hends] at hd hd'
          exact ih hij hd hd'
      | some ends =>
          obtain ⟨source, target⟩ := ends
          rw [hends] at hd hd'
          obtain ⟨j, rfl⟩ : ∃ n, j = n + 1 := ⟨j - 1, by omega⟩
          rw [List.getElem?_cons_succ] at hd'
          cases i with
          | zero =>
              rw [List.getElem?_cons_zero, Option.some.injEq] at hd
              subst hd
              have hsubset := subset_mentioned (List.mem_of_getElem? hd')
              exact ⟨hsubset (by simp), hsubset (by simp)⟩
          | succ i =>
              rw [List.getElem?_cons_succ] at hd
              exact ih (by omega) hd hd'

/-- Every edge that has both its nodes is drawn once, in order. -/
theorem map_edge_drawings (g : Graph) (mentioned : List Text) (es : List Edge) :
    (g.drawings mentioned es).map Drawing.edge = es.filter g.emits := by
  induction es generalizing mentioned with
  | nil => rfl
  | cons e rest ih =>
      rw [drawings, List.filter_cons, emits]
      cases g.endpoints? e with
      | none => exact ih mentioned
      | some ends =>
          obtain ⟨source, target⟩ := ends
          rw [Option.isSome_some, if_pos rfl, List.map_cons, ih]

/-- A graph whose diagram is read back line by line. -/
structure Legible (g : Graph) : Prop where
  keys : ∀ key n, g.nodes.get? key = some n → n.id = key
  readable : ∀ key n, g.nodes.get? key = some n → n.Readable
  edges : ∀ d ∈ g.drawings [] g.edges, d.Legible
  lines : ∀ n ∈ g.unmentioned, LegibleLine n.declaration

/-! ## The diagram of a legible graph -/

theorem header_facts (g : Graph) :
    keptLine? g.header = some g.header ∧ Statement.isFraming g.header = true ∧
      Keyword.direction g.header = g.headerDirection ∧ '\n' ∉ g.header := by
  unfold header
  generalize g.headerDirection = d
  cases d <;> decide +kernel

/-- The lines of a diagram in a fence, if one is asked for. -/
def fence (fenced : Bool) (lines : List Text) : List Text :=
  if fenced then "```mermaid".toList :: lines ++ ["```".toList] else lines

theorem diagram_eq (g : Graph) (keepStyles fenced : Bool) :
    g.diagram keepStyles fenced = Text.unlines (fence fenced (g.diagramLines keepStyles)) := rfl

/-- A fence says nothing. -/
theorem filterMap_fence {α : Type} {f : Text → Option α} (hopen : f "```mermaid".toList = none)
    (hclose : f "```".toList = none) (fenced : Bool) (lines : List Text) :
    (fence fenced lines).filterMap f = lines.filterMap f := by
  cases fenced with
  | false => rfl
  | true =>
      rw [fence, if_pos rfl, List.cons_append, List.filterMap_cons_none hopen,
        List.filterMap_append, List.filterMap_cons_none hclose, List.filterMap_nil, List.append_nil]

theorem oneLine_fence {fenced : Bool} {lines : List Text} (h : ∀ line ∈ lines, '\n' ∉ line) :
    ∀ line ∈ fence fenced lines, '\n' ∉ line := by
  cases fenced with
  | false => exact h
  | true =>
      intro line hmem
      simp only [fence, if_true, List.cons_append, List.mem_cons, List.mem_append,
        List.not_mem_nil, or_false] at hmem
      rcases hmem with rfl | hmem | rfl
      · decide
      · exact h line hmem
      · decide

theorem fence_ne_nil (fenced : Bool) {lines : List Text} (h : lines ≠ []) :
    fence fenced lines ≠ [] := by
  cases fenced with
  | false => exact h
  | true => exact List.cons_ne_nil _ _

/-! ### The lines of a diagram -/

section Lines

variable {g : Graph} {keepStyles : Bool}

theorem oneLine_diagramLines (hedges : ∀ d ∈ g.drawings [] g.edges, d.Legible)
    (hnodes : ∀ n ∈ g.unmentioned, '\n' ∉ n.declaration) :
    ∀ line ∈ g.diagramLines keepStyles, '\n' ∉ line := by
  intro line hmem
  rw [diagramLines_eq, List.mem_cons, List.mem_append, List.mem_map] at hmem
  rcases hmem with rfl | hmem | ⟨n, hn, rfl⟩
  · exact g.header_facts.2.2.2
  · rw [edgeLines_fst, List.mem_map] at hmem
    obtain ⟨d, hd, rfl⟩ := hmem
    have hline := (hedges d hd).oneLine keepStyles
    simpa [indent] using hline
  · have hline := hnodes n hn
    simpa [indent] using hline

/-- A diagram is cut into the lines that were written. -/
theorem lines_diagram (h : ∀ line ∈ g.diagramLines keepStyles, '\n' ∉ line) (fenced : Bool) :
    (g.diagram keepStyles fenced).lines = fence fenced (g.diagramLines keepStyles) := by
  rw [diagram_eq]
  refine Text.lines_unlines (oneLine_fence h) (fence_ne_nil fenced ?_)
  rw [diagramLines_eq]
  exact List.cons_ne_nil _ _

/-- Header and fence say nothing; what remains are the lines of edges and of nodes. -/
theorem statements_diagram (h : ∀ line ∈ g.diagramLines keepStyles, '\n' ∉ line) (fenced : Bool) :
    statements (g.diagram keepStyles fenced) =
      (g.edgeLines keepStyles [] g.edges).1.filterMap Statement.read? ++
        (g.unmentioned.map fun n => indent ++ n.declaration).filterMap Statement.read? := by
  obtain ⟨hkept, hframing, -, -⟩ := g.header_facts
  have hheader : Statement.read? g.header = none := by
    rw [Statement.read?, hkept, Option.bind_some, Statement.ofLine?, hframing]
    rfl
  rw [statements_eq_filterMap, lines_diagram h, filterMap_fence (by decide) (by decide),
    diagramLines_eq, List.filterMap_cons_none hheader, List.filterMap_append]

/-- The lines of edges are read back as they were drawn. -/
theorem filterMap_edgeLines (hreadable : ∀ key n, g.nodes.get? key = some n → n.Readable)
    (hedges : ∀ d ∈ g.drawings [] g.edges, d.Legible) :
    (g.edgeLines keepStyles [] g.edges).1.filterMap Statement.read? =
      (g.drawings [] g.edges).map fun d => d.statement keepStyles := by
  rw [edgeLines_fst, List.filterMap_map, ← List.filterMap_eq_map]
  refine List.filterMap_congr fun d hd => ?_
  obtain ⟨-, hs, ht⟩ := get?_of_mem_drawings hd
  exact (hedges d hd).read?_body keepStyles (hreadable _ _ hs) (hreadable _ _ ht)

end Lines

/-! ### Legible graphs -/

section Legible

variable {g : Graph} (h : g.Legible) (keepStyles fenced : Bool)

include h

theorem Legible.oneLine : ∀ line ∈ g.diagramLines keepStyles, '\n' ∉ line :=
  oneLine_diagramLines h.edges fun n hn => (h.lines n hn).oneLine

theorem Legible.lines_diagram :
    (g.diagram keepStyles fenced).lines = fence fenced (g.diagramLines keepStyles) :=
  Graph.lines_diagram (h.oneLine keepStyles) fenced

/-- The lines of nodes are read back as the declarations that were written. -/
theorem Legible.filterMap_unmentioned :
    (g.unmentioned.map fun n => indent ++ n.declaration).filterMap Statement.read? =
      g.unmentioned.map fun n => .declare n.toDeclaration := by
  rw [List.filterMap_map, ← List.filterMap_eq_map]
  refine List.filterMap_congr fun n hn => ?_
  obtain ⟨key, hkey⟩ := exists_get?_of_mem_unmentioned hn
  -- the line of a node is its declaration in full
  have hnode : n.Readable := h.readable key n hkey
  rw [Function.comp_apply, read?_line (h.lines n hn), hnode.full]
  rfl

/-- **The statements of a diagram are the mentions that were written.** -/
theorem Legible.statements_diagram :
    statements (g.diagram keepStyles fenced) =
      ((g.drawings [] g.edges).map fun d => d.statement keepStyles) ++
        g.unmentioned.map fun n => .declare n.toDeclaration := by
  rw [Graph.statements_diagram (h.oneLine keepStyles) fenced,
    filterMap_edgeLines h.readable h.edges, h.filterMap_unmentioned]

/-- The direction of a diagram is the one that its header names. -/
theorem Legible.directionOf_diagram :
    directionOf (g.diagram keepStyles fenced) = g.headerDirection := by
  obtain ⟨hkept, -, hdirection, -⟩ := g.header_facts
  rw [directionOf, keptLines, h.lines_diagram, filterMap_fence (by decide) (by decide),
    diagramLines_eq, List.filterMap_cons_some hkept]
  exact hdirection

end Legible

end Graph

end Flowchart
