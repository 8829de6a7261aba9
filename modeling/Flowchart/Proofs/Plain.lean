import Flowchart.Proofs.Legible

/-!
# Regular and plain declarations

A declaration is regular if its identifier is one and its written form reads back as itself
(`Declaration.Regular`), and plain if its label holds no arrow as well (`Declaration.Plain`). A
regular node is legible as a target, in full or by its identifier; a plain one is legible as a
source too, and on a line of its own unless its identifier begins like a word of styling.
-/

set_option autoImplicit false

namespace Flowchart

/-- A declaration of an identifier that reads back as itself. -/
structure Declaration.Regular (d : Declaration) : Prop where
  identifier : Text.isIdentifier d.id = true
  shape : ∃ shape, d.shape = .known shape
  oneLine : '\n' ∉ d.written
  reads : Declaration.ofText d.written = d

/-- A regular declaration whose label holds no arrow. -/
structure Declaration.Plain (d : Declaration) : Prop extends Declaration.Regular d where
  noArrow : ¬ Arrow.HasArrow d.label

/-! ## Identifiers -/

section Identifier

variable {id : Text} (hid : Text.isIdentifier id = true)

include hid

/-- The first character of an identifier is a part of one. -/
theorem isIdentifierPart_of_head?_append (x : Text) :
    ∀ c ∈ (id ++ x).head?, Text.isIdentifierPart c = true := by
  cases id with
  | nil => cases hid
  | cons d rest =>
      rintro c ⟨⟩
      exact Text.isIdentifierPart_of_mem hid d List.mem_cons_self

theorem isRemark_identifier_append (x : Text) : isRemark (id ++ x) = false := by
  have hhead := isIdentifierPart_of_head?_append hid x
  cases h : id ++ x with
  | nil => rfl
  | cons c rest =>
      have hc : Text.isIdentifierPart c = true := hhead c (by rw [h]; rfl)
      have hpercent : ('%' == c) = false := by
        rw [beq_eq_false_iff_ne]
        rintro rfl
        revert hc
        decide
      have htick : ('`' == c) = false := by
        rw [beq_eq_false_iff_ne]
        rintro rfl
        revert hc
        decide
      simp [isRemark, List.isPrefixOf, hpercent, htick]

/-- An identifier does not begin like a label. -/
theorem not_startsLabelled_identifier_append (x : Text) :
    ¬ Connection.StartsLabelled (id ++ x) := by
  rintro ⟨label, after, heq, -, -⟩
  have hbar := isIdentifierPart_of_head?_append hid x '|' (by rw [heq]; rfl)
  revert hbar
  decide

omit hid in
/-- No sign of an arrow is a part of an identifier. -/
theorem isIdentifierPart_of_mem_signs : ∀ c ∈ Arrow.signs, Text.isIdentifierPart c = false := by
  exact fun c hc => Bool.eq_false_iff.mpr
    (List.any_eq_false.mp (rfl : Arrow.signs.any Text.isIdentifierPart = false) c hc)

theorem not_hasArrow_identifier : ¬ Arrow.HasArrow id := by
  rw [Arrow.hasArrow_iff_token]
  rintro ⟨a, ha, hsub⟩
  obtain ⟨c, hc⟩ := List.exists_mem_of_ne_nil a ha.ne_nil
  have hpart := Text.isIdentifierPart_of_mem hid c (hsub.subset hc)
  rw [isIdentifierPart_of_mem_signs c (ha.subset_signs c hc)] at hpart
  cases hpart

theorem isPart_identifier : Text.IsPart id where
  trimmed := by
    have hblank : ∀ c ∈ id, isBlank c = false := fun c hc =>
      isBlank_of_isIdentifierPart (Text.isIdentifierPart_of_mem hid c hc)
    exact ⟨fun c hc => hblank c (List.mem_of_mem_head? hc),
      fun c hc => hblank c (List.mem_of_getLast? hc)⟩
  ne_nil := Text.ne_nil_of_isIdentifier hid
  oneLine := not_mem_identifier hid (by decide)

/-- An identifier is legible as a source unless it reads as a statement. -/
theorem legibleSource_identifier (h : Keyword.readsAsStatement id = false) : LegibleSource id where
  toIsPart := isPart_identifier hid
  noRemark := by simpa using isRemark_identifier_append hid []
  noStatement := h
  noArrow := fun harrow =>
    not_hasArrow_identifier hid (harrow.of_infix (List.tail_suffix id).isInfix)

theorem legibleTarget_identifier (label : Option Text) : LegibleTarget label id where
  toIsPart := isPart_identifier hid
  noSemicolon := by
    rintro c hc rfl
    exact not_mem_identifier hid (by decide) (List.mem_of_getLast? hc)
  noLabel := fun _ => by simpa using not_startsLabelled_identifier_append hid []

end Identifier

/-! ## Declarations in full -/

/-- The last character of a closing. -/
def closings : Text := [']', ')', '\x7d']

theorem closings_spec :
    ∀ c ∈ closings, c ≠ ';' ∧ isBlank c = false ∧ Text.isIdentifierPart c = false := by
  intro c hc
  simp only [closings, List.mem_cons, List.not_mem_nil, or_false] at hc
  rcases hc with rfl | rfl | rfl <;> decide

theorem exists_closing (shape : Shape) : ∃ x c, shape.closing = x ++ [c] ∧ c ∈ closings := by
  cases shape with
  | rectangle => exact ⟨[], ']', rfl, by decide⟩
  | rounded => exact ⟨[], ')', rfl, by decide⟩
  | diamond => exact ⟨[], '\x7d', rfl, by decide⟩
  | circle => exact ⟨[')'], ')', rfl, by decide⟩

namespace Declaration.Regular

variable {d : Declaration} (h : d.Regular)

include h

/-- A declaration in full goes on after its identifier with an opening. -/
theorem exists_opening : ∃ o x, d.written = d.id ++ o :: x ∧ o ∈ Keyword.openings := by
  obtain ⟨shape, hshape⟩ := h.shape
  obtain ⟨o, x, hopen, ho⟩ := Keyword.exists_opening shape
  exact ⟨o, x ++ (d.label ++ shape.closing), by rw [written_known hshape, hopen]; rfl, ho⟩

/-- A declaration in full ends with a closing. -/
theorem mem_closings : ∀ c ∈ d.written.getLast?, c ∈ closings := by
  obtain ⟨shape, hshape⟩ := h.shape
  obtain ⟨x, c, hclose, hc⟩ := exists_closing shape
  rw [written_known hshape, hclose]
  intro b hb
  rw [← List.append_assoc, ← List.append_assoc, ← List.append_assoc, List.getLast?_concat,
    Option.mem_some_iff] at hb
  rwa [← hb]

theorem isPart_written : Text.IsPart d.written where
  trimmed := by
    obtain ⟨o, x, hw, -⟩ := h.exists_opening
    refine ⟨fun c hc => ?_, fun c hc => (closings_spec c (h.mem_closings c hc)).2.1⟩
    rw [hw] at hc
    exact isBlank_of_isIdentifierPart (isIdentifierPart_of_head?_append h.identifier _ c hc)
  ne_nil := by
    obtain ⟨o, x, hw, -⟩ := h.exists_opening
    rw [hw]
    exact List.append_ne_nil_of_right_ne_nil _ (List.cons_ne_nil o x)
  oneLine := h.oneLine

theorem legibleTarget (label : Option Text) : LegibleTarget label d.written := by
  obtain ⟨o, x, hw, -⟩ := h.exists_opening
  refine ⟨h.isPart_written, ?_, fun _ => ?_⟩
  · exact fun c hc => (closings_spec c (h.mem_closings c hc)).1
  · rw [hw]
    exact not_startsLabelled_identifier_append h.identifier _

theorem noRemark : isRemark d.written = false := by
  obtain ⟨o, x, hw, -⟩ := h.exists_opening
  rw [hw]
  exact isRemark_identifier_append h.identifier _

theorem noStatement : Keyword.readsAsStatement d.written = false := by
  obtain ⟨o, x, hw, ho⟩ := h.exists_opening
  rw [hw]
  exact Keyword.readsAsStatement_identifier_opening h.identifier ho x

theorem noFraming : Statement.isFraming d.written = false := by
  obtain ⟨o, x, hw, ho⟩ := h.exists_opening
  rw [hw]
  exact Keyword.isFraming_identifier_opening h.identifier ho x

/-- A declaration in full begins like styling if its identifier does. -/
theorem noStyling (hstyle : ∀ word ∈ Statement.stylingWords, ¬ word <+: d.id) :
    Statement.isStyling d.written = false := by
  obtain ⟨o, x, hw, ho⟩ := h.exists_opening
  rw [hw, Statement.isStyling, List.any_eq_false]
  intro word hword
  have hstop : ∀ word ∈ Statement.stylingWords, ∀ o ∈ Keyword.openings, o ∉ word := by
    simp [Statement.stylingWords, Keyword.openings]
  rw [isPrefixOf_append_stop (hstop word hword o ho), List.isPrefixOf_iff_prefix]
  exact hstyle word hword

/-- A bare declaration in full holds no blank. -/
theorem not_mem_written_of_bare (hbare : d.isBare = true) : ' ' ∉ d.written := by
  obtain ⟨shape, hshape⟩ := h.shape
  have hlabel : d.label = d.id := of_decide_eq_true hbare
  have hid : ' ' ∉ d.id := not_mem_identifier h.identifier (by decide)
  have hdelimiters : ∀ s : Shape, ' ' ∉ s.opening ∧ ' ' ∉ s.closing := by
    intro s
    cases s <;> decide
  exact not_mem_written hshape hdelimiters hid (hlabel ▸ hid)

end Declaration.Regular

namespace Declaration.Plain

variable {d : Declaration} (h : d.Plain)

include h

/-- A declaration in full holds an arrow only if its label does. -/
theorem not_hasArrow_written : ¬ Arrow.HasArrow d.written := by
  obtain ⟨shape, hshape⟩ := h.shape
  have hopening : shape.opening ≠ [] ∧ ∀ c ∈ shape.opening, c ∉ Arrow.signs := by
    cases shape <;> simp [Shape.opening, Arrow.signs]
  have hclosing : shape.closing ≠ [] ∧ ∀ c ∈ shape.closing, c ∉ Arrow.signs := by
    cases shape <;> simp [Shape.closing, Arrow.signs]
  -- the delimiters hold no sign of arrows, so an arrow lies in one of the parts between them
  rw [written_known hshape, Arrow.hasArrow_append_stops hopening.1 hopening.2,
    ← List.append_nil shape.closing, Arrow.hasArrow_append_stops hclosing.1 hclosing.2]
  rintro (harrow | harrow | harrow)
  · exact not_hasArrow_identifier h.identifier harrow
  · exact h.noArrow harrow
  · exact Arrow.not_hasArrow_nil harrow

theorem legibleSource : LegibleSource d.written where
  toIsPart := h.isPart_written
  noRemark := h.noRemark
  noStatement := h.noStatement
  noArrow := fun harrow =>
    h.not_hasArrow_written (harrow.of_infix (List.tail_suffix d.written).isInfix)

/-- On a line of its own, a declaration in full is legible unless it begins like styling. -/
theorem legibleLine (hstyle : ∀ word ∈ Statement.stylingWords, ¬ word <+: d.id) :
    LegibleLine d.written where
  toIsPart := h.isPart_written
  noRemark := h.noRemark
  noSemicolon := (h.legibleTarget none).noSemicolon
  noFraming := h.noFraming
  noStyling := h.noStyling hstyle
  noConnection := Connection.ofLine?_eq_none h.oneLine h.legibleSource.noArrow

end Declaration.Plain

/-! ## Mentions of plain nodes -/

namespace Node

variable {n : Node}

/-- A node of an identifier is written in full. -/
theorem declaration_of_identifier (hid : Text.isIdentifier n.id = true) :
    n.declaration = n.toDeclaration.written := by
  have hbare : Declaration.bareIdentifier? n.id = some n.id :=
    (Declaration.bareIdentifier?_eq_some_iff (not_mem_identifier hid (by decide)) n.id).mpr
      ⟨hid, rfl⟩
  rw [declaration, isRawText, hbare]
  rfl

theorem readable_of_regular (h : n.toDeclaration.Regular) : n.Readable where
  full := by
    rw [declaration_of_identifier h.identifier, h.reads]
  bare := Declaration.ofText_identifier h.identifier

theorem legibleTarget_of_regular (h : n.toDeclaration.Regular) (label : Option Text)
    (mentioned : List Text) : LegibleTarget label (n.mention mentioned false) := by
  rcases n.mention_cases mentioned false with ⟨heq, -, -⟩ | heq
  · rw [heq]
    exact legibleTarget_identifier h.identifier label
  · rw [heq, declaration_of_identifier h.identifier]
    exact h.legibleTarget label

theorem legibleSource_of_plain (h : n.toDeclaration.Plain) (mentioned : List Text) :
    LegibleSource (n.mention mentioned true) := by
  rcases n.mention_cases mentioned true with ⟨heq, -, hreads⟩ | heq
  · rw [heq]
    exact legibleSource_identifier h.identifier (hreads rfl)
  · rw [heq, declaration_of_identifier h.identifier]
    exact h.legibleSource

end Node

/-! ## What texts declare -/

/-- A text that does not declare an identifier is raw: it declares itself. -/
theorem Declaration.ofText_of_raw {u : Text} (hlf : '\n' ∉ u)
    (hid : Text.isIdentifier (ofText u).id = false) : ofText u = ⟨u, u, .known .rectangle⟩ := by
  rcases ofText_cases hlf with ⟨h, -⟩ | h
  · rw [hid] at h
    cases h
  · exact h

/-- A text that declares an identifier makes a regular declaration. -/
theorem Declaration.regular_ofText {u : Text} (hlf : '\n' ∉ u)
    (hid : Text.isIdentifier (ofText u).id = true) : (ofText u).Regular := by
  -- an identifier alone is written as a rectangle with its own name for a label
  rcases ofText_cases hlf with ⟨-, -, hshape, hw⟩ | h
  · exact ⟨hid, hshape, by rwa [hw], by rw [hw]⟩
  · rw [h] at hid ⊢
    have hw : '\n' ∉ written ⟨u, u, .known .rectangle⟩ := by
      rw [written_known rfl]
      simp [Shape.opening, Shape.closing, hlf]
    refine ⟨hid, ⟨_, rfl⟩, hw, ?_⟩
    refine ofText_written hid (Text.ne_nil_of_isIdentifier hid) hw rfl ?_
    rintro ⟨hround, -⟩
    cases hround

/-- A node of raw text. -/
structure Node.Raw (n : Node) : Prop where
  isPart : Text.IsPart n.id
  noIdentifier : Text.isIdentifier n.id = false
  declares : n.toDeclaration = ⟨n.id, n.id, .known .rectangle⟩
  reads : Declaration.ofText n.id = n.toDeclaration

namespace Node.Raw

variable {n : Node} (h : n.Raw)

include h

/-- Raw text is written as it is. -/
theorem declaration_eq : n.declaration = n.id := by
  have hbare : Declaration.bareIdentifier? n.id = none := by
    rw [Option.eq_none_iff_forall_ne_some]
    intro id hid
    have hidentifier := ((Declaration.bareIdentifier?_eq_some_iff h.isPart.oneLine id).mp hid).1
    rw [h.noIdentifier] at hidentifier
    cases hidentifier
  have hlabel : n.label = n.id := congrArg Declaration.label h.declares
  have hshape : n.shape = .known .rectangle := congrArg Declaration.shape h.declares
  simp [declaration, isRawText, hbare, Declaration.isBare, hlabel, hshape]

theorem mention_eq (mentioned : List Text) (startsLine : Bool) :
    n.mention mentioned startsLine = n.id := by
  unfold mention
  rw [h.declaration_eq, ite_self]

theorem readable : n.Readable where
  full := by rw [h.declaration_eq, h.reads]
  bare := by rw [h.reads, h.declares]

end Node.Raw

end Flowchart
