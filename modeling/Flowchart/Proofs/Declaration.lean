import Flowchart.Diagram.Declaration
import Mathlib.Data.List.TakeWhile

/-!
# Reading written declarations

On texts without line feeds, the reader of declarations and the writer undo each other: what is read
in a shape is an identifier, an opening, a label and a closing (`Declaration.inShape?_eq_some_iff`),
a written declaration reads back as itself (`Declaration.ofText_written`), and a text either is the
written form of what it declares, or an identifier alone, or raw text (`Declaration.ofText_cases`).

The one label that does not read back is that of a rounded node between parentheses of its own,
which is the written form of a circle (`Declaration.LooksCircular`). So it is known exactly which
declarations are decoded as they were encoded (`Declaration.decodes_encoded`).
-/

set_option autoImplicit false

namespace Flowchart

/-! ## Identifiers -/

namespace Text

theorem isIdentifier_cons_iff (c : Char) (rest : Text) :
    isIdentifier (c :: rest) = true ↔
      isIdentifierStart c = true ∧ ∀ d ∈ rest, isIdentifierPart d = true := by
  simp [isIdentifier]

theorem isIdentifierPart_of_isIdentifierStart {c : Char} (h : isIdentifierStart c = true) :
    isIdentifierPart c = true := by
  simp only [isIdentifierStart, isIdentifierPart, Char.isAlphanum, Bool.or_eq_true] at h ⊢
  exact h.imp Or.inl id

theorem isIdentifierPart_of_mem {id : Text} (h : isIdentifier id = true) :
    ∀ c ∈ id, isIdentifierPart c = true := by
  cases id with
  | nil => cases h
  | cons c rest =>
      obtain ⟨hc, hrest⟩ := (isIdentifier_cons_iff c rest).mp h
      intro d hd
      rcases List.mem_cons.mp hd with rfl | hd
      · exact isIdentifierPart_of_isIdentifierStart hc
      · exact hrest d hd

theorem ne_nil_of_isIdentifier {id : Text} (h : isIdentifier id = true) : id ≠ [] := by
  rintro rfl
  cases h

/-- An identifier is read up to the first character that is no part of one. -/
theorem spanIdentifier_append {id rest : Text} (h : isIdentifier id = true)
    (hrest : ∀ c ∈ rest.head?, isIdentifierPart c = false) :
    spanIdentifier (id ++ rest) = (id, rest) := by
  cases id with
  | nil => cases h
  | cons c more =>
      obtain ⟨hc, hmore⟩ := (isIdentifier_cons_iff c more).mp h
      -- the reader goes on to the end of `more`, and stops at what follows
      rw [List.cons_append, spanIdentifier, if_pos hc, List.takeWhile_append_of_pos hmore,
        List.dropWhile_append_of_pos hmore]
      cases rest with
      | nil => simp
      | cons d x =>
          have hd : ¬ isIdentifierPart d = true := by simp [hrest d rfl]
          rw [List.takeWhile_cons_of_neg hd, List.dropWhile_cons_of_neg hd, List.append_nil]

/-- What is read as an identifier is one, and is cut off where it ends. -/
theorem spanIdentifier_spec {t id rest : Text} (h : spanIdentifier t = (id, rest))
    (hne : id ≠ []) : isIdentifier id = true ∧ t = id ++ rest := by
  cases t with
  | nil =>
      rw [spanIdentifier, Prod.mk.injEq] at h
      exact absurd h.1.symm hne
  | cons c more =>
      rw [spanIdentifier] at h
      split at h
      · next hc =>
          rw [Prod.mk.injEq] at h
          obtain ⟨rfl, rfl⟩ := h
          refine ⟨(isIdentifier_cons_iff c _).mpr ⟨hc, fun d hd => List.mem_takeWhile_imp hd⟩, ?_⟩
          rw [List.cons_append, List.takeWhile_append_dropWhile]
      · rw [Prod.mk.injEq] at h
        exact absurd h.1.symm hne

/-- An identifier and what follows it are determined by the text they make. -/
theorem identifier_append_inj {id id' x x' : Text} (h : isIdentifier id = true)
    (h' : isIdentifier id' = true) (hx : ∀ c ∈ x.head?, isIdentifierPart c = false)
    (hx' : ∀ c ∈ x'.head?, isIdentifierPart c = false) (heq : id ++ x = id' ++ x') :
    id = id' ∧ x = x' := by
  have hspan := spanIdentifier_append h hx
  rw [heq, spanIdentifier_append h' hx', Prod.mk.injEq] at hspan
  exact ⟨hspan.1.symm, hspan.2.symm⟩

theorem dropFinalLineFeed_eq {t : Text} (hlf : '\n' ∉ t) : dropFinalLineFeed t = t := by
  rw [dropFinalLineFeed, if_neg]
  intro h
  exact hlf (List.mem_of_getLast? h)

end Text

theorem not_mem_identifier {id : Text} (hid : Text.isIdentifier id = true) {c : Char}
    (hc : Text.isIdentifierPart c = false) : c ∉ id := by
  intro hmem
  rw [Text.isIdentifierPart_of_mem hid c hmem] at hc
  cases hc

/-! ## Delimiters -/

namespace Shape

theorem head?_opening_append (s : Shape) (x : Text) :
    (s.opening ++ x).head? = s.opening.head? := by
  cases s <;> rfl

/-- No identifier goes on with an opening. -/
theorem head?_opening (s : Shape) (x : Text) :
    ∀ c ∈ (s.opening ++ x).head?, Text.isIdentifierPart c = false := by
  cases s <;> rintro c ⟨⟩ <;> decide

end Shape

namespace Declaration

/-- What stands between two delimiters, if it can be a label. -/
theorem enclosed?_eq_some_iff (opening closing t label : Text) :
    enclosed? opening closing t = some label ↔
      t = opening ++ (label ++ closing) ∧ label ≠ [] ∧ '\n' ∉ label := by
  constructor
  · intro h
    unfold enclosed? at h
    split at h
    · next hp =>
        obtain ⟨inner, rfl⟩ := List.isPrefixOf_iff_prefix.mp hp
        rw [List.drop_left] at h
        dsimp only at h
        split at h
        · next hc =>
            simp only [Bool.and_eq_true, beq_iff_eq, Bool.not_eq_true', List.isEmpty_eq_false_iff,
              List.contains_eq_mem, decide_eq_false_iff_not] at hc
            obtain ⟨⟨hclosing, hne⟩, hlf⟩ := hc
            rw [Option.some.injEq] at h
            rw [h] at hne hlf
            refine ⟨?_, hne, hlf⟩
            rw [← hclosing, ← h, List.take_append_drop]
        · cases h
    · cases h
  · rintro ⟨rfl, hne, hlf⟩
    have hp : opening.isPrefixOf (opening ++ (label ++ closing)) = true :=
      List.isPrefixOf_iff_prefix.mpr (List.prefix_append _ _)
    simp [enclosed?, hp, hne, hlf]

theorem inShape?_eq_some_iff {t : Text} (hlf : '\n' ∉ t) (shape : Shape) (d : Declaration) :
    inShape? shape t = some d ↔
      Text.isIdentifier d.id = true ∧ d.label ≠ [] ∧ d.shape = .known shape ∧
        t = d.id ++ (shape.opening ++ (d.label ++ shape.closing)) := by
  obtain ⟨id, label, shape'⟩ := d
  constructor
  · intro h
    unfold inShape? at h
    cases hspan : t.spanIdentifier with
    | mk id' rest =>
        rw [hspan] at h
        dsimp only at h
        split at h
        · cases h
        · next hempty =>
            obtain ⟨l, hl, heq⟩ := Option.map_eq_some_iff.mp h
            obtain ⟨hid, rfl⟩ := Text.spanIdentifier_spec hspan (by simpa using hempty)
            rw [Text.dropFinalLineFeed_eq fun hmem => hlf (List.mem_append_right id' hmem)] at hl
            obtain ⟨rfl, hne, -⟩ := (enclosed?_eq_some_iff _ _ _ _).mp hl
            cases heq
            exact ⟨hid, hne, rfl, rfl⟩
  · rintro ⟨hid, hne, hshape, rfl⟩
    dsimp only at hid hne hshape hlf ⊢
    have hlf' : '\n' ∉ shape.opening ++ (label ++ shape.closing) := fun hmem =>
      hlf (List.mem_append_right id hmem)
    have hlabel : '\n' ∉ label := fun hmem => hlf' (by simp [hmem])
    have henc := (enclosed?_eq_some_iff shape.opening shape.closing _ label).mpr
      ⟨rfl, hne, hlabel⟩
    rw [inShape?, Text.spanIdentifier_append hid (shape.head?_opening _)]
    simp [Text.ne_nil_of_isIdentifier hid, Text.dropFinalLineFeed_eq hlf', henc, hshape]

theorem bareIdentifier?_eq_some_iff {t : Text} (hlf : '\n' ∉ t) (id : Text) :
    bareIdentifier? t = some id ↔ Text.isIdentifier t = true ∧ t = id := by
  constructor
  · intro h
    unfold bareIdentifier? at h
    cases hspan : t.spanIdentifier with
    | mk id' rest =>
        rw [hspan] at h
        dsimp only at h
        split at h
        · next hc =>
            simp only [Bool.and_eq_true, Bool.not_eq_true', List.isEmpty_eq_false_iff,
              Bool.or_eq_true, List.isEmpty_iff, beq_iff_eq] at hc
            obtain ⟨hid, rfl⟩ := Text.spanIdentifier_spec hspan hc.1
            cases h
            rcases hc.2 with rfl | rfl
            · rw [List.append_nil]
              exact ⟨hid, rfl⟩
            · exact absurd (List.mem_append_right _ List.mem_cons_self) hlf
        · cases h
  · rintro ⟨hid, rfl⟩
    have hspan : Text.spanIdentifier (t ++ []) = (t, []) :=
      Text.spanIdentifier_append hid (by simp)
    rw [List.append_nil] at hspan
    simp [bareIdentifier?, hspan, Text.ne_nil_of_isIdentifier hid]

/-! ## Written declarations -/

/-- A rounded node whose label stands between parentheses of its own: written down, it is a
circle. -/
def LooksCircular (d : Declaration) : Prop :=
  d.shape = .known .rounded ∧ ∃ m, m ≠ [] ∧ d.label = '(' :: (m ++ [')'])

theorem written_known {d : Declaration} {shape : Shape} (h : d.shape = .known shape) :
    d.written = d.id ++ (shape.opening ++ (d.label ++ shape.closing)) := by
  simp [written, h, Named.delimiters, Named.wordOr, Named.word?]

theorem not_mem_written {d : Declaration} {shape : Shape} (hshape : d.shape = .known shape)
    {c : Char} (hdelimiters : ∀ s : Shape, c ∉ s.opening ∧ c ∉ s.closing) (hid : c ∉ d.id)
    (hlabel : c ∉ d.label) : c ∉ d.written := by
  simp [written_known hshape, hid, (hdelimiters shape).1, hlabel, (hdelimiters shape).2]

theorem line_feed_not_mem_delimiters (s : Shape) : '\n' ∉ s.opening ∧ '\n' ∉ s.closing := by
  cases s <;> decide

/-- A text can be read in two shapes only if they open alike. -/
theorem head?_opening_eq {t : Text} (hlf : '\n' ∉ t) {shape shape' : Shape} {d d' : Declaration}
    (h : inShape? shape t = some d) (h' : inShape? shape' t = some d') :
    shape.opening.head? = shape'.opening.head? := by
  obtain ⟨hid, -, -, ht⟩ := (inShape?_eq_some_iff hlf shape d).mp h
  obtain ⟨hid', -, -, ht'⟩ := (inShape?_eq_some_iff hlf shape' d').mp h'
  -- both readings cut the identifier off at the same place
  obtain ⟨-, heq⟩ := Text.identifier_append_inj hid hid' (shape.head?_opening _)
    (shape'.head?_opening _) (ht.symm.trans ht')
  have hhead := congrArg List.head? heq
  rwa [Shape.head?_opening_append, Shape.head?_opening_append] at hhead

/-- A text that can be read as a circle is read as one. -/
theorem ofText_of_circle {t : Text} {d : Declaration} (h : inShape? .circle t = some d) :
    ofText t = d := by
  simp [ofText, shapesToTry, h]

/-- A text that cannot be read as a circle is read in the one shape that fits. -/
theorem ofText_of_inShape? {t : Text} (hlf : '\n' ∉ t) {shape : Shape} {d : Declaration}
    (h : inShape? shape t = some d) (hcircle : inShape? .circle t = none) : ofText t = d := by
  -- shapes are tried in order, and only a circle opens like another shape
  have hother : ∀ shape', shape'.opening.head? ≠ shape.opening.head? →
      inShape? shape' t = none := by
    intro shape' hne
    rw [Option.eq_none_iff_forall_ne_some]
    intro d' h'
    exact hne (head?_opening_eq hlf h' h)
  cases shape with
  | circle => exact ofText_of_circle h
  | diamond => simp [ofText, shapesToTry, hcircle, h]
  | rounded => simp [ofText, shapesToTry, hcircle, hother .diamond (by decide), h]
  | rectangle =>
      simp [ofText, shapesToTry, hcircle, hother .diamond (by decide),
        hother .rounded (by decide), h]

/-- **A written declaration reads back as itself**, unless it looks like a circle. -/
theorem ofText_written {d : Declaration} {shape : Shape} (hid : Text.isIdentifier d.id = true)
    (hne : d.label ≠ []) (hlf : '\n' ∉ d.written) (hshape : d.shape = .known shape)
    (hround : ¬ LooksCircular d) : ofText d.written = d := by
  have hread : inShape? shape d.written = some d :=
    (inShape?_eq_some_iff hlf shape d).mpr ⟨hid, hne, hshape, written_known hshape⟩
  -- a circle is tried first; it could only take a rounded node whose label stands between
  -- parentheses
  cases hcircle : inShape? .circle d.written with
  | none => exact ofText_of_inShape? hlf hread hcircle
  | some d' =>
      have hhead := head?_opening_eq hlf hread hcircle
      cases shape with
      | rectangle => cases hhead
      | diamond => cases hhead
      | circle => exact ofText_of_circle hread
      | rounded =>
          exfalso
          obtain ⟨hid', hne', -, hw'⟩ := (inShape?_eq_some_iff hlf .circle d').mp hcircle
          rw [written_known hshape] at hw'
          obtain ⟨-, heq⟩ := Text.identifier_append_inj hid hid' (Shape.rounded.head?_opening _)
            (Shape.circle.head?_opening _) hw'
          have heq' : d.label ++ [')'] = ('(' :: (d'.label ++ [')'])) ++ [')'] := by
            simpa [Shape.opening, Shape.closing] using heq
          exact hround ⟨hshape, d'.label, hne', List.append_cancel_right heq'⟩

/-- **What a text declares.** Either the text is the written form of a declaration of an identifier,
or it is an identifier alone, or it is raw text that names itself. -/
theorem ofText_cases {t : Text} (hlf : '\n' ∉ t) :
    (Text.isIdentifier (ofText t).id = true ∧ (ofText t).label ≠ [] ∧
        (∃ shape, (ofText t).shape = .known shape) ∧ (ofText t).written = t) ∨
      ofText t = ⟨t, t, .known .rectangle⟩ := by
  -- if no shape fits, an identifier alone and raw text declare the same
  cases hfind : shapesToTry.findSome? fun shape => inShape? shape t with
  | some d =>
      have hd : ofText t = d := by
        rw [ofText, hfind]
      obtain ⟨shape, -, hread⟩ := List.exists_of_findSome?_eq_some hfind
      obtain ⟨hid, hne, hshape, ht⟩ := (inShape?_eq_some_iff hlf shape d).mp hread
      rw [hd]
      exact Or.inl ⟨hid, hne, ⟨shape, hshape⟩, by rw [written_known hshape, ← ht]⟩
  | none =>
      right
      rw [ofText, hfind]
      cases hbare : bareIdentifier? t with
      | none => rfl
      | some id =>
          obtain ⟨-, rfl⟩ := (bareIdentifier?_eq_some_iff hlf id).mp hbare
          rfl

/-- An identifier alone declares itself. -/
theorem ofText_identifier {id : Text} (hid : Text.isIdentifier id = true) :
    ofText id = ⟨id, id, .known .rectangle⟩ := by
  have hlf : '\n' ∉ id := not_mem_identifier hid (by decide)
  rcases ofText_cases hlf with ⟨hid', -, ⟨shape, hshape⟩, hw⟩ | h
  · -- the opening would be a part of the identifier
    exfalso
    rw [written_known hshape] at hw
    have hopen : ∀ c ∈ (shape.opening ++ ((ofText id).label ++ shape.closing)).head?,
        Text.isIdentifierPart c = false := shape.head?_opening _
    obtain ⟨-, heq⟩ := Text.identifier_append_inj hid' hid hopen (by simp)
      (hw.trans (List.append_nil id).symm)
    cases shape <;> cases heq
  · exact h

/-! ## Which declarations read back -/

/-- An identifier that was read alone is one. -/
theorem isIdentifier_of_bareIdentifier? {t id : Text} (h : bareIdentifier? t = some id) :
    Text.isIdentifier id = true := by
  unfold bareIdentifier? at h
  dsimp only at h
  split at h
  · next hc =>
      simp only [Bool.and_eq_true, Bool.not_eq_true', List.isEmpty_eq_false_iff] at hc
      cases h
      exact (Text.spanIdentifier_spec rfl hc.1).1
  · cases h

/-- A label that was read between delimiters is not empty, and within one line. -/
theorem label_of_inShape? {shape : Shape} {t : Text} {d : Declaration}
    (h : inShape? shape t = some d) : d.label ≠ [] ∧ '\n' ∉ d.label := by
  unfold inShape? at h
  dsimp only at h
  split at h
  · cases h
  · obtain ⟨label, hlabel, rfl⟩ := Option.map_eq_some_iff.mp h
    exact ((enclosed?_eq_some_iff _ _ _ label).mp hlabel).2

/-- Whatever a text declares has a label that is not empty and within one line, unless the text
names itself. -/
theorem label_ofText (t : Text) :
    ((ofText t).label ≠ [] ∧ '\n' ∉ (ofText t).label) ∨ (ofText t).id = t := by
  cases hfind : shapesToTry.findSome? fun shape => inShape? shape t with
  | some d =>
      obtain ⟨shape, -, hread⟩ := List.exists_of_findSome?_eq_some hfind
      rw [ofText, hfind]
      exact .inl (label_of_inShape? hread)
  | none =>
      rw [ofText, hfind]
      cases hbare : bareIdentifier? t with
      | none => exact .inr rfl
      | some id =>
          have hid := isIdentifier_of_bareIdentifier? hbare
          exact .inl ⟨Text.ne_nil_of_isIdentifier hid, not_mem_identifier hid (by decide)⟩

/-- The written form of a declaration is longer than its identifier. -/
theorem written_ne_id {d : Declaration} {shape : Shape} (h : d.shape = .known shape) :
    d.written ≠ d.id := by
  intro heq
  rw [written_known h] at heq
  have hnil := List.append_right_eq_self.mp heq
  cases shape <;> cases hnil

/-- A declaration that looks like a circle is read as one. -/
theorem ofText_written_ne {d : Declaration} (hid : Text.isIdentifier d.id = true)
    (hlabel : '\n' ∉ d.label) (hround : LooksCircular d) : ofText d.written ≠ d := by
  obtain ⟨hshape, m, hm, hd⟩ := hround
  have hcircle : inShape? .circle d.written = some ⟨d.id, m, .known .circle⟩ := by
    have hlf : '\n' ∉ d.written := not_mem_written hshape line_feed_not_mem_delimiters
      (not_mem_identifier hid (by decide)) hlabel
    refine (inShape?_eq_some_iff hlf _ _).mpr ⟨hid, hm, rfl, ?_⟩
    simp [written_known hshape, hd, Shape.opening, Shape.closing]
  rw [ofText_of_circle hcircle]
  intro heq
  rw [← heq] at hshape
  cases hshape

/-- **Which declarations read back.** A declaration of an identifier reads back as itself exactly if
its label is not empty, lies within one line, and does not make a rounded node look like a
circle. -/
theorem ofText_written_iff {d : Declaration} {shape : Shape} (hid : Text.isIdentifier d.id = true)
    (hshape : d.shape = .known shape) :
    ofText d.written = d ↔ d.label ≠ [] ∧ '\n' ∉ d.label ∧ ¬ LooksCircular d := by
  constructor
  · intro h
    rcases label_ofText d.written with ⟨hne, hlf⟩ | hself
    · rw [h] at hne hlf
      exact ⟨hne, hlf, fun hround => ofText_written_ne hid hlf hround h⟩
    · rw [h] at hself
      exact absurd hself.symm (written_ne_id hshape)
  · rintro ⟨hne, hlf, hround⟩
    exact ofText_written hid hne (not_mem_written hshape line_feed_not_mem_delimiters
      (not_mem_identifier hid (by decide)) hlf) hshape hround

/-- **Declarations are decoded as they were encoded, whenever that is possible, and the other way
round.** For an identifier, a label and a shape, the written declaration reads back exactly if the
label is not empty, has no line feed and is not that of a rounded node in parentheses of its own
around something. And a text without line feeds either is the written form of what it declares,
which then reads back, or it is declared as its own identifier and label, with the shape of a
rectangle. -/
theorem decodes_encoded :
    (∀ (id label : Text) (shape : Shape), Text.isIdentifier id = true →
      (ofText (written ⟨id, label, .known shape⟩) = ⟨id, label, .known shape⟩ ↔
        label ≠ [] ∧ '\n' ∉ label ∧
          ¬ (shape = .rounded ∧ ∃ m, m ≠ [] ∧ label = '(' :: (m ++ [')'])))) ∧
    ∀ t : Text, '\n' ∉ t →
      ((ofText t).written = t ∧ Text.isIdentifier (ofText t).id = true ∧ (ofText t).label ≠ [] ∧
          (∃ shape, (ofText t).shape = .known shape) ∧ ofText (ofText t).written = ofText t) ∨
        ((ofText t).id = t ∧ (ofText t).label = t ∧ (ofText t).shape = .known .rectangle) := by
  constructor
  · intro id label shape hid
    have hround : LooksCircular ⟨id, label, .known shape⟩ ↔
        shape = .rounded ∧ ∃ m, m ≠ [] ∧ label = '(' :: (m ++ [')']) := by
      simp [LooksCircular]
    rw [← hround]
    exact ofText_written_iff hid rfl
  · intro t hlf
    rcases ofText_cases hlf with ⟨hid, hne, hshape, hwritten⟩ | hself
    · exact .inl ⟨hwritten, hid, hne, hshape, by rw [hwritten]⟩
    · rw [hself]
      exact .inr ⟨rfl, rfl, rfl⟩

/-- A label may hold the delimiters of its own shape, but a rounded one in parentheses is lost; a
bracket that is not closed makes raw text. -/
theorem decodes_encoded_brackets :
    ofText "a[b]]".toList = ⟨"a".toList, "b]".toList, .known .rectangle⟩ ∧
      ofText "a((b))".toList ≠ ⟨"a".toList, "(b)".toList, .known .rounded⟩ ∧
      (ofText "a[b".toList).id = "a[b".toList := by
  refine ⟨?_, ?_, ?_⟩
  · refine (decodes_encoded.1 "a".toList "b]".toList .rectangle (by decide)).mpr ?_
    exact ⟨by decide, by decide, fun h => absurd h.1 (by decide)⟩
  · intro h
    have hround := ((decodes_encoded.1 "a".toList "(b)".toList .rounded (by decide)).mp h).2.2
    exact hround ⟨rfl, "b".toList, by decide, rfl⟩
  · rcases decodes_encoded.2 "a[b".toList (by decide) with ⟨hwritten, -⟩ | ⟨hid, -⟩
    · revert hwritten
      decide
    · exact hid

end Declaration

end Flowchart
