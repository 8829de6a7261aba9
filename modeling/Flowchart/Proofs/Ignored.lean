import Mathlib.Logic.Relation
import Flowchart.Proofs.Legible

/-!
# What is ignored

A text can be edited in many ways that leave its graph as it is, positions and identifiers included
(`Graph.ofDiagram_edited`): lines that say nothing may stand anywhere, lines that only frame or style
a diagram may stand after the first line that says something, and blanks and a semicolon may stand at
the ends of a line.

No such edit changes the first line that is kept or the statements of the lines that are kept
(`Edit.keptLines`); a graph depends on nothing else. A fence is two such edits, so a diagram is read
in the same way with a fence and without.
-/

set_option autoImplicit false

namespace Flowchart

/-! ## Edits -/

/-- A line that says nothing wherever it stands. -/
inductive SaysNothing (line : Text) : Prop
  | blank (h : ∀ c ∈ line, isBlank c = true)
  | semicolons (h : ∀ c ∈ line, c = ';')
  | comment (h : "%%".toList <+: line.trimStart)
  | fence (h : "```".toList <+: line.trimStart)

/-- A kept line that stands outside the graph: a header, a bound of a subgraph, or a line of styling
that connects nothing. -/
inductive StandsOutside (kept : Text) : Prop
  | header (h : Keyword.isHeader kept = true)
  | subgraph (h : Keyword.isSubgraph kept = true)
  | bound (h : kept = "end".toList)
  | styling (word : Text) (hword : word ∈ Statement.stylingWords) (h : word <+: kept)
      (hconnection : Connection.ofLine? kept = none)

/-- An edit of the lines of a text that leaves its graph as it is. -/
inductive Edit : List Text → List Text → Prop
  | insertNothing (before after : List Text) {line : Text} (h : SaysNothing line) :
      Edit (before ++ after) (before ++ line :: after)
  | insertOutside (before after : List Text) {line kept : Text}
      (hfirst : ∃ l ∈ before, (keptLine? l).isSome = true) (hkept : keptLine? line = some kept)
      (h : StandsOutside kept) : Edit (before ++ after) (before ++ line :: after)
  | pad (before after : List Text) {left line right : Text} (hleft : ∀ c ∈ left, isBlank c = true)
      (hright : ∀ c ∈ right, isBlank c = true) :
      Edit (before ++ line :: after) (before ++ (left ++ line ++ right) :: after)
  | terminate (before after : List Text) {line : Text}
      (h : ∀ c ∈ line.trim.getLast?, c ≠ ';') :
      Edit (before ++ line :: after) (before ++ (line ++ [';']) :: after)

/-- A text after one edit. -/
def Edited (t u : Text) : Prop := Edit t.lines u.lines

/-! ## Lines -/

/-- Nothing is kept of a line that says nothing. -/
theorem SaysNothing.keptLine? {line : Text} (h : SaysNothing line) :
    Flowchart.keptLine? line = none := by
  rw [keptLine?_eq_none_iff]
  cases h with
  | blank h =>
      right
      rw [Text.trim, (Text.trimStart_eq_nil_iff line).mpr h]
      rfl
  | semicolons h =>
      right
      have hdropped : Text.dropEndWhile (· == ';') line.trim = [] :=
        List.rdropWhile_eq_nil_iff.mpr fun c hc => by simpa using h c (Text.trim_subset hc)
      rw [hdropped]
      rfl
  | comment h =>
      left
      rw [isRemark_trim, isRemark, List.isPrefixOf_iff_prefix.mpr h, Bool.true_or]
  | fence h =>
      left
      rw [isRemark_trim, isRemark, List.isPrefixOf_iff_prefix.mpr h, Bool.or_true]

/-- A line that stands outside the graph makes no statement. -/
theorem StandsOutside.ofLine? {kept : Text} (h : StandsOutside kept) :
    Statement.ofLine? kept = none := by
  rw [Statement.ofLine?_eq, if_neg]
  rw [Bool.not_eq_true, Statement.bears, Statement.isFraming]
  cases h with
  | header h => simp [h]
  | subgraph h => simp [h]
  | bound h => simp [h]
  | styling word hword h hconnection =>
      have hstyling : Statement.isStyling kept = true :=
        List.any_eq_true.mpr ⟨word, hword, List.isPrefixOf_iff_prefix.mpr h⟩
      simp [hconnection, hstyling]

/-- Blanks around a line are not kept. -/
theorem keptLine?_pad {left right : Text} (hleft : ∀ c ∈ left, isBlank c = true)
    (hright : ∀ c ∈ right, isBlank c = true) (line : Text) :
    keptLine? (left ++ line ++ right) = keptLine? line := by
  have htrim := Text.trim_between_blanks hleft hright line
  apply keptLine?_congr
  · rw [htrim]
  · rw [htrim]

/-- A semicolon after a line that does not end with one is not kept. -/
theorem keptLine?_terminate {line : Text} (h : ∀ c ∈ line.trim.getLast?, c ≠ ';') :
    keptLine? (line ++ [';']) = keptLine? line := by
  have hsemicolon : ¬ isBlank ';' = true := by decide
  have htrim : (line ++ [';']).trim = line.trimStart ++ [';'] := Text.trim_concat hsemicolon line
  -- a semicolon at the end, before the new one, would be the last of the trimmed line as well
  have hlast : ∀ c ∈ line.trimStart.getLast?, (c == ';') = false := by
    intro c hc
    rw [beq_eq_false_iff_ne]
    rintro rfl
    have hwhole : line.trim = line.trimStart := by
      apply Text.dropEndWhile_eq_self
      intro d hd
      rw [Option.mem_unique hd hc]
      exact Bool.eq_false_iff.mpr hsemicolon
    exact h ';' (hwhole ▸ hc) rfl
  apply keptLine?_congr
  · rw [htrim, isRemark_append_stop (by decide), isRemark_trim]
  · -- the new semicolon is dropped, and then the blanks that stood before it
    have hold : Text.dropEndWhile (· == ';') line.trim = line.trim := by
      apply Text.dropEndWhile_eq_self
      intro c hc
      simpa using h c hc
    have hnew : Text.dropEndWhile (· == ';') (line.trimStart ++ [';']) = line.trimStart :=
      (List.rdropWhile_concat_pos _ _ _ rfl).trans (Text.dropEndWhile_eq_self hlast)
    rw [htrim, hnew, hold]
    exact (Text.dropEndWhile_eq_self (Text.trimmed_trim line).last).symm

/-! ## Edited texts -/

/-- **An edit changes no statement**, and not the first line that is kept. -/
theorem Edit.keptLines {ls ls' : List Text} (h : Edit ls ls') :
    (ls'.filterMap keptLine?).head? = (ls.filterMap keptLine?).head? ∧
      (ls'.filterMap keptLine?).filterMap Statement.ofLine? =
        (ls.filterMap keptLine?).filterMap Statement.ofLine? := by
  cases h with
  | insertNothing before after h =>
      rw [List.filterMap_append, List.filterMap_append, List.filterMap_cons_none h.keptLine?]
      exact ⟨rfl, rfl⟩
  | insertOutside before after hfirst hkept h =>
      obtain ⟨first, hmem, hsome⟩ := hfirst
      obtain ⟨line, hline⟩ := Option.isSome_iff_exists.mp hsome
      have hbefore : before.filterMap keptLine? ≠ [] :=
        List.ne_nil_of_mem (List.mem_filterMap.mpr ⟨first, hmem, hline⟩)
      rw [List.filterMap_append, List.filterMap_append, List.filterMap_cons_some hkept]
      refine ⟨?_, ?_⟩
      · rw [List.head?_append_of_ne_nil _ hbefore, List.head?_append_of_ne_nil _ hbefore]
      · rw [List.filterMap_append, List.filterMap_append, List.filterMap_cons_none h.ofLine?]
  | pad before after hleft hright =>
      rw [List.filterMap_append, List.filterMap_append, List.filterMap_cons, List.filterMap_cons,
        keptLine?_pad hleft hright]
      exact ⟨rfl, rfl⟩
  | terminate before after h =>
      rw [List.filterMap_append, List.filterMap_append, List.filterMap_cons, List.filterMap_cons,
        keptLine?_terminate h]
      exact ⟨rfl, rfl⟩

/-- An edit of the lines of two texts is an edit of the one into the other. -/
theorem Edit.edited {t u : Text} {ls ls' : List Text} (h : Edit ls ls') (ht : t.lines = ls)
    (hu : u.lines = ls') : Edited t u := by
  rw [Edited, ht, hu]
  exact h

namespace Graph

/-- One edit leaves the graph as it is. -/
theorem ofDiagram_of_edited {t u : Text} (h : Edited t u) : ofDiagram u = ofDiagram t := by
  obtain ⟨hfirst, hstatements⟩ := Edit.keptLines h
  exact ofDiagram_congr hfirst hstatements

/-- Any number of edits leaves the graph as it is. -/
theorem ofDiagram_of_edits {t u : Text} (h : Relation.ReflTransGen Edited t u) :
    ofDiagram u = ofDiagram t := by
  induction h with
  | refl => rfl
  | tail _ hstep ih => exact (ofDiagram_of_edited hstep).trans ih

/-- A fence is a line before a diagram and a line after it. -/
theorem diagram_fenced (g : Graph) (keepStyles : Bool) :
    g.diagram keepStyles true =
      ("```mermaid".toList ++ '\n' :: g.diagram keepStyles false) ++ '\n' :: "```".toList := by
  have hlines : g.diagramLines keepStyles ≠ [] := by
    rw [diagramLines_eq]
    exact List.cons_ne_nil _ _
  calc g.diagram keepStyles true
      = Text.unlines ("```mermaid".toList :: g.diagramLines keepStyles ++ ["```".toList]) := rfl
    _ = Text.unlines ("```mermaid".toList :: g.diagramLines keepStyles) ++
          '\n' :: "```".toList := Text.unlines_concat (List.cons_ne_nil _ _) _
    _ = ("```mermaid".toList ++ '\n' :: g.diagram keepStyles false) ++ '\n' :: "```".toList := by
        rw [Text.unlines_cons _ hlines]
        rfl

/-- A fence is two edits. -/
theorem edits_fence (g : Graph) (keepStyles : Bool) :
    Relation.ReflTransGen Edited (g.diagram keepStyles false) (g.diagram keepStyles true) := by
  have hopen : Edited (g.diagram keepStyles false)
      ("```mermaid".toList ++ '\n' :: g.diagram keepStyles false) := by
    have hline : SaysNothing "```mermaid".toList := .fence (by decide)
    exact (Edit.insertNothing [] _ hline).edited rfl (Text.lines_append _ _)
  have hclose : Edited ("```mermaid".toList ++ '\n' :: g.diagram keepStyles false)
      (g.diagram keepStyles true) := by
    have hline : SaysNothing "```".toList := .fence (by decide)
    apply (Edit.insertNothing _ [] hline).edited (List.append_nil _).symm
    rw [diagram_fenced]
    exact Text.lines_append _ _
  exact (Relation.ReflTransGen.single hopen).tail hclose

/-- **What is ignored makes no difference.** Any number of edits leaves the graph as it is, and so
does a fence around the diagram of a graph. -/
theorem ofDiagram_edited :
    (∀ t u : Text, Relation.ReflTransGen Edited t u → ofDiagram u = ofDiagram t) ∧
      ∀ (g : Graph) (keepStyles : Bool),
        ofDiagram (g.diagram keepStyles true) = ofDiagram (g.diagram keepStyles false) := by
  refine ⟨?_, ?_⟩
  · intro t u h
    exact ofDiagram_of_edits h
  · intro g keepStyles
    exact ofDiagram_of_edits (edits_fence g keepStyles)

/-- A diagram of one edge. -/
def plainNote : Text := "graph LR\nA --> B".toList

/-- The diagram of one edge with a comment, a line of styling, blanks and a semicolon. -/
def busyNote : Text := "\t%% note\ngraph LR\nclassDef big x\n  A --> B\t;".toList

theorem edits_busyNote : Relation.ReflTransGen Edited plainNote busyNote := by
  have hcomment : Edited plainNote "\t%% note\ngraph LR\nA --> B".toList := by
    have h : SaysNothing "\t%% note".toList := .comment (by decide)
    exact (Edit.insertNothing [] ["graph LR".toList, "A --> B".toList] h).edited
      (by decide +kernel) (by decide +kernel)
  have hstyling : Edited "\t%% note\ngraph LR\nA --> B".toList
      "\t%% note\ngraph LR\nclassDef big x\nA --> B".toList := by
    have hkept : keptLine? "classDef big x".toList = some "classDef big x".toList := by decide
    have h : StandsOutside "classDef big x".toList :=
      .styling "class".toList (by decide) (by decide) (by decide)
    exact (Edit.insertOutside ["\t%% note".toList, "graph LR".toList] ["A --> B".toList]
      ⟨"graph LR".toList, by decide, by decide⟩ hkept h).edited (by decide +kernel)
      (by decide +kernel)
  have hpad : Edited "\t%% note\ngraph LR\nclassDef big x\nA --> B".toList
      "\t%% note\ngraph LR\nclassDef big x\n  A --> B\t".toList := by
    have hleft : ∀ c ∈ "  ".toList, isBlank c = true := List.all_eq_true.mp (by decide)
    have hright : ∀ c ∈ "\t".toList, isBlank c = true := List.all_eq_true.mp (by decide)
    exact (@Edit.pad ["\t%% note".toList, "graph LR".toList, "classDef big x".toList] []
      "  ".toList "A --> B".toList "\t".toList hleft hright).edited (by decide +kernel)
      (by decide +kernel)
  have hterminate : Edited "\t%% note\ngraph LR\nclassDef big x\n  A --> B\t".toList busyNote := by
    have hlast : (Text.trim "  A --> B\t".toList).getLast? = some 'B' := by decide
    have hunended : ∀ c ∈ (Text.trim "  A --> B\t".toList).getLast?, c ≠ ';' := by
      intro c hc
      rw [hlast] at hc
      cases hc
      decide
    exact (Edit.terminate ["\t%% note".toList, "graph LR".toList, "classDef big x".toList] []
      hunended).edited (by decide +kernel) (by decide +kernel)
  exact (((Relation.ReflTransGen.single hcomment).tail hstyling).tail hpad).tail hterminate

theorem ofDiagram_edited_busyNote :
    Relation.ReflTransGen Edited plainNote busyNote ∧ ofDiagram busyNote = ofDiagram plainNote :=
  ⟨edits_busyNote, ofDiagram_edited.1 plainNote busyNote edits_busyNote⟩

end Graph

end Flowchart
