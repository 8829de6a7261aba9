import Flowchart.Proofs.Reading

/-!
# Statements in another order

The lines after the first that says something can be put in any order, and the diagram says the same
about every node and has the same edges, numbered otherwise (`Graph.ofDiagram_rearranged`). This
holds as long as no two declarations of a node disagree (`Declaration.Consistent`); otherwise the
first of them counts.

Consistent declarations of a node that say more than that it exists are equal, and so are those that
say no more. What they settle is then independent of their order (`Declaration.settled?_perm`), since
a search with at most one answer is (`find?_perm`).
-/

set_option autoImplicit false

namespace Flowchart

/-- A search that can find one item only finds it in any order. -/
theorem find?_perm {α : Type} {p : α → Bool} {l l' : List α} (hperm : l.Perm l')
    (hunique : ∀ a ∈ l, ∀ b ∈ l, p a = true → p b = true → a = b) : l.find? p = l'.find? p := by
  cases h : l.find? p with
  | none =>
      symm
      rw [List.find?_eq_none] at h ⊢
      intro a ha
      exact h a (hperm.mem_iff.mpr ha)
  | some a =>
      have ha : a ∈ l := List.mem_of_find?_eq_some h
      have hpa : p a = true := List.find?_some h
      cases h' : l'.find? p with
      | none => exact absurd hpa (List.find?_eq_none.mp h' a (hperm.mem_iff.mp ha))
      | some b =>
          have hb : b ∈ l := hperm.mem_iff.mpr (List.mem_of_find?_eq_some h')
          rw [hunique a ha b hb hpa (List.find?_some h')]

/-! ## Consistent declarations -/

namespace Declaration

/-- No two declarations disagree: those of a node that have a label of their own have the same label
and the same shape, and those that have none are rectangles. -/
structure Consistent (ds : List Declaration) : Prop where
  full : ∀ d ∈ ds, ∀ e ∈ ds, d.id = e.id → d.label ≠ d.id → e.label ≠ e.id →
    d.label = e.label ∧ d.shape = e.shape
  bare : ∀ d ∈ ds, d.label = d.id → d.shape = .known .rectangle

section Consistent

variable {ds : List Declaration} (h : Consistent ds)

include h

theorem Consistent.eq_of_full {d e : Declaration} (hd : d ∈ ds) (he : e ∈ ds) (hid : d.id = e.id)
    (hdfull : d.isBare = false) (hefull : e.isBare = false) : d = e := by
  rw [isBare, decide_eq_false_iff_not] at hdfull hefull
  obtain ⟨hlabel, hshape⟩ := h.full d hd e he hid hdfull hefull
  cases d
  cases e
  cases hid
  cases hlabel
  cases hshape
  rfl

theorem Consistent.eq_of_bare {d e : Declaration} (hd : d ∈ ds) (he : e ∈ ds) (hid : d.id = e.id)
    (hdbare : d.isBare = true) (hebare : e.isBare = true) : d = e := by
  rw [isBare, decide_eq_true_iff] at hdbare hebare
  have hdshape := h.bare d hd hdbare
  have heshape := h.bare e he hebare
  cases d
  cases e
  cases hid
  cases hdbare
  cases hebare
  cases hdshape
  cases heshape
  rfl

/-- **Consistent declarations settle the same in any order.** -/
theorem settled?_perm {es : List Declaration} (hperm : ds.Perm es) (id : Text) :
    settled? ds id = settled? es id := by
  -- the first full declaration counts, and all of them are equal
  have hfull : (ds.find? fun d => decide (d.id = id) && !d.isBare) =
      es.find? fun d => decide (d.id = id) && !d.isBare := by
    apply find?_perm hperm
    intro d hd e he hpd hpe
    simp only [Bool.and_eq_true, decide_eq_true_eq, Bool.not_eq_true'] at hpd hpe
    exact h.eq_of_full hd he (hpd.1.trans hpe.1.symm) hpd.2 hpe.2
  rw [settled?, settled?, ← hfull]
  cases hfound : ds.find? fun d => decide (d.id = id) && !d.isBare with
  | some d => rw [Option.some_or, Option.some_or]
  | none =>
      -- no declaration of the node is full, so the first bare one counts
      have hbare : ∀ d ∈ ds, d.id = id → d.isBare = true := by
        intro d hd hid
        simpa [hid] using List.find?_eq_none.mp hfound d hd
      rw [Option.none_or, Option.none_or]
      apply find?_perm hperm
      intro d hd e he hpd hpe
      rw [decide_eq_true_iff] at hpd hpe
      exact h.eq_of_bare hd he (hpd.trans hpe.symm) (hbare d hd hpd) (hbare e he hpe)

end Consistent

end Declaration

/-! ## Texts in another order -/

/-- A text and another that has the lines after the first that says something in another order. -/
def Rearranged (t u : Text) : Prop :=
  ∃ (before : List Text) (first : Text) (after after' : List Text),
    (∀ line ∈ before, keptLine? line = none) ∧ (keptLine? first).isSome = true ∧
      t.lines = before ++ first :: after ∧ u.lines = before ++ first :: after' ∧ after.Perm after'

/-- The declarations that a text makes, in the order in which they stand. -/
def declarations (t : Text) : List Declaration :=
  (bearingLines t).flatMap Statement.declarationsOf

/-- What an edge says, its identifier apart. -/
def Edge.content (e : Edge) : Text × Text × Option Json × Bool × Bool :=
  (e.source, e.target, e.label, e.animated, e.emphasized)

section Rearranged

variable {t u : Text} (h : Rearranged t u)

include h

/-- The first line that is kept stays where it is, and the others change places. -/
theorem Rearranged.keptLines :
    ∃ line rest rest', Flowchart.keptLines t = line :: rest ∧
      Flowchart.keptLines u = line :: rest' ∧ rest.Perm rest' := by
  obtain ⟨before, first, after, after', hbefore, hfirst, ht, hu, hperm⟩ := h
  obtain ⟨line, hline⟩ := Option.isSome_iff_exists.mp hfirst
  have hnone : before.filterMap keptLine? = [] := List.filterMap_eq_nil_iff.mpr hbefore
  refine ⟨line, after.filterMap keptLine?, after'.filterMap keptLine?, ?_, ?_,
    hperm.filterMap keptLine?⟩
  · rw [Flowchart.keptLines, ht, List.filterMap_append, hnone, List.nil_append,
      List.filterMap_cons_some hline]
  · rw [Flowchart.keptLines, hu, List.filterMap_append, hnone, List.nil_append,
      List.filterMap_cons_some hline]

theorem Rearranged.directionOf : Flowchart.directionOf u = Flowchart.directionOf t := by
  obtain ⟨line, rest, rest', ht, hu, -⟩ := h.keptLines
  rw [Flowchart.directionOf, Flowchart.directionOf, ht, hu]
  rfl

theorem Rearranged.bearingLines : (Flowchart.bearingLines t).Perm (Flowchart.bearingLines u) := by
  obtain ⟨line, rest, rest', ht, hu, hperm⟩ := h.keptLines
  rw [Flowchart.bearingLines, Flowchart.bearingLines, ht, hu]
  exact (hperm.cons line).filter _

end Rearranged

namespace Graph

/-- What the edges of a text say comes from its connections, one by one. -/
theorem map_content_edges (t : Text) :
    (ofDiagram t).edges.map Edge.content =
      (connections t).map fun k => (Edge.ofConnection 0 k).content := by
  rw [edges_eq_mapIdx, List.mapIdx_eq_zipIdx_map, List.map_map]
  conv_rhs => rw [← List.zipIdx_map_fst 0 (connections t), List.map_map]
  rfl

/-- **The order of statements does not matter**, as long as the declarations of the text are
consistent: with the lines after the first that says something in another order, it is the diagram
of a graph with the same direction, the same nodes, positions apart, and the same edges, each as
often as before. -/
theorem ofDiagram_rearranged {t u : Text} (h : Rearranged t u)
    (hconsistent : Declaration.Consistent (declarations t)) :
    (ofDiagram u).direction = (ofDiagram t).direction ∧
      (∀ id, ((ofDiagram u).nodes.get? id).map Node.toDeclaration =
        ((ofDiagram t).nodes.get? id).map Node.toDeclaration) ∧
      ((ofDiagram u).edges.map Edge.content).Perm ((ofDiagram t).edges.map Edge.content) := by
  have hlines := h.bearingLines
  refine ⟨?_, ?_, ?_⟩
  · rw [direction_ofDiagram, direction_ofDiagram, h.directionOf]
  · intro id
    have hdeclarations : (declarations t).Perm (declarations u) :=
      hlines.flatMap_right Statement.declarationsOf
    obtain ⟨-, ht, -⟩ := ofDiagram_reading t
    obtain ⟨-, hu, -⟩ := ofDiagram_reading u
    rw [ht id, hu id]
    exact (Declaration.settled?_perm hconsistent hdeclarations id).symm
  · -- an edge says what its connection says, whatever its number
    rw [map_content_edges, map_content_edges]
    exact ((hlines.filterMap Connection.ofLine?).map _).symm

/-- A recipe: a comment, the header, two edges that both name the kettle, the kettle itself, and raw
text. -/
def recipe : Text :=
  "%% tea\ngraph LR\nkettle --> cup\nkettle((Boil)) -.->|3 min| pot\nkettle\nserve it ;".toList

/-- The recipe with its lines after the header from the last to the first. -/
def recipeBackwards : Text :=
  "%% tea\ngraph LR\nserve it ;\nkettle\nkettle((Boil)) -.->|3 min| pot\nkettle --> cup".toList

theorem ofDiagram_rearranged_recipe :
    Rearranged recipe recipeBackwards ∧ Declaration.Consistent (declarations recipe) ∧
      (ofDiagram recipeBackwards).direction = .known .lr ∧
      ((ofDiagram recipeBackwards).nodes.get? "kettle".toList).map Node.toDeclaration =
        some ⟨"kettle".toList, "Boil".toList, .known .circle⟩ ∧
      ((ofDiagram recipeBackwards).edges.map Edge.content).Perm
        ((ofDiagram recipe).edges.map Edge.content) := by
  have hrearranged : Rearranged recipe recipeBackwards :=
    ⟨["%% tea".toList], "graph LR".toList,
      ["kettle --> cup".toList, "kettle((Boil)) -.->|3 min| pot".toList, "kettle".toList,
        "serve it ;".toList],
      ["serve it ;".toList, "kettle".toList, "kettle((Boil)) -.->|3 min| pot".toList,
        "kettle --> cup".toList],
      by decide, by decide, by decide +kernel, by decide +kernel, by decide⟩
  have hdeclarations : declarations recipe =
      [⟨"kettle".toList, "kettle".toList, .known .rectangle⟩,
        ⟨"cup".toList, "cup".toList, .known .rectangle⟩,
        ⟨"kettle".toList, "Boil".toList, .known .circle⟩,
        ⟨"pot".toList, "pot".toList, .known .rectangle⟩,
        ⟨"kettle".toList, "kettle".toList, .known .rectangle⟩,
        ⟨"serve it".toList, "serve it".toList, .known .rectangle⟩] := by
    decide +kernel
  have hconsistent : Declaration.Consistent (declarations recipe) := by
    rw [hdeclarations]
    exact ⟨by decide, by decide⟩
  obtain ⟨hdirection, hnodes, hedges⟩ := ofDiagram_rearranged hrearranged hconsistent
  exact ⟨hrearranged, hconsistent, hdirection.trans (by decide +kernel),
    (hnodes _).trans (by decide +kernel), hedges⟩

end Graph

end Flowchart
