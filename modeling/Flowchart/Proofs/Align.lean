import Flowchart.Proofs.Legible
import Flowchart.Proofs.Split

/-!
# Two ways to cut a line

A written line is cut where its parts were joined, and it may be cut elsewhere when it is read. If
both ways end in the same target, they agree in the source as well (`source_eq_of_target`), and a
written target cannot go on before the one that is read (`not_target_of_longer`). Nothing is dropped
at the end of a line whose target is read as it was written (`eq_nil_of_dropped`).
-/

set_option autoImplicit false

namespace Flowchart

/-! ## Cutting at a character -/

/-- A text is cut in one way at the last of its bars, or of any character. -/
theorem cut_last {c : Char} {u v u' v' : Text} (hv : c ∉ v) (hv' : c ∉ v')
    (h : u ++ c :: v = u' ++ c :: v') : u = u' ∧ v = v' := by
  -- if one cut came later, its bar would stand in the rest after the other
  rcases List.append_eq_append_iff.mp h with ⟨y, hu, hy⟩ | ⟨y, hu, hy⟩
  · cases y with
    | nil =>
        rw [List.append_nil] at hu
        rw [List.nil_append, List.cons.injEq] at hy
        exact ⟨hu.symm, hy.2⟩
    | cons d rest =>
        rw [List.cons_append, List.cons.injEq] at hy
        exact absurd (hy.2 ▸ List.mem_append_right rest List.mem_cons_self) hv
  · cases y with
    | nil =>
        rw [List.append_nil] at hu
        rw [List.nil_append, List.cons.injEq] at hy
        exact ⟨hu, hy.2.symm⟩
    | cons d rest =>
        rw [List.cons_append, List.cons.injEq] at hy
        exact absurd (hy.2 ▸ List.mem_append_right rest List.mem_cons_self) hv'

/-- Between blanks there is one text without blanks. A text before another blank and more is not
cut off by it. -/
theorem eq_nil_of_blanks {y w b a mid : Text} (hb : ∀ c ∈ b, isBlank c = true)
    (ha : ∀ c ∈ a, isBlank c = false) (hmid : ∀ c ∈ mid, isBlank c = true)
    (hy : ∀ c ∈ y.getLast?, isBlank c = false) (hw : ∃ c ∈ w, isBlank c = false)
    (h : y ++ ' ' :: w = b ++ (a ++ mid)) : y = [] := by
  by_contra hne
  obtain ⟨c, hc⟩ := Text.exists_getLast? hne
  have hcy := hy c hc
  have hwmid : ¬ ∀ c ∈ w, isBlank c = true := by
    obtain ⟨d, hd, hdb⟩ := hw
    intro hblank
    rw [hblank d hd] at hdb
    cases hdb
  have hcb : c ∉ b := fun hmem => by
    rw [hb c hmem] at hcy
    cases hcy
  -- `y` ends with no blank, so it reaches into `a`; and there is no blank in `a` for it to end
  -- before
  rcases List.append_eq_append_iff.mp h with ⟨z, hz, -⟩ | ⟨z, rfl, hz⟩
  · exact hcb (hz ▸ List.mem_append_left z (List.mem_of_getLast? hc))
  rcases List.append_eq_append_iff.mp hz with ⟨x, rfl, hx⟩ | ⟨x, rfl, hx⟩
  · -- the blank would stand after the arrow, and `w` with it
    exact hwmid fun d hd => hmid d (hx ▸ List.mem_append_right x (List.mem_cons_of_mem ' ' hd))
  · cases x with
    | nil =>
        rw [List.nil_append] at hx
        exact hwmid fun d hd => hmid d (hx ▸ List.mem_cons_of_mem ' ' hd)
    | cons d rest =>
        rw [List.cons_append, List.cons.injEq] at hx
        have hspace := ha d (List.mem_append_right z List.mem_cons_self)
        rw [← hx.1] at hspace
        revert hspace
        decide

/-! ## Cutting at the arrow -/

theorem isBlank_of_mem_token {a : Text} (ha : Arrow.Token a) : ∀ c ∈ a, isBlank c = false :=
  fun c hc => Arrow.isBlank_of_mem_signs c (ha.subset_signs c hc)

theorem not_mem_token {a : Text} (ha : Arrow.Token a) : '|' ∉ a := by
  intro hmem
  have hsign := ha.subset_signs _ hmem
  revert hsign
  decide

theorem not_mem_blanks {b : Text} (hb : ∀ c ∈ b, isBlank c = true) : '|' ∉ b := by
  intro hmem
  have hbar := hb _ hmem
  revert hbar
  decide

theorem connector_signs :
    ∀ arrow ∈ Connection.connectors, '>' ∈ arrow ∧ '|' ∉ arrow := by decide

section Cut

variable {src arrow s b a mid : Text} {l lab : Option Text}

/-- **The source of a line is read as it was written, if the target is.** -/
theorem source_eq_of_target (harrow : arrow ∈ Connection.connectors)
    (hl : l = if (lab.getD []).trim = [] then none else some (lab.getD []).trim)
    (hsrc : ∀ c ∈ src.getLast?, isBlank c = false) (hs : s <+: src)
    (hb : ∀ c ∈ b, isBlank c = true) (ha : Arrow.Token a) (hmid : Connection.Between lab mid)
    (h : src ++ ' ' :: (arrow ++ (barred l ++ [' '])) = s ++ (b ++ (a ++ mid))) :
    s = src ∧ (l = none → lab = none) := by
  obtain ⟨htip, hbar⟩ := connector_signs arrow harrow
  obtain ⟨y, rfl⟩ := hs
  rw [List.append_assoc, List.append_cancel_left_eq] at h
  have hy : ∀ c ∈ y.getLast?, isBlank c = false := fun c hc =>
    hsrc c (Text.getLast?_of_suffix (List.suffix_append s y) c hc)
  have ha' := isBlank_of_mem_token ha
  -- `y` is what the written source goes on with after the one that is read
  suffices hnil : y = [] ∧ (l = none → lab = none) by
    rw [hnil.1, List.append_nil]
    exact ⟨rfl, hnil.2⟩
  cases lab with
  | none =>
      have hnone : l = none := hl.trans (if_pos rfl)
      rw [hnone] at h
      exact ⟨eq_nil_of_blanks hb ha' hmid hy ⟨'>', List.mem_append_left _ htip, by decide⟩ h,
        fun _ => rfl⟩
  | some x =>
      obtain ⟨hx, b₁, b₂, rfl, hb₁, hb₂⟩ := hmid
      rw [Option.getD_some] at hl
      by_cases hblank : x.trim = []
      · -- the line would end with a bar before its target, not with an arrow
        exfalso
        rw [if_pos hblank] at hl
        rw [hl, show b ++ (a ++ (b₁ ++ '|' :: (x ++ '|' :: b₂))) =
          (b ++ (a ++ (b₁ ++ '|' :: x))) ++ '|' :: b₂ by simp] at h
        rcases List.append_eq_append_iff.mp h with ⟨z, -, hz⟩ | ⟨z, -, hz⟩
        · have hmem : '|' ∈ ' ' :: (arrow ++ (barred none ++ [' '])) :=
            hz ▸ List.mem_append_right z List.mem_cons_self
          simp [barred, hbar] at hmem
        · have hmem : '>' ∈ '|' :: b₂ := hz ▸ List.mem_append_right z (by simp [htip])
          rcases List.mem_cons.mp hmem with hmem | hmem
          · cases hmem
          · have htip' := hb₂ _ hmem
            revert htip'
            decide
      · rw [if_neg hblank] at hl
        refine ⟨?_, fun hnone => by rw [hnone] at hl; cases hl⟩
        have hx' : '|' ∉ x.trim := fun hmem => hx (Text.trim_subset hmem)
        have hlast : (y ++ ' ' :: (arrow ++ '|' :: x.trim)) ++ '|' :: [' '] =
            (b ++ (a ++ (b₁ ++ '|' :: x))) ++ '|' :: b₂ := by
          rw [hl, barred] at h
          simpa using h
        -- the same two bars stand in both lines: cut at the last one, then at the one before
        obtain ⟨hfirst, -⟩ := cut_last (by decide) (not_mem_blanks hb₂) hlast
        have hlast' : (y ++ ' ' :: arrow) ++ '|' :: x.trim = (b ++ (a ++ b₁)) ++ '|' :: x := by
          simpa using hfirst
        obtain ⟨hcut, -⟩ := cut_last hx' hx hlast'
        exact eq_nil_of_blanks hb ha' hb₁ hy ⟨'>', htip, by decide⟩ hcut

/-- The target that is read is no shorter end of the target that was written, if that begins with a
character that can stand in no other part. -/
theorem not_target_of_longer {z : Char} {rest : Text} (hz : isBlank z = false)
    (hz' : z ∉ Arrow.signs) (hz'' : z ≠ '|')
    (harrow : arrow ∈ Connection.connectors)
    (hl : l = if (lab.getD []).trim = [] then none else some (lab.getD []).trim)
    (hs : s <+: src) (hb : ∀ c ∈ b, isBlank c = true) (ha : Arrow.Token a)
    (hmid : Connection.Between lab mid) :
    src ++ ' ' :: (arrow ++ (barred l ++ ' ' :: (z :: rest))) ≠ s ++ (b ++ (a ++ mid)) := by
  intro h
  obtain ⟨-, hbar⟩ := connector_signs arrow harrow
  obtain ⟨y, rfl⟩ := hs
  rw [List.append_assoc, List.append_cancel_left_eq] at h
  have hmem : z ∈ b ++ (a ++ mid) := h ▸ List.mem_append_right y (by simp)
  have hzb : ∀ {b : Text}, (∀ c ∈ b, isBlank c = true) → z ∉ b := by
    intro b hb hmem
    rw [hb z hmem] at hz
    cases hz
  have hza : z ∉ a := fun hmem => hz' (ha.subset_signs z hmem)
  -- without a label there is no place for the character between arrow and target; with one, it
  -- could only stand in the label
  cases lab with
  | none =>
      simp only [List.mem_append, hzb hb, hza, hzb hmid, or_self] at hmem
  | some x =>
      obtain ⟨hx, b₁, b₂, rfl, hb₁, hb₂⟩ := hmid
      rw [Option.getD_some] at hl
      by_cases hblank : x.trim = []
      · have hzx : z ∉ x := hzb (Text.isBlank_of_trim_eq_nil hblank)
        simp only [List.mem_append, List.mem_cons, hzb hb, hza, hzb hb₁, hz'', hzx, hzb hb₂,
          or_self] at hmem
      · rw [if_neg hblank] at hl
        -- the bars of the written label are the bars of the one that is read
        -- the line that is read has two bars, so the other one has no third
        have hcount := congrArg (List.count '|') h
        have hrest : '|' ∉ ' ' :: z :: rest := by
          rw [← List.count_eq_zero]
          simp only [hl, barred, List.count_append, List.count_cons_self,
            List.count_eq_zero.mpr hbar, List.count_eq_zero.mpr (not_mem_blanks hb),
            List.count_eq_zero.mpr (not_mem_token ha), List.count_eq_zero.mpr hx,
            List.count_eq_zero.mpr (not_mem_blanks hb₁), List.cons_append,
            List.count_eq_zero.mpr (not_mem_blanks hb₂),
            List.count_cons_of_ne (show ' ' ≠ '|' by decide)] at hcount ⊢
          simp at hcount
          omega
        have hlast : (y ++ ' ' :: (arrow ++ '|' :: x.trim)) ++ '|' :: (' ' :: z :: rest) =
            (b ++ (a ++ (b₁ ++ '|' :: x))) ++ '|' :: b₂ := by
          rw [hl, barred] at h
          simpa using h
        obtain ⟨-, htail⟩ := cut_last hrest (not_mem_blanks hb₂) hlast
        exact hzb hb₂ (htail ▸ by simp)

end Cut

/-! ## The end of a line -/

/-- What stands before a target ends with a tip or a bar, and a blank. -/
theorem exists_before_target (src : Text) (l : Option Text) {arrow : Text}
    (harrow : arrow ∈ Connection.connectors) :
    ∃ u c, src ++ ' ' :: (arrow ++ (barred l ++ [' '])) = u ++ [c, ' '] ∧ (c = '>' ∨ c = '|') := by
  cases l with
  | none =>
      have htip : ∀ arrow ∈ Connection.connectors, ∃ a, arrow = a ++ ['>'] := by
        intro arrow harrow
        simp only [Connection.connectors, List.mem_cons, List.not_mem_nil, or_false] at harrow
        rcases harrow with rfl | rfl | rfl
        · exact ⟨['-', '-'], rfl⟩
        · exact ⟨['-', '.', '-'], rfl⟩
        · exact ⟨['=', '='], rfl⟩
      obtain ⟨a, rfl⟩ := htip arrow harrow
      exact ⟨src ++ ' ' :: a, '>', by simp [barred], Or.inl rfl⟩
  | some x => exact ⟨src ++ ' ' :: (arrow ++ '|' :: x), '|', by simp [barred], Or.inr rfl⟩

/-- Nothing is dropped at the end of a line whose target is read as it was written. -/
theorem eq_nil_of_dropped {u before q dropped : Text} {c : Char} (hc : c = '>' ∨ c = '|')
    (hdropped : ∀ d ∈ dropped, d ≠ '>' ∧ d ≠ '|') (hne : q ≠ [])
    (hhead : ∀ d ∈ q.head?, isBlank d = false)
    (h : u ++ [c, ' '] ++ q = before ++ (q ++ dropped)) : dropped = [] := by
  rcases List.append_eq_append_iff.mp h with ⟨x, -, hx⟩ | ⟨x, hu, hx⟩
  · -- the lengths leave room for nothing
    have hlength := congrArg List.length hx
    simp only [List.length_append] at hlength
    exact List.length_eq_zero_iff.mp (by omega)
  · -- `x` is as long as what was dropped, and holds neither a tip nor a bar
    have hlength := congrArg List.length hx
    simp only [List.length_append] at hlength
    rcases List.eq_nil_or_concat' x with rfl | ⟨x, b, rfl⟩
    · exact List.length_eq_zero_iff.mp (by simpa using hlength.symm)
    · exfalso
      rw [show u ++ [c, ' '] = (u ++ [c]) ++ [' '] by simp, ← List.append_assoc] at hu
      obtain ⟨hu', hb⟩ := List.append_inj' hu rfl
      obtain rfl := List.singleton_inj.mp hb
      rcases List.eq_nil_or_concat' x with rfl | ⟨x, b, rfl⟩
      · cases q with
        | nil => exact hne rfl
        | cons d rest =>
            rw [List.nil_append, List.singleton_append, List.cons_append, List.cons.injEq] at hx
            have hd := hhead d rfl
            rw [hx.1] at hd
            revert hd
            decide
      · rw [← List.append_assoc] at hu'
        obtain rfl : c = b := List.singleton_inj.mp (List.append_inj' hu' rfl).2
        have hcount := congrArg (List.countP fun d => d == '>' || d == '|') hx
        have hnone : dropped.countP (fun d => d == '>' || d == '|') = 0 := by
          rw [List.countP_eq_zero]
          intro d hd
          have hd' := hdropped d hd
          simp [hd'.1, hd'.2]
        have hone : (x ++ [c] ++ [' ']).countP (fun d => d == '>' || d == '|') ≠ 0 := by
          rw [Ne, List.countP_eq_zero]
          intro hall
          have hc' := hall c (by simp)
          rcases hc with rfl | rfl <;> simp at hc'
        rw [List.countP_append, List.countP_append, hnone] at hcount
        omega

end Flowchart
