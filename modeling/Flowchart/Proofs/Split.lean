import Flowchart.Proofs.Connection

/-!
# Where a line is split

Whether a line connects anything is settled by any start of it that does
(`Connection.isSome_ofLine?_of_isPrefix`), and the source is a start of every text that could be one
(`Connection.source_isPrefix`). The parts that are read make up the whole line, blanks and bars
apart (`Connection.exists_parts`).
-/

set_option autoImplicit false

namespace Flowchart.Connection

/-! ## Lines that connect -/

/-- What can be read after a source can be read when the line goes on. -/
theorem isSome_afterSource?_append {r x : Text} (hlf : '\n' ∉ r ++ x)
    (h : (afterSource? r).isSome = true) : (afterSource? (r ++ x)).isSome = true := by
  have hr : '\n' ∉ r := fun hmem => hlf (List.mem_append_left x hmem)
  obtain ⟨n, hn, hlt⟩ := (isSome_afterSource?_iff hr).mp h
  have hne : r.trimStart ≠ [] := by
    intro hnil
    rw [hnil] at hlt
    exact Nat.not_lt_zero n hlt
  rw [isSome_afterSource?_iff hlf, Text.trimStart_append hne]
  -- the arrow is still there, and more follows it than before
  refine ⟨n, Arrow.mem_lengths_append hn x, ?_⟩
  rw [List.length_append]
  omega

/-- A line connects exactly if something can be read after some start of it. -/
theorem isSome_ofLine?_iff {line : Text} (hlf : '\n' ∉ line) :
    (ofLine? line).isSome = true ↔
      ∃ s r, line = s ++ r ∧ s ≠ [] ∧ (afterSource? r).isSome = true := by
  constructor
  · intro h
    obtain ⟨k, hk⟩ := Option.isSome_iff_exists.mp h
    obtain ⟨r, heq, hne, hr, -⟩ := (ofLine?_eq_some_iff hlf k).mp hk
    exact ⟨k.source, r, heq, hne, by rw [hr]; rfl⟩
  · rintro ⟨s, r, rfl, hne, hr⟩
    -- the line is split at `s`, if not at a shorter start
    induction s with
    | nil => exact absurd rfl hne
    | cons c rest ih =>
        have hc : c ≠ '\n' := fun h => hlf (h ▸ List.mem_cons_self)
        rw [List.cons_append, ofLine?, if_neg hc]
        cases hafter : afterSource? (rest ++ r) with
        | some parts => rfl
        | none =>
            cases rest with
            | nil =>
                rw [List.nil_append] at hafter
                rw [hafter] at hr
                cases hr
            | cons d more =>
                rw [Option.isSome_map]
                exact ih (fun hmem => hlf (List.mem_cons_of_mem c hmem)) (List.cons_ne_nil d more)

/-- A line that begins with a connection connects. -/
theorem isSome_ofLine?_of_isPrefix {u line : Text} (hlf : '\n' ∉ line) (h : u <+: line)
    (hu : (ofLine? u).isSome = true) : (ofLine? line).isSome = true := by
  obtain ⟨x, rfl⟩ := h
  have hu' : '\n' ∉ u := fun hmem => hlf (List.mem_append_left x hmem)
  obtain ⟨s, r, rfl, hne, hr⟩ := (isSome_ofLine?_iff hu').mp hu
  rw [List.append_assoc] at hlf ⊢
  have hlf' : '\n' ∉ r ++ x := fun hmem => hlf (List.mem_append_right s hmem)
  exact (isSome_ofLine?_iff hlf).mpr ⟨s, r ++ x, rfl, hne, isSome_afterSource?_append hlf' hr⟩

/-- **The source is the shortest start of the line that could be one.** -/
theorem source_isPrefix {s r : Text} (hlf : '\n' ∉ s ++ r) {k : Connection}
    (hk : ofLine? (s ++ r) = some k) (hne : s ≠ []) (hr : (afterSource? r).isSome = true) :
    k.source <+: s := by
  obtain ⟨r', heq, -, -, hnone⟩ := (ofLine?_eq_some_iff hlf k).mp hk
  -- of two starts of the same line, one begins the other
  rcases List.append_eq_append_iff.mp heq with ⟨y, hy, hr'⟩ | ⟨y, hy, -⟩
  · -- the source is `s` and more; the rest of it could not have been passed over
    cases y with
    | nil => exact ⟨[], by rw [hy, List.append_nil, List.append_nil]⟩
    | cons c more =>
        exfalso
        have hsuffix : c :: more <:+ k.source.tail := by
          cases s with
          | nil => exact absurd rfl hne
          | cons d rest =>
              rw [hy]
              exact List.suffix_append rest _
        have hread := hnone (c :: more) (List.cons_ne_nil c more) hsuffix
        rw [← hr'] at hread
        rw [hread] at hr
        cases hr
  · exact ⟨y, hy.symm⟩

/-! ## Parts of a line -/

/-- What stands between an arrow and a target: blanks, and possibly a label between bars. -/
def Between (label : Option Text) (mid : Text) : Prop :=
  match label with
  | none => ∀ c ∈ mid, isBlank c = true
  | some x => '|' ∉ x ∧ ∃ b b', mid = b ++ '|' :: (x ++ '|' :: b') ∧
      (∀ c ∈ b, isBlank c = true) ∧ ∀ c ∈ b', isBlank c = true

theorem exists_target_of_afterBlanks {t q : Text} (hlf : '\n' ∉ t)
    (h : afterBlanks target? t = some q) : ∃ b, t = b ++ q ∧ ∀ c ∈ b, isBlank c = true := by
  obtain ⟨b, v, rfl, hb, hv⟩ := exists_of_afterBlanks target? h
  obtain ⟨-, rfl⟩ := (target?_eq_some_iff fun hmem => hlf (List.mem_append_right b hmem)).mp hv
  exact ⟨b, rfl, hb⟩

theorem exists_between {t q : Text} {l : Option Text} (hlf : '\n' ∉ t)
    (h : labelAndTarget? t = some (l, q)) : ∃ mid, t = mid ++ q ∧ Between l mid := by
  -- blanks stand before a label and before the target; without a label they are one run
  obtain ⟨b, v, rfl, hb, hv⟩ := exists_of_afterBlanks _ h
  have hlf' : '\n' ∉ v := fun hmem => hlf (List.mem_append_right b hmem)
  rcases Option.or_eq_some_iff.mp hv with hv | ⟨-, hv⟩
  · obtain ⟨x, after, q', rfl, hx, hq, hparts⟩ := exists_of_labelled? hv
    obtain ⟨rfl, rfl⟩ := Prod.mk.injEq .. ▸ hparts
    obtain ⟨b', rfl, hb'⟩ := exists_target_of_afterBlanks (fun hmem => hlf' (by simp [hmem])) hq
    exact ⟨b ++ '|' :: (x ++ '|' :: b'), by simp, hx, b, b', rfl, hb, hb'⟩
  · obtain ⟨q', hq, hparts⟩ := Option.map_eq_some_iff.mp hv
    obtain ⟨rfl, rfl⟩ := Prod.mk.injEq .. ▸ hparts
    obtain ⟨b', rfl, hb'⟩ := exists_target_of_afterBlanks hlf' hq
    refine ⟨b ++ b', by simp, ?_⟩
    intro c hc
    exact (List.mem_append.mp hc).elim (hb c) (hb' c)

/-- The parts that are read make up the whole line. -/
theorem exists_parts {line : Text} (hlf : '\n' ∉ line) {k : Connection}
    (hk : ofLine? line = some k) :
    ∃ b mid, line = k.source ++ (b ++ (k.arrow ++ (mid ++ k.target))) ∧
      (∀ c ∈ b, isBlank c = true) ∧ Arrow.Token k.arrow ∧ Between k.label mid := by
  obtain ⟨r, rfl, -, hr, -⟩ := (ofLine?_eq_some_iff hlf k).mp hk
  have hlf' : '\n' ∉ r := fun hmem => hlf (List.mem_append_right _ hmem)
  obtain ⟨n, hn, h⟩ := List.exists_of_findSome?_eq_some hr
  obtain ⟨⟨l, q⟩, hparts, heq⟩ := Option.map_eq_some_iff.mp h
  rw [Prod.mk.injEq, Prod.mk.injEq] at heq
  obtain ⟨harrow, hlabel, htarget⟩ := heq
  -- the length that was tried is that of an arrow, and `after` is read after it
  obtain ⟨a, after, hstart, ha, rfl⟩ := (Arrow.mem_lengths_iff n _).mp hn
  rw [hstart, List.take_left] at harrow
  rw [hstart, List.drop_left] at hparts
  obtain ⟨b, hb, hblank⟩ := Text.exists_blanks_trimStart r
  have hafter : '\n' ∉ after := by
    intro hmem
    rw [hb, hstart] at hlf'
    exact hlf' (List.mem_append_right b (List.mem_append_right a hmem))
  obtain ⟨mid, rfl, hmid⟩ := exists_between hafter hparts
  refine ⟨b, mid, ?_, hblank, harrow ▸ ha, hlabel ▸ hmid⟩
  rw [← harrow, ← htarget, ← hstart, ← hb]

end Flowchart.Connection
