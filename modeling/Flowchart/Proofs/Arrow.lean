import Flowchart.Diagram.Arrow

/-!
# The grammar of arrows

`Arrow.Token` lists the arrows as a grammar, and the lengths that a reader of arrows tries are those
of the arrows that a text starts with (`Arrow.mem_lengths_iff`). An arrow holds nothing but dashes,
dots, equals signs and tips, so it never reaches across another character
(`Arrow.mem_lengths_append_stop`).

`Arrow.HasArrow` says that a text holds an arrow anywhere, by the five shortest forms that every
arrow starts with.
-/

set_option autoImplicit false

namespace Flowchart.Arrow

/-! ## Arrows -/

/-- The arrows: a dash, dots and a dash, with or without a tip; three or more equals signs or
dashes; two or more of them and a tip. -/
inductive Token : Text → Prop where
  | dotted (dots : Nat) : Token ('-' :: (List.replicate (dots + 1) '.' ++ ['-']))
  | dottedTip (dots : Nat) : Token ('-' :: (List.replicate (dots + 1) '.' ++ ['-', '>']))
  | run (sign : Char) (more : Nat) (h : sign = '=' ∨ sign = '-') :
      Token (List.replicate (more + 3) sign)
  | runTip (sign : Char) (more : Nat) (h : sign = '=' ∨ sign = '-') :
      Token (List.replicate (more + 2) sign ++ ['>'])

/-- The characters of arrows. -/
def signs : Text := ['-', '.', '=', '>']

theorem isBlank_of_mem_signs : ∀ c ∈ signs, isBlank c = false := fun c hc =>
  Bool.eq_false_iff.mpr (List.any_eq_false.mp (rfl : signs.any isBlank = false) c hc)

theorem Token.subset_signs {a : Text} (h : Token a) : ∀ c ∈ a, c ∈ signs := by
  intro c hc
  cases h with
  | dotted dots =>
      simp only [List.mem_cons, List.mem_append, List.mem_replicate, List.not_mem_nil,
        or_false] at hc
      rcases hc with rfl | ⟨-, rfl⟩ | rfl <;> decide
  | dottedTip dots =>
      simp only [List.mem_cons, List.mem_append, List.mem_replicate, List.not_mem_nil,
        or_false] at hc
      rcases hc with rfl | ⟨-, rfl⟩ | rfl | rfl <;> decide
  | run sign more h =>
      obtain ⟨-, rfl⟩ := List.mem_replicate.mp hc
      rcases h with rfl | rfl <;> decide
  | runTip sign more h =>
      simp only [List.mem_append, List.mem_replicate, List.mem_cons, List.not_mem_nil,
        or_false] at hc
      rcases hc with ⟨-, rfl⟩ | rfl
      · rcases h with rfl | rfl <;> decide
      · decide

theorem Token.ne_nil {a : Text} (h : Token a) : a ≠ [] := by
  cases h <;> simp [List.replicate_succ]

/-- No arrow is both dotted and thick. -/
theorem Token.not_dotted_and_thick {a : Text} (h : Token a) : ¬ ('.' ∈ a ∧ '=' ∈ a) := by
  rintro ⟨hdot, hequals⟩
  cases h with
  | dotted dots => simp at hequals
  | dottedTip dots => simp at hequals
  | run sign more hsign =>
      obtain rfl := (List.mem_replicate.mp hdot).2
      revert hsign
      decide
  | runTip sign more hsign =>
      rcases List.mem_append.mp hdot with hdot | hdot
      · obtain rfl := (List.mem_replicate.mp hdot).2
        revert hsign
        decide
      · cases List.mem_singleton.mp hdot

/-! ## Runs of one sign -/

/-- A text is a run of a sign and a rest that does not go on with it. -/
theorem exists_run (sign : Char) (t : Text) :
    ∃ k r, t = List.replicate k sign ++ r ∧ r.head? ≠ some sign := by
  induction t with
  | nil => exact ⟨0, [], rfl, by simp⟩
  | cons c rest ih =>
      by_cases hc : c = sign
      · obtain ⟨k, r, hr, hhead⟩ := ih
        exact ⟨k + 1, r, by rw [hc, hr]; rfl, hhead⟩
      · exact ⟨0, c :: rest, rfl, by simpa using hc⟩

/-- A shorter run of the same sign is the start of the run. -/
theorem run_le {sign : Char} {m k : Nat} {x r : Text} (hr : r.head? ≠ some sign)
    (h : List.replicate m sign ++ x = List.replicate k sign ++ r) :
    m ≤ k ∧ x = List.replicate (k - m) sign ++ r := by
  -- both runs lose one sign at a time, and the longer one is not used up first
  induction m generalizing k with
  | zero => exact ⟨Nat.zero_le k, h⟩
  | succ m ih =>
      cases k with
      | zero =>
          rw [List.replicate_zero, List.nil_append] at h
          rw [← h] at hr
          exact absurd rfl hr
      | succ k =>
          rw [List.replicate_succ, List.replicate_succ, List.cons_append, List.cons_append,
            List.cons.injEq] at h
          obtain ⟨hle, hx⟩ := ih h.2
          refine ⟨Nat.succ_le_succ hle, ?_⟩
          rwa [Nat.add_sub_add_right]

theorem length_takeWhile_run {sign : Char} {k : Nat} {r : Text} (hr : r.head? ≠ some sign) :
    ((List.replicate k sign ++ r).takeWhile (· == sign)).length = k := by
  rw [List.takeWhile_append_of_pos (by simp), List.length_append, List.length_replicate]
  cases r with
  | nil => rfl
  | cons c rest =>
      rw [List.takeWhile_cons_of_neg (by simpa using hr)]
      rfl

theorem runLengths_run {sign : Char} {k : Nat} {r : Text} (hr : r.head? ≠ some sign) :
    runLengths sign (List.replicate k sign ++ r) =
      (if 2 ≤ k ∧ r.head? = some '>' then [k + 1] else []) ++
        (List.range (k - 2)).map fun n => k - n := by
  have hdrop : (List.replicate k sign ++ r).drop k = r := List.drop_left' List.length_replicate
  simp only [runLengths, length_takeWhile_run hr, hdrop]

/-- The lengths of the arrows of one sign at the start of a text. -/
theorem mem_runLengths_iff {sign : Char} (hs : sign ≠ '>') (n : Nat) (t : Text) :
    n ∈ runLengths sign t ↔
      (∃ more r, t = List.replicate (more + 3) sign ++ r ∧ n = more + 3) ∨
        ∃ more r, t = List.replicate (more + 2) sign ++ '>' :: r ∧ n = more + 3 := by
  obtain ⟨k, r, rfl, hr⟩ := exists_run sign t
  rw [runLengths_run hr, List.mem_append, List.mem_map]
  constructor
  -- what is tried: the run with its tip, then the run cut shorter and shorter
  · rintro (h | ⟨j, hj, rfl⟩)
    · right
      split at h
      · next hk =>
          obtain ⟨more, rfl⟩ : ∃ more, k = more + 2 := ⟨k - 2, by omega⟩
          obtain ⟨rest, rfl⟩ := List.head?_eq_some_iff.mp hk.2
          exact ⟨more, rest, rfl, List.mem_singleton.mp h⟩
      · cases h
    · left
      rw [List.mem_range] at hj
      refine ⟨k - j - 3, List.replicate j sign ++ r, ?_, by omega⟩
      rw [← List.append_assoc, List.replicate_append_replicate]
      congr 2
      omega
  · rintro (⟨more, x, h, rfl⟩ | ⟨more, x, h, rfl⟩)
    · right
      obtain ⟨hle, -⟩ := run_le hr h.symm
      exact ⟨k - (more + 3), List.mem_range.mpr (by omega), by omega⟩
    · left
      obtain ⟨hle, hx⟩ := run_le hr h.symm
      -- a run that is longer than the one before the tip would put its sign in the place of the tip
      have hk : k = more + 2 := by
        refine Nat.le_antisymm (Nat.le_of_not_lt fun hlt => ?_) hle
        obtain ⟨d, hd⟩ : ∃ d, k - (more + 2) = d + 1 := ⟨k - (more + 2) - 1, by omega⟩
        rw [hd, List.replicate_succ, List.cons_append, List.cons.injEq] at hx
        exact hs hx.1.symm
      subst hk
      rw [Nat.sub_self, List.replicate_zero, List.nil_append] at hx
      rw [← hx, if_pos ⟨by omega, rfl⟩]
      exact List.mem_singleton.mpr rfl

/-! ## Dotted arrows -/

theorem dottedLengths_run {k : Nat} {r : Text} (hr : r.head? ≠ some '.') :
    dottedLengths ('-' :: (List.replicate k '.' ++ r)) =
      if k = 0 then []
      else
        match r with
        | '-' :: '>' :: _ => [k + 3, k + 2]
        | '-' :: _ => [k + 2]
        | _ => [] := by
  have hdrop : (List.replicate k '.' ++ r).drop k = r := List.drop_left' List.length_replicate
  simp only [dottedLengths, length_takeWhile_run hr, hdrop]
  rfl

/-- The lengths of the dotted arrows at the start of a text. -/
theorem mem_dottedLengths_iff (n : Nat) (t : Text) :
    n ∈ dottedLengths t ↔
      (∃ dots r, t = '-' :: (List.replicate (dots + 1) '.' ++ '-' :: r) ∧ n = dots + 3) ∨
        ∃ dots r, t = '-' :: (List.replicate (dots + 1) '.' ++ '-' :: '>' :: r) ∧ n = dots + 4 := by
  constructor
  · intro h
    cases t with
    | nil => cases h
    | cons c rest =>
        -- only a dash starts a dotted arrow, and then its dots are the whole run of them
        by_cases hc : c = '-'
        · obtain ⟨k, r, rfl, hr⟩ := exists_run '.' rest
          rw [hc, dottedLengths_run hr] at h
          cases k with
          | zero => cases h
          | succ dots =>
              rw [if_neg (Nat.succ_ne_zero dots)] at h
              split at h
              · rcases List.mem_cons.mp h with rfl | h
                · exact Or.inr ⟨dots, _, by rw [hc], rfl⟩
                · exact Or.inl ⟨dots, _, by rw [hc], List.mem_singleton.mp h⟩
              · exact Or.inl ⟨dots, _, by rw [hc], List.mem_singleton.mp h⟩
              · cases h
        · unfold dottedLengths at h
          split at h
          · next heq =>
              rw [List.cons.injEq] at heq
              exact absurd heq.1 hc
          · cases h
  · rintro (⟨dots, r, rfl, rfl⟩ | ⟨dots, r, rfl, rfl⟩)
    · rw [dottedLengths_run (by simp), if_neg (Nat.succ_ne_zero dots)]
      split
      · simp
      · simp
      · next h => exact absurd rfl (h r)
    · rw [dottedLengths_run (by simp), if_neg (Nat.succ_ne_zero dots)]
      simp

/-! ## Arrows at the start of a text -/

/-- **The lengths that are tried are those of the arrows that the text starts with.** -/
theorem mem_lengths_iff (n : Nat) (t : Text) :
    n ∈ lengths t ↔ ∃ a r, t = a ++ r ∧ Token a ∧ a.length = n := by
  rw [lengths, List.mem_append, List.mem_append, mem_dottedLengths_iff,
    mem_runLengths_iff (by decide), mem_runLengths_iff (by decide)]
  constructor
  · rintro (((⟨dots, r, rfl, rfl⟩ | ⟨dots, r, rfl, rfl⟩) |
      (⟨more, r, rfl, rfl⟩ | ⟨more, r, rfl, rfl⟩)) | (⟨more, r, rfl, rfl⟩ | ⟨more, r, rfl, rfl⟩))
    · exact ⟨_, r, by simp, Token.dotted dots, by simp⟩
    · exact ⟨_, r, by simp, Token.dottedTip dots, by simp⟩
    · exact ⟨_, r, rfl, Token.run '=' more (Or.inl rfl), by simp⟩
    · exact ⟨_, r, by simp, Token.runTip '=' more (Or.inl rfl), by simp⟩
    · exact ⟨_, r, rfl, Token.run '-' more (Or.inr rfl), by simp⟩
    · exact ⟨_, r, by simp, Token.runTip '-' more (Or.inr rfl), by simp⟩
  · rintro ⟨a, r, rfl, ha, rfl⟩
    cases ha with
    | dotted dots => exact Or.inl (Or.inl (Or.inl ⟨dots, r, by simp, by simp⟩))
    | dottedTip dots => exact Or.inl (Or.inl (Or.inr ⟨dots, r, by simp, by simp⟩))
    | run sign more h =>
        rcases h with rfl | rfl
        · exact Or.inl (Or.inr (Or.inl ⟨more, r, rfl, by simp⟩))
        · exact Or.inr (Or.inl ⟨more, r, rfl, by simp⟩)
    | runTip sign more h =>
        rcases h with rfl | rfl
        · exact Or.inl (Or.inr (Or.inr ⟨more, r, by simp, by simp⟩))
        · exact Or.inr (Or.inr ⟨more, r, by simp, by simp⟩)

/-- An arrow at the start of a text is one at the start of every longer text. -/
theorem mem_lengths_append {n : Nat} {t : Text} (h : n ∈ lengths t) (x : Text) :
    n ∈ lengths (t ++ x) := by
  obtain ⟨a, r, rfl, ha, hn⟩ := (mem_lengths_iff n t).mp h
  exact (mem_lengths_iff n _).mpr ⟨a, r ++ x, List.append_assoc .., ha, hn⟩

/-- No arrow reaches across a character that is no sign of arrows. -/
theorem mem_lengths_append_stop {n : Nat} {t : Text} {c : Char} (hc : c ∉ signs) (x : Text)
    (h : n ∈ lengths (t ++ c :: x)) : n ∈ lengths t := by
  obtain ⟨a, r, heq, ha, hn⟩ := (mem_lengths_iff n _).mp h
  -- the arrow ends before the character, or the character is one of its signs
  rcases List.append_eq_append_iff.mp heq with ⟨y, hy, hx⟩ | ⟨y, hy, -⟩
  · cases y with
    | nil => exact (mem_lengths_iff n t).mpr ⟨a, [], by simpa using hy.symm, ha, hn⟩
    | cons d more =>
        rw [List.cons_append, List.cons.injEq] at hx
        exact absurd (ha.subset_signs c (by rw [hy, hx.1]; simp)) hc
  · exact (mem_lengths_iff n t).mpr ⟨a, y, hy, ha, hn⟩

theorem length_of_mem_lengths {n : Nat} {t : Text} (h : n ∈ lengths t) : 0 < n ∧ n ≤ t.length := by
  obtain ⟨a, r, rfl, ha, rfl⟩ := (mem_lengths_iff n t).mp h
  refine ⟨List.length_pos_iff.mpr ha.ne_nil, ?_⟩
  rw [List.length_append]
  exact Nat.le_add_right _ _

/-! ## Arrows inside a text -/

/-- Whether a text holds an arrow. -/
def HasArrow (t : Text) : Prop :=
  "-->".toList <:+: t ∨ "---".toList <:+: t ∨ "==>".toList <:+: t ∨ "===".toList <:+: t ∨
    ∃ dots, '-' :: (List.replicate (dots + 1) '.' ++ ['-']) <:+: t

theorem hasArrow_iff_token (t : Text) : HasArrow t ↔ ∃ a, Token a ∧ a <:+: t := by
  constructor
  · rintro (h | h | h | h | ⟨dots, h⟩)
    · exact ⟨_, Token.runTip '-' 0 (Or.inr rfl), h⟩
    · exact ⟨_, Token.run '-' 0 (Or.inr rfl), h⟩
    · exact ⟨_, Token.runTip '=' 0 (Or.inl rfl), h⟩
    · exact ⟨_, Token.run '=' 0 (Or.inl rfl), h⟩
    · exact ⟨_, Token.dotted dots, h⟩
  · rintro ⟨a, ha, h⟩
    cases ha with
    | dotted dots => exact Or.inr (Or.inr (Or.inr (Or.inr ⟨dots, h⟩)))
    -- each arrow starts with one of the five shortest forms
    | dottedTip dots =>
        have hp : '-' :: (List.replicate (dots + 1) '.' ++ ['-']) <+:
            '-' :: (List.replicate (dots + 1) '.' ++ ['-', '>']) := ⟨['>'], by simp⟩
        exact Or.inr (Or.inr (Or.inr (Or.inr ⟨dots, hp.isInfix.trans h⟩)))
    | run sign more hs =>
        have hp : List.replicate 3 sign <+: List.replicate (more + 3) sign :=
          ⟨List.replicate more sign, by rw [List.replicate_append_replicate, Nat.add_comm]⟩
        rcases hs with rfl | rfl
        · exact Or.inr (Or.inr (Or.inr (Or.inl (hp.isInfix.trans h))))
        · exact Or.inr (Or.inl (hp.isInfix.trans h))
    | runTip sign more hs =>
        cases more with
        | zero =>
            rcases hs with rfl | rfl
            · exact Or.inr (Or.inr (Or.inl h))
            · exact Or.inl h
        | succ more =>
            have hp : List.replicate 3 sign <+: List.replicate (more + 3) sign ++ ['>'] :=
              ⟨List.replicate more sign ++ ['>'], by
                rw [← List.append_assoc, List.replicate_append_replicate, Nat.add_comm]⟩
            rcases hs with rfl | rfl
            · exact Or.inr (Or.inr (Or.inr (Or.inl (hp.isInfix.trans h))))
            · exact Or.inr (Or.inl (hp.isInfix.trans h))

/-- A text holds an arrow exactly if one of its ends starts with an arrow. -/
theorem hasArrow_iff_suffix (t : Text) : HasArrow t ↔ ∃ u, u <:+ t ∧ lengths u ≠ [] := by
  rw [hasArrow_iff_token]
  constructor
  · rintro ⟨a, ha, x, y, rfl⟩
    refine ⟨a ++ y, ⟨x, (List.append_assoc ..).symm⟩, ?_⟩
    exact List.ne_nil_of_mem ((mem_lengths_iff a.length _).mpr ⟨a, y, rfl, ha, rfl⟩)
  · rintro ⟨u, ⟨x, rfl⟩, h⟩
    obtain ⟨n, hn⟩ := List.exists_mem_of_ne_nil _ h
    obtain ⟨a, r, rfl, ha, -⟩ := (mem_lengths_iff n u).mp hn
    exact ⟨a, ha, x, r, List.append_assoc ..⟩

theorem not_hasArrow_nil : ¬ HasArrow [] := by
  rw [hasArrow_iff_suffix]
  rintro ⟨u, hu, h⟩
  rw [List.suffix_nil.mp hu] at h
  exact h rfl

theorem hasArrow_cons_iff (c : Char) (t : Text) :
    HasArrow (c :: t) ↔ lengths (c :: t) ≠ [] ∨ HasArrow t := by
  rw [hasArrow_iff_suffix, hasArrow_iff_suffix]
  constructor
  · rintro ⟨u, hu, h⟩
    rcases List.suffix_cons_iff.mp hu with rfl | hu
    · exact Or.inl h
    · exact Or.inr ⟨u, hu, h⟩
  · rintro (h | ⟨u, hu, h⟩)
    · exact ⟨c :: t, List.suffix_refl _, h⟩
    · exact ⟨u, hu.trans (List.suffix_cons c t), h⟩

instance decidableHasArrow : DecidablePred HasArrow
  | [] => isFalse not_hasArrow_nil
  | c :: t =>
    have := decidableHasArrow t
    decidable_of_iff _ (hasArrow_cons_iff c t).symm

/-- A text without arrows has none in any part. -/
theorem HasArrow.of_infix {u t : Text} (h : u <:+: t) (hu : HasArrow u) : HasArrow t := by
  rw [hasArrow_iff_token] at hu ⊢
  obtain ⟨a, ha, hau⟩ := hu
  exact ⟨a, ha, hau.trans h⟩

/-- An arrow lies on one side of a character that is no sign of arrows. -/
theorem hasArrow_append_stop {c : Char} (hc : c ∉ signs) (t x : Text) :
    HasArrow (t ++ c :: x) ↔ HasArrow t ∨ HasArrow x := by
  constructor
  -- the induction is on what stands before the character: an arrow that begins there ends there
  · induction t with
    | nil =>
        intro h
        rcases (hasArrow_cons_iff c x).mp h with h | h
        · obtain ⟨n, hn⟩ := List.exists_mem_of_ne_nil _ h
          have h0 := length_of_mem_lengths (mem_lengths_append_stop (t := []) hc x hn)
          rw [List.length_nil] at h0
          omega
        · exact Or.inr h
    | cons d rest ih =>
        intro h
        rw [List.cons_append, hasArrow_cons_iff] at h
        rcases h with h | h
        · obtain ⟨n, hn⟩ := List.exists_mem_of_ne_nil _ h
          have hd := mem_lengths_append_stop (t := d :: rest) hc x hn
          exact Or.inl ((hasArrow_cons_iff d rest).mpr (Or.inl (List.ne_nil_of_mem hd)))
        · exact (ih h).imp (fun h => (hasArrow_cons_iff d rest).mpr (Or.inr h)) id
  · rintro (h | h)
    · exact h.of_infix (List.prefix_append t _).isInfix
    · exact h.of_infix ((List.suffix_cons c x).trans (List.suffix_append t _)).isInfix

/-- The same of several such characters in a row. -/
theorem hasArrow_append_stops {u : Text} (hne : u ≠ []) (hu : ∀ c ∈ u, c ∉ signs) (t x : Text) :
    HasArrow (t ++ (u ++ x)) ↔ HasArrow t ∨ HasArrow x := by
  -- one such character splits the text; the others then have nothing before them
  induction u generalizing t with
  | nil => exact absurd rfl hne
  | cons c rest ih =>
      rw [List.cons_append, hasArrow_append_stop (hu c List.mem_cons_self)]
      cases hrest : rest with
      | nil => rfl
      | cons d more =>
          have hstep := ih (by simp [hrest]) (fun c hc => hu c (List.mem_cons_of_mem _ hc)) []
          rw [List.nil_append, hrest, or_iff_right not_hasArrow_nil] at hstep
          rw [hstep]

end Flowchart.Arrow
