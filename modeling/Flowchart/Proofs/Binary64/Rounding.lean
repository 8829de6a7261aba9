import Flowchart.Binary64.Decimal
import Flowchart.Proofs.Numeral
import Mathlib.Tactic.Ring

/-!
# Rounding to double precision

The nearest rank of a quotient depends on its value alone (`Binary64.nearestRank_congr`), and the
magnitude of a rank has that rank (`Binary64.nearestRank_units`). A decimal is read by exact
arithmetic and one rounding: the exponents that are decided without computing a power are decided as
the power would decide them (`Binary64.ofDecimal_eq_ofRank`). So equal decimals are read alike
(`Binary64.ofDecimal_shift`), and the shortest decimal of a rank reads back as that rank
(`Binary64.ofDecimal_shortestDecimal`). A quotient has no finite rank from halfway past the greatest
finite magnitude on (`Binary64.ranks_le_nearestRank_iff`), which says which integers are too large
to be near a number (`Binary64.ofInt?_eq_none_iff`).
-/

set_option autoImplicit false

namespace Flowchart.Binary64

/-! ## The nearest rank -/

theorem roundDiv_mul_left {c : Nat} (hc : 0 < c) (num den : Nat) :
    roundDiv (c * num) (c * den) = roundDiv num den := by
  have hlt : 2 * (c * (num % den)) < c * den ↔ 2 * (num % den) < den := by
    rw [Nat.mul_left_comm]
    exact Nat.mul_lt_mul_left hc
  have heq : 2 * (c * (num % den)) = c * den ↔ 2 * (num % den) = den := by
    rw [Nat.mul_left_comm]
    exact Nat.mul_right_inj hc.ne'
  simp only [roundDiv, Nat.mul_div_mul_left num den hc, Nat.mul_mod_mul_left, hlt, heq]

/-- A quotient without a remainder is not rounded. -/
theorem roundDiv_mul_self {den : Nat} (hden : 0 < den) (q : Nat) : roundDiv (q * den) den = q := by
  simp [roundDiv, Nat.mul_div_cancel q hden, hden]

theorem div_le_roundDiv (num den : Nat) : num / den ≤ roundDiv num den := by
  unfold roundDiv
  dsimp only
  split <;> omega

theorem roundDiv_le (num den : Nat) : roundDiv num den ≤ num / den + 1 := by
  unfold roundDiv
  dsimp only
  split <;> omega

/-- A quotient is rounded up to an even number from halfway between it and the odd one before it. -/
theorem le_roundDiv_iff {num den q : Nat} (hden : 0 < den) (heven : q % 2 = 0) (hq : 0 < q) :
    q ≤ roundDiv num den ↔ (2 * q - 1) * den ≤ 2 * num := by
  obtain ⟨p, rfl⟩ : ∃ p, q = p + 1 := ⟨q - 1, by omega⟩
  have hnum : den * (num / den) + num % den = num := Nat.div_add_mod num den
  have hmod : num % den < den := Nat.mod_lt num hden
  have hhalf : (2 * (p + 1) - 1) * den = 2 * (den * p) + den := by
    rw [show 2 * (p + 1) - 1 = 2 * p + 1 by omega]
    ring
  rw [hhalf]
  rcases Nat.lt_trichotomy (num / den) p with hlt | heq | hgt
  · -- the quotient is too small to be rounded up so far
    have hround := roundDiv_le num den
    have hmul : den * (num / den + 1) ≤ den * p := Nat.mul_le_mul_left den hlt
    rw [Nat.mul_add, Nat.mul_one] at hmul
    omega
  · have hround : roundDiv num den = if 2 * (num % den) < den then p else p + 1 := by
      unfold roundDiv
      dsimp only
      rw [heq]
      by_cases hlow : 2 * (num % den) < den
      · rw [if_pos (.inl hlow), if_pos hlow]
      · rw [if_neg (by omega), if_neg hlow]
    rw [heq] at hnum
    rw [hround]
    split <;> omega
  · have hround := div_le_roundDiv num den
    have hmul : den * (p + 1) ≤ den * (num / den) := Nat.mul_le_mul_left den hgt
    rw [Nat.mul_add, Nat.mul_one] at hmul
    omega

theorem nearestRank_mul_left {c : Nat} (hc : 0 < c) (num den : Nat) :
    nearestRank (c * num) (c * den) = nearestRank num den := by
  simp only [nearestRank, Nat.mul_div_mul_left num den hc, Nat.mul_assoc, roundDiv_mul_left hc]

/-- Equal quotients have the same rank. -/
theorem nearestRank_congr {num den num' den' : Nat} (hden : 0 < den) (hden' : 0 < den')
    (h : num * den' = num' * den) : nearestRank num den = nearestRank num' den' := by
  rw [← nearestRank_mul_left hden' num den, ← nearestRank_mul_left hden num' den',
    Nat.mul_comm den' num, h, Nat.mul_comm num' den, Nat.mul_comm den' den]

/-- Less than half a unit rounds to nothing. -/
theorem nearestRank_eq_zero {num den : Nat} (h : 2 * num < den) : nearestRank num den = 0 := by
  have hlt : num < den := by omega
  simp [nearestRank, Nat.div_eq_of_lt hlt, roundDiv, Nat.mod_eq_of_lt hlt, h]

/-- A quotient of at least `2 ^ 1024`, in units, has no finite rank. -/
theorem ranks_le_nearestRank {num den k : Nat} (hk : 2098 ≤ k) (h : 2 ^ k ≤ num / den) :
    binary64Ranks ≤ nearestRank num den := by
  have hne : num / den ≠ 0 := (Nat.lt_of_lt_of_le (Nat.two_pow_pos k) h).ne'
  have hlog : 2098 ≤ Nat.log2 (num / den) := Nat.le_trans hk ((Nat.le_log2 hne).mpr h)
  -- the rounded quotient keeps the leading bit at the place of the last one that counts
  have hround : 2 ^ 52 ≤ roundDiv num (den * 2 ^ (Nat.log2 (num / den) - 52)) := by
    refine Nat.le_trans ?_ (div_le_roundDiv _ _)
    rw [← Nat.div_div_eq_div_mul, Nat.le_div_iff_mul_le (Nat.two_pow_pos _), ← Nat.pow_add]
    rw [show 52 + (Nat.log2 (num / den) - 52) = Nat.log2 (num / den) by omega]
    exact Nat.log2_self_le hne
  simp only [binary64Ranks, nearestRank, Nat.pow_eq]
  have hscale : 2046 * 2 ^ 52 ≤ (Nat.log2 (num / den) - 52) * 2 ^ 52 :=
    Nat.mul_le_mul_right _ (by omega)
  omega

/-- A quotient below a power of two has at most the rank of that power. -/
theorem nearestRank_le {num den k : Nat} (h : num / den < 2 ^ (k + 53)) :
    nearestRank num den ≤ (k + 2) * 2 ^ 52 := by
  have hlog : Nat.log2 (num / den) - 52 ≤ k := by
    by_cases hzero : num / den = 0
    · simp [hzero]
    · have hbits := (Nat.log2_lt hzero).mpr h
      clear h
      omega
  have hquotient : num / (den * 2 ^ (Nat.log2 (num / den) - 52)) < 2 ^ 53 := by
    rw [← Nat.div_div_eq_div_mul, Nat.div_lt_iff_lt_mul (Nat.two_pow_pos _), ← Nat.pow_add]
    exact Nat.lt_of_lt_of_le Nat.lt_log2_self (Nat.pow_le_pow_right (by decide) (by clear h; omega))
  calc nearestRank num den
      = (Nat.log2 (num / den) - 52) * 2 ^ 52 +
          roundDiv num (den * 2 ^ (Nat.log2 (num / den) - 52)) := by
        simp only [nearestRank, Nat.pow_eq]
    _ ≤ k * 2 ^ 52 + 2 ^ 53 := Nat.add_le_add (Nat.mul_le_mul_right _ hlog)
        (Nat.le_trans (roundDiv_le _ _) (Nat.succ_le_of_lt hquotient))
    _ = (k + 2) * 2 ^ 52 := by ring

/-- The rank of a quotient whose leading bit is known. -/
theorem nearestRank_of_bits {num den k : Nat} (hlow : 2 ^ (k + 52) ≤ num / den)
    (hhigh : num / den < 2 ^ (k + 52 + 1)) :
    nearestRank num den = k * 2 ^ 52 + roundDiv num (den * 2 ^ k) := by
  have hne : num / den ≠ 0 := (Nat.lt_of_lt_of_le (Nat.two_pow_pos _) hlow).ne'
  have hlog : Nat.log2 (num / den) = k + 52 := (Nat.log2_eq_iff hne).mpr ⟨hlow, hhigh⟩
  simp only [nearestRank, Nat.pow_eq, hlog, Nat.add_sub_cancel]

/-- **When a quotient overflows.** The magnitudes without a finite rank are those from halfway
between the greatest finite one and `2 ^ 1024` on. -/
theorem ranks_le_nearestRank_iff {num den : Nat} (hden : 0 < den) :
    binary64Ranks ≤ nearestRank num den ↔ (2 ^ 54 - 1) * 2 ^ 2045 * den ≤ 2 * num := by
  obtain ⟨k, hk⟩ : ∃ k, k = 2044 := ⟨2044, rfl⟩
  have hranks : binary64Ranks = (k + 3) * 2 ^ 52 := by simp only [binary64Ranks, Nat.pow_eq, hk]
  have htop : k + 1 + 52 = k + 53 := by omega
  rw [hranks, show 2045 = k + 1 by omega]
  have hnum : num < den * (num / den + 1) := Nat.lt_mul_div_succ num hden
  rcases Nat.lt_or_ge (num / den) (2 ^ (k + 53)) with hlt | hge
  · have hrank : nearestRank num den ≤ (k + 2) * 2 ^ 52 := nearestRank_le hlt
    refine iff_of_false (Nat.not_le.mpr (Nat.lt_of_le_of_lt hrank ?_)) (Nat.not_le.mpr ?_)
    · exact Nat.mul_lt_mul_of_pos_right (Nat.lt_succ_self _) (Nat.two_pow_pos _)
    · calc 2 * num < 2 * (den * (num / den + 1)) := Nat.mul_lt_mul_of_pos_left hnum (by decide)
        _ ≤ 2 * (den * 2 ^ (k + 53)) :=
            Nat.mul_le_mul_left 2 (Nat.mul_le_mul_left den (Nat.succ_le_of_lt hlt))
        _ = 2 ^ 53 * 2 ^ (k + 1) * den := by ring
        _ ≤ (2 ^ 54 - 1) * 2 ^ (k + 1) * den :=
            Nat.mul_le_mul_right den (Nat.mul_le_mul_right _ (by decide))
  rcases Nat.lt_or_ge (num / den) (2 ^ (k + 54)) with hlt | hgt
  · have hrank : nearestRank num den =
        (k + 1) * 2 ^ 52 + roundDiv num (den * 2 ^ (k + 1)) :=
      nearestRank_of_bits (htop ▸ hge) (htop ▸ hlt)
    have hround : 2 ^ 53 ≤ roundDiv num (den * 2 ^ (k + 1)) ↔
        (2 * 2 ^ 53 - 1) * (den * 2 ^ (k + 1)) ≤ 2 * num :=
      le_roundDiv_iff (Nat.mul_pos hden (Nat.two_pow_pos _)) (by decide) (by decide)
    have hhalf : (2 * 2 ^ 53 - 1) * (den * 2 ^ (k + 1)) = (2 ^ 54 - 1) * 2 ^ (k + 1) * den := by
      ring
    rw [hrank, ← hhalf, ← hround, show (k + 3) * 2 ^ 52 = (k + 1) * 2 ^ 52 + 2 ^ 53 by ring]
    exact Nat.add_le_add_iff_left
  · -- the leading bit is past the last place
    refine iff_of_true ?_ ?_
    · rw [← hranks]
      exact ranks_le_nearestRank (by clear hge hgt; omega) hgt
    · calc (2 ^ 54 - 1) * 2 ^ (k + 1) * den ≤ 2 ^ 54 * 2 ^ (k + 1) * den :=
            Nat.mul_le_mul_right den (Nat.mul_le_mul_right _ (by decide))
        _ = 2 * (den * 2 ^ (k + 54)) := by ring
        _ ≤ 2 * (den * (num / den)) := Nat.mul_le_mul_left 2 (Nat.mul_le_mul_left den hgt)
        _ ≤ 2 * num := Nat.mul_le_mul_left 2 (Nat.mul_div_le num den)

/-! ## The magnitude of a rank -/

theorem scale_of_lt {rank : Nat} (h : rank < 2 ^ 52) : scale rank = 0 := by
  rw [scale, Nat.pow_eq, Nat.div_eq_of_lt h]

theorem significand_of_lt {rank : Nat} (h : rank < 2 ^ 52) : significand rank = rank := by
  simp only [significand, Nat.pow_eq, if_pos h]

theorem significand_of_le {rank : Nat} (h : 2 ^ 52 ≤ rank) :
    significand rank = 2 ^ 52 + rank % 2 ^ 52 := by
  simp only [significand, Nat.pow_eq, if_neg (Nat.not_lt.mpr h)]

/-- The significant bits count on from the scale. -/
theorem scale_mul_add_significand (rank : Nat) : scale rank * 2 ^ 52 + significand rank = rank := by
  rcases Nat.lt_or_ge rank (2 ^ 52) with h | h
  · rw [scale_of_lt h, significand_of_lt h, Nat.zero_mul, Nat.zero_add]
  · have hscale : scale rank = rank / 2 ^ 52 - 1 := by simp only [scale, Nat.pow_eq]
    rw [hscale, significand_of_le h]
    omega

/-- The scale can be read off the leading bit. -/
theorem log2_units (rank : Nat) : Nat.log2 (units rank) - 52 = scale rank := by
  rw [units, Nat.pow_eq]
  rcases Nat.lt_or_ge rank (2 ^ 52) with h | h
  · rw [scale_of_lt h, significand_of_lt h, Nat.pow_zero, Nat.mul_one]
    by_cases hzero : rank = 0
    · simp [hzero]
    · have hlog := (Nat.log2_lt hzero).mpr h
      omega
  · have hlow : 2 ^ 52 ≤ significand rank := by
      rw [significand_of_le h]
      exact Nat.le_add_right _ _
    have hhigh : significand rank < 2 ^ 53 := by
      rw [significand_of_le h]
      omega
    have hlog : Nat.log2 (significand rank * 2 ^ scale rank) = 52 + scale rank := by
      rw [Nat.log2_eq_iff (Nat.mul_pos (by omega) (Nat.two_pow_pos _)).ne']
      rw [Nat.pow_add, show 52 + scale rank + 1 = 53 + scale rank by omega, Nat.pow_add]
      exact ⟨Nat.mul_le_mul_right _ hlow, Nat.mul_lt_mul_of_pos_right hhigh (Nat.two_pow_pos _)⟩
    rw [hlog, Nat.add_sub_cancel_left]

/-- The magnitude of a rank has that rank. -/
theorem nearestRank_units {den : Nat} (hden : 0 < den) (rank : Nat) :
    nearestRank (units rank * den) den = rank := by
  have hexact : units rank * den = significand rank * (den * 2 ^ scale rank) := by
    rw [units, Nat.pow_eq]
    ring
  simp only [nearestRank, Nat.mul_div_cancel _ hden, log2_units, Nat.pow_eq]
  rw [hexact, roundDiv_mul_self (Nat.mul_pos hden (Nat.two_pow_pos _)), scale_mul_add_significand]

/-! ## Reading a decimal -/

theorem lt_pow_length_decimal (n : Nat) : n < 10 ^ (Numeral.decimal n).length :=
  Numeral.lt_pow_length_ofNat 8 n

/-- The units in one, with the number of binary places below the point named. -/
theorem exists_places : ∃ places, places = 1074 ∧ unitsOfOne = 2 ^ places := by
  delta unitsOfOne
  generalize 1074 = places
  exact ⟨places, rfl, rfl⟩

/-- Three binary places fit into one decimal place. -/
theorem two_pow_le_ten_pow {j k : Nat} (h : j ≤ 3 * k) : 2 ^ j ≤ 10 ^ k := by
  calc 2 ^ j ≤ 2 ^ (3 * k) := Nat.pow_le_pow_right (by decide) h
    _ = 8 ^ k := by rw [Nat.pow_mul]
    _ ≤ 10 ^ k := Nat.pow_le_pow_left (by decide) k

/-- Where the exponent is so small that the power is not computed, the decimal is below half of the
smallest number. -/
theorem nearestRank_of_small {digits exponent : Nat}
    (h : (Numeral.decimal digits).length + 1100 < exponent) :
    nearestRank (digits * unitsOfOne) (10 ^ exponent) = 0 := by
  obtain ⟨places, hplaces, hunits⟩ := exists_places
  refine nearestRank_eq_zero ?_
  rw [hunits]
  calc 2 * (digits * 2 ^ places) = digits * 2 ^ (places + 1) := by ring
    _ < 10 ^ (Numeral.decimal digits).length * 2 ^ (places + 1) :=
      Nat.mul_lt_mul_of_pos_right (lt_pow_length_decimal digits) (Nat.two_pow_pos _)
    _ ≤ 10 ^ (Numeral.decimal digits).length * 10 ^ 1100 :=
      Nat.mul_le_mul_left _ (two_pow_le_ten_pow (by omega))
    _ = 10 ^ ((Numeral.decimal digits).length + 1100) := by rw [Nat.pow_add]
    _ ≤ 10 ^ exponent := Nat.pow_le_pow_right (by decide) (by omega)

/-- Where the exponent is so large that the power is not computed, the decimal is at least
`2 ^ 1024`. -/
theorem ranks_le_of_large {digits exponent : Nat} (hdigits : digits ≠ 0) (h : 400 < exponent) :
    binary64Ranks ≤ nearestRank (digits * 10 ^ exponent * unitsOfOne) 1 := by
  obtain ⟨places, hplaces, hunits⟩ := exists_places
  obtain ⟨top, htop⟩ : ∃ top, top = 1024 := ⟨1024, rfl⟩
  have hk : 2098 ≤ top + places := by omega
  refine ranks_le_nearestRank hk ?_
  rw [Nat.div_one, hunits, Nat.pow_add]
  refine Nat.mul_le_mul_right _ ?_
  calc 2 ^ top ≤ 10 ^ exponent := two_pow_le_ten_pow (by omega)
    _ ≤ digits * 10 ^ exponent := Nat.le_mul_of_pos_left _ (Nat.pos_of_ne_zero hdigits)

/-- A decimal is read by exact arithmetic and one rounding, whatever its exponent. -/
theorem ofDecimal_eq_ofRank (negative : Bool) (d : Decimal) :
    ofDecimal negative d = ofRank negative
      (nearestRank (d.digits * 10 ^ d.exponent.toNat * unitsOfOne) (10 ^ (-d.exponent).toNat)) := by
  obtain ⟨digits, exponent⟩ := d
  unfold ofDecimal
  dsimp only
  split
  · next hzero =>
      rw [hzero, Nat.zero_mul, Nat.zero_mul, nearestRank_eq_zero]
      exact Nat.pow_pos (by decide)
  · next hdigits =>
      split
      · next hlarge =>
          obtain ⟨e, rfl⟩ := Int.eq_ofNat_of_zero_le (by omega : 0 ≤ exponent)
          have hrank := ranks_le_of_large hdigits (by omega : 400 < e)
          rw [Int.toNat_natCast, Int.toNat_neg_natCast, Nat.pow_zero, ofRank,
            dif_neg (Nat.not_lt.mpr hrank)]
      · split
        · next hsmall =>
            obtain ⟨e, rfl⟩ : ∃ e : Nat, exponent = -(e : Int) := ⟨exponent.natAbs, by omega⟩
            rw [Int.toNat_neg_natCast, neg_neg, Int.toNat_natCast, Nat.pow_zero, Nat.mul_one,
              nearestRank_of_small (by omega)]
        · split
          · next hwhole =>
              obtain ⟨e, rfl⟩ := Int.eq_ofNat_of_zero_le hwhole
              rw [ofRatio, Int.toNat_natCast, Int.toNat_neg_natCast, Nat.pow_zero, Nat.pow_eq]
          · next hpart =>
              obtain ⟨e, rfl⟩ : ∃ e : Nat, exponent = -(e : Int) := ⟨exponent.natAbs, by omega⟩
              rw [ofRatio, Int.toNat_neg_natCast, neg_neg, Int.toNat_natCast, Nat.pow_zero,
                Nat.mul_one, Int.natAbs_neg, Int.natAbs_natCast, Nat.pow_eq]

/-- Zeros at the end of the digits are a part of the exponent. -/
theorem ofDecimal_shift (negative : Bool) (digits k : Nat) (exponent : Int) :
    ofDecimal negative ⟨digits * 10 ^ k, exponent⟩ =
      ofDecimal negative ⟨digits, exponent + k⟩ := by
  rw [ofDecimal_eq_ofRank, ofDecimal_eq_ofRank]
  refine congrArg (ofRank negative)
    (nearestRank_congr (Nat.pow_pos (by decide)) (Nat.pow_pos (by decide)) ?_)
  have hpowers : 10 ^ k * 10 ^ exponent.toNat * 10 ^ (-(exponent + k)).toNat =
      10 ^ (exponent + k).toNat * 10 ^ (-exponent).toNat := by
    rw [← Nat.pow_add, ← Nat.pow_add, ← Nat.pow_add]
    congr 1
    omega
  calc digits * 10 ^ k * 10 ^ exponent.toNat * unitsOfOne * 10 ^ (-(exponent + k)).toNat
      = digits * unitsOfOne *
          (10 ^ k * 10 ^ exponent.toNat * 10 ^ (-(exponent + k)).toNat) := by ring
    _ = digits * 10 ^ (exponent + k).toNat * unitsOfOne * 10 ^ (-exponent).toNat := by
      rw [hpowers]
      ring

theorem ofRank_of_lt (negative : Bool) (rank : Fin binary64Ranks) :
    ofRank negative rank = finite negative rank := by
  rw [ofRank, dif_pos rank.isLt]

/-! ## The shortest decimal -/

/-- Every magnitude is a decimal, from which it is read. -/
theorem ofDecimal_exactDecimal (rank : Fin binary64Ranks) :
    ofDecimal false (exactDecimal rank) = finite false rank := by
  obtain ⟨places, hplaces, hunits⟩ := exists_places
  rw [ofDecimal_eq_ofRank, ← ofRank_of_lt]
  refine congrArg (ofRank false) ?_
  unfold exactDecimal
  split
  · next hscale =>
      have hpow : 2 ^ (scale rank - 1074) * 2 ^ places = 2 ^ scale rank := by
        rw [← Nat.pow_add, hplaces, Nat.sub_add_cancel hscale]
      have hexact : significand rank * 2 ^ (scale rank - 1074) * 10 ^ (0 : Int).toNat *
          unitsOfOne = units rank * 10 ^ (-(0 : Int)).toNat := by
        rw [hunits, units, Nat.pow_eq, ← hpow]
        simp
        ring
      dsimp only
      rw [Nat.pow_eq, hexact]
      exact nearestRank_units (Nat.pow_pos (by decide)) rank
  · next hscale =>
      obtain ⟨k, hk⟩ : ∃ k, k + scale rank = places := ⟨places - scale rank, by omega⟩
      have hexponent : (scale rank : Int) - 1074 = -(k : Int) := by omega
      have hfives : 1074 - scale rank = k := by omega
      have hexact : significand rank * 5 ^ k * 10 ^ (-(k : Int)).toNat * unitsOfOne =
          units rank * 10 ^ k := by
        have hten : 10 ^ k = 5 ^ k * 2 ^ k := Nat.mul_pow 5 2 k
        rw [Int.toNat_neg_natCast, hunits, units, Nat.pow_eq, ← hk, Nat.pow_add, hten]
        ring
      dsimp only
      rw [Nat.pow_eq, hexponent, hfives, hexact, neg_neg, Int.toNat_natCast]
      exact nearestRank_units (Nat.pow_pos (by decide)) rank

/-- The sign of a decimal that has a finite value is that of the value. -/
theorem ofDecimal_of_eq_finite {d : Decimal} {rank : Fin binary64Ranks}
    (h : ofDecimal false d = finite false rank) (negative : Bool) :
    ofDecimal negative d = finite negative rank := by
  rw [ofDecimal_eq_ofRank, ofRank] at h ⊢
  split at h
  · next hlt =>
      rw [dif_pos hlt]
      cases h
      rfl
  · cases h

/-- The shortest decimal of a rank is read as the magnitude of that rank. -/
theorem ofDecimal_shortestDecimal (negative : Bool) (rank : Fin binary64Ranks) :
    ofDecimal negative (shortestDecimal rank) = finite negative rank := by
  refine ofDecimal_of_eq_finite ?_ negative
  unfold shortestDecimal
  dsimp only
  cases hfind : List.find? _ _ with
  | none => exact ofDecimal_exactDecimal rank
  | some d =>
      have hd := List.find?_some hfind
      exact of_decide_eq_true hd

/-! ## Integers -/

theorem ofRatio_eq_infinite_iff {negative : Bool} {num den : Nat} (hden : 0 < den) :
    (∃ sign, ofRatio negative num den = infinite sign) ↔
      (2 ^ 54 - 1) * 2 ^ 2045 * den ≤ 2 * (num * unitsOfOne) := by
  rw [← ranks_le_nearestRank_iff hden, ofRatio, ofRank]
  by_cases hrank : nearestRank (num * unitsOfOne) den < binary64Ranks
  · rw [dif_pos hrank]
    exact iff_of_false (by simp) (Nat.not_le.mpr hrank)
  · rw [dif_neg hrank]
    exact iff_of_true ⟨_, rfl⟩ (Nat.not_lt.mp hrank)

theorem unlessInfinite?_eq_none_iff (x : Binary64) :
    x.unlessInfinite? = none ↔ ∃ sign, x = infinite sign := by
  cases x <;> simp [unlessInfinite?]

/-- The least magnitude of an integer that is too large to be near a number. -/
def integerBound : Nat := 2 ^ 1024 - 2 ^ 970

theorem integerBound_eq : integerBound = (2 ^ 54 - 1) * 2 ^ 970 := by
  rw [integerBound, Nat.sub_mul, ← Nat.pow_add, Nat.one_mul]

/-- **Which integers are too large.** -/
theorem ofInt?_eq_none_iff (n : Int) : ofInt? n = none ↔ integerBound ≤ n.natAbs := by
  obtain ⟨places, hplaces, hunits⟩ := exists_places
  obtain ⟨low, hlow⟩ : ∃ low, low = 970 := ⟨970, rfl⟩
  have hsplit : (2 ^ 54 - 1) * 2 ^ 2045 * 1 = 2 * 2 ^ places * integerBound := by
    rw [integerBound_eq, ← hlow, show 2045 = 1 + places + low by rw [hplaces, hlow],
      Nat.pow_add, Nat.pow_add]
    ring
  have hvalue : 2 * (n.natAbs * unitsOfOne) = 2 * 2 ^ places * n.natAbs := by
    rw [hunits]
    ring
  rw [ofInt?, unlessInfinite?_eq_none_iff, ofRatio_eq_infinite_iff (by decide), hsplit, hvalue]
  exact Nat.mul_le_mul_left_iff (Nat.mul_pos (by decide) (Nat.two_pow_pos _))

end Flowchart.Binary64
