import Flowchart.Binary64.NumberText
import Flowchart.Proofs.Binary64.Rounding
import Flowchart.Proofs.Line

/-!
# The text of a double-precision number

The text of a finite number is that of a written number (`NumberText.text`) with a point or an
exponent, and its value is the number (`Binary64.exists_numberText`). The shortest digits are cut
into the parts of a written number in one of five ways, by the place of the point; they and their
exponent stay the same up to zeros at either end (`NumberText.toBinary64_of_digits`).
-/

set_option autoImplicit false

namespace Flowchart

namespace NumberText

/-! ## Written numbers as text -/

/-- The text of a written number. Its exponent has a sign and at least two digits. -/
def text (n : NumberText) : Text :=
  (if n.negative then ['-'] else []) ++
    (n.whole ++ (n.fraction.elim [] ('.' :: ·) ++ n.exponent.elim [] Binary64.exponentText))

/-- The whole digits are not empty and do not begin with a zero, unless there is just one; a
fraction has digits. -/
structure Proper (n : NumberText) : Prop where
  whole_ne_nil : n.whole ≠ []
  isDigit_whole : ∀ c ∈ n.whole, c.isDigit = true
  head_whole : n.whole.head? = some '0' → n.whole = ['0']
  fraction_ne_nil : ∀ f ∈ n.fraction, f ≠ []
  isDigit_fraction : ∀ f ∈ n.fraction, ∀ c ∈ f, c.isDigit = true

/-- Zeros at either end of the digits do not change the value of a written number. -/
theorem toBinary64_of_digits {n : NumberText} {digits : Text} {exponent : Int}
    (before after : Nat)
    (hdigits : n.whole ++ n.fraction.getD [] =
      List.replicate before '0' ++ digits ++ List.replicate after '0')
    (hexponent : n.exponent.getD 0 - (n.fraction.getD []).length = exponent - after) :
    n.toBinary64 = Binary64.ofDecimal n.negative ⟨Numeral.decimalValue digits, exponent⟩ := by
  have hvalue : Numeral.decimalValue (n.whole ++ n.fraction.getD []) =
      Numeral.decimalValue digits * 10 ^ after := by
    rw [hdigits, Numeral.decimalValue_append_zeros, Numeral.decimalValue_zeros_append]
  unfold toBinary64
  dsimp only
  rw [hvalue, hexponent, Binary64.ofDecimal_shift, Int.sub_add_cancel]

/-! ## Exponents -/

theorem isDigit_of_mem_padded {k n : Nat} {c : Char}
    (h : c ∈ List.replicate k '0' ++ Numeral.decimal n) : c.isDigit = true := by
  rcases List.mem_append.mp h with h | h
  · rw [List.eq_of_mem_replicate h]
    rfl
  · exact Numeral.isDigit_of_mem_decimal h

/-- The exponent in front of a text that does not begin with a digit is read back. -/
theorem exponentPart?_exponentText (e : Int) {rest : Text}
    (hrest : ∀ c ∈ rest.head?, c.isDigit = false) :
    exponentPart? (Binary64.exponentText e ++ rest) =
      some (e, (Binary64.exponentText e).length) := by
  obtain ⟨digits, hdigits⟩ : ∃ digits, digits =
      List.replicate (2 - (Numeral.decimal e.natAbs).length) '0' ++ Numeral.decimal e.natAbs :=
    ⟨_, rfl⟩
  have hall : ∀ c ∈ digits, c.isDigit = true := by
    intro c hc
    rw [hdigits] at hc
    exact isDigit_of_mem_padded hc
  have hne : digits.isEmpty = false := by
    rw [hdigits]
    simp [Numeral.decimal, Numeral.ofNat_ne_nil]
  have htake := Numeral.takeWhile_isDigit_append hall hrest
  have hvalue : Numeral.decimalValue digits = e.natAbs := by
    rw [hdigits, Numeral.decimalValue_zeros_append, Numeral.decimalValue_decimal]
  rw [Binary64.exponentText, List.append_assoc _ (List.replicate _ _), ← hdigits]
  have hwidth (sign : Char) : 1 + 1 + digits.length = ('e' :: sign :: digits).length := by
    simp only [List.length_cons]
    omega
  split
  · next hneg =>
      have hsigned : -(e.natAbs : Int) = e := by omega
      simp only [List.cons_append, List.nil_append, exponentPart?, signPart, true_or, if_true,
        List.drop_succ_cons, List.drop_zero, htake, hne, Bool.false_eq_true, if_false, hvalue,
        Binary64.signed, hsigned, hwidth '-']
  · next hpos =>
      have hsigned : (e.natAbs : Int) = e := by omega
      simp only [List.cons_append, List.nil_append, exponentPart?, signPart, true_or, if_true,
        List.drop_succ_cons, List.drop_zero, htake, hne, Bool.false_eq_true, if_false, hvalue,
        Binary64.signed, hsigned, hwidth '+']

end NumberText

namespace Binary64

/-! ## The shortest digits -/

/-- The significant digits are those of the decimal without the zeros at the end. -/
theorem significant_spec {d : Decimal} (hd : d.digits ≠ 0) {digits : Text} {point : Int}
    (h : d.significant = (digits, point)) :
    digits ≠ [] ∧ (∀ c ∈ digits, c.isDigit = true) ∧ digits.head? ≠ some '0' ∧
      ∃ k : Nat, d.digits = Numeral.decimalValue digits * 10 ^ k ∧
        d.exponent + k = point - digits.length := by
  obtain ⟨zeros, hzeros, hall⟩ := Text.exists_dropped (· == '0') (Numeral.decimal d.digits)
  simp only [Decimal.significant, Prod.mk.injEq] at h
  obtain ⟨hdigits, rfl⟩ := h
  rw [hdigits] at hzeros
  have hreplicate : zeros = List.replicate zeros.length '0' :=
    List.eq_replicate_iff.mpr ⟨rfl, fun c hc => by simpa using hall c hc⟩
  have hhead := Numeral.head?_decimal_ne_zero hd
  have hne : digits ≠ [] := by
    intro hnil
    -- otherwise the numeral would be made of zeros
    rw [hzeros, hnil, List.nil_append, hreplicate] at hhead
    cases hcount : zeros.length with
    | zero =>
        rw [hnil, hreplicate, hcount] at hzeros
        exact Numeral.ofNat_ne_nil 8 _ hzeros
    | succ k =>
        rw [hcount] at hhead
        exact hhead rfl
  refine ⟨hne, ?_, ?_, zeros.length, ?_, ?_⟩
  · intro c hc
    refine Numeral.isDigit_of_mem_decimal (n := d.digits) ?_
    rw [hzeros]
    exact List.mem_append_left _ hc
  · rw [hzeros, List.head?_append_of_ne_nil _ hne] at hhead
    exact hhead
  · rw [← Numeral.decimalValue_append_zeros, ← hreplicate, ← hzeros, Numeral.decimalValue_decimal]
  · rw [hzeros, List.length_append]
    omega

/-! ## The parts of a text -/

/-- A written number with a point or an exponent that has the sign, the unsigned text and the
value of a decimal. -/
structure Writes (negative : Bool) (t : Text) (d : Decimal) (n : NumberText) : Prop where
  proper : n.Proper
  text_eq : n.text = (if negative then ['-'] else []) ++ t
  isFloat : n.fraction.isSome = true ∨ n.exponent.isSome = true
  value_eq : n.toBinary64 = ofDecimal negative d

section

variable {digits : Text} (hne : digits ≠ []) (hdigits : ∀ c ∈ digits, c.isDigit = true)
  (negative : Bool)

include hne hdigits

/-- With the point before all digits, zeros stand between the two. -/
theorem writes_positional_before (k : Nat) :
    Writes negative (positional digits (-k))
      ⟨Numeral.decimalValue digits, -k - digits.length⟩
      ⟨negative, ['0'], some (List.replicate k '0' ++ digits), none⟩ := by
  refine ⟨⟨by simp, by simp, by simp, by simp [hne], ?_⟩, ?_, Or.inl rfl, ?_⟩
  · intro f hf c hc
    cases hf
    rcases List.mem_append.mp hc with hc | hc
    · rw [List.eq_of_mem_replicate hc]
      rfl
    · exact hdigits c hc
  · simp [NumberText.text, positional]
  · refine NumberText.toBinary64_of_digits (k + 1) 0 ?_ ?_
    · simp [List.replicate_succ]
    · simp
      omega

variable (hhead : digits.head? ≠ some '0')

include hhead

/-- With the point among the digits, they are cut in two. -/
theorem writes_positional_inside {k : Nat} (hpos : 0 < k) (hlt : k < digits.length) :
    Writes negative (positional digits k) ⟨Numeral.decimalValue digits, k - digits.length⟩
      ⟨negative, digits.take k, some (digits.drop k), none⟩ := by
  have htake : digits.take k ≠ [] := by
    simp [hne]
    omega
  have hfirst : (digits.take k).head? = digits.head? := by
    rw [List.head?_take, if_neg (by omega)]
  refine ⟨⟨htake, ?_, ?_, by simpa using hlt, ?_⟩, ?_, Or.inl rfl, ?_⟩
  · intro c hc
    exact hdigits c (List.mem_of_mem_take hc)
  · intro h
    exact absurd (hfirst ▸ h) hhead
  · intro f hf c hc
    cases hf
    exact hdigits c (List.mem_of_mem_drop hc)
  · have hk : ¬ digits.length ≤ k := by omega
    simp [NumberText.text, positional, hpos.ne', hk, Nat.sub_eq_zero_of_le hlt.le]
  · refine NumberText.toBinary64_of_digits 0 0 ?_ ?_
    · simp
    · simp
      omega

/-- With the point after all digits, zeros stand between the two, and one after the point. -/
theorem writes_positional_after {k : Nat} (hge : digits.length ≤ k) :
    Writes negative (positional digits k) ⟨Numeral.decimalValue digits, k - digits.length⟩
      ⟨negative, digits ++ List.replicate (k - digits.length) '0', some ['0'], none⟩ := by
  have hpos : 0 < k := Nat.lt_of_lt_of_le (List.length_pos_iff.mpr hne) hge
  refine ⟨⟨by simp [hne], ?_, ?_, by simp, by simp⟩, ?_, Or.inl rfl, ?_⟩
  · intro c hc
    rcases List.mem_append.mp hc with hc | hc
    · exact hdigits c hc
    · rw [List.eq_of_mem_replicate hc]
      rfl
  · intro h
    rw [List.head?_append_of_ne_nil _ hne] at h
    exact absurd h hhead
  · simp [NumberText.text, positional, hpos.ne', hge, List.take_of_length_le hge]
  · refine NumberText.toBinary64_of_digits 0 (k - digits.length + 1) ?_ ?_
    · simp [List.replicate_succ']
    · simp
      omega

/-- Digits in positional notation are a written number with a fraction. -/
theorem exists_writes_positional (point : Int) :
    ∃ n, Writes negative (positional digits point)
      ⟨Numeral.decimalValue digits, point - digits.length⟩ n := by
  rcases lt_or_ge 0 point with hpoint | hpoint
  · obtain ⟨k, rfl⟩ := Int.eq_ofNat_of_zero_le hpoint.le
    rcases Nat.lt_or_ge k digits.length with hlt | hge
    · exact ⟨_, writes_positional_inside hne hdigits negative hhead (by omega) hlt⟩
    · exact ⟨_, writes_positional_after hne hdigits negative hhead hge⟩
  · obtain ⟨k, rfl⟩ : ∃ k : Nat, point = -(k : Int) := ⟨point.natAbs, by omega⟩
    exact ⟨_, writes_positional_before hne hdigits negative k⟩

/-- Digits in scientific notation are a written number with an exponent. -/
theorem exists_writes_scientific (point : Int) :
    ∃ n, Writes negative (scientific digits point)
      ⟨Numeral.decimalValue digits, point - digits.length⟩ n := by
  obtain ⟨d, rest, rfl⟩ := List.exists_cons_of_ne_nil hne
  have hd : d ≠ '0' := by simpa using hhead
  have hwhole : [d].head? = some '0' → [d] = ['0'] := fun h => absurd (by simpa using h) hd
  cases rest with
  | nil =>
      refine ⟨⟨negative, [d], none, some (point - 1)⟩,
        ⟨by simp, hdigits, hwhole, by simp, by simp⟩, ?_, Or.inr rfl, ?_⟩
      · simp [NumberText.text, scientific]
      · exact NumberText.toBinary64_of_digits 0 0 (by simp) (by simp)
  | cons e rest =>
      refine ⟨⟨negative, [d], some (e :: rest), some (point - 1)⟩,
        ⟨by simp, by simpa using hdigits d (by simp), hwhole, by simp, ?_⟩, ?_, Or.inr rfl, ?_⟩
      · intro f hf c hc
        cases hf
        exact hdigits c (List.mem_cons_of_mem d hc)
      · simp [NumberText.text, scientific]
      · refine NumberText.toBinary64_of_digits 0 0 (by simp) ?_
        simp
        omega

end

/-! ## The text of a number -/

theorem digits_shortestDecimal_ne_zero {rank : Fin binary64Ranks} (h : rank.val ≠ 0) :
    (shortestDecimal rank).digits ≠ 0 := by
  intro hzero
  have hread := ofDecimal_shortestDecimal false rank
  rw [ofDecimal, if_pos hzero, ofRank, dif_pos (by decide)] at hread
  cases hread
  exact h rfl

/-- The text of a finite number is that of a written number with a point or an exponent, and its
value is the number. -/
theorem exists_numberText (words : SpecialWords) (negative : Bool) (rank : Fin binary64Ranks) :
    ∃ n : NumberText, n.Proper ∧ (finite negative rank).text words = n.text ∧
      (n.fraction.isSome = true ∨ n.exponent.isSome = true) ∧
      n.toBinary64 = finite negative rank := by
  by_cases hzero : rank.val = 0
  · refine ⟨⟨negative, ['0'], some ['0'], none⟩, ⟨by simp, by simp, by simp, by simp, by simp⟩,
      ?_, Or.inl rfl, ?_⟩
    · simp [text, magnitudeText, hzero, NumberText.text]
    · obtain rfl : rank = ⟨0, by decide⟩ := Fin.ext hzero
      have hvalue : Numeral.decimalValue (['0'] ++ ['0']) = 0 := by decide
      simp only [NumberText.toBinary64, Option.getD_some, hvalue, ofDecimal, if_pos, ofRank]
      exact dif_pos (by decide)
  · obtain ⟨⟨digits, point⟩, hsig⟩ : ∃ sig, (shortestDecimal rank).significant = sig := ⟨_, rfl⟩
    obtain ⟨hne, hdigits, hhead, k, hvalue, hexponent⟩ :=
      significant_spec (digits_shortestDecimal_ne_zero hzero) hsig
    have hread : ofDecimal negative ⟨Numeral.decimalValue digits, point - digits.length⟩ =
        finite negative rank := by
      rw [← hexponent, ← ofDecimal_shift, ← hvalue]
      exact ofDecimal_shortestDecimal negative rank
    obtain ⟨n, hn⟩ : ∃ n, Writes negative (magnitudeText rank)
        ⟨Numeral.decimalValue digits, point - digits.length⟩ n := by
      rw [magnitudeText, if_neg hzero]
      simp only [hsig]
      split
      · exact exists_writes_positional hne hdigits negative hhead point
      · exact exists_writes_scientific hne hdigits negative hhead point
    exact ⟨n, hn.proper, hn.text_eq.symm, hn.isFloat, hn.value_eq.trans hread⟩

end Binary64

end Flowchart
