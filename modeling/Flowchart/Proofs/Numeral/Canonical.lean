import Flowchart.Proofs.Numeral
import Mathlib.Data.List.Induction
import Mathlib.Data.Nat.Digits.Defs

/-!
# Canonical numerals and their order

A text of digits is canonical if it is not empty and has no zero at its start, except for the text `0`
itself. The numerals are exactly the canonical texts: each numeral is one (`Numeral.isCanonical_ofNat`),
and a canonical text is the numeral of its value (`Numeral.ofNat_value`). Texts of digits that are
equally long are in the order of their values (`Numeral.lt_iff_value_lt`), because a digit at the front
outweighs all that follow it (`Numeral.value_lt_pow`) and the ten digits come before the letters. For
base 36, in which counts and clock stamps are written, `Numeral.base36_faithful` puts this together.
-/

set_option autoImplicit false

namespace Flowchart.Numeral

variable {b : Nat}

/-! ## The order of equally long texts -/

/-- The ten digits come before the letters, and both are in order. -/
theorem toNat_digit : ∀ d < 36, (digit d).toNat = if d < 10 then 48 + d else 87 + d := by decide

theorem digit_lt_digit_iff {d e : Nat} (hd : d < 36) (he : e < 36) :
    digit d < digit e ↔ d < e := by
  change (digit d).toNat < (digit e).toNat ↔ d < e
  rw [toNat_digit d hd, toNat_digit e he]
  split <;> split <;> omega

theorem digit_injective {d e : Nat} (hd : d < 36) (he : e < 36) (h : digit d = digit e) : d = e := by
  rw [← digitValue_digit d hd, ← digitValue_digit e he, h]

/-- Equally long texts of digits are in the order of their values. -/
theorem lt_iff_value_lt (hb : b ≤ 34) {s t : Text} (hs : AllDigits b s) (ht : AllDigits b t)
    (h : s.length = t.length) : s < t ↔ value b s < value b t := by
  induction s generalizing t with
  | nil =>
      cases t with
      | nil => simp
      | cons c t => cases h
  | cons c s ih =>
      cases t with
      | nil => cases h
      | cons c' t =>
          obtain ⟨⟨d, hd, rfl⟩, hstail⟩ := allDigits_cons.mp hs
          obtain ⟨⟨e, he, rfl⟩, httail⟩ := allDigits_cons.mp ht
          have hlength : s.length = t.length := Nat.succ.inj h
          have hsvalue := value_lt_pow hb hstail
          have htvalue := value_lt_pow hb httail
          rw [hlength] at hsvalue
          rw [List.cons_lt_cons_iff, value_cons, value_cons, hlength,
            digitValue_digit d (by omega), digitValue_digit e (by omega),
            digit_lt_digit_iff (by omega) (by omega)]
          -- the first digits decide, unless they are the same
          rcases Nat.lt_trichotomy d e with hde | rfl | hed
          · exact iff_of_true (Or.inl hde) (mul_add_lt_of_lt hde hsvalue)
          · rw [ih hstail httail hlength, Nat.add_lt_add_iff_left]
            simp
          · refine iff_of_false ?_ (Nat.lt_asymm (mul_add_lt_of_lt hed htvalue))
            rintro (hde | ⟨heq, -⟩)
            · exact Nat.lt_asymm hed hde
            · exact hed.ne' (digit_injective (by omega) (by omega) heq)

/-- Equally long numerals are in the order of their numbers. -/
theorem ofNat_lt_ofNat_iff (hb : b ≤ 34) {m n : Nat} (h : (ofNat b m).length = (ofNat b n).length) :
    ofNat b m < ofNat b n ↔ m < n := by
  rw [lt_iff_value_lt hb (allDigits_ofNat b m) (allDigits_ofNat b n) h, value_ofNat b hb,
    value_ofNat b hb]

/-! ## Canonical texts -/

/-- A text of digits without a needless zero at its start. -/
structure IsCanonical (b : Nat) (t : Text) : Prop where
  ne_nil : t ≠ []
  allDigits : AllDigits b t
  eq_zero_of_head : t.head? = some '0' → t = ['0']

theorem isCanonical_ofNat (hb : b ≤ 34) (n : Nat) : IsCanonical b (ofNat b n) where
  ne_nil := ofNat_ne_nil b n
  allDigits := allDigits_ofNat b n
  eq_zero_of_head h := ofNat_eq_of_head? hb h

/-- A text of two digits or more does not begin with a zero, and so neither does its front. -/
theorem IsCanonical.head?_front {s : Text} {c : Char} (h : IsCanonical b (s ++ [c])) (hs : s ≠ []) :
    s.head? ≠ some '0' := by
  intro hzero
  have hone := h.eq_zero_of_head ((List.head?_append_of_ne_nil s hs).trans hzero)
  exact hs (by simpa using congrArg List.dropLast hone)

theorem IsCanonical.front {s : Text} {c : Char} (h : IsCanonical b (s ++ [c])) (hs : s ≠ []) :
    IsCanonical b s where
  ne_nil := hs
  allDigits d hd := h.allDigits d (List.mem_append_left _ hd)
  eq_zero_of_head hzero := absurd hzero (h.head?_front hs)

/-- A digit that is added at the end is a step of the division by the base. -/
theorem ofNat_mul_add {n d : Nat} (hn : n ≠ 0) (hd : d < b + 2) :
    ofNat b (n * (b + 2) + d) = ofNat b n ++ [digit d] := by
  have hle : b + 2 ≤ n * (b + 2) + d :=
    Nat.le_add_right_of_le (Nat.le_mul_of_pos_left _ (Nat.pos_of_ne_zero hn))
  have hdiv : (n * (b + 2) + d) / (b + 2) = n := by
    rw [Nat.mul_comm, Nat.mul_add_div (by omega), Nat.div_eq_of_lt hd, Nat.add_zero]
  have hmod : (n * (b + 2) + d) % (b + 2) = d := by
    rw [Nat.mul_comm, Nat.mul_add_mod, Nat.mod_eq_of_lt hd]
  rw [ofNat_of_le hle, hdiv, hmod]

/-- A canonical text is the numeral of its value. -/
theorem ofNat_value (hb : b ≤ 34) {t : Text} (ht : IsCanonical b t) : ofNat b (value b t) = t := by
  -- the writer puts the last digit on last
  induction t using List.reverseRecOn with
  | nil => exact absurd rfl ht.ne_nil
  | append_singleton s c ih =>
      obtain ⟨d, hd, rfl⟩ := ht.allDigits c (by simp)
      have hdigit : value b [digit d] = d := by
        simp [value, digitValue_digit d (by omega)]
      rcases eq_or_ne s [] with rfl | hs
      · rw [List.nil_append, hdigit, ofNat_of_lt hd]
      · have hfront := ih (ht.front hs)
        -- the front is not `0`, so the division goes on
        have hvalue : value b s ≠ 0 := by
          intro hzero
          rw [hzero, ofNat_of_lt (by omega)] at hfront
          exact ht.head?_front hs (hfront ▸ rfl)
        rw [value_append, hdigit, List.length_singleton, Nat.pow_one, ofNat_mul_add hvalue hd,
          hfront]

/-! ## Base 36 -/

/-- The digits of base 36, in the order of their values. -/
def base36Digits : Text := "0123456789abcdefghijklmnopqrstuvwxyz".toList

/-- The number that a text stands for in base 36. There is none if the text is empty or has a
character that is no digit. -/
def ofBase36? (t : Text) : Option Nat :=
  if !t.isEmpty && t.all base36Digits.contains then
    some (Nat.ofDigits 36 (t.reverse.map base36Digits.idxOf))
  else none

theorem idxOf_digit : ∀ d < 36, base36Digits.idxOf (digit d) = d := by decide

theorem mem_base36Digits_iff {c : Char} : c ∈ base36Digits ↔ ∃ d < 36, c = digit d := by
  have hrow : base36Digits = (List.range 36).map digit := by decide
  simp [hrow, eq_comm]

/-- The places of the digits in their row are the values by which a numeral is read. -/
theorem ofDigits_idxOf {t : Text} (ht : AllDigits 34 t) :
    Nat.ofDigits 36 (t.reverse.map base36Digits.idxOf) = value 34 t := by
  induction t with
  | nil => simp [value]
  | cons c t ih =>
      obtain ⟨⟨d, hd, rfl⟩, htail⟩ := allDigits_cons.mp ht
      rw [List.reverse_cons, List.map_append, Nat.ofDigits_append, ih htail, List.map_singleton,
        Nat.ofDigits_singleton, idxOf_digit d hd, List.length_map, List.length_reverse, value_cons,
        digitValue_digit d hd, Nat.add_comm, Nat.mul_comm]

/-- A text reads as a number exactly if it is not empty, has digits only and has that value. -/
theorem ofBase36?_eq_some_iff {t : Text} {n : Nat} :
    ofBase36? t = some n ↔ t ≠ [] ∧ AllDigits 34 t ∧ value 34 t = n := by
  have hguard : (!t.isEmpty && t.all base36Digits.contains) = true ↔ t ≠ [] ∧ AllDigits 34 t := by
    simp [AllDigits, mem_base36Digits_iff]
  rw [ofBase36?]
  by_cases h : t ≠ [] ∧ AllDigits 34 t
  · rw [if_pos (hguard.mpr h), Option.some.injEq, ofDigits_idxOf h.2]
    exact ⟨fun hvalue => ⟨h.1, h.2, hvalue⟩, fun hvalue => hvalue.2.2⟩
  · rw [if_neg (mt hguard.mp h)]
    exact ⟨nofun, fun hvalue => absurd ⟨hvalue.1, hvalue.2.1⟩ h⟩

/-- The numeral in base 36 is the one text without a needless zero that reads as the number. -/
theorem eq_base36_iff {v : Int} {t : Text} :
    t = base36 v ↔ ofBase36? t = some v.toNat ∧ (t.head? = some '0' → t = ['0']) := by
  rw [ofBase36?_eq_some_iff]
  constructor
  · rintro rfl
    have hcanon := isCanonical_ofNat le_rfl v.toNat
    exact ⟨⟨hcanon.ne_nil, hcanon.allDigits, value_ofNat 34 le_rfl _⟩, hcanon.eq_zero_of_head⟩
  · rintro ⟨⟨hne, hall, hvalue⟩, hhead⟩
    rw [base36, ← hvalue, ofNat_value le_rfl ⟨hne, hall, hhead⟩]

/-- **Base-36 numerals are faithful, canonical and ordered.** The numeral of a number from zero on
consists of the digits `0`–`9` and `a`–`z` and reads back as this number. Only that of zero begins
with a zero, and no other text without a needless zero reads as the number. So different numbers have
different numerals, a larger number has no shorter one, and equally long ones are ordered, character
by character, as the numbers are. -/
theorem base36_faithful :
    (∀ v : Int, 0 ≤ v →
      ofBase36? (base36 v) = some v.toNat ∧ (∀ c ∈ base36 v, c ∈ base36Digits) ∧
        ((base36 v).head? = some '0' → v = 0) ∧
        ∀ t, ofBase36? t = some v.toNat → (t.head? = some '0' → t = ['0']) → t = base36 v) ∧
      ∀ u v : Int, 0 ≤ u → 0 ≤ v →
        (base36 u = base36 v → u = v) ∧
          (u ≤ v → (base36 u).length ≤ (base36 v).length) ∧
          ((base36 u).length = (base36 v).length → (base36 u < base36 v ↔ u < v)) := by
  constructor
  · intro v hv
    refine ⟨(eq_base36_iff.mp rfl).1, ?_, ?_, ?_⟩
    · intro c hc
      exact mem_base36Digits_iff.mpr (exists_of_mem_ofNat hc)
    · intro hhead
      by_contra hne
      exact head?_ofNat_ne_zero le_rfl (by omega : v.toNat ≠ 0) hhead
    · intro t hread hhead
      exact eq_base36_iff.mpr ⟨hread, hhead⟩
  · intro u v hu hv
    refine ⟨?_, ?_, ?_⟩
    · intro h
      have heq := ofNat_injective le_rfl h
      omega
    · intro h
      exact length_ofNat_mono 34 (Int.toNat_le_toNat h)
    · intro h
      rw [base36, base36, ofNat_lt_ofNat_iff le_rfl h]
      omega

/-- At the same length the digit `9` comes before the letter `a`. -/
theorem base36_faithful_nine_before_a :
    (0 : Int) ≤ 324 ∧ (0 : Int) ≤ 360 ∧ base36 324 = "90".toList ∧ base36 360 = "a0".toList ∧
      ofBase36? "a0".toList = some 360 ∧ (∀ c ∈ "a0".toList, c ∈ base36Digits) ∧
      "90".toList.length ≤ "a0".toList.length ∧ "90".toList < "a0".toList := by
  have hnine : base36 324 = "90".toList := (eq_base36_iff.mpr ⟨by decide, by decide⟩).symm
  have ha : base36 360 = "a0".toList := (eq_base36_iff.mpr ⟨by decide, by decide⟩).symm
  obtain ⟨hread, hdigits, -, -⟩ := base36_faithful.1 360 (by decide)
  obtain ⟨-, hlength, horder⟩ := base36_faithful.2 324 360 (by decide) (by decide)
  rw [ha] at hread hdigits
  rw [hnine, ha] at hlength horder
  exact ⟨by decide, by decide, hnine, ha, hread, hdigits, hlength (by decide),
    (horder rfl).mpr (by decide)⟩

end Flowchart.Numeral
