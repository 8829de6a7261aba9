import Flowchart.Numeral
import Mathlib.Data.List.Basic
import Mathlib.Tactic.Ring

/-!
# Numerals and their characters

A numeral is a word of letters and digits (`Numeral.isIdentifierPart_of_mem_ofNat`), so no dash can
be a part of it, and it does not begin with a zero, unless it is that of zero
(`Numeral.head?_ofNat_ne_zero`). Different numbers have different numerals
(`Numeral.ofNat_injective`), and a larger number has no shorter one (`Numeral.length_ofNat_mono`). A
decimal numeral consists of the ten digits. Zeros before a numeral do not change its value, and each
zero after it counts for a power of the base (`Numeral.value_append`); what digits stand for is below
the power of the base that there are digits (`Numeral.value_lt_pow`).
-/

set_option autoImplicit false

namespace Flowchart.Numeral

/-! ## Digits -/

theorem isIdentifierPart_digit : ∀ d < 36, Text.isIdentifierPart (digit d) = true := by decide

theorem isDigit_digit : ∀ d < 10, (digit d).isDigit = true := by decide

theorem digit_ne_zero : ∀ d < 36, d ≠ 0 → digit d ≠ '0' := by decide

/-! ## Numerals in any base -/

theorem ofNat_of_lt {b n : Nat} (h : n < b + 2) : ofNat b n = [digit n] := by
  rw [ofNat, if_pos h]

theorem ofNat_of_le {b n : Nat} (h : b + 2 ≤ n) :
    ofNat b n = ofNat b (n / (b + 2)) ++ [digit (n % (b + 2))] := by
  rw [ofNat, if_neg (Nat.not_lt.mpr h)]

theorem ofNat_ne_nil (b n : Nat) : ofNat b n ≠ [] := by
  rw [ofNat]
  split <;> simp

/-- Each character of a numeral is the digit of a value below the base. -/
theorem exists_of_mem_ofNat {b n : Nat} {c : Char} (h : c ∈ ofNat b n) :
    ∃ d < b + 2, c = digit d := by
  fun_induction ofNat b n with
  | case1 n hn => exact ⟨n, hn, by simpa using h⟩
  | case2 n hn ih =>
      rcases List.mem_append.mp h with h | h
      · exact ih h
      · exact ⟨n % (b + 2), Nat.mod_lt n (by omega), by simpa using h⟩

theorem isIdentifierPart_of_mem_ofNat {b n : Nat} (hb : b ≤ 34) {c : Char} (h : c ∈ ofNat b n) :
    Text.isIdentifierPart c = true := by
  obtain ⟨d, hd, rfl⟩ := exists_of_mem_ofNat h
  exact isIdentifierPart_digit d (by omega)

/-- No numeral holds a dash. -/
theorem dash_not_mem_ofNat {b : Nat} (hb : b ≤ 34) (n : Nat) : '-' ∉ ofNat b n := by
  intro h
  have hpart := isIdentifierPart_of_mem_ofNat hb h
  revert hpart
  decide

/-- Only zero has a numeral that begins with a zero. -/
theorem head?_ofNat_ne_zero {b n : Nat} (hb : b ≤ 34) (hn : n ≠ 0) :
    (ofNat b n).head? ≠ some '0' := by
  fun_induction ofNat b n with
  | case1 n h => simpa using digit_ne_zero n (by omega) hn
  | case2 n h ih =>
      rw [List.head?_append_of_ne_nil _ (ofNat_ne_nil b _)]
      exact ih (Nat.div_pos (Nat.not_lt.mp h) (by omega)).ne'

/-- A numeral that begins with a zero is that of zero. -/
theorem ofNat_eq_of_head? {b n : Nat} (hb : b ≤ 34) (h : (ofNat b n).head? = some '0') :
    ofNat b n = ['0'] := by
  have hn : n = 0 := by
    by_contra hn
    exact head?_ofNat_ne_zero hb hn h
  rw [hn]
  exact ofNat_of_lt (by omega)

/-- Different numbers have different numerals. -/
theorem ofNat_injective {b : Nat} (hb : b ≤ 34) {m n : Nat} (h : ofNat b m = ofNat b n) : m = n := by
  rw [← value_ofNat b hb m, ← value_ofNat b hb n, h]

/-- A larger number has no shorter numeral. -/
theorem length_ofNat_mono (b : Nat) {m n : Nat} (h : m ≤ n) :
    (ofNat b m).length ≤ (ofNat b n).length := by
  -- on both sides the last digit is cut off
  induction n using Nat.strongRecOn generalizing m with
  | _ n ih =>
      rcases Nat.lt_or_ge m (b + 2) with hm | hm
      · rw [ofNat_of_lt hm, List.length_singleton]
        exact List.length_pos_iff.mpr (ofNat_ne_nil b n)
      · have hn : b + 2 ≤ n := Nat.le_trans hm h
        rw [ofNat_of_le hm, ofNat_of_le hn, List.length_append, List.length_append]
        exact Nat.add_le_add_right
          (ih (n / (b + 2)) (Nat.div_lt_self (by omega) (by omega)) (Nat.div_le_div_right h)) 1

/-- A number is below the power of the base that its numeral has digits. -/
theorem lt_pow_length_ofNat (b n : Nat) : n < (b + 2) ^ (ofNat b n).length := by
  fun_induction ofNat b n with
  | case1 n h => simpa using h
  | case2 n h ih =>
      rw [List.length_append, List.length_singleton, Nat.pow_succ]
      exact (Nat.div_lt_iff_lt_mul (by omega)).mp ih

/-- A number below a power of the base has no more digits than the power has factors. -/
theorem length_ofNat_le {b k n : Nat} (hk : 0 < k) (h : n < (b + 2) ^ k) :
    (ofNat b n).length ≤ k := by
  fun_induction ofNat b n generalizing k with
  | case1 n hn => exact hk
  | case2 n hn ih =>
      obtain ⟨k, rfl⟩ : ∃ m, k = m + 1 := ⟨k - 1, by omega⟩
      -- a number of two digits is not below the base itself
      have hpos : 0 < k := by
        rcases Nat.eq_zero_or_pos k with rfl | hpos
        · rw [Nat.zero_add, Nat.pow_one] at h
          exact absurd h hn
        · exact hpos
      rw [List.length_append, List.length_singleton]
      exact Nat.add_le_add_right
        (ih hpos ((Nat.div_lt_iff_lt_mul (by omega)).mpr (by rwa [Nat.pow_succ] at h))) 1

/-! ## Values of digits -/

theorem foldl_digitValue (b acc : Nat) (t : Text) :
    t.foldl (fun acc c => acc * (b + 2) + digitValue c) acc =
      acc * (b + 2) ^ t.length + value b t := by
  induction t generalizing acc with
  | nil => simp [value]
  | cons c t ih =>
      rw [value, List.foldl_cons, List.foldl_cons, ih, ih (0 * (b + 2) + digitValue c),
        List.length_cons]
      ring

theorem value_cons (b : Nat) (c : Char) (t : Text) :
    value b (c :: t) = digitValue c * (b + 2) ^ t.length + value b t := by
  rw [value, List.foldl_cons, foldl_digitValue, Nat.zero_mul, Nat.zero_add]

/-- The digits before others count for a power of the base each. -/
theorem value_append (b : Nat) (s t : Text) :
    value b (s ++ t) = value b s * (b + 2) ^ t.length + value b t := by
  rw [value, List.foldl_append, foldl_digitValue, ← value]

theorem value_zeros (b k : Nat) : value b (List.replicate k '0') = 0 := by
  induction k with
  | zero => rfl
  | succ k ih =>
      rw [List.replicate_succ', value_append, ih]
      simp [value, digitValue]

/-! ## Texts of digits -/

/-- Whether all characters of a text are digits of the base `b + 2`. -/
def AllDigits (b : Nat) (t : Text) : Prop := ∀ c ∈ t, ∃ d < b + 2, c = digit d

theorem allDigits_cons {b : Nat} {c : Char} {t : Text} :
    AllDigits b (c :: t) ↔ (∃ d < b + 2, c = digit d) ∧ AllDigits b t :=
  List.forall_mem_cons

theorem allDigits_ofNat (b n : Nat) : AllDigits b (ofNat b n) := fun _ => exists_of_mem_ofNat

/-- The larger digit at a place decides, whatever less than one of that place follows the smaller. -/
theorem mul_add_lt_of_lt {d e p x y : Nat} (hde : d < e) (hx : x < p) : d * p + x < e * p + y :=
  calc d * p + x < d * p + p := Nat.add_lt_add_left hx _
    _ = (d + 1) * p := (Nat.succ_mul _ _).symm
    _ ≤ e * p := Nat.mul_le_mul_right _ hde
    _ ≤ e * p + y := Nat.le_add_right _ _

/-- What digits stand for is below the power of the base that there are digits. -/
theorem value_lt_pow {b : Nat} (hb : b ≤ 34) {t : Text} (ht : AllDigits b t) :
    value b t < (b + 2) ^ t.length := by
  induction t with
  | nil => simp [value]
  | cons c t ih =>
      obtain ⟨⟨d, hd, rfl⟩, htail⟩ := allDigits_cons.mp ht
      rw [value_cons, digitValue_digit d (by omega), List.length_cons, Nat.pow_succ']
      exact mul_add_lt_of_lt (y := 0) hd (ih htail)

/-! ## Decimal numerals -/

theorem decimalValue_decimal (n : Nat) : decimalValue (decimal n) = n := value_ofNat 8 (by omega) n

theorem decimalValue_zeros_append (k : Nat) (t : Text) :
    decimalValue (List.replicate k '0' ++ t) = decimalValue t := by
  rw [decimalValue, value_append, value_zeros, Nat.zero_mul, Nat.zero_add, ← decimalValue]

theorem decimalValue_append_zeros (t : Text) (k : Nat) :
    decimalValue (t ++ List.replicate k '0') = decimalValue t * 10 ^ k := by
  rw [decimalValue, value_append, value_zeros, List.length_replicate, Nat.add_zero, ← decimalValue]

theorem exists_digit_of_isDigit {c : Char} (h : c.isDigit = true) : ∃ d < 10, c = digit d := by
  simp only [Char.isDigit, Bool.and_eq_true, decide_eq_true_eq] at h
  have hlow : 48 ≤ c.toNat := h.1
  have hhigh : c.toNat ≤ 57 := h.2
  refine ⟨c.toNat - 48, by omega, ?_⟩
  rw [digit, if_pos (by omega), Nat.add_sub_cancel' hlow, Char.ofNat_toNat]

theorem decimalValue_lt_pow {t : Text} (h : ∀ c ∈ t, c.isDigit = true) :
    decimalValue t < 10 ^ t.length :=
  value_lt_pow (b := 8) (by omega) fun c hc => exists_digit_of_isDigit (h c hc)

theorem isDigit_of_mem_decimal {n : Nat} {c : Char} (h : c ∈ decimal n) : c.isDigit = true := by
  obtain ⟨d, hd, rfl⟩ := exists_of_mem_ofNat h
  exact isDigit_digit d hd

/-- Digits are read up to the first character that is none. -/
theorem takeWhile_isDigit_append {t rest : Text} (ht : ∀ c ∈ t, c.isDigit = true)
    (hrest : ∀ c ∈ rest.head?, c.isDigit = false) : (t ++ rest).takeWhile Char.isDigit = t := by
  rw [List.takeWhile_append_of_pos ht]
  cases rest with
  | nil => simp
  | cons c rest => simp [hrest c rfl]

theorem head?_decimal_ne_zero {n : Nat} (hn : n ≠ 0) : (decimal n).head? ≠ some '0' :=
  head?_ofNat_ne_zero (by omega) hn

end Flowchart.Numeral
