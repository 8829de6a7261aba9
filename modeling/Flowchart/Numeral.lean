import Flowchart.Text

/-!
# Positional numerals

Natural numbers written with the digits `0`–`9` and then `a`–`z`, most significant digit first, in
any base up to 36. Counters and clock stamps use base 36, everything else base ten. The numeral of
a number reads back as that number (`value_ofNat`).
-/

namespace Flowchart.Numeral

/-- The digit of a value below 36. -/
def digit (value : Nat) : Char :=
  if value < 10 then Char.ofNat (48 + value) else Char.ofNat (87 + value)

/-- The value of a digit or of a small letter. -/
def digitValue (c : Char) : Nat :=
  if c.toNat < 58 then c.toNat - 48 else c.toNat - 87

/-- The numeral of `n` in the base `b + 2`. -/
def ofNat (b n : Nat) : Text :=
  if n < b + 2 then [digit n] else ofNat b (n / (b + 2)) ++ [digit (n % (b + 2))]
termination_by n
decreasing_by exact Nat.div_lt_self (by omega) (by omega)

/-- The number that a numeral in the base `b + 2` stands for. -/
def value (b : Nat) (t : Text) : Nat :=
  t.foldl (fun acc c => acc * (b + 2) + digitValue c) 0

theorem digitValue_digit : ∀ d < 36, digitValue (digit d) = d := by decide

/-- A numeral reads back as its number. -/
theorem value_ofNat (b : Nat) (hb : b ≤ 34) (n : Nat) : value b (ofNat b n) = n := by
  fun_induction ofNat b n with
  | case1 n h => simp [value, digitValue_digit n (by omega)]
  | case2 n h ih =>
      have hd : n % (b + 2) < 36 := Nat.lt_of_lt_of_le (Nat.mod_lt _ (by omega)) (by omega)
      rw [value] at ih ⊢
      rw [List.foldl_append, ih]
      simp only [List.foldl_cons, List.foldl_nil, digitValue_digit _ hd]
      rw [Nat.mul_comm]
      exact Nat.div_add_mod n (b + 2)

/-- The decimal numeral of a natural number. -/
def decimal (n : Nat) : Text := ofNat 8 n

/-- The decimal numeral of an integer, with a minus sign if it is negative. -/
def signedDecimal : Int → Text
  | .ofNat n => decimal n
  | .negSucc n => '-' :: decimal (n + 1)

/-- The number of a decimal numeral. -/
def decimalValue (t : Text) : Nat := value 8 t

/-- The numeral of an integer in base 36, where a negative number counts as zero. -/
def base36 (n : Int) : Text := ofNat 34 n.toNat

end Flowchart.Numeral
