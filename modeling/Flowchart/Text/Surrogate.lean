import Flowchart.Text

/-!
# Surrogates

Code points that are no characters. A high surrogate and a low one after it stand for one character
(`joinSurrogates`), in code units of sixteen bits and in escapes. A lone one stands for nothing; a
decoder may let it through all the same, and then a text has U+FFFD in its place (`unitCharacter`).
No character is a surrogate (`isSurrogate_toNat`).
-/

namespace Flowchart

/-- The first half of a surrogate pair. -/
def isHighSurrogate (n : Nat) : Bool := 0xD800 ≤ n && n < 0xDC00

/-- The second half of a surrogate pair. -/
def isLowSurrogate (n : Nat) : Bool := 0xDC00 ≤ n && n < 0xE000

/-- Either half of a surrogate pair. -/
def isSurrogate (n : Nat) : Bool := isHighSurrogate n || isLowSurrogate n

/-- The character of a surrogate pair. -/
def joinSurrogates (high low : Nat) : Char :=
  Char.ofNat (0x10000 + (high - 0xD800) * 0x400 + (low - 0xDC00))

/-- The character of a code point. A surrogate on its own is no character; U+FFFD stands for it. -/
def unitCharacter (n : Nat) : Char := if isSurrogate n then '\uFFFD' else Char.ofNat n

/-! ## Characters -/

/-- No character is a surrogate. -/
@[simp] theorem isSurrogate_toNat (c : Char) : isSurrogate c.toNat = false := by
  have hvalid : c.toNat < 0xD800 ∨ 0xDFFF < c.toNat ∧ c.toNat < 0x110000 := c.valid
  simp [isSurrogate, isHighSurrogate, isLowSurrogate]
  omega

theorem isHighSurrogate_toNat (c : Char) : isHighSurrogate c.toNat = false :=
  (Bool.or_eq_false_iff.mp (isSurrogate_toNat c)).1

@[simp] theorem unitCharacter_toNat (c : Char) : unitCharacter c.toNat = c := by
  rw [unitCharacter, isSurrogate_toNat, if_neg (by decide), Char.ofNat_toNat]

end Flowchart
