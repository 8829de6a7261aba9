import Flowchart.Text.LineEnd
import Flowchart.Text.Utf8

/-!
# Texts as bytes and back

The bytes of a text are decoded to that text (`Utf8.decode_encode`): the first byte of a character
tells how many more there are, and these lie in the ranges that decoding asks for, because a
character is no surrogate, lies below the end of the code space and is written with as few bytes as
it can be. A text without carriage returns keeps its line ends (`Text.unifyLineEnds_eq_self`).
-/

set_option autoImplicit false

namespace Flowchart

namespace Utf8

/-! ## One character -/

/-- A byte that continues a character. -/
theorem continued_succ {low high : Nat} {b : UInt8} (hlow : low ≤ b.toNat) (hhigh : b.toNat ≤ high)
    (needed value width : Nat) (rest : Bytes) :
    continued (needed + 1) low high value width (b :: rest) =
      continued needed 0x80 0xBF (value * 64 + (b.toNat - 0x80)) (width + 1) rest := by
  rw [continued, if_pos ⟨hlow, hhigh⟩]

theorem toNat_byte {n : Nat} (h : n < 0x100) : (UInt8.ofNat n).toNat = n := by
  rw [UInt8.toNat_ofNat']
  exact Nat.mod_eq_of_lt h

/-- The bits of a number at a shift, as a byte that continues a character. -/
theorem toNat_tail (n shift : Nat) :
    (UInt8.ofNat (0x80 + n / shift % 64)).toNat = 0x80 + n / shift % 64 :=
  toNat_byte (by omega)

section

variable {c : Char} (rest : Bytes)

theorem character_of_one (h : c.toNat < 0x80) : character c.toNat rest = .ok (c, 0) := by
  rw [character, if_pos h, Char.ofNat_toNat]

theorem character_of_two (hlow : 0x80 ≤ c.toNat) (hhigh : c.toNat < 0x800) :
    character (0xC0 + c.toNat / 64) (UInt8.ofNat (0x80 + c.toNat / 1 % 64) :: rest) =
      .ok (c, 1) := by
  have hvalue : (0xC0 + c.toNat / 64 - 0xC0) * 64 + (0x80 + c.toNat / 1 % 64 - 0x80) = c.toNat := by
    omega
  rw [character, if_neg (by omega), if_neg (by omega), if_pos (by omega)]
  rw [continued_succ (by rw [toNat_tail]; omega) (by rw [toNat_tail]; omega), toNat_tail, hvalue,
    continued, Char.ofNat_toNat]
  rfl

theorem character_of_three (hlow : 0x800 ≤ c.toNat) (hhigh : c.toNat < 0x10000) :
    character (0xE0 + c.toNat / 4096) (UInt8.ofNat (0x80 + c.toNat / 64 % 64) ::
      UInt8.ofNat (0x80 + c.toNat / 1 % 64) :: rest) = .ok (c, 2) := by
  have hvalid : c.toNat < 0xD800 ∨ 0xDFFF < c.toNat ∧ c.toNat < 0x110000 := c.valid
  have hvalue : ((0xE0 + c.toNat / 4096 - 0xE0) * 64 + (0x80 + c.toNat / 64 % 64 - 0x80)) * 64 +
      (0x80 + c.toNat / 1 % 64 - 0x80) = c.toNat := by omega
  rw [character, if_neg (by omega), if_neg (by omega), if_neg (by omega), if_pos (by omega)]
  dsimp only
  rw [continued_succ (by rw [toNat_tail]; split <;> omega) (by rw [toNat_tail]; split <;> omega),
    continued_succ (by rw [toNat_tail]; omega) (by rw [toNat_tail]; omega), toNat_tail,
    toNat_tail, hvalue, continued, Char.ofNat_toNat]
  rfl

theorem character_of_four (hlow : 0x10000 ≤ c.toNat) :
    character (0xF0 + c.toNat / 262144) (UInt8.ofNat (0x80 + c.toNat / 4096 % 64) ::
      UInt8.ofNat (0x80 + c.toNat / 64 % 64) :: UInt8.ofNat (0x80 + c.toNat / 1 % 64) :: rest) =
      .ok (c, 3) := by
  have hvalid : c.toNat < 0xD800 ∨ 0xDFFF < c.toNat ∧ c.toNat < 0x110000 := c.valid
  have hvalue : (((0xF0 + c.toNat / 262144 - 0xF0) * 64 + (0x80 + c.toNat / 4096 % 64 - 0x80)) *
      64 + (0x80 + c.toNat / 64 % 64 - 0x80)) * 64 + (0x80 + c.toNat / 1 % 64 - 0x80) =
      c.toNat := by omega
  rw [character, if_neg (by omega), if_neg (by omega), if_neg (by omega), if_neg (by omega),
    if_pos (by omega)]
  dsimp only
  rw [continued_succ (by rw [toNat_tail]; split <;> omega) (by rw [toNat_tail]; split <;> omega),
    continued_succ (by rw [toNat_tail]; omega) (by rw [toNat_tail]; omega),
    continued_succ (by rw [toNat_tail]; omega) (by rw [toNat_tail]; omega), toNat_tail,
    toNat_tail, toNat_tail, hvalue, continued, Char.ofNat_toNat]
  rfl

end

/-- The bytes of a character are read as that character, whatever stands after them. -/
theorem character_encodeCharacter (c : Char) (rest : Bytes) :
    ∃ b more, encodeCharacter c = b :: more ∧
      character b.toNat (more ++ rest) = .ok (c, more.length) := by
  have hvalid : c.toNat < 0xD800 ∨ 0xDFFF < c.toNat ∧ c.toNat < 0x110000 := c.valid
  rw [encodeCharacter]
  dsimp only
  split
  · next h =>
      refine ⟨_, _, rfl, ?_⟩
      rw [toNat_byte (by omega)]
      exact character_of_one rest h
  · next h1 =>
      split
      · next h2 =>
          refine ⟨_, _, rfl, ?_⟩
          rw [toNat_byte (by omega)]
          exact character_of_two rest (by omega) h2
      · next h2 =>
          split
          · next h3 =>
              refine ⟨_, _, rfl, ?_⟩
              rw [toNat_byte (by omega)]
              exact character_of_three rest (by omega) h3
          · next h3 =>
              refine ⟨_, _, rfl, ?_⟩
              rw [toNat_byte (by omega)]
              exact character_of_four rest (by omega)

/-! ## All characters -/

/-- The further bytes of a character are passed over. -/
theorem decodeFrom_skip (position : Nat) (bytes rest : Bytes) :
    decodeFrom bytes.length position (bytes ++ rest) =
      decodeFrom 0 (position + bytes.length) rest := by
  induction bytes generalizing position with
  | nil => rfl
  | cons b bytes ih =>
      rw [List.length_cons, List.cons_append, decodeFrom, ih, Nat.add_right_comm, Nat.add_assoc]

theorem decodeFrom_encode (position : Nat) (t : Text) : decodeFrom 0 position (encode t) = .ok t := by
  induction t generalizing position with
  | nil => rfl
  | cons c t ih =>
      obtain ⟨b, more, hbytes, hread⟩ := character_encodeCharacter c (encode t)
      have hencode : encode (c :: t) = b :: (more ++ encode t) := by
        rw [encode, List.flatMap_cons, hbytes]
        rfl
      rw [hencode, decodeFrom, hread]
      dsimp only
      rw [decodeFrom_skip, ih]
      rfl

/-- The bytes of a text are decoded to that text. -/
theorem decode_encode (t : Text) : decode (encode t) = .ok t := decodeFrom_encode 0 t

end Utf8

namespace Text

/-- A text without carriage returns keeps its line ends. -/
theorem unifyLineEnds_eq_self {t : Text} (h : '\r' ∉ t) : unifyLineEnds t = t := by
  fun_induction unifyLineEnds t with
  | case1 rest ih => simp at h
  | case2 rest _ ih => simp at h
  | case3 c rest _ hc ih =>
      rw [ih fun hmem => h (List.mem_cons_of_mem c hmem)]
  | case4 => rfl

end Text

end Flowchart
