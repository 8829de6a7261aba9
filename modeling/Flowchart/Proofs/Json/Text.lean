import Flowchart.Json.Writer
import Flowchart.Json.Token

/-!
# Reading the string that was written

Each character of a string is written as itself or as an escape, and either is read as that
character (`Json.stringFrom_character`): an escape of four digits stands for a character of the
first plane, which is no surrogate, and a pair of them for any other. So a string is read up to its
closing quote, in every style of writing (`Json.stringFrom_text`).
-/

set_option autoImplicit false

namespace Flowchart.Json

/-! ## Code units -/

theorem hexValue?_hexDigit : ∀ d < 16, hexValue? (hexDigit d) = some d := by decide

/-- The four hexadecimal digits of a code unit. -/
def unitDigits (n : Nat) : Text :=
  [hexDigit (n / 0x1000 % 16), hexDigit (n / 0x100 % 16), hexDigit (n / 0x10 % 16),
    hexDigit (n % 16)]

theorem hexNumber?_unitDigits {n : Nat} (hn : n < 0x10000) : hexNumber? (unitDigits n) = some n := by
  have hdigit (m : Nat) : hexValue? (hexDigit (m % 16)) = some (m % 16) :=
    hexValue?_hexDigit _ (Nat.mod_lt _ (by decide))
  simp [unitDigits, hexNumber?, hdigit]
  omega

/-! ## Escapes -/

section

variable (start position : Nat) {rest : Text} (hrest : rest ≠ [])

include hrest

/-- The escape of a code unit that begins no surrogate pair. -/
theorem unicodeEscape_unit {n : Nat} (hn : n < 0x10000) (hhigh : isHighSurrogate n = false) :
    unicodeEscape position (unitDigits n ++ rest) = .ok (unitCharacter n, 4) := by
  have hnumber := hexNumber?_unitDigits hn
  have hfour : (unitDigits n ++ rest).drop 4 = rest := rfl
  have htake : (unitDigits n ++ rest).take 4 = unitDigits n := rfl
  obtain ⟨c, more, rfl⟩ := List.exists_cons_of_ne_nil hrest
  simp only [unicodeEscape, hfour, htake, hnumber, hhigh, Bool.false_and, Bool.false_eq_true,
    if_false]

/-- The escapes of the two halves of a surrogate pair. -/
theorem unicodeEscape_pair {high low : Nat} (hhigh : isHighSurrogate high = true)
    (hlow : isLowSurrogate low = true) :
    unicodeEscape position (unitDigits high ++ (unitEscape low ++ rest)) =
      .ok (joinSurrogates high low, 10) := by
  have hhigh' : high < 0x10000 := by
    simp [isHighSurrogate] at hhigh
    omega
  have hlow' : low < 0x10000 := by
    simp [isLowSurrogate] at hlow
    omega
  have hsecond : ((unitEscape low ++ rest).drop 2).take 4 = unitDigits low := rfl
  have hsix : (unitEscape low ++ rest).drop 6 = rest := rfl
  have hfour : (unitDigits high ++ (unitEscape low ++ rest)).drop 4 = unitEscape low ++ rest := rfl
  have htake : (unitDigits high ++ (unitEscape low ++ rest)).take 4 = unitDigits high := rfl
  have htwo : (unitEscape low ++ rest).take 2 = ['\\', 'u'] := rfl
  unfold unicodeEscape
  simp only [hfour, htake, hexNumber?_unitDigits hhigh', htwo, hsix, hsecond,
    hexNumber?_unitDigits hlow', hlow]
  simp [unitEscape, hrest, hhigh]

/-- The escapes of a character are read as that character. -/
theorem escape_characterEscape (c : Char) :
    ∃ more, characterEscape c = '\\' :: more ∧
      escape start position (more ++ rest) = .ok (c, more.length) := by
  rw [characterEscape]
  split
  · next hsmall =>
      refine ⟨'u' :: unitDigits c.toNat, rfl, ?_⟩
      rw [List.cons_append, escape, unicodeEscape_unit _ hrest hsmall (isHighSurrogate_toNat c),
        unitCharacter_toNat]
      rfl
  · next hlarge =>
      have hvalid : c.toNat < 0xD800 ∨ 0xDFFF < c.toNat ∧ c.toNat < 0x110000 := c.valid
      obtain ⟨n, hn⟩ : ∃ n, c.toNat = 0x10000 + n := ⟨c.toNat - 0x10000, by omega⟩
      have hhigh : isHighSurrogate (0xD800 + n / 0x400) = true := by
        simp [isHighSurrogate]
        omega
      have hlow : isLowSurrogate (0xDC00 + n % 0x400) = true := by
        simp [isLowSurrogate]
        omega
      have hjoin : joinSurrogates (0xD800 + n / 0x400) (0xDC00 + n % 0x400) = c := by
        rw [joinSurrogates, Nat.add_sub_cancel_left, Nat.add_sub_cancel_left, Nat.add_assoc,
          Nat.div_add_mod', ← hn, Char.ofNat_toNat]
      rw [hn, Nat.add_sub_cancel_left]
      refine ⟨'u' :: unitDigits (0xD800 + n / 0x400) ++ unitEscape (0xDC00 + n % 0x400), rfl, ?_⟩
      rw [List.append_assoc, List.cons_append, escape, unicodeEscape_pair _ hrest hhigh hlow, hjoin]
      rfl

end

/-- An escape of one letter is read as the character it was written for. -/
theorem exists_of_shortEscape? {c : Char} {e : Text} (h : shortEscape? c = some e) :
    ∃ d, e = ['\\', d] ∧ d ≠ 'u' ∧ simpleEscape? d = some c := by
  unfold shortEscape? at h
  split at h <;> cases h <;> exact ⟨_, rfl, by decide, rfl⟩

theorem ne_of_shortEscape?_eq_none {c : Char} (h : shortEscape? c = none) : c ≠ '"' ∧ c ≠ '\\' := by
  constructor <;> rintro rfl <;> cases h

/-! ## Strings -/

/-- The code points of an escape are passed over. -/
theorem stringFrom_skip (start position : Nat) (t rest : Text) :
    stringFrom start t.length position (t ++ rest) =
      stringFrom start 0 (position + t.length) rest := by
  induction t generalizing position with
  | nil => rfl
  | cons c t ih =>
      rw [List.length_cons, List.cons_append, stringFrom, ih, Nat.add_right_comm, Nat.add_assoc]

/-- A string goes on with a character after an escape of it. -/
theorem stringFrom_escape {start position : Nat} {more rest : Text} {c : Char}
    (h : escape start position (more ++ rest) = .ok (c, more.length)) :
    stringFrom start 0 position ('\\' :: more ++ rest) =
      (stringFrom start 0 (position + ('\\' :: more).length) rest).map
        fun (t, last) => (c :: t, last) := by
  rw [List.cons_append, stringFrom, if_neg (by decide), if_pos rfl, h]
  dsimp only
  rw [stringFrom_skip, List.length_cons, Nat.add_assoc, Nat.add_comm 1]

/-- A string goes on with a character as it was written. -/
theorem stringFrom_character (s : Style) (start position : Nat) (c : Char) {rest : Text}
    (hrest : rest ≠ []) :
    stringFrom start 0 position (s.character c ++ rest) =
      (stringFrom start 0 (position + (s.character c).length) rest).map
        fun (t, last) => (c :: t, last) := by
  unfold Style.character
  split
  · next e he =>
      obtain ⟨d, rfl, hd, hescape⟩ := exists_of_shortEscape? he
      refine stringFrom_escape ?_
      rw [List.singleton_append]
      unfold escape
      split
      · next heq => cases heq
      · next heq =>
          cases heq
          exact absurd rfl hd
      · next heq =>
          cases heq
          rw [hescape]
          rfl
  · next hnone =>
      obtain ⟨hquote, hbackslash⟩ := ne_of_shortEscape?_eq_none hnone
      split
      · obtain ⟨more, hmore, hescape⟩ := escape_characterEscape start position hrest c
        rw [hmore]
        exact stringFrom_escape hescape
      · next hplain =>
          have hcontrol : ¬ c.toNat < 0x20 := fun h => hplain (Or.inl h)
          rw [List.singleton_append, stringFrom, if_neg hquote, if_neg hbackslash,
            if_neg hcontrol]
          rfl

/-- A string is read up to its closing quote. -/
theorem stringFrom_text (s : Style) (start position : Nat) (t rest : Text) :
    stringFrom start 0 position (t.flatMap s.character ++ '"' :: rest) =
      .ok (t, position + (t.flatMap s.character).length + 1) := by
  induction t generalizing position with
  | nil => rfl
  | cons c t ih =>
      rw [List.flatMap_cons, List.append_assoc, stringFrom_character s start position c (by simp),
        ih, List.length_append, ← Nat.add_assoc]
      rfl

end Flowchart.Json
