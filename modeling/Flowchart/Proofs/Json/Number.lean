import Flowchart.Json.Writer
import Flowchart.Json.Token
import Flowchart.Proofs.Binary64.NumberText

/-!
# Reading the number that was written

A number in front of a text that does not go on with it (`Json.EndsNumber`) is read part by part,
and as far as it was written (`Json.number?_text`). So the text of a double-precision number is read
as that number (`Json.numberToken_text`), and that of an integer as that integer unless it has too
many digits (`Json.numberToken_signedDecimal`).
-/

set_option autoImplicit false

namespace Flowchart.Json

/-- A text that does not go on with a number in front of it. -/
def EndsNumber (rest : Text) : Prop :=
  ∀ c ∈ rest.head?, c.isDigit = false ∧ c ≠ '.' ∧ c ≠ 'e' ∧ c ≠ 'E'

/-! ## The parts of a number -/

theorem wholePart_append {whole rest : Text} (hne : whole ≠ [])
    (hdigits : ∀ c ∈ whole, c.isDigit = true) (hhead : whole.head? = some '0' → whole = ['0'])
    (hrest : ∀ c ∈ rest.head?, c.isDigit = false) : wholePart (whole ++ rest) = whole := by
  obtain ⟨c, more, rfl⟩ := List.exists_cons_of_ne_nil hne
  rw [List.cons_append]
  unfold wholePart
  split
  · next heq =>
      cases heq
      exact (hhead rfl).symm
  · exact Numeral.takeWhile_isDigit_append hdigits hrest

theorem fractionPart?_append {fraction rest : Text} (hne : fraction ≠ [])
    (hdigits : ∀ c ∈ fraction, c.isDigit = true) (hrest : ∀ c ∈ rest.head?, c.isDigit = false) :
    fractionPart? ('.' :: fraction ++ rest) = some fraction := by
  obtain ⟨c, more, rfl⟩ := List.exists_cons_of_ne_nil hne
  have hmore : ∀ d ∈ more, d.isDigit = true := fun d hd => hdigits d (List.mem_cons_of_mem c hd)
  simp only [List.cons_append, fractionPart?, hdigits c (by simp), if_true,
    Numeral.takeWhile_isDigit_append hmore hrest]

theorem fractionPart?_eq_none {rest : Text} (h : ∀ c ∈ rest.head?, c ≠ '.') :
    fractionPart? rest = none := by
  unfold fractionPart?
  split
  · exact absurd rfl (h '.' rfl)
  · rfl

theorem exponentPart?_eq_none {rest : Text} (h : ∀ c ∈ rest.head?, c ≠ 'e' ∧ c ≠ 'E') :
    NumberText.exponentPart? rest = none := by
  cases rest with
  | nil => rfl
  | cons c rest =>
      obtain ⟨hsmall, hlarge⟩ := h c rfl
      rw [NumberText.exponentPart?, if_neg (by simp [hsmall, hlarge])]

/-! ## Numbers -/

section

variable {n : NumberText} (hn : n.Proper) {rest : Text} (hrest : EndsNumber rest)

/-- The exponent of a written number, in front of a text. -/
def exponentOnward (n : NumberText) (rest : Text) : Text :=
  n.exponent.elim [] Binary64.exponentText ++ rest

/-- The fraction and the exponent of a written number, in front of a text. -/
def fractionOnward (n : NumberText) (rest : Text) : Text :=
  n.fraction.elim [] ('.' :: ·) ++ exponentOnward n rest

theorem drop_fractionOnward (n : NumberText) (rest : Text) :
    (fractionOnward n rest).drop ((n.fraction.map (·.length + 1)).getD 0) =
      exponentOnward n rest := by
  obtain ⟨negative, whole, fraction, exponent⟩ := n
  cases fraction with
  | none => rfl
  | some f => exact List.drop_left

include hrest

theorem head_exponentOnward : ∀ c ∈ (exponentOnward n rest).head?, c.isDigit = false ∧ c ≠ '.' := by
  obtain ⟨negative, whole, fraction, exponent⟩ := n
  cases exponent with
  | none => exact fun c hc => ⟨(hrest c hc).1, (hrest c hc).2.1⟩
  | some e =>
      intro c hc
      have he : c = 'e' := by
        simp only [exponentOnward, Option.elim_some, Binary64.exponentText] at hc
        split at hc <;> simpa using hc.symm
      rw [he]
      decide

theorem exponentPart?_exponentOnward : NumberText.exponentPart? (exponentOnward n rest) =
    n.exponent.map fun e => (e, (Binary64.exponentText e).length) := by
  obtain ⟨negative, whole, fraction, exponent⟩ := n
  cases exponent with
  | none => exact exponentPart?_eq_none fun c hc => (hrest c hc).2.2
  | some e => exact NumberText.exponentPart?_exponentText e fun c hc => (hrest c hc).1

theorem head_fractionOnward : ∀ c ∈ (fractionOnward n rest).head?, c.isDigit = false := by
  have hexponent := head_exponentOnward (n := n) hrest
  obtain ⟨negative, whole, fraction, exponent⟩ := n
  cases fraction with
  | none => exact fun c hc => (hexponent c hc).1
  | some f =>
      intro c hc
      cases hc
      decide

include hn

theorem fractionPart?_fractionOnward : fractionPart? (fractionOnward n rest) = n.fraction := by
  have hexponent := head_exponentOnward (n := n) hrest
  have hne := hn.fraction_ne_nil
  have hdigits := hn.isDigit_fraction
  obtain ⟨negative, whole, fraction, exponent⟩ := n
  cases fraction with
  | none => exact fractionPart?_eq_none fun c hc => (hexponent c hc).2
  | some f => exact fractionPart?_append (hne f rfl) (hdigits f rfl) fun c hc => (hexponent c hc).1

theorem wholePart_append_fractionOnward :
    wholePart (n.whole ++ fractionOnward n rest) = n.whole :=
  wholePart_append hn.whole_ne_nil hn.isDigit_whole hn.head_whole (head_fractionOnward hrest)

/-- The text of a written number is read as that number. -/
theorem number?_text : number? (n.text ++ rest) = some (n, n.text.length) := by
  have hwhole := wholePart_append_fractionOnward hn hrest
  have hfraction := fractionPart?_fractionOnward hn hrest
  have hexponent := exponentPart?_exponentOnward (n := n) hrest
  have hne : n.whole ≠ [] := hn.whole_ne_nil
  have hdash : (n.whole ++ fractionOnward n rest).head? ≠ some '-' := by
    obtain ⟨c, more, hcons⟩ := List.exists_cons_of_ne_nil hne
    have hc := hn.isDigit_whole c (by simp [hcons])
    rw [hcons, List.cons_append, List.head?_cons]
    rintro ⟨⟩
    revert hc
    decide
  have htext : n.text ++ rest =
      (if n.negative then ['-'] else []) ++ (n.whole ++ fractionOnward n rest) := by
    simp only [NumberText.text, fractionOnward, exponentOnward, List.append_assoc]
  have hlength : n.text.length = (if n.negative then 1 else 0) + (n.whole.length +
      (n.fraction.map (·.length + 1)).getD 0 +
      ((n.exponent.map fun e => (e, (Binary64.exponentText e).length)).map Prod.snd).getD 0) := by
    rw [NumberText.text]
    cases n.negative <;> cases n.fraction <;> cases n.exponent <;> simp <;> omega
  have hminus : ((n.text ++ rest).head? == some '-') = n.negative := by
    rw [htext]
    cases n.negative
    · simpa using hdash
    · rfl
  have hunsigned : (if n.negative then (n.text ++ rest).drop 1 else n.text ++ rest) =
      n.whole ++ fractionOnward n rest := by
    rw [htext]
    cases n.negative <;> rfl
  unfold number?
  dsimp only
  rw [hminus, hunsigned, hwhole, if_neg (by simpa using hne), List.drop_left, hfraction,
    drop_fractionOnward, hexponent, hlength]
  obtain ⟨negative, whole, fraction, exponent⟩ := n
  cases negative <;> cases exponent <;> simp <;> omega

end

/-! ## Tokens of numbers -/

theorem numberToken_of_float {n : NumberText}
    (h : n.fraction.isSome = true ∨ n.exponent.isSome = true) :
    numberToken n = .atom (.float n.toBinary64) := by
  rw [numberToken, if_pos (by simpa using h)]

/-- The numeral of an integer is a written number without a point or an exponent. -/
def integerText (k : Int) : NumberText where
  negative := decide (k < 0)
  whole := Numeral.decimal k.natAbs

theorem proper_integerText (k : Int) : (integerText k).Proper where
  whole_ne_nil := Numeral.ofNat_ne_nil 8 _
  isDigit_whole _ hc := Numeral.isDigit_of_mem_decimal hc
  head_whole h := Numeral.ofNat_eq_of_head? (by omega) h
  fraction_ne_nil := by simp [integerText]
  isDigit_fraction := by simp [integerText]

theorem text_integerText (k : Int) : (integerText k).text = Numeral.signedDecimal k := by
  cases k with
  | ofNat n => simp [integerText, NumberText.text, Numeral.signedDecimal]
  | negSucc n => simp [integerText, NumberText.text, Numeral.signedDecimal, Int.negSucc_lt_zero]

/-- An integer without too many digits is a token. -/
theorem numberToken_integerText {k : Int}
    (h : (Numeral.decimal k.natAbs).length ≤ maxIntegerDigits) :
    numberToken (integerText k) = .atom (.int k) := by
  have hvalue : Binary64.signed (decide (k < 0)) k.natAbs = k := by
    rw [Binary64.signed]
    split
    · next hneg =>
        have hk := of_decide_eq_true hneg
        omega
    · next hpos =>
        have hk : ¬ k < 0 := by simpa using hpos
        omega
  simp only [numberToken, integerText, Option.isSome_none, Bool.or_self, Bool.false_eq_true,
    if_false, if_neg (Nat.not_lt.mpr h), Numeral.decimalValue_decimal, hvalue]

end Flowchart.Json
