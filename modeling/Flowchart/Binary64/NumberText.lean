import Flowchart.Binary64.Decimal

/-!
# Written numbers

A number as it is written: a sign, whole digits, and possibly a fraction and an exponent. The
formats that admit such numbers differ in which parts may be missing; they share this form and its
value.
-/

namespace Flowchart

/-- A number as it is written. -/
structure NumberText where
  negative : Bool
  whole : Text
  fraction : Option Text := none
  exponent : Option Int := none
  deriving DecidableEq

namespace NumberText

/-- The number nearest to what is written. -/
def toBinary64 (n : NumberText) : Binary64 :=
  let fraction := n.fraction.getD []
  Binary64.ofDecimal n.negative
    ⟨Numeral.decimalValue (n.whole ++ fraction), n.exponent.getD 0 - fraction.length⟩

/-- A sign, if one comes first: whether it is a minus, and its length. -/
def signPart : Text → Bool × Nat
  | '-' :: _ => (true, 1)
  | '+' :: _ => (false, 1)
  | _ => (false, 0)

/-- The exponent and its length, if the letter `e` and at least one digit come first. -/
def exponentPart? : Text → Option (Int × Nat)
  | c :: rest =>
    if c = 'e' ∨ c = 'E' then
      let (negative, width) := signPart rest
      let digits := (rest.drop width).takeWhile Char.isDigit
      if digits.isEmpty then none
      else some (Binary64.signed negative (Numeral.decimalValue digits), 1 + width + digits.length)
    else none
  | [] => none

end NumberText

end Flowchart
