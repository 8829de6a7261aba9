import Flowchart.Binary64.NumberText
import Flowchart.Text.Digit

/-!
# Numbers as input

Numbers as people enter them into settings and requests: with blanks around them, a sign of either
kind, digits of any script, and single underscores between digits. An integer may have at most
`maxDigits` digits. A number may also be infinite or no number at all, in words.
-/

namespace Flowchart.Numeral.Input

/-- The most digits of an integer. -/
def maxDigits : Nat := 4300

/-- A text with its digits in ASCII and its blanks as spaces. A text of ASCII stays as it is; a
character that is neither digit nor blank nor ASCII makes the text no number. -/
def plain? (t : Text) : Option Text :=
  if t.all fun c => c.toNat < 0x80 then some t
  else
    t.mapM fun c =>
      if c.toNat < 0x7F then some c
      else if isBlank c then some ' '
      else (digitValue? c).map asciiDigit

/-- The blanks of ASCII. The information separators are none. -/
def isAsciiBlank (c : Char) : Bool := c == ' ' || (9 ≤ c.toNat && c.toNat ≤ 13)

/-- The text without the ASCII blanks at both ends. -/
def trimAscii (t : Text) : Text := Text.dropEndWhile isAsciiBlank (t.dropWhile isAsciiBlank)

/-! ## Integers -/

/-- Digits without the single underscores between them. -/
def ungrouped? : Text → Option Text
  | [] => none
  | [c] => if c.isDigit then some [c] else none
  | c :: '_' :: rest => if c.isDigit then (ungrouped? rest).map (c :: ·) else none
  | c :: rest => if c.isDigit then (ungrouped? rest).map (c :: ·) else none

/-- The integer that a text is. -/
def integer? (t : Text) : Option Int := do
  let trimmed := trimAscii (← plain? t)
  let (negative, width) := NumberText.signPart trimmed
  let digits ← ungrouped? (trimmed.drop width)
  if digits.length ≤ maxDigits then
    some (Binary64.signed negative (Numeral.decimalValue digits))
  else none

/-! ## Numbers -/

/-- A number without the underscores between its digits. -/
def withoutUnderscores? : (afterDigit : Bool) → Text → Option Text
  | _, [] => some []
  | afterDigit, c :: rest =>
    if c = '_' then
      if afterDigit && rest.head?.any Char.isDigit then withoutUnderscores? false rest else none
    else (withoutUnderscores? c.isDigit rest).map (c :: ·)

/-- The words for infinity. -/
def infinityWords : List Text := ["inf".toList, "infinity".toList]

/-- The number of a text without a sign: digits on at least one side of the point, and possibly an
exponent, or a word. -/
def unsigned? (negative : Bool) (t : Text) : Option Binary64 :=
  let word := t.map Char.toLower
  if infinityWords.contains word then some (.infinite negative)
  else if word = "nan".toList then some .nan
  else
    let whole := t.takeWhile Char.isDigit
    let afterWhole := t.dropWhile Char.isDigit
    let (fraction, afterFraction) :=
      match afterWhole with
      | '.' :: rest => (rest.takeWhile Char.isDigit, rest.dropWhile Char.isDigit)
      | _ => ([], afterWhole)
    if whole.isEmpty && fraction.isEmpty then none
    else
      match afterFraction, NumberText.exponentPart? afterFraction with
      | [], _ => some (NumberText.toBinary64 ⟨negative, whole, some fraction, none⟩)
      | _, some (exponent, width) =>
        if (afterFraction.drop width).isEmpty then
          some (NumberText.toBinary64 ⟨negative, whole, some fraction, some exponent⟩)
        else none
      | _, none => none

/-- The number that a text is. -/
def number? (t : Text) : Option Binary64 := do
  let bare ← withoutUnderscores? false (trimAscii (← plain? t))
  let (negative, width) := NumberText.signPart bare
  unsigned? negative (bare.drop width)

end Flowchart.Numeral.Input
