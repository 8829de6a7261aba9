import Flowchart.Binary64
import Flowchart.Numeral

/-!
# Decimal text of double-precision numbers

A finite number is written with the fewest significant digits that read back as the same number, and
of those with the ones nearest to it, an even last digit deciding a tie. Positional notation serves
numbers from `0.0001` up to `10 ^ 16`; the others have an exponent of at least two digits. A whole
number keeps its `.0`. Reading goes the other way: a decimal rounds once, to the nearest number
(`ofDecimal`).
-/

namespace Flowchart.Binary64

/-! ## Reading -/

/-- A decimal: the digits as a whole number, to be multiplied by a power of ten. -/
structure Decimal where
  digits : Nat
  exponent : Int
  deriving DecidableEq

/-- The number nearest to a signed decimal. Exponents beyond the range of the format are decided
without computing the power. -/
def ofDecimal (negative : Bool) (d : Decimal) : Binary64 :=
  if d.digits = 0 then ofRank negative 0
  else if 400 < d.exponent then infinite negative
  else if d.exponent + (Numeral.decimal d.digits).length + 1100 < 0 then ofRank negative 0
  else if 0 ≤ d.exponent then ofRatio negative (d.digits * Nat.pow 10 d.exponent.toNat) 1
  else ofRatio negative d.digits (Nat.pow 10 d.exponent.natAbs)

/-! ## The fewest digits -/

/-- The exact decimal of a magnitude, of which each power of two below the point makes one digit. -/
def exactDecimal (rank : Nat) : Decimal :=
  if 1074 ≤ scale rank then ⟨significand rank * Nat.pow 2 (scale rank - 1074), 0⟩
  else ⟨significand rank * Nat.pow 5 (1074 - scale rank), (scale rank : Int) - 1074⟩

/-- The two decimals around a decimal that lack its last `dropped` digits, the nearer one first; if
both are equally near, the one whose last digit is even. -/
def neighbours (dropped : Nat) (d : Decimal) : List Decimal :=
  let unit := Nat.pow 10 dropped
  let below : Decimal := ⟨d.digits / unit, d.exponent + dropped⟩
  let above : Decimal := ⟨d.digits / unit + 1, d.exponent + dropped⟩
  if roundDiv d.digits unit = below.digits then [below, above] else [above, below]

/-- The decimal with the fewest digits that reads back as the magnitude of the rank. Seventeen
digits are always enough; the exact decimal stands in if they were not. -/
def shortestDecimal (rank : Fin binary64Ranks) : Decimal :=
  let exact := exactDecimal rank
  let count := (Numeral.decimal exact.digits).length
  let candidates := (List.range 17).flatMap fun n => neighbours (count - (n + 1)) exact
  (candidates.find? fun d => decide (ofDecimal false d = finite false rank)).getD exact

/-! ## Writing -/

/-- The significant digits of a decimal and the place of its point, counted from the first digit. -/
def Decimal.significant (d : Decimal) : Text × Int :=
  let all := Numeral.decimal d.digits
  (Text.dropEndWhile (· == '0') all, all.length + d.exponent)

/-- Digits with the point at the given place, neither side of it empty. -/
def positional (digits : Text) (point : Int) : Text :=
  if point ≤ 0 then ['0', '.'] ++ List.replicate (-point).toNat '0' ++ digits
  else
    let whole := digits.take point.toNat
    let fraction := digits.drop point.toNat
    whole ++ List.replicate (point.toNat - digits.length) '0' ++ ['.'] ++
      if fraction.isEmpty then ['0'] else fraction

/-- An exponent with its sign and at least two digits. -/
def exponentText (e : Int) : Text :=
  let digits := Numeral.decimal e.natAbs
  (if e < 0 then ['e', '-'] else ['e', '+']) ++ List.replicate (2 - digits.length) '0' ++ digits

/-- Digits with the point after the first one, and an exponent. -/
def scientific (digits : Text) (point : Int) : Text :=
  match digits with
  | [] => []
  | [d] => d :: exponentText (point - 1)
  | d :: rest => d :: '.' :: rest ++ exponentText (point - 1)

/-- The text of a magnitude. -/
def magnitudeText (rank : Fin binary64Ranks) : Text :=
  if rank.val = 0 then "0.0".toList
  else
    let (digits, point) := (shortestDecimal rank).significant
    if -4 < point ∧ point ≤ 16 then positional digits point else scientific digits point

/-- The words for the numbers that are not finite. -/
structure SpecialWords where
  infinity : Text
  nan : Text

/-- The text of a number, with the given words for those that are not finite. -/
def text (words : SpecialWords) : Binary64 → Text
  | finite negative rank => (if negative then ['-'] else []) ++ magnitudeText rank
  | infinite negative => (if negative then ['-'] else []) ++ words.infinity
  | nan => words.nan

end Flowchart.Binary64
