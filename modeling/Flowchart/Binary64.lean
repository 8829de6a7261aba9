/-!
# Double-precision numbers

The numbers of the IEEE 754 format binary64: 53 significant bits, infinities and a not-a-number.
A finite magnitude is stored as its rank among all of them, so that each number has one
representation, and `units` turns a rank into an exact count of the smallest positive number
`2 ^ -1074`. All arithmetic is exact until one final rounding to the nearest number, ties to the
even one (`ofRatio`); a magnitude at or past the rank of `2 ^ 1024` is infinite.
-/

namespace Flowchart

/-- The rank that the magnitude `2 ^ 1024` would have: the first that is not finite. -/
def binary64Ranks : Nat := 2047 * Nat.pow 2 52

/-- A number in the format binary64. -/
inductive Binary64 where
  | finite (negative : Bool) (rank : Fin binary64Ranks)
  | infinite (negative : Bool)
  | nan
  deriving DecidableEq

namespace Binary64

/-! ## Exact values -/

/-- How often the magnitude of a rank doubles past the smallest spacing. -/
def scale (rank : Nat) : Nat := rank / Nat.pow 2 52 - 1

/-- The significant bits of the magnitude of a rank. -/
def significand (rank : Nat) : Nat :=
  if rank < Nat.pow 2 52 then rank else Nat.pow 2 52 + rank % Nat.pow 2 52

/-- The magnitude of a rank, counted in units of `2 ^ -1074`. -/
def units (rank : Nat) : Nat := significand rank * Nat.pow 2 (scale rank)

/-- The number of units in one. -/
def unitsOfOne : Nat := Nat.pow 2 1074

/-! ## Rounding -/

/-- The whole number nearest to a quotient, the even one of two equally near. -/
def roundDiv (num den : Nat) : Nat :=
  let q := num / den
  let r := num % den
  if 2 * r < den ∨ (2 * r = den ∧ q % 2 = 0) then q else q + 1

/-- The rank nearest to a quotient of units. -/
def nearestRank (num den : Nat) : Nat :=
  let s := Nat.log2 (num / den) - 52
  s * Nat.pow 2 52 + roundDiv num (den * Nat.pow 2 s)

/-- The number of a sign and a rank, infinite from the first rank that is not finite. -/
def ofRank (negative : Bool) (rank : Nat) : Binary64 :=
  if h : rank < binary64Ranks then finite negative ⟨rank, h⟩ else infinite negative

/-- The number nearest to a signed quotient. -/
def ofRatio (negative : Bool) (num den : Nat) : Binary64 :=
  ofRank negative (nearestRank (num * unitsOfOne) den)

/-- Positive zero. -/
def zero : Binary64 := ofRank false 0

/-- The number itself, unless it is infinite. -/
def unlessInfinite? : Binary64 → Option Binary64
  | infinite _ => none
  | x => some x

/-- The number nearest to an integer, or `none` for an integer too large to be near one. -/
def ofInt? (n : Int) : Option Binary64 :=
  (ofRatio (decide (n < 0)) n.natAbs 1).unlessInfinite?

/-- The product with a natural number, rounded. -/
def scaleBy (factor : Nat) : Binary64 → Binary64
  | finite negative rank => ofRatio negative (units rank * factor) unitsOfOne
  | x => x

/-! ## Integers -/

/-- The integer of a sign and a magnitude. -/
def signed (negative : Bool) (magnitude : Nat) : Int :=
  if negative then -magnitude else magnitude

/-- The integer part, for a finite number. -/
def truncate? : Binary64 → Option Int
  | finite negative rank => some (signed negative (units rank / unitsOfOne))
  | _ => none

/-- Whether the number equals an integer exactly. -/
def equalsInt (x : Binary64) (n : Int) : Bool :=
  match x with
  | finite negative rank => decide (signed negative (units rank) = n * unitsOfOne)
  | _ => false

/-- Whether the number is zero, of either sign. -/
def isZero (x : Binary64) : Bool := x.equalsInt 0

/-- Whether the number is finite. -/
def isFinite : Binary64 → Bool
  | finite _ _ => true
  | _ => false

/-- Whether two numbers stand for the same value: the two zeros do, and each other number,
not-a-number included, only for its own. -/
def sameValue (x y : Binary64) : Bool := decide (x = y) || (x.isZero && y.isZero)

end Binary64

end Flowchart
