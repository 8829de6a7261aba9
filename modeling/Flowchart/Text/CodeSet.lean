/-!
# Sets of code points

The Unicode standard gives a property of characters as a set of code points. Such a set is stored
as the increasing list of the places where membership changes, so that a table of ranges is read
off the standard without repeating its gaps. `CodeSet.contains_cons` says how a table is read.
-/

namespace Flowchart

/-- A set of code points, given by its bounds in increasing order: the first bound starts a range,
the second one ends it, and so on in turn. -/
structure CodeSet where
  bounds : List Nat

namespace CodeSet

/-- Whether the code point `n` lies in the ranges that `bounds` describe. Each bound at or below
`n` flips the answer. -/
def covers : List Nat → Nat → Bool
  | [], _ => false
  | b :: bs, n => if n < b then false else !covers bs n

/-- Whether a character belongs to the set. -/
def contains (s : CodeSet) (c : Char) : Bool := covers s.bounds c.toNat

theorem contains_cons (b : Nat) (bs : List Nat) (c : Char) :
    (CodeSet.mk (b :: bs)).contains c =
      if c.toNat < b then false else !(CodeSet.mk bs).contains c := rfl

end CodeSet

end Flowchart
