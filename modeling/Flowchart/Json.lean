import Flowchart.Binary64
import Flowchart.Keyed
import Flowchart.Text

/-!
# JSON values

The values that graph records, settings of an edge and request bodies are made of. Whole numbers
and double-precision numbers are kept apart, and the fields of an object stand in the order in
which their keys first came.

`Json.alike` is the equality that does not see that difference: numbers are alike when they have
the same value (the truth values count as one and zero), objects when they have alike fields in any
order.
-/

namespace Flowchart

/-- A JSON value. -/
inductive Json where
  | null
  | bool (value : Bool)
  | int (value : Int)
  | float (value : Binary64)
  | str (value : Text)
  | arr (items : List Json)
  | obj (fields : List (Text × Json))
  deriving Inhabited

namespace Json

/-- The value of a field, for an object that has it. -/
def field? (key : Text) : Json → Option Json
  | obj fields => fields.lookup key
  | _ => none

/-- The value of a field; a missing one counts as null. -/
def fieldOrNull (key : Text) (v : Json) : Json := (v.field? key).getD null

/-- Whether a value counts as given: null, false, zero and whatever is empty do not. -/
def isTruthy : Json → Bool
  | null => false
  | bool b => b
  | int n => decide (n ≠ 0)
  | float x => !x.isZero
  | str t => !t.isEmpty
  | arr items => !items.isEmpty
  | obj fields => !fields.isEmpty

/-- The value itself if it counts as given. -/
def ifTruthy (v : Json) : Option Json := if v.isTruthy then some v else none

/-- Whether the value is null. -/
def isNull : Json → Bool
  | null => true
  | _ => false

/-! ## Likeness -/

/-- The whole number of a value that is one, truth values included. -/
def wholeNumber? : Json → Option Int
  | bool b => some (if b then 1 else 0)
  | int n => some n
  | _ => none

/-- Whether two numbers have the same value, whatever their kinds. -/
def sameNumber (v w : Json) : Bool :=
  match v.wholeNumber?, w.wholeNumber?, v, w with
  | some m, some n, _, _ => decide (m = n)
  | some m, none, _, float y => y.equalsInt m
  | none, some n, float x, _ => x.equalsInt n
  | none, none, float x, float y => x.sameValue y
  | _, _, _, _ => false

mutual

/-- Equality that ignores the kind of a number and the order of fields. -/
def alike : Json → Json → Bool
  | null, w => w.isNull
  | str s, str t => decide (s = t)
  | arr xs, arr ys => alikeItems xs ys
  | obj fs, obj gs => fs.length == gs.length && alikeFields fs gs
  | v, w => sameNumber v w

/-- Whether two lists of values are alike, item by item. -/
def alikeItems : List Json → List Json → Bool
  | [], [] => true
  | x :: xs, y :: ys => alike x y && alikeItems xs ys
  | _, _ => false

/-- Whether each field of the first list has an alike field in the second. -/
def alikeFields : List (Text × Json) → List (Text × Json) → Bool
  | [], _ => true
  | (key, v) :: rest, gs =>
    (match gs.lookup key with
      | some w => alike v w
      | none => false) && alikeFields rest gs

end

end Json

end Flowchart
