import Flowchart.Binary64
import Flowchart.Numeral

/-!
# Identifiers for new elements

New nodes and edges get identifiers from an `IdSource`. It draws on a stream of random letters and a
stream of clock readings, and counts the identifiers asked for. Each request takes the next count,
two letters and one reading, also if the clock does not read a time and the request fails. So the
source before a request is fixed by the number of requests before it.

A node's identifier is short: two letters, the last four base-36 digits of the time in milliseconds,
and the count. An edge's identifier names its ends and has the time and the count in full.
-/

namespace Flowchart

/-- Why a clock reading is no time. -/
inductive ClockError where
  | infinite
  | notANumber
  deriving DecidableEq, Repr

/-- The wording of a clock error. -/
def ClockError.message : ClockError → Text
  | infinite => "cannot convert float infinity to integer".toList
  | notANumber => "cannot convert float NaN to integer".toList

/-- The whole milliseconds of a clock reading in seconds. -/
def milliseconds (reading : Binary64) : Except ClockError Int :=
  match reading.scaleBy 1000 with
  | .infinite _ => .error .infinite
  | .nan => .error .notANumber
  | x => .ok (x.truncate?.getD 0)

/-- The letter at a place in the alphabet. -/
def capitalLetter (place : Fin 26) : Char := Char.ofNat (65 + place)

/-- A source of identifiers: the letters and the clock readings to come, and the number of requests
so far. -/
structure IdSource where
  letters : Nat → Fin 26
  readings : Nat → Binary64
  count : Nat := 0

namespace IdSource

/-- The two letters of the next request. -/
def letterPair (s : IdSource) : Text :=
  [capitalLetter (s.letters (2 * s.count)), capitalLetter (s.letters (2 * s.count + 1))]

/-- The clock stamp of the next request. -/
def stamp (s : IdSource) : Except ClockError Text :=
  (milliseconds (s.readings s.count)).map Numeral.base36

/-- The count of the next request as text. -/
def countText (s : IdSource) : Text := Numeral.base36 s.count

/-- The source after a request. -/
def next (s : IdSource) : IdSource := { s with count := s.count + 1 }

/-- The last four characters of a text, or all of a shorter one. -/
def lastFour (t : Text) : Text := t.drop (t.length - 4)

/-- The next identifier for a node. -/
def nodeId (s : IdSource) : Except ClockError Text :=
  s.stamp.map fun stamp => s.letterPair ++ lastFour stamp ++ s.countText

/-- The next identifier for an edge between two nodes. -/
def edgeId (s : IdSource) (source target : Text) : Except ClockError Text :=
  s.stamp.map fun stamp =>
    'e' :: source ++ '-' :: target ++ '-' :: stamp ++ s.countText

end IdSource

end Flowchart
