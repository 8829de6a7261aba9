import Flowchart.Named

/-!
# Directions

The direction in which a diagram is laid out. A diagram that names none runs from top to bottom.
-/

namespace Flowchart

/-- A layout direction: top-down, top to bottom, bottom to top, left to right, right to left. -/
inductive Direction where
  | td
  | tb
  | bt
  | lr
  | rl
  deriving DecidableEq, Repr

namespace Direction

/-- The two letters that stand for a direction. -/
def name : Direction → Text
  | td => ['T', 'D']
  | tb => ['T', 'B']
  | bt => ['B', 'T']
  | lr => ['L', 'R']
  | rl => ['R', 'L']

instance : Vocabulary Direction where
  words := [td, tb, bt, lr, rl]
  name := name
  mem_words a := by cases a <;> decide
  name_injective a b := by cases a <;> cases b <;> decide

end Direction

end Flowchart
