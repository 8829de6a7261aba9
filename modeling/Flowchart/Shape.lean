import Flowchart.Named

/-!
# Shapes

The four shapes of a node, each written with its own pair of delimiters around the label. A name
that is no shape is drawn, and written, as a rectangle.
-/

namespace Flowchart

/-- The shape in which a node is drawn. -/
inductive Shape where
  | rectangle
  | rounded
  | diamond
  | circle
  deriving DecidableEq, Repr

namespace Shape

/-- The name by which graph records call a shape. -/
def name : Shape → Text
  | rectangle => "rectangle".toList
  | rounded => "rounded".toList
  | diamond => "diamond".toList
  | circle => "circle".toList

/-- The delimiter before a label. -/
def opening : Shape → Text
  | rectangle => ['[']
  | rounded => ['(']
  | diamond => ['\x7b']
  | circle => ['(', '(']

/-- The delimiter after a label. -/
def closing : Shape → Text
  | rectangle => [']']
  | rounded => [')']
  | diamond => ['\x7d']
  | circle => [')', ')']

instance : Vocabulary Shape where
  words := [rectangle, rounded, diamond, circle]
  name := name
  mem_words a := by cases a <;> decide
  name_injective a b := by cases a <;> cases b <;> decide

end Shape

end Flowchart
