import Flowchart.Text

/-!
# Arrows

The connectors of a diagram. A dotted arrow is a dash, dots and a dash, with or without a tip; a
thick one is made of equals signs and a plain one of dashes, two or more before a tip, three or more
without it.

`Arrow.lengths` lists the arrows that a text starts with by their lengths, the longest first.
-/

namespace Flowchart.Arrow

/-- The lengths of the arrows of one repeated sign at the start of a text: with the tip if there is
one, then without, and ever shorter down to three signs. -/
def runLengths (sign : Char) (t : Text) : List Nat :=
  let run := (t.takeWhile (· == sign)).length
  let tipped := if 2 ≤ run ∧ (t.drop run).head? = some '>' then [run + 1] else []
  tipped ++ (List.range (run - 2)).map fun n => run - n

/-- The lengths of the dotted arrows at the start of a text. -/
def dottedLengths : Text → List Nat
  | '-' :: rest =>
    let dots := (rest.takeWhile (· == '.')).length
    if dots = 0 then []
    else
      match rest.drop dots with
      | '-' :: '>' :: _ => [dots + 3, dots + 2]
      | '-' :: _ => [dots + 2]
      | _ => []
  | _ => []

/-- The lengths of the arrows at the start of a text, the longest first. -/
def lengths (t : Text) : List Nat := dottedLengths t ++ runLengths '=' t ++ runLengths '-' t

/-- Whether an arrow is drawn dotted. -/
def isAnimated (arrow : Text) : Bool := arrow.contains '.'

/-- Whether an arrow is drawn thick. -/
def isEmphasized (arrow : Text) : Bool := arrow.contains '='

end Flowchart.Arrow
