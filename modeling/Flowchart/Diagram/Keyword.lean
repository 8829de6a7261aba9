import Flowchart.Direction
import Flowchart.Text.Word

/-!
# Keywords

Lines of a diagram that are no statement about a node or an edge: the header, which may name the
direction, and the bounds of a subgraph. Letters of either case make a keyword, and so does the
long s; a keyword ends at a blank or at the end of the line.
-/

namespace Flowchart.Keyword

/-- A letter as it counts in a keyword. -/
def fold (c : Char) : Char := if c = 'ſ' then 's' else c.toLower

/-- What follows a keyword at the start of a line. -/
def after? (keyword line : Text) : Option Text :=
  if (line.take keyword.length).map fold = keyword then some (line.drop keyword.length) else none

/-- Whether a keyword may end before `rest`. -/
def endsHere : Text → Bool
  | [] => true
  | c :: _ => isBlank c

/-- Whether a line starts with a keyword. -/
def starts (keyword line : Text) : Bool := (after? keyword line).any endsHere

/-- The keywords of a header. -/
def headers : List Text := ["graph".toList, "flowchart".toList]

/-- Whether a line is a header. -/
def isHeader (line : Text) : Bool := headers.any fun keyword => starts keyword line

/-- Whether a line opens a subgraph. -/
def isSubgraph (line : Text) : Bool := starts "subgraph".toList line

/-- The direction that follows the keyword of a header: two letters of either case that make a
whole word. -/
def directionAfter? (rest : Text) : Option Direction :=
  let named := rest.trimStart
  if rest.head?.any isBlank && endsWord (named.drop 2) then
    Vocabulary.ofName? ((named.take 2).map Char.toUpper)
  else none

/-- The direction that a line names as a header, or top-down. -/
def direction (line : Text) : Direction :=
  ((headers.findSome? fun keyword => after? keyword line).bind directionAfter?).getD .td

/-- Whether an identifier at the start of a line would make it a header or a subgraph. -/
def readsAsStatement (id : Text) : Bool := isHeader (id ++ [' ']) || isSubgraph (id ++ [' '])

end Flowchart.Keyword
