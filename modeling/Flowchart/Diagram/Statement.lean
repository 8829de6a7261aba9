import Flowchart.Diagram.Connection
import Flowchart.Diagram.Declaration
import Flowchart.Diagram.Keyword

/-!
# Statements

The statements that a diagram consists of, one a line. Comments, fences, blank lines and semicolons
at the end of a line are no part of any statement; headers, bounds of subgraphs and styling lines
say nothing about the graph. Everything else connects two nodes or declares one.
-/

namespace Flowchart

/-! ## Lines -/

/-- What is left of a line without the blanks around it and the semicolons at its end, or `none` for
a line that says nothing: a blank one, a comment, a fence. -/
def keptLine? (line : Text) : Option Text :=
  let trimmed := line.trim
  if trimmed.isEmpty || "%%".toList.isPrefixOf trimmed || "```".toList.isPrefixOf trimmed then none
  else
    let kept := (Text.dropEndWhile (· == ';') trimmed).trimEnd
    if kept.isEmpty then none else some kept

/-- The lines of a diagram that say something. -/
def keptLines (t : Text) : List Text := t.lines.filterMap keptLine?

/-! ## Statements -/

/-- What a line says about the graph. -/
inductive Statement where
  | connect (source target : Declaration) (label : Option Text) (animated emphasized : Bool)
  | declare (node : Declaration)
  deriving DecidableEq

namespace Statement

/-- The words that a line of styling starts with. -/
def stylingWords : List Text := ["style".toList, "class".toList]

/-- Whether a line that connects nothing is about styling. -/
def isStyling (line : Text) : Bool := stylingWords.any fun word => word.isPrefixOf line

/-- Whether a line stands outside the graph: a header or a bound of a subgraph. -/
def isFraming (line : Text) : Bool :=
  Keyword.isHeader line || Keyword.isSubgraph line || line == "end".toList

/-- The statement that a connection makes. The blanks around its parts do not count, and an empty
label is none. -/
def ofConnection (k : Connection) : Statement :=
  let label := (k.label.getD []).trim
  connect (Declaration.ofText k.source.trim) (Declaration.ofText k.target.trim)
    (if label.isEmpty then none else some label) (Arrow.isAnimated k.arrow)
    (Arrow.isEmphasized k.arrow)

/-- The statement of a line, if it makes one. -/
def ofLine? (line : Text) : Option Statement :=
  if isFraming line then none
  else
    match Connection.ofLine? line with
    | some k => some (ofConnection k)
    | none => if isStyling line then none else some (declare (Declaration.ofText line))

/-- The declarations that a statement makes, in the order in which they stand. -/
def declarations : Statement → List Declaration
  | connect source target _ _ _ => [source, target]
  | declare node => [node]

end Statement

/-- The statements of a diagram. -/
def statements (t : Text) : List Statement := (keptLines t).filterMap Statement.ofLine?

/-- The direction of a diagram, which its first line may name. -/
def directionOf (t : Text) : Direction := ((keptLines t).head?.map Keyword.direction).getD .td

end Flowchart
