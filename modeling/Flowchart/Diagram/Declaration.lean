import Flowchart.Graph

/-!
# Written declarations

How a node is declared in a diagram: its identifier, then the label between the delimiters of its
shape, as in `B{Decision}`. A label may hold any characters but line feeds. A text of no such form
is an identifier on its own or, failing that, raw text that names a node by itself.

Circles are tried first, since `((x))` is also a rounded node with the label `(x)`.
-/

namespace Flowchart

/-- The delimiters that a shape is written with; a foreign shape is written as a rectangle. -/
def Named.delimiters (s : Named Shape) : Text × Text :=
  let shape := s.wordOr .rectangle
  (shape.opening, shape.closing)

namespace Declaration

/-! ## Writing -/

/-- The full declaration of a node. -/
def written (d : Declaration) : Text :=
  d.id ++ d.shape.delimiters.1 ++ d.label ++ d.shape.delimiters.2

/-! ## Reading -/

/-- What stands between two delimiters that begin and end a text, if it could be a label: not
empty, and within one line. -/
def enclosed? (opening closing t : Text) : Option Text :=
  if opening.isPrefixOf t then
    let inner := t.drop opening.length
    let width := inner.length - closing.length
    let label := inner.take width
    if inner.drop width == closing && !label.isEmpty && !label.contains '\n' then some label
    else none
  else none

/-- The declaration that a text makes in the given shape. -/
def inShape? (shape : Shape) (t : Text) : Option Declaration :=
  let (id, rest) := t.spanIdentifier
  if id.isEmpty then none
  else
    (enclosed? shape.opening shape.closing (Text.dropFinalLineFeed rest)).map fun label =>
      ⟨id, label, .known shape⟩

/-- The identifier that a text consists of, a final line feed apart. -/
def bareIdentifier? (t : Text) : Option Text :=
  let (id, rest) := t.spanIdentifier
  if !id.isEmpty && (rest.isEmpty || rest == ['\n']) then some id else none

/-- The shapes in the order in which reading tries them. -/
def shapesToTry : List Shape := [.circle, .diamond, .rounded, .rectangle]

/-- What a text declares. -/
def ofText (t : Text) : Declaration :=
  match shapesToTry.findSome? fun shape => inShape? shape t with
  | some d => d
  | none =>
    match bareIdentifier? t with
    | some id => ⟨id, id, .known .rectangle⟩
    | none => ⟨t, t, .known .rectangle⟩

end Declaration

end Flowchart
