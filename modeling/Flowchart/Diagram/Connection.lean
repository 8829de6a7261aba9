import Flowchart.Diagram.Arrow

/-!
# Connections

A line that connects two nodes: a source, an arrow, possibly a label between bars, and a target, as
in `A -->|yes| B`. The source is as short as it can be, and blanks around the arrow belong to no
part. Each part is chosen in turn, and an earlier choice is given up only if the line cannot be read
to its end with it.
-/

namespace Flowchart

/-- The parts of a line that connects two nodes, as they are written. -/
structure Connection where
  source : Text
  arrow : Text
  label : Option Text
  target : Text
  deriving DecidableEq

namespace Connection

/-- Reading on after blanks: as many as possible are passed over, one fewer each time that the
reading fails. -/
def afterBlanks {α : Type} (read : Text → Option α) : Text → Option α
  | [] => read []
  | c :: rest =>
    if isBlank c then (afterBlanks read rest).or (read (c :: rest)) else read (c :: rest)

/-- The target, which ends the line; it is not empty, and a final line feed does not count. -/
def target? (t : Text) : Option Text :=
  let target := t.takeWhile (· != '\n')
  let rest := t.dropWhile (· != '\n')
  if !target.isEmpty && (rest.isEmpty || rest == ['\n']) then some target else none

/-- A label between bars, and the target after it. -/
def labelled? : Text → Option (Option Text × Text)
  | '|' :: rest =>
    match rest.dropWhile (· != '|') with
    | _ :: after => (afterBlanks target? after).map fun t => (some (rest.takeWhile (· != '|')), t)
    | [] => none
  | _ => none

/-- What follows an arrow: a label and a target, or a target alone. -/
def labelAndTarget? : Text → Option (Option Text × Text) :=
  afterBlanks fun t => (labelled? t).or ((afterBlanks target? t).map fun target => (none, target))

/-- What follows the source: the arrow, the label and the target. -/
def afterSource? (t : Text) : Option (Text × Option Text × Text) :=
  let start := t.trimStart
  (Arrow.lengths start).findSome? fun n =>
    (labelAndTarget? (start.drop n)).map fun parts => (start.take n, parts)

/-- The connection that a line makes. -/
def ofLine? : Text → Option Connection
  | [] => none
  | c :: rest =>
    if c = '\n' then none
    else
      match afterSource? rest with
      | some (arrow, label, target) => some ⟨[c], arrow, label, target⟩
      | none => (ofLine? rest).map fun k => { k with source := c :: k.source }

end Connection

end Flowchart
