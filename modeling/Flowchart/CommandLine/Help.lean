import Flowchart.CommandLine.Command

/-!
# Help texts

The usage line and the help text of a page, laid out for a terminal of eighty columns. The usage
stands on one line if it fits. Otherwise the switches fill lines, indented to the first of them, and
what the page reads has a line of its own. In the tables of the help text the descriptions stand in
one column; an entry too long for the column before it has its description on the next line.
-/

namespace Flowchart.CommandLine

/-- The most characters of a line. -/
def lineWidth : Nat := 78

/-- The column of the descriptions, unless all entries are shorter. -/
def descriptionColumn : Nat := 24

/-- Words with a blank between them. -/
def spaced (words : List Text) : Text := List.intercalate [' '] words

/-- The choice between all commands. -/
def commandChoice : Text :=
  '\x7b' :: List.intercalate [','] (Command.all.map Command.name) ++ ['\x7d']

/-- The name of the input in help texts. -/
def inputName : Text := "file".toList

/-! ## Usage -/

/-- A switch in a usage line. -/
def Switch.mention (s : Switch) : Text :=
  let name := s.names.headD []
  '[' :: (if s.takesValue then spaced [name, valueName] else name) ++ [']']

/-- What a usage line says after the switches. -/
def Page.operands : Page → List Text
  | program => [commandChoice, "...".toList]
  | command c => if c.takesInput then [inputName] else []

/-- Lines filled with words, of which the first line has begun. -/
def filled (indent line : Text) : List Text → List Text
  | [] => [line]
  | word :: rest =>
    let longer := spaced [line, word]
    if longer.length ≤ lineWidth then filled indent longer rest
    else line :: filled indent (indent ++ word) rest

/-- The usage of a page. -/
def Page.usage (p : Page) : Text :=
  let start := "usage: ".toList ++ p.title
  let mentions := p.switches.map Switch.mention
  let line := spaced (start :: mentions ++ p.operands)
  if line.length ≤ lineWidth then line
  else
    let indent := List.replicate (start.length + 1) ' '
    Text.unlines (filled indent start mentions ++ p.operands.map fun word => indent ++ word)

/-! ## Tables -/

/-- A line of a table, indented, and what it says about the entry. -/
structure TableEntry where
  indent : Nat := 2
  entry : Text
  description : Text := []

/-- A switch as the entry of a table. -/
def Switch.entry (s : Switch) : Text :=
  let shown := s.names.map fun name => if s.takesValue then spaced [name, valueName] else name
  List.intercalate [',', ' '] shown

/-- The lines of an entry, whose description stands in the given column. -/
def TableEntry.lines (column : Nat) (e : TableEntry) : List Text :=
  let start := List.replicate e.indent ' ' ++ e.entry
  if e.description.isEmpty then [start]
  else if start.length + 2 ≤ column then
    [start ++ List.replicate (column - start.length) ' ' ++ e.description]
  else [start, List.replicate column ' ' ++ e.description]

/-- The entries that say what follows the switches. -/
def Page.operandEntries : Page → List TableEntry
  | program => { entry := commandChoice } ::
      Command.all.map fun c => ⟨4, c.name, c.description⟩
  | command c =>
    match c.inputDescription? with
    | some description => [⟨2, inputName, description⟩]
    | none => []

/-- The entries of the switches. -/
def Page.switchEntries (p : Page) : List TableEntry :=
  p.switches.map fun s => ⟨2, s.entry, s.description⟩

/-- The column in which the descriptions of a page stand. -/
def Page.column (p : Page) : Nat :=
  let widths := (p.operandEntries ++ p.switchEntries).map fun e => e.indent + e.entry.length + 2
  min descriptionColumn (widths.foldl max 0)

/-- A table under its heading; one without entries is left out. -/
def table (column : Nat) (heading : String) (entries : List TableEntry) : List Text :=
  if entries.isEmpty then []
  else [Text.unlines (heading.toList :: entries.flatMap (TableEntry.lines column))]

/-! ## Help -/

/-- What the program is for. -/
def programDescription : Text := "Convert between flowchart text and editor graph JSON".toList

/-- The help text of a page: its parts have an empty line between them. -/
def Page.help (p : Page) : Text :=
  let about :=
    match p with
    | program => [programDescription]
    | command _ => []
  let parts := p.usage :: about ++ table p.column "positional arguments:" p.operandEntries ++
    table p.column "options:" p.switchEntries
  List.intercalate ['\n', '\n'] parts

end Flowchart.CommandLine
