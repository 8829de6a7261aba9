import Flowchart.Builder
import Flowchart.CommandLine.Task
import Flowchart.Diagram.Reading
import Flowchart.Diagram.Writing
import Flowchart.Record
import Flowchart.Settings.EnvironmentFile
import Flowchart.Text.LineEnd

/-!
# Runs

A run of the program, as a function of the files, the environment, the standard input and the
command line. What the program stands on is a parameter of the run (`Host`): the loader of
environment files, and what the option parser does with an attached separator. A task has a text as
its result, which does not depend on where it goes (`Task.result`). The text and a line feed are
written to the output file or printed; a run that fails prints nothing to the standard output, and
leaves all files as they were unless writing itself fails.
-/

namespace Flowchart.CommandLine

/-! ## Outcomes -/

/-- How a run ends: with an exit code, or by a file that cannot be read or written. -/
inductive Ending where
  | exit (code : Nat)
  | fileError (error : FileError)

/-- What a run prints, and how it ends. -/
structure Outcome where
  output : Text := []
  messages : Text := []
  ending : Ending := .exit 0

/-- Why a task has no result. -/
inductive Failure where
  | noInput (path : FilePath)
  | noGraph (text : Text) (error : GraphTextError)
  | fileError (error : FileError)

/-- A line of text. -/
def line (t : Text) : Text := t ++ ['\n']

/-- The outcome of a task without a result. -/
def Failure.outcome : Failure → Outcome
  | noInput path =>
    { messages := line ("Error: file not found: ".toList ++ path.toText), ending := .exit 1 }
  | noGraph text error =>
    { messages := line ("Error: invalid graph JSON: ".toList ++ error.message text)
      ending := .exit 1 }
  | fileError error => { ending := .fileError error }

/-- The outcome of a command line that gives no task. -/
def Stop.outcome : Stop → Outcome
  | help p => { output := line p.help }
  | mistake p m =>
    { messages := line p.usage ++ line (p.title ++ ": error: ".toList ++ m.message)
      ending := .exit 2 }

/-! ## Inputs -/

/-- The text that bytes encode, with line feeds at the line ends. -/
def inputText (bytes : Bytes) : Except Failure Text :=
  match Utf8.decode bytes with
  | .ok t => .ok (Text.unifyLineEnds t)
  | .error e => .error (.fileError (.undecodable e))

/-- Why there is no input at a path, if it cannot be read. -/
def noInput (path : FilePath) : FileError → Failure
  | .notFound _ | .notADirectory _ | .nullCharacter => .noInput path
  | e => .fileError e

/-- The text of a source. -/
def Source.text (tree : FileTree) (standardInput : Bytes) : Source → Except Failure Text
  | .standardInput => inputText standardInput
  | .file path => do inputText (← (tree.read path).mapError (noInput path))

/-- The graph that a text of JSON describes. -/
def graphOfJson (t : Text) : Except Failure Graph := (Graph.ofText t).mapError (.noGraph t)

/-- The graph of a text of either kind. A text that starts with a brace is one of JSON, if it can be
read as JSON, and a diagram otherwise. -/
def graphOfEither (t : Text) : Except Failure Graph :=
  let trimmed := t.trimStart
  if trimmed.head? = some '\x7b' then
    match Graph.ofText trimmed with
    | .error (.unreadable (.malformed _ _)) => .ok (Graph.ofDiagram t)
    | .error e => .error (.noGraph trimmed e)
    | .ok g => .ok g
  else .ok (Graph.ofDiagram t)

/-! ## Results -/

/-- A summary in one sentence. -/
def sentence (s : Summary) : Text :=
  Numeral.decimal s.nodeCount ++ " nodes, ".toList ++ Numeral.decimal s.edgeCount ++
    " edges (".toList ++ Numeral.decimal s.orphanCount ++ " orphan nodes), direction ".toList ++
    s.direction.name

namespace Task

/-- The file to which the result of a task goes. -/
def output? : Task → Option FilePath
  | parse _ output | generate _ output _ _ | format _ output | new output _ => output
  | summarize _ => none

/-- The text that a task makes of a tree of files and the standard input. -/
def result (settings : Settings) (tree : FileTree) (standardInput : Bytes) :
    Task → Except Failure Text
  | parse input _ => do
    return (Graph.ofDiagram (← input.text tree standardInput)).fileText
  | generate input _ fenced plainArrows => do
    let g ← graphOfJson (← input.text tree standardInput)
    return g.diagram (settings.keepStyles && !plainArrows) (fenced || settings.fenced)
  | format input _ => do
    return (Graph.ofDiagram (← input.text tree standardInput)).diagram settings.keepStyles false
  | new _ true => .ok Graph.seed.fileText
  | new _ false => .ok (Graph.seed.diagram true settings.fenced)
  | summarize input => do
    return sentence (← graphOfEither (← input.text tree standardInput)).summary

end Task

/-! ## Runs -/

/-- Writes a result to a file, or prints it. -/
def deliver (tree : FileTree) (output : Option FilePath) (result : Text) : Outcome × FileTree :=
  match output with
  | none => ({ output := line result }, tree)
  | some path =>
    match tree.write path (Utf8.encode (line result)) with
    | (.ok (), after) => ({ messages := line ("Written to ".toList ++ path.toText) }, after)
    | (.error e, after) => ({ ending := .fileError e }, after)

/-- Does a task. -/
def Task.run (settings : Settings) (tree : FileTree) (standardInput : Bytes) (task : Task) :
    Outcome × FileTree :=
  match task.result settings tree standardInput with
  | .error failure => (failure.outcome, tree)
  | .ok result => deliver tree task.output? result

/-- What the program stands on: the loader of environment files, and whether the option parser keeps
a separator that is attached to a switch. -/
structure Host where
  loader : EnvironmentFile.Loader
  keepsSeparator : Bool

/-- A run of the program, and the files after it. -/
def run (host : Host) (tree : FileTree) (env : Environment) (standardInput : Bytes)
    (texts : List Text) : Outcome × FileTree :=
  match EnvironmentFile.load host.loader tree (.ofLocation tree.workingDirectory) env with
  | .error e => ({ ending := .fileError e }, tree)
  | .ok (_, env) =>
    match Task.ofWords host.keepsSeparator texts with
    | .error stop => (stop.outcome, tree)
    | .ok task => task.run (Settings.ofEnvironment env) tree standardInput

end Flowchart.CommandLine
