import Flowchart.CommandLine.Run

/-!
# The program

The command line program. It looks at those files that a run can depend on, makes the run as a
function of them, and then carries out what the run changed and printed. It reads environment files
of the plainest kind only: a line `NAME=value` sets a variable, all other lines set none.
-/

namespace Flowchart.CommandLine

/-! ## What the program stands on -/

/-- The variable that a line sets, if it is one of `NAME=value`. -/
def plainAssignment? (line : Text) : Option (Text × Text) :=
  let name := line.takeWhile (· != '=')
  match line.drop name.length with
  | _ :: value =>
    if name ≠ [] && name.all Text.isIdentifierPart then some (name, value) else none
  | [] => none

/-- Loads the plain lines of an environment file. A variable that is set already stays as it is, and
of two lines for one variable the later counts. What is no file sets nothing. -/
def plainLoader : EnvironmentFile.Loader := fun tree path env =>
  match tree.read path with
  | .error _ => .ok env
  | .ok content => do
    let text ← (Utf8.decode content).mapError .undecodable
    let assigned := (Text.unifyLineEnds text).lines.filterMap plainAssignment?
    return env.putAll (assigned.filter fun v => !env.contains v.1)

/-- The host of the program. -/
def plainHost : Host where
  loader := plainLoader
  keepsSeparator := true

/-! ## The file system -/

/-- A location as an absolute path. -/
def absolutePath (location : Location) : String :=
  String.ofList ('/' :: List.intercalate ['/'] location)

/-- What stands at a location of the file system. What is there but cannot be read as a file counts
as a directory. -/
def lookUp (location : Location) : IO (Option Entry) := do
  try
    let content ← IO.FS.readBinFile (absolutePath location)
    return some (.file content.toList)
  catch
    | .noFileOrDirectory .. => return none
    | _ => return some .directory

/-- Adds to a tree what stands at a location of the file system. -/
def survey (tree : FileTree) (location : Location) : IO FileTree := do
  match ← lookUp location with
  | some entry => return tree.put location entry
  | none => return tree

/-- The locations that a path leads through from a start. -/
def stations : Location → List Text → List Location
  | here, [] => [here]
  | here, name :: rest => here :: stations (here.step name) rest

/-- The paths that a task reads or writes. -/
def Task.paths (task : Task) : List FilePath :=
  let input :=
    match task with
    | parse (.file path) _ | generate (.file path) .. | format (.file path) _
    | summarize (.file path) => [path]
    | _ => []
  input ++ task.output?.toList

/-- Whether a task reads the standard input. -/
def Task.readsStandardInput : Task → Bool
  | parse .standardInput _ | generate .standardInput .. | format .standardInput _
  | summarize .standardInput => true
  | _ => false

/-- The files and directories that a run can depend on. -/
def surroundings (workingDirectory : Location) (task : Option Task) : IO FileTree := do
  let start : FileTree := { workingDirectory }
  let paths := EnvironmentFile.candidates (.ofLocation workingDirectory) ++
    (task.map Task.paths).getD []
  let walked := paths.flatMap fun p => stations (start.start p) p.names
  walked.foldlM survey start

/-- Carries out what changed from one tree to another. -/
def store (before after : FileTree) : IO Unit :=
  for (location, entry) in after.entries.entries do
    if before.get? location ≠ some entry then
      match entry with
      | .directory => IO.FS.createDir (absolutePath location)
      | .file content => IO.FS.writeBinFile (absolutePath location) ⟨content.toArray⟩

/-- The rest of a stream. -/
partial def readAll (stream : IO.FS.Stream) (acc : ByteArray := .empty) : IO ByteArray := do
  let chunk ← stream.read 65536
  if chunk.isEmpty then return acc else readAll stream (acc ++ chunk)

/-- The variables of the environment that matter. -/
def environment : IO Environment :=
  Settings.variableNames.foldlM (fun env name => do
    match ← IO.getEnv (String.ofList name) with
    | some value => return env.put name value.toList
    | none => return env) Keyed.empty

/-! ## The program -/

/-- Runs the program with the given words, and gives its exit code. -/
def execute (words : List Text) : IO UInt32 := do
  let task := (Task.ofWords plainHost.keepsSeparator words).toOption
  let here := (FilePath.ofText (← IO.currentDir).toString.toList).names
  let before ← surroundings here task
  let standardInput ←
    if (task.map Task.readsStandardInput).getD false then readAll (← IO.getStdin) else pure .empty
  let (outcome, after) := run plainHost before (← environment) standardInput.toList words
  store before after
  (← IO.getStdout).putStr (String.ofList outcome.output)
  (← IO.getStderr).putStr (String.ofList outcome.messages)
  match outcome.ending with
  | .exit code => return code.toUInt32
  | .fileError e =>
    (← IO.getStderr).putStr (String.ofList (line e.message))
    return 1

end Flowchart.CommandLine

/-- The command line program. -/
def main (words : List String) : IO UInt32 :=
  Flowchart.CommandLine.execute (words.map String.toList)
