import Flowchart.FileTree
import Flowchart.Settings

/-!
# Environment files

A file named `.env` adds variables to the environment. It is looked for where a path leads, then
where the path leads without its last name, and so on; the nearest one counts
(`EnvironmentFile.nearest?`). What such a file says is read by a loader (`EnvironmentFile.Loader`),
which is a parameter: it runs once, on the nearest file, and not at all if there is none.
-/

namespace Flowchart

namespace EnvironmentFile

/-- The name of an environment file. -/
def fileName : Text := ".env".toList

/-- A reader of environment files: from the files, the path of one and an environment it makes the
environment with the variables of that file. -/
abbrev Loader := FileTree → FilePath → Environment → Except FileError Environment

/-! ## Looking for a file -/

/-- The paths at which an environment file is looked for, from the path of a directory on. -/
def candidates (directory : FilePath) : List FilePath :=
  directory.ancestors.map fun p => p.child fileName

/-- Whether something stands at the end of a path. -/
def isThere (tree : FileTree) (p : FilePath) : Bool :=
  match tree.locate p with
  | .ok (_, entry?) => entry?.isSome
  | .error _ => false

/-- The path of the nearest environment file from a directory on. -/
def nearest? (tree : FileTree) (directory : FilePath) : Option FilePath :=
  (candidates directory).find? (isThere tree)

/-! ## Loading -/

/-- The environment with the variables of the nearest environment file, and the path of that file.
Without one the environment stays as it is. -/
def load (loader : Loader) (tree : FileTree) (directory : FilePath) (env : Environment) :
    Except FileError (Option FilePath × Environment) :=
  match nearest? tree directory with
  | none => .ok (none, env)
  | some path => do return (some path, ← loader tree path env)

end EnvironmentFile

end Flowchart
