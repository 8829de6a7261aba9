import Flowchart.Json.Display
import Flowchart.Keyed
import Flowchart.Text.Utf8

/-!
# File trees

Files and directories as a value. A location is the list of names that leads from the root to a file
or directory. A path is walked name by name, from the working directory or from the root: each name
but the last must be that of a directory, and `..` leads back. Names and paths have a greatest
length, which is noticed at the first name that is too long, and before the walk for the path as a
whole.

Writing a file may fail after directories on the way to it were made; they stay, so writing gives
the tree afterwards in any case. Putting an entry changes what stands at one location only
(`FileTree.get?_put_of_ne`).
-/

namespace Flowchart

/-! ## Locations and paths -/

/-- The names that lead from the root to a file or directory. -/
abbrev Location := List Text

/-- The name that leads to the enclosing directory. -/
def upName : Text := ['.', '.']

/-- The location one name further. Around the root there is nothing but the root. -/
def Location.step (here : Location) (name : Text) : Location :=
  if name = upName then here.dropLast else here ++ [name]

/-- A path as it is given: the slashes that it starts with, and the names between the other slashes.
Empty names and dots do not count. -/
structure FilePath where
  root : Text := []
  names : List Text
  deriving DecidableEq

namespace FilePath

/-- The slashes at the start of a text, as far as they matter: one, none, or exactly two. -/
def rootOf (t : Text) : Text :=
  match t.takeWhile (· == '/') with
  | [] => []
  | [_, _] => ['/', '/']
  | _ => ['/']

/-- The path that a text gives. -/
def ofText (t : Text) : FilePath where
  root := rootOf t
  names := (t.splitOn '/').filter fun name => !name.isEmpty && name != ['.']

/-- A path as text; a path without names is a dot, unless it is the root. -/
def toText (p : FilePath) : Text :=
  match p.root ++ List.intercalate ['/'] p.names with
  | [] => ['.']
  | t => t

/-- The path without its last name. -/
def parent (p : FilePath) : FilePath := { p with names := p.names.dropLast }

/-- The path, then the path without its last name, and so on until no name is left. -/
def ancestors (p : FilePath) : List FilePath :=
  (List.range (p.names.length + 1)).map fun n =>
    { p with names := p.names.take (p.names.length - n) }

/-- The path of what a name stands for in the directory of a path. -/
def child (p : FilePath) (name : Text) : FilePath := { p with names := p.names ++ [name] }

/-- The path that leads from the root to a location. -/
def ofLocation (location : Location) : FilePath where
  root := ['/']
  names := location

/-! ### Limits -/

/-- The number of bytes of a text. -/
def byteLength (t : Text) : Nat := (Utf8.encode t).length

/-- The greatest length of a name, in bytes. -/
def longestName : Nat := 255

/-- The greatest length of a path, in bytes. -/
def longestPath : Nat := 4095

/-- Whether a path is too long as a whole. -/
def isTooLong (p : FilePath) : Bool := decide (longestPath < byteLength p.toText)

/-- Whether a path has the null character in it, which no name can have. -/
def hasNull (p : FilePath) : Bool := p.names.any fun name => name.contains '\x00'

end FilePath

/-! ## Trees -/

/-- What stands at a location. -/
inductive Entry where
  | directory
  | file (content : Bytes)
  deriving DecidableEq

/-- Files and directories, and the location from which paths are walked. -/
structure FileTree where
  entries : Keyed Location Entry := {}
  workingDirectory : Location := []

/-- Why a file is not read or written. -/
inductive FileError where
  | notFound (path : FilePath)
  | exists (path : FilePath)
  | notADirectory (path : FilePath)
  | isADirectory (path : FilePath)
  | tooLong (path : FilePath)
  | nullCharacter
  | undecodable (error : Utf8.DecodeError)

/-- The wording of an error: the number that the system gives it, if it comes from there, what it
says, and the path. -/
def FileError.message : FileError → Text
  | notFound path => "[Errno 2] No such file or directory: ".toList ++ Json.quoted path.toText
  | «exists» path => "[Errno 17] File exists: ".toList ++ Json.quoted path.toText
  | notADirectory path => "[Errno 20] Not a directory: ".toList ++ Json.quoted path.toText
  | isADirectory path => "[Errno 21] Is a directory: ".toList ++ Json.quoted path.toText
  | tooLong path => "[Errno 36] File name too long: ".toList ++ Json.quoted path.toText
  | nullCharacter => "embedded null byte".toList
  | undecodable error => error.message

namespace FileTree

/-- What stands at a location. The root is a directory. -/
def get? (tree : FileTree) (location : Location) : Option Entry :=
  if location = [] then some .directory else tree.entries.get? location

/-! ## Walking -/

/-- Why a path cannot be walked to its end. -/
inductive WalkError where
  | missing
  | throughFile
  | tooLong
  | nullCharacter
  deriving DecidableEq

/-- The error of an operation on a path that cannot be walked. -/
def WalkError.at (e : WalkError) (p : FilePath) : FileError :=
  match e with
  | .missing => .notFound p
  | .throughFile => .notADirectory p
  | .tooLong => .tooLong p
  | .nullCharacter => .nullCharacter

/-- The location that further names lead to from a location, and what stands there. All that is on
the way must be there. -/
def descend (tree : FileTree) : Location → List Text → Except WalkError (Location × Option Entry)
  | here, [] => .ok (here, tree.get? here)
  | here, name :: rest =>
    match tree.get? here with
    | some .directory =>
      if FilePath.longestName < FilePath.byteLength name then .error .tooLong
      else tree.descend (here.step name) rest
    | some (.file _) => .error .throughFile
    | none => .error .missing

/-- Where a path starts. -/
def start (tree : FileTree) (p : FilePath) : Location :=
  if p.root = [] then tree.workingDirectory else []

/-- The location that a path leads to, and what stands there. -/
def locate (tree : FileTree) (p : FilePath) : Except WalkError (Location × Option Entry) :=
  if p.hasNull then .error .nullCharacter
  else if p.isTooLong then .error .tooLong
  else tree.descend (tree.start p) p.names

/-! ## Reading -/

/-- The content of the file that a path leads to. -/
def read (tree : FileTree) (p : FilePath) : Except FileError Bytes :=
  match tree.locate p with
  | .ok (_, some (.file content)) => .ok content
  | .ok (_, some .directory) => .error (.isADirectory p)
  | .ok (_, none) => .error (.notFound p)
  | .error e => .error (e.at p)

/-! ## Writing -/

/-- The tree with an entry at a location. -/
def put (tree : FileTree) (location : Location) (entry : Entry) : FileTree :=
  { tree with entries := tree.entries.put location entry }

/-- Makes a directory where a path leads. One that is there stays. -/
def makeDirectory (tree : FileTree) (p : FilePath) : Except FileError Unit × FileTree :=
  match tree.locate p with
  | .ok (location, none) => (.ok (), tree.put location .directory)
  | .ok (_, some .directory) => (.ok (), tree)
  | .ok (_, some (.file _)) => (.error (.exists p), tree)
  | .error e => (.error (e.at p), tree)

/-- Makes a directory where a path leads, and the directories on the way to it, but those only if
the path leads nowhere without them. At most `depth` of them are made. -/
def makeDirectories (tree : FileTree) : (depth : Nat) → FilePath → Except FileError Unit × FileTree
  | 0, p => tree.makeDirectory p
  | depth + 1, p =>
    match tree.locate p with
    | .error .missing =>
      match tree.makeDirectories depth p.parent with
      | (.ok (), made) => made.makeDirectory p
      | failed => failed
    | _ => tree.makeDirectory p

/-- Puts a file of the given content where a path leads. -/
def writeFile (tree : FileTree) (p : FilePath) (content : Bytes) :
    Except FileError Unit × FileTree :=
  match tree.locate p with
  | .error e => (.error (e.at p), tree)
  | .ok (_, some .directory) => (.error (.isADirectory p), tree)
  | .ok (location, _) => (.ok (), tree.put location (.file content))

/-- Puts a file of the given content where a path leads, after making the directories on the way
to it. -/
def write (tree : FileTree) (p : FilePath) (content : Bytes) : Except FileError Unit × FileTree :=
  match tree.makeDirectories p.names.length p.parent with
  | (.ok (), made) => made.writeFile p content
  | failed => failed

/-- Putting an entry changes no other location. -/
theorem get?_put_of_ne (tree : FileTree) {location other : Location} (entry : Entry)
    (h : other ≠ location) : (tree.put location entry).get? other = tree.get? other := by
  simp [get?, put, Keyed.get?_put, h]

end FileTree

end Flowchart
