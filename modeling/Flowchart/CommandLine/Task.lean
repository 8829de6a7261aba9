import Flowchart.CommandLine.Help
import Flowchart.CommandLine.Word
import Flowchart.FileTree
import Flowchart.Json.Display

/-!
# Tasks

What a command line asks for. Reading one gives a task, unless it asks for help or makes no sense;
both end the run (`Stop`). Of several mistakes the first one counts, in this order: a name that may
stand for several switches, then switches that miss a value or do not take one, from left to right,
then a missing input, then words that nothing was done with. Releases of the option parser differ on
a separator that is attached to a switch as its value: they keep it, or drop it and leave no value.
Which of these happens is a parameter (`keepsSeparator`).
-/

namespace Flowchart.CommandLine

/-! ## Tasks -/

/-- Where an input comes from. -/
inductive Source where
  | standardInput
  | file (path : FilePath)
  deriving DecidableEq

/-- The source that a word names. -/
def Source.ofText (t : Text) : Source :=
  if t = ['-'] then .standardInput else .file (FilePath.ofText t)

/-- What a command line asks for. A result goes to the output file, if there is one, and to the
standard output otherwise. -/
inductive Task where
  | parse (input : Source) (output : Option FilePath)
  | generate (input : Source) (output : Option FilePath) (fenced plainArrows : Bool)
  | format (input : Source) (output : Option FilePath)
  | new (output : Option FilePath) (json : Bool)
  | summarize (input : Source)

/-! ## Reasons to stop -/

/-- What is wrong with a command line. -/
inductive Mistake where
  | ambiguous (word : Text) (names : List Text)
  | valueMissing (s : Switch)
  | valueNotTaken (s : Switch) (value : Text)
  | inputMissing
  | unknownCommand (name : Text)
  | leftOver (words : List Text)

/-- The wording of a mistake. -/
def Mistake.message : Mistake → Text
  | ambiguous word names =>
    "ambiguous option: ".toList ++ word ++ " could match ".toList ++
      List.intercalate [',', ' '] names
  | valueMissing s => "argument ".toList ++ s.title ++ ": expected one argument".toList
  | valueNotTaken s value =>
    "argument ".toList ++ s.title ++ ": ignored explicit argument ".toList ++ Json.quoted value
  | inputMissing => "the following arguments are required: ".toList ++ inputName
  | unknownCommand name =>
    "argument command: invalid choice: ".toList ++ Json.quoted name ++ " (choose from ".toList ++
      List.intercalate [',', ' '] (Command.all.map fun c => Json.quoted c.name) ++ [')']
  | leftOver words => "unrecognized arguments: ".toList ++ spaced words

/-- Why a command line gives no task. -/
inductive Stop where
  | help (p : Page)
  | mistake (p : Page) (m : Mistake)

/-! ## Reading a command -/

/-- What the words after a command give. -/
structure Given where
  input : Option Text := none
  output : Option Text := none
  fenced : Bool := false
  plainArrows : Bool := false
  json : Bool := false
  leftOver : List Text := []

namespace Given

/-- The operand `t` becomes the input, if one is still missing, and is left over otherwise. -/
def withOperand (g : Given) (c : Command) (t : Text) : Given :=
  if c.takesInput && g.input.isNone then { g with input := some t }
  else { g with leftOver := g.leftOver ++ [t] }

/-- A switch without a value is set. -/
def withFlag (g : Given) : Switch → Given
  | .fenced => { g with fenced := true }
  | .plainArrows => { g with plainArrows := true }
  | .json => { g with json := true }
  | .help | .output => g

/-- A word is left over. -/
def withLeftOver (g : Given) (t : Text) : Given := { g with leftOver := g.leftOver ++ [t] }

end Given

/-- What the letters after `-h` come to. Each must be a switch of its own; one with a value takes
the letters behind it, or else the next word, if `valueFollows` says that this can be one. -/
def helpLetters (p : Page) (valueFollows : Bool) : (letters : Text) → Stop
  | [] => .mistake p (.valueNotTaken .help [])
  | c :: rest =>
    match p.switch? ['-', c], rest with
    | none, _ => .mistake p (.valueNotTaken .help (c :: rest))
    | some .output, [] => if valueFollows then .help p else .mistake p (.valueMissing .output)
    | some .output, _ => .help p
    | some _, [] => .help p
    | some _, rest => helpLetters p valueFollows rest

/-- What the switch for help comes to. -/
def helpStop (p : Page) (valueFollows isLetter : Bool) : (attached : Option Text) → Stop
  | none => .help p
  | some value =>
    if isLetter then helpLetters p valueFollows value
    else .mistake p (.valueNotTaken .help value)

/-- Whether a word is an operand. -/
def Word.isOperand : Word → Bool
  | operand _ => true
  | _ => false

/-- Takes in the words after a command. The separator is left over unless it stands right before or
behind the input. -/
def readWords (c : Command) (g : Given) : List Word → Except Stop Given
  | [] => .ok g
  | .operand t :: .separator :: rest =>
    if c.takesInput && g.input.isNone then readWords c (g.withOperand c t) rest
    else readWords c ((g.withLeftOver t).withLeftOver separatorText) rest
  | .operand t :: rest => readWords c (g.withOperand c t) rest
  | .separator :: .operand t :: rest =>
    if c.takesInput && g.input.isNone then readWords c (g.withOperand c t) rest
    else readWords c ((g.withLeftOver separatorText).withLeftOver t) rest
  | .separator :: rest => readWords c (g.withLeftOver separatorText) rest
  | .ambiguous t _ :: rest | .unknown t :: rest => readWords c (g.withLeftOver t) rest
  | .switch .help isLetter attached :: rest =>
    .error (helpStop (.command c) (rest.head?.any Word.isOperand) isLetter attached)
  | .switch .output _ (some value) :: rest => readWords c { g with output := some value } rest
  | .switch .output _ none :: .operand t :: rest => readWords c { g with output := some t } rest
  | .switch .output _ none :: _ => .error (.mistake (.command c) (.valueMissing .output))
  | .switch s _ (some value) :: _ => .error (.mistake (.command c) (.valueNotTaken s value))
  | .switch s _ none :: rest => readWords c (g.withFlag s) rest

/-- The output file that was given. An empty text names none, nor does a separator that was
dropped. -/
def Given.outputFile? (keepsSeparator : Bool) (g : Given) : Option FilePath :=
  (g.output.filter fun t => !t.isEmpty && (keepsSeparator || t != separatorText)).map
    FilePath.ofText

/-- The task of a command, from what was given to it. -/
def Given.task (keepsSeparator : Bool) (g : Given) (c : Command) : Task :=
  let input := Source.ofText (g.input.getD [])
  let output := g.outputFile? keepsSeparator
  match c with
  | .parse => .parse input output
  | .generate => .generate input output g.fenced g.plainArrows
  | .format => .format input output
  | .new => .new output g.json
  | .summarize => .summarize input

/-- The mistake of a word that may stand for several switches. -/
def Word.mistake? : Word → Option Mistake
  | ambiguous t names => some (.ambiguous t names)
  | _ => none

/-- Reads the words after a command; `leftOver` are those before it that nothing was done with. -/
def readCommand (keepsSeparator : Bool) (leftOver : List Text) (c : Command) (texts : List Text) :
    Except Stop Task :=
  let words := Word.ofTexts (.command c) texts
  match words.findSome? Word.mistake? with
  | some m => .error (.mistake (.command c) m)
  | none => do
    let g ← readWords c {} words
    if c.takesInput && g.input.isNone then .error (.mistake (.command c) .inputMissing)
    else if (leftOver ++ g.leftOver).isEmpty then .ok (g.task keepsSeparator c)
    else .error (.mistake .program (.leftOver (leftOver ++ g.leftOver)))

/-! ## Reading a command line -/

/-- Reads the words from the command on, or from switches of the program before it. -/
def readFrom (keepsSeparator : Bool) (leftOver : List Text) : List Text → Except Stop Task
  | [] =>
    .error (if leftOver.isEmpty then .help .program else .mistake .program (.leftOver leftOver))
  | t :: rest =>
    match Word.ofText .program t with
    | .operand name =>
      match Vocabulary.ofName? name with
      | some c => readCommand keepsSeparator leftOver c rest
      | none => .error (.mistake .program (.unknownCommand name))
    | .separator =>
      .error (.mistake .program
        (if rest.isEmpty then .leftOver (leftOver ++ [t]) else .unknownCommand t))
    | .switch _ isLetter attached => .error (helpStop .program false isLetter attached)
    | .ambiguous .. | .unknown _ => readFrom keepsSeparator (leftOver ++ [t]) rest

/-- Reads a command line. One without words asks for help. -/
def Task.ofWords (keepsSeparator : Bool) (texts : List Text) : Except Stop Task :=
  readFrom keepsSeparator [] texts

end Flowchart.CommandLine
