import Flowchart.Named

/-!
# Commands

The commands of the program and the switches that each of them takes. A switch has one or two
names: with two dashes a name is a word, with one dash a letter. A page is what a help text or a
complaint is about: the program as a whole, or one command.
-/

namespace Flowchart.CommandLine

/-! ## Commands -/

/-- What the program can be told to do. -/
inductive Command where
  | parse
  | generate
  | format
  | new
  | summarize
  deriving DecidableEq, Repr

namespace Command

/-- The name by which a command is called. -/
def name : Command → Text
  | parse => "parse".toList
  | generate => "generate".toList
  | format => "format".toList
  | new => "new".toList
  | summarize => "show".toList

instance : Vocabulary Command where
  words := [parse, generate, format, new, summarize]
  name := name
  mem_words a := by cases a <;> decide
  name_injective a b := by cases a <;> cases b <;> decide

/-- All commands, in their customary order. -/
def all : List Command := Vocabulary.words

/-- What a command does, in a few words. -/
def description : Command → Text
  | parse => "Flowchart text -> graph JSON".toList
  | generate => "Graph JSON -> flowchart text".toList
  | format => "Normalise flowchart text".toList
  | new => "Emit the Start -> Process -> End seed diagram".toList
  | summarize => "Summarise a diagram or graph JSON".toList

/-- What a command reads, in a few words, if it reads anything. -/
def inputDescription? : Command → Option Text
  | parse | format => some "Input .mmd file, or - for stdin".toList
  | generate => some "Input .graph.json file, or - for stdin".toList
  | summarize => some "Input file, or - for stdin".toList
  | new => none

/-- Whether a command reads an input. -/
def takesInput (c : Command) : Bool := c.inputDescription?.isSome

end Command

/-! ## Switches -/

/-- What can be said about a command besides its input. -/
inductive Switch where
  | help
  | output
  | fenced
  | plainArrows
  | json
  deriving DecidableEq, Repr

namespace Switch

/-- The names of a switch. -/
def names : Switch → List Text
  | help => ["-h".toList, "--help".toList]
  | output => ["--output".toList, "-o".toList]
  | fenced => ["--fenced".toList]
  | plainArrows => ["--plain-arrows".toList]
  | json => ["--json".toList]

/-- Whether a value goes with a switch. -/
def takesValue : Switch → Bool
  | output => true
  | _ => false

/-- What stands for the value of a switch in help texts. -/
def valueName : Text := "OUTPUT".toList

/-- What a switch is for, in a few words. -/
def description : Switch → Text
  | help => "show this help message and exit".toList
  | output => "Output file (default: stdout)".toList
  | fenced => "Wrap output in a ```mermaid block".toList
  | plainArrows => "Write every edge as --> (drop dotted/thick styling)".toList
  | json => "Emit graph JSON instead of text".toList

/-- A switch in a complaint: all its names. -/
def title (s : Switch) : Text := List.intercalate ['/'] s.names

end Switch

/-- The switches of a command, in their customary order. -/
def Command.switches : Command → List Switch
  | .parse | .format => [.help, .output]
  | .generate => [.help, .output, .fenced, .plainArrows]
  | .new => [.help, .output, .json]
  | .summarize => [.help]

/-! ## Pages -/

/-- What a help text or a complaint is about. -/
inductive Page where
  | program
  | command (c : Command)
  deriving DecidableEq, Repr

namespace Page

/-- The name of the program. -/
def programName : Text := "mermaid-flow".toList

/-- The words that call what the page is about. -/
def title : Page → Text
  | program => programName
  | command c => programName ++ ' ' :: c.name

/-- The switches that a page knows. -/
def switches : Page → List Switch
  | program => [.help]
  | command c => c.switches

/-- The names of the switches, each with its switch. -/
def switchNames (p : Page) : List (Text × Switch) :=
  p.switches.flatMap fun s => s.names.map fun name => (name, s)

/-- The switch of a name. -/
def switch? (p : Page) (name : Text) : Option Switch := p.switchNames.lookup name

end Page

end Flowchart.CommandLine
