import Flowchart.Keyed
import Flowchart.Numeral.Input

/-!
# Settings

What the command line and the service can be set to, by variables of the environment. A variable
that is missing, or whose value is not understood, leaves the default.
-/

namespace Flowchart

/-- The variables of an environment. -/
abbrev Environment := Keyed Text Text

/-- The settings of the command line and the service. -/
structure Settings where
  keepStyles : Bool := true
  fenced : Bool := false
  host : Text := "127.0.0.1".toList
  port : Int := 8765
  maxSourceLength : Int := 200000

namespace Settings

/-! ## Variables -/

/-- The variable that says whether arrows keep their style. -/
def keepStylesVariable : Text := "FLOWCHART_PRESERVE_EDGE_STYLES".toList

/-- The variable that says whether diagrams are fenced. -/
def fencedVariable : Text := "FLOWCHART_FENCED_OUTPUT".toList

/-- The variable for the host of the service. -/
def hostVariable : Text := "FLOWCHART_HOST".toList

/-- The variable for the port of the service. -/
def portVariable : Text := "FLOWCHART_PORT".toList

/-- The variable for the length of the longest diagram that the service accepts. -/
def maxSourceLengthVariable : Text := "FLOWCHART_MAX_SOURCE_CHARS".toList

/-- All variables that matter. -/
def variableNames : List Text :=
  [keepStylesVariable, fencedVariable, hostVariable, portVariable, maxSourceLengthVariable]

/-! ## Values -/

/-- The words for yes. -/
def yesWords : List Text := ["1".toList, "true".toList, "yes".toList, "on".toList]

/-- The words for no. -/
def noWords : List Text := ["0".toList, "false".toList, "no".toList, "off".toList]

/-- The truth value that a variable names, in letters of either case. -/
def flag (env : Environment) (name : Text) (default : Bool) : Bool :=
  let word := ((env.get? name).getD []).trim.map Char.toLower
  if yesWords.contains word then true else if noWords.contains word then false else default

/-- The integer that a variable holds. -/
def integer (env : Environment) (name : Text) (default : Int) : Int :=
  ((env.get? name).bind Numeral.Input.integer?).getD default

/-- The text that a variable holds, if it is not empty. -/
def text (env : Environment) (name : Text) (default : Text) : Text :=
  match env.get? name with
  | some (c :: rest) => c :: rest
  | _ => default

/-- The settings that an environment gives. -/
def ofEnvironment (env : Environment) : Settings :=
  let default : Settings := {}
  { keepStyles := flag env keepStylesVariable default.keepStyles
    fenced := flag env fencedVariable default.fenced
    host := text env hostVariable default.host
    port := integer env portVariable default.port
    maxSourceLength := integer env maxSourceLengthVariable default.maxSourceLength }

end Settings

end Flowchart
