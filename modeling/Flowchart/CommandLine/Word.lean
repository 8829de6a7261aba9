import Flowchart.CommandLine.Command
import Flowchart.Text.Digit

/-!
# Words of a command line

What each word of a command line looks like to a page: a switch, possibly with a value attached, an
operand, or the separator after which all words are operands. A name with two dashes may be cut
short as long as only one switch goes on like it. A word that looks like a switch, but is none, is
unknown; negative numbers and words with a blank do not look like switches.
-/

namespace Flowchart.CommandLine

/-- A word of a command line. `isLetter` says that the name of the switch has one dash only; what is
attached to the name follows an equals sign or the letter. -/
inductive Word where
  | operand (t : Text)
  | separator
  | switch (s : Switch) (isLetter : Bool) (attached : Option Text)
  | ambiguous (t : Text) (names : List Text)
  | unknown (t : Text)
  deriving DecidableEq, Repr

/-- The word after which all words are operands. -/
def separatorText : Text := ['-', '-']

/-- Whether a word is a negative number: digits after the dash, possibly with a point before the
last of them. -/
def isNegativeNumber (t : Text) : Bool :=
  let body := Text.dropFinalLineFeed (t.drop 1)
  let isDigit (c : Char) : Bool := (digitValue? c).isSome
  match body.dropWhile isDigit with
  | [] => !body.isEmpty
  | '.' :: rest => !rest.isEmpty && rest.all isDigit
  | _ => false

/-- A word that names no switch of a page in full. -/
def Word.ofOther (t : Text) : Word :=
  if isNegativeNumber t || t.contains ' ' then .operand t else .unknown t

/-- A word that starts with two dashes: the start of a name, and possibly an equals sign and a
value. -/
def Word.ofLong (p : Page) (t : Text) : Word :=
  let start := t.takeWhile (· != '=')
  let attached := (t.dropWhile (· != '=')).tail?
  match p.switchNames.filter fun entry => start.isPrefixOf entry.1 with
  | [] => Word.ofOther t
  | [(_, s)] => .switch s false attached
  | several => .ambiguous t (several.map Prod.fst)

/-- A word that starts with one dash: a letter with a value attached. -/
def Word.ofShort (p : Page) (t : Text) : Word :=
  match p.switch? (t.take 2) with
  | some s => .switch s true (some (t.drop 2))
  | none => Word.ofOther t

/-- What a word is to a page. -/
def Word.ofText (p : Page) (t : Text) : Word :=
  let isLetter := !separatorText.isPrefixOf t
  if t = separatorText then .separator
  else if t.head? != some '-' || t = ['-'] then .operand t
  else
    match p.switch? t with
    | some s => .switch s isLetter none
    | none =>
      match p.switch? (t.takeWhile (· != '=')), t.dropWhile (· != '=') with
      | some s, _ :: value => .switch s isLetter (some value)
      | _, _ => if isLetter then Word.ofShort p t else Word.ofLong p t

/-- The words of a command line. -/
def Word.ofTexts (p : Page) : List Text → List Word
  | [] => []
  | t :: rest =>
    match Word.ofText p t with
    | .separator => .separator :: rest.map .operand
    | word => word :: Word.ofTexts p rest

end Flowchart.CommandLine
