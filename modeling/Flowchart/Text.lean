import Flowchart.Text.Blank

/-!
# Texts

A text is a list of code points: lengths and positions count code points, and recursion follows the
list. This module holds the operations on whole texts that the notation and the formats share:
trimming blanks, cutting into lines, and identifiers.
-/

namespace Flowchart

/-- A text, as the list of its code points. -/
abbrev Text := List Char

namespace Text

/-! ## Trimming -/

/-- The text without the blanks at its start. -/
def trimStart (t : Text) : Text := t.dropWhile isBlank

/-- The text without the characters at its end that satisfy `p`. -/
def dropEndWhile (p : Char → Bool) (t : Text) : Text := (t.reverse.dropWhile p).reverse

/-- The text without the blanks at its end. -/
def trimEnd (t : Text) : Text := dropEndWhile isBlank t

/-- The text without the blanks at both ends. -/
def trim (t : Text) : Text := trimEnd (trimStart t)

/-! ## Lines -/

/-- The pieces of a text between its line feeds; a text without one is a single line. -/
def lines (t : Text) : List Text := t.splitOn '\n'

/-- Lines joined by line feeds, with none after the last. -/
def unlines (ls : List Text) : Text := List.intercalate ['\n'] ls

/-- One line feed at the very end is no part of what a line says. -/
def dropFinalLineFeed (t : Text) : Text :=
  if t.getLast? = some '\n' then t.dropLast else t

/-! ## Identifiers -/

/-- An ASCII letter or the underscore. -/
def isIdentifierStart (c : Char) : Bool := c.isAlpha || c == '_'

/-- An ASCII letter, an ASCII digit or the underscore. -/
def isIdentifierPart (c : Char) : Bool := c.isAlphanum || c == '_'

/-- Whether the text is an identifier: a letter or underscore, then letters, digits and
underscores. -/
def isIdentifier : Text → Bool
  | [] => false
  | c :: rest => isIdentifierStart c && rest.all isIdentifierPart

/-- The longest identifier at the start of a text, empty if there is none, and what follows it. -/
def spanIdentifier : Text → Text × Text
  | [] => ([], [])
  | c :: rest =>
    if isIdentifierStart c then
      (c :: rest.takeWhile isIdentifierPart, rest.dropWhile isIdentifierPart)
    else ([], c :: rest)

end Text

end Flowchart
