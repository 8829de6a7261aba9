import Flowchart.Text

/-!
# Line ends

Files and input streams end their lines with a line feed, a carriage return, or both. As a text they
have line feeds only.
-/

namespace Flowchart.Text

/-- The text with every line end written as a line feed. -/
def unifyLineEnds : Text → Text
  | '\r' :: '\n' :: rest => '\n' :: unifyLineEnds rest
  | '\r' :: rest => '\n' :: unifyLineEnds rest
  | c :: rest => c :: unifyLineEnds rest
  | [] => []

end Flowchart.Text
