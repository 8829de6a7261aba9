import Flowchart.Text.CodeSet

/-!
# Blank characters

White space in the sense of the Unicode property, together with the four information separators
U+001C to U+001F.
-/

namespace Flowchart

/-- The blank characters. -/
def blanks : CodeSet := ⟨[
  9, 14, 28, 33, 133, 134, 160, 161, 5760, 5761, 8192, 8203, 8232, 8234, 8239, 8240, 8287, 8288,
  12288, 12289]⟩

/-- White space: tabs, line ends, the information separators, and the spaces of Unicode. -/
def isBlank (c : Char) : Bool := blanks.contains c

end Flowchart
