import Flowchart.Binary64.Decimal
import Flowchart.Json

/-!
# Writing JSON

JSON text in two styles: with the characters of ASCII only, one item a line, for files; and without
any blanks, other characters kept as they are, for the answers of the service.
-/

namespace Flowchart.Json

/-! ## Strings -/

/-- A hexadecimal digit. -/
def hexDigit (value : Nat) : Char := Numeral.digit value

/-- A code unit as an escape of four hexadecimal digits. -/
def unitEscape (n : Nat) : Text :=
  ['\\', 'u', hexDigit (n / 0x1000 % 16), hexDigit (n / 0x100 % 16), hexDigit (n / 0x10 % 16),
    hexDigit (n % 16)]

/-- A character as one escape, or as two for a character outside the first plane. -/
def characterEscape (c : Char) : Text :=
  if c.toNat < 0x10000 then unitEscape c.toNat
  else
    let n := c.toNat - 0x10000
    unitEscape (0xD800 + n / 0x400) ++ unitEscape (0xDC00 + n % 0x400)

/-- The escape of a character that has one of a single letter. -/
def shortEscape? : Char → Option Text
  | '"' => some ['\\', '"']
  | '\\' => some ['\\', '\\']
  | '\n' => some ['\\', 'n']
  | '\r' => some ['\\', 'r']
  | '\t' => some ['\\', 't']
  | '\x08' => some ['\\', 'b']
  | '\x0c' => some ['\\', 'f']
  | _ => none

/-- Which characters a style of writing escapes besides quote, backslash and controls, and what it
puts between the parts of an array or object at a given depth. -/
structure Style where
  asciiOnly : Bool
  lineBreak : Nat → Text
  colon : Text

/-- A character inside a string. -/
def Style.character (s : Style) (c : Char) : Text :=
  match shortEscape? c with
  | some e => e
  | none =>
    if c.toNat < 0x20 ∨ (s.asciiOnly ∧ 0x7E < c.toNat) then characterEscape c else [c]

/-- A string in quotes. -/
def Style.string (s : Style) (t : Text) : Text := '"' :: t.flatMap s.character ++ ['"']

/-! ## Values -/

/-- The words for numbers that are not finite. -/
def specialWords : Binary64.SpecialWords := ⟨"Infinity".toList, "NaN".toList⟩

mutual

/-- A value as text, inside `depth` open arrays and objects. -/
def writeAt (s : Style) (depth : Nat) : Json → Text
  | null => "null".toList
  | bool true => "true".toList
  | bool false => "false".toList
  | int n => Numeral.signedDecimal n
  | float x => x.text specialWords
  | str t => s.string t
  | arr [] => ['[', ']']
  | arr (v :: items) =>
    '[' :: s.lineBreak (depth + 1) ++ writeAt s (depth + 1) v ++ writeItems s (depth + 1) items ++
      s.lineBreak depth ++ [']']
  | obj [] => ['\x7b', '\x7d']
  | obj ((key, v) :: fields) =>
    '\x7b' :: s.lineBreak (depth + 1) ++ s.string key ++ s.colon ++ writeAt s (depth + 1) v ++
      writeFields s (depth + 1) fields ++ s.lineBreak depth ++ ['\x7d']

/-- Further items of an array, each after a comma. -/
def writeItems (s : Style) (depth : Nat) : List Json → Text
  | [] => []
  | v :: items => ',' :: s.lineBreak depth ++ writeAt s depth v ++ writeItems s depth items

/-- Further fields of an object, each after a comma. -/
def writeFields (s : Style) (depth : Nat) : List (Text × Json) → Text
  | [] => []
  | (key, v) :: fields =>
    ',' :: s.lineBreak depth ++ s.string key ++ s.colon ++ writeAt s depth v ++
      writeFields s depth fields

end

/-- A value as text. -/
def write (s : Style) (v : Json) : Text := writeAt s 0 v

/-- The style of files: ASCII only, two blanks of indentation for each level. -/
def Style.indented : Style where
  asciiOnly := true
  lineBreak depth := '\n' :: List.replicate (2 * depth) ' '
  colon := [':', ' ']

/-- The style of answers: no blanks, characters outside ASCII kept. -/
def Style.compact : Style where
  asciiOnly := false
  lineBreak _ := []
  colon := [':']

mutual

/-- Whether every number in the value is finite, which the format of JSON asks for. -/
def allFinite : Json → Bool
  | float x => x.isFinite
  | arr items => itemsFinite items
  | obj fields => fieldsFinite fields
  | _ => true

/-- Whether every number in the items is finite. -/
def itemsFinite : List Json → Bool
  | [] => true
  | v :: items => allFinite v && itemsFinite items

/-- Whether every number in the fields is finite. -/
def fieldsFinite : List (Text × Json) → Bool
  | [] => true
  | (_, v) :: fields => allFinite v && fieldsFinite fields

end

end Flowchart.Json
