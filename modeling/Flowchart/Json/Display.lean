import Flowchart.Binary64.Decimal
import Flowchart.Json
import Flowchart.Text.Printable

/-!
# Displayed values

How a value is shown inside a message, and how a value that is not a text becomes one where a text
is needed: a text stands for itself, everything else is spelled out, with the texts inside it in
quotes. A quoted text is written in single quotes, unless it holds a single quote and no double
one, and its unprintable characters are written as escapes.
-/

namespace Flowchart.Json

/-! ## Quoted texts -/

/-- The last `width` hexadecimal digits of a number. -/
def paddedHex : (width : Nat) → Nat → Text
  | 0, _ => []
  | width + 1, n => paddedHex width (n / 16) ++ [Numeral.digit (n % 16)]

/-- A character inside a quoted text. -/
def quotedCharacter (quote c : Char) : Text :=
  if c = quote ∨ c = '\\' then ['\\', c]
  else if c = '\n' then ['\\', 'n']
  else if c = '\r' then ['\\', 'r']
  else if c = '\t' then ['\\', 't']
  else if isPrintable c then [c]
  else if c.toNat < 0x100 then '\\' :: 'x' :: paddedHex 2 c.toNat
  else if c.toNat < 0x10000 then '\\' :: 'u' :: paddedHex 4 c.toNat
  else '\\' :: 'U' :: paddedHex 8 c.toNat

/-- A text in quotes. -/
def quoted (t : Text) : Text :=
  let quote := if t.contains '\'' && !t.contains '"' then '"' else '\''
  quote :: t.flatMap (quotedCharacter quote) ++ [quote]

/-! ## Values -/

/-- The words for numbers that are not finite. -/
def displayWords : Binary64.SpecialWords := ⟨"inf".toList, "nan".toList⟩

mutual

/-- A value spelled out. -/
def spelled : Json → Text
  | null => "None".toList
  | bool true => "True".toList
  | bool false => "False".toList
  | int n => Numeral.signedDecimal n
  | float x => x.text displayWords
  | str t => quoted t
  | arr [] => ['[', ']']
  | arr (v :: items) => '[' :: spelled v ++ spelledItems items ++ [']']
  | obj [] => ['\x7b', '\x7d']
  | obj ((key, v) :: fields) =>
    '\x7b' :: quoted key ++ [':', ' '] ++ spelled v ++ spelledFields fields ++ ['\x7d']

/-- Further items, each after a comma. -/
def spelledItems : List Json → Text
  | [] => []
  | v :: items => ',' :: ' ' :: spelled v ++ spelledItems items

/-- Further fields, each after a comma. -/
def spelledFields : List (Text × Json) → Text
  | [] => []
  | (key, v) :: fields =>
    ',' :: ' ' :: quoted key ++ [':', ' '] ++ spelled v ++ spelledFields fields

end

/-- The text of a value: a text itself, any other value spelled out. -/
def display : Json → Text
  | str t => t
  | v => spelled v

/-- The name of the kind of a value, in messages. -/
def kindName : Json → String
  | null => "NoneType"
  | bool _ => "bool"
  | int _ => "int"
  | float _ => "float"
  | str _ => "str"
  | arr _ => "list"
  | obj _ => "dict"

end Flowchart.Json
