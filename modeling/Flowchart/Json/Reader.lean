import Flowchart.Json.Token

/-!
# Reading JSON

The second half of reading JSON: tokens are put together into a value. The reader keeps the arrays
and objects that are still open, innermost first, and what may come next; it passes over the tokens
once. Of two fields with one key the later value stands in the place of the earlier.
-/

namespace Flowchart.Json

/-- An array or object that is still open, with what it holds so far: the items last one first, or
the fields and the key whose value is being read. -/
inductive Frame where
  | array (items : List Json)
  | object (fields : List (Text × Json)) (key : Text)

/-- What may come next. -/
inductive Expected where
  | value
  | itemOrClose
  | key (fields : List (Text × Json))
  | keyOrClose
  | colon (fields : List (Text × Json)) (key : Text)
  | afterValue (value : Json)

/-- Reading the remaining tokens inside the open arrays and objects. -/
def readTokens : List Frame → Expected → List (Nat × Token) → Except ReadError Json
  | _, _, [] => .error (.malformed .expectedValue 0)
  | open_, expected, (position, token) :: rest =>
    let failure (cause : SyntaxCause) : Except ReadError Json := .error (.malformed cause position)
    match expected, token with
    | .value, .openArray => readTokens (.array [] :: open_) .itemOrClose rest
    | .value, .openObject => readTokens open_ .keyOrClose rest
    | .value, .text t => readTokens open_ (.afterValue (.str t)) rest
    | .value, .atom v => readTokens open_ (.afterValue v) rest
    | .value, .broken e => .error e
    | .value, _ => failure .expectedValue
    | .itemOrClose, .closeArray => readTokens (open_.drop 1) (.afterValue (.arr [])) rest
    | .itemOrClose, .openArray => readTokens (.array [] :: open_) .itemOrClose rest
    | .itemOrClose, .openObject => readTokens open_ .keyOrClose rest
    | .itemOrClose, .text t => readTokens open_ (.afterValue (.str t)) rest
    | .itemOrClose, .atom v => readTokens open_ (.afterValue v) rest
    | .itemOrClose, .broken e => .error e
    | .itemOrClose, _ => failure .expectedValue
    | .keyOrClose, .closeObject => readTokens open_ (.afterValue (.obj [])) rest
    | .keyOrClose, .text t => readTokens open_ (.colon [] t) rest
    | .keyOrClose, .broken (.malformed cause at_) => .error (.malformed cause at_)
    | .keyOrClose, _ => failure .expectedKey
    | .key fields, .text t => readTokens open_ (.colon fields t) rest
    | .key _, .broken (.malformed cause at_) => .error (.malformed cause at_)
    | .key _, _ => failure .expectedKey
    | .colon fields key, .colon => readTokens (.object fields key :: open_) .value rest
    | .colon _ _, _ => failure .expectedColon
    | .afterValue v, token =>
      match open_, token with
      | [], .finish => .ok v
      | [], _ => failure .extraData
      | .array items :: outer, .comma => readTokens (.array (v :: items) :: outer) .value rest
      | .array items :: outer, .closeArray =>
        readTokens outer (.afterValue (.arr (v :: items).reverse)) rest
      | .object fields key :: outer, .comma =>
        readTokens outer (.key (Keyed.assign key v fields)) rest
      | .object fields key :: outer, .closeObject =>
        readTokens outer (.afterValue (.obj (Keyed.assign key v fields))) rest
      | _, _ => failure .expectedComma

/-- Reads a text as one JSON value. A byte order mark is no part of a text. -/
def read (t : Text) : Except ReadError Json :=
  if t.head? = some '\uFEFF' then .error (.malformed .byteOrderMark 0)
  else readTokens [] .value (tokens t)

/-! ## Messages -/

/-- The wording of a cause. -/
def SyntaxCause.message : SyntaxCause → String
  | expectedValue => "Expecting value"
  | expectedKey => "Expecting property name enclosed in double quotes"
  | expectedColon => "Expecting ':' delimiter"
  | expectedComma => "Expecting ',' delimiter"
  | extraData => "Extra data"
  | unterminatedString => "Unterminated string starting at"
  | controlCharacter => "Invalid control character at"
  | badEscape => "Invalid \\escape"
  | badUnicodeEscape => "Invalid \\uXXXX escape"
  | byteOrderMark => "Unexpected UTF-8 BOM (decode using utf-8-sig)"

/-- The line and the column, both counted from one, of a position in a text. -/
def lineAndColumn (t : Text) (position : Nat) : Nat × Nat :=
  let before := t.take position
  (before.count '\n' + 1, (before.reverse.takeWhile (· != '\n')).length + 1)

/-- The wording of an error in reading the text `t`. -/
def ReadError.message (t : Text) : ReadError → Text
  | malformed cause position =>
    let (line, column) := lineAndColumn t position
    cause.message.toList ++ ": line ".toList ++ Numeral.decimal line ++ " column ".toList ++
      Numeral.decimal column ++ " (char ".toList ++ Numeral.decimal position ++ [')']
  | oversizedInteger digits =>
    "Exceeds the limit (".toList ++ Numeral.decimal maxIntegerDigits ++
      " digits) for integer string conversion: value has ".toList ++ Numeral.decimal digits ++
      " digits; use sys.set_int_max_str_digits() to increase the limit".toList

end Flowchart.Json
