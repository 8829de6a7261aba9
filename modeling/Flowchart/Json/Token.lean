import Flowchart.Binary64.NumberText
import Flowchart.Json
import Flowchart.Text.Surrogate

/-!
# JSON tokens

The first half of reading JSON: a text is cut into tokens, each with the position where it starts.
Nothing is refused here. What is no token becomes `junk` or `broken`, and reading fails at it only
if a value or a key was expected there. A text that can be cut to its end has the token `finish`
there.
-/

namespace Flowchart.Json

/-! ## Causes of failure -/

/-- Why a text is no JSON. -/
inductive SyntaxCause where
  | expectedValue
  | expectedKey
  | expectedColon
  | expectedComma
  | extraData
  | unterminatedString
  | controlCharacter
  | badEscape
  | badUnicodeEscape
  | byteOrderMark
  deriving DecidableEq, Repr

/-- Why a text is not read: its syntax fails at a position, or an integer has too many digits. -/
inductive ReadError where
  | malformed (cause : SyntaxCause) (position : Nat)
  | oversizedInteger (digits : Nat)
  deriving DecidableEq, Repr

/-- The most digits that an integer may have. -/
def maxIntegerDigits : Nat := 4300

/-! ## Strings -/

/-- The value of a hexadecimal digit. -/
def hexValue? (c : Char) : Option Nat :=
  if '0' ≤ c ∧ c ≤ '9' then some (c.toNat - 48)
  else if 'a' ≤ c ∧ c ≤ 'f' then some (c.toNat - 87)
  else if 'A' ≤ c ∧ c ≤ 'F' then some (c.toNat - 55)
  else none

/-- The number that hexadecimal digits stand for. -/
def hexNumber? (digits : Text) : Option Nat :=
  digits.foldl (fun acc c => do return (← acc) * 16 + (← hexValue? c)) (some 0)

/-- A `\u` escape: `rest` follows the letter `u` at `position`. The answer has the character and
the number of code points after the `u` that belong to it. A text may not end with the last digit,
and a second escape counts only if it can be followed by a closing quote. -/
def unicodeEscape (position : Nat) (rest : Text) : Except ReadError (Char × Nat) :=
  let second := rest.drop 4
  match second, hexNumber? (rest.take 4) with
  | [], _ | _, none => .error (.malformed .badUnicodeEscape position)
  | _, some n =>
    if isHighSurrogate n && second.take 2 == ['\\', 'u'] && !(second.drop 6).isEmpty then
      match hexNumber? ((second.drop 2).take 4) with
      | none => .error (.malformed .badUnicodeEscape (position + 6))
      | some m =>
        if isLowSurrogate m then .ok (joinSurrogates n m, 10) else .ok (unitCharacter n, 4)
    else .ok (unitCharacter n, 4)

/-- The character that a one-letter escape stands for. -/
def simpleEscape? : Char → Option Char
  | '"' => some '"'
  | '\\' => some '\\'
  | '/' => some '/'
  | 'b' => some '\x08'
  | 'f' => some '\x0c'
  | 'n' => some '\n'
  | 'r' => some '\r'
  | 't' => some '\t'
  | _ => none

/-- An escape: `rest` follows the backslash at `position`, in a string that began at `start`. The
answer has the character and the number of code points after the backslash that belong to it. -/
def escape (start position : Nat) : Text → Except ReadError (Char × Nat)
  | [] => .error (.malformed .unterminatedString start)
  | 'u' :: rest => (unicodeEscape (position + 1) rest).map fun (c, n) => (c, n + 1)
  | c :: _ =>
    match simpleEscape? c with
    | some d => .ok (d, 1)
    | none => .error (.malformed .badEscape position)

/-- The rest of a string that began at `start`, from `position` on, and the position after its
closing quote. The first `skip` code points belong to an escape already read. -/
def stringFrom (start : Nat) : (skip position : Nat) → Text → Except ReadError (Text × Nat)
  | _, _, [] => .error (.malformed .unterminatedString start)
  | skip + 1, position, _ :: rest => stringFrom start skip (position + 1) rest
  | 0, position, c :: rest =>
    if c = '"' then .ok ([], position + 1)
    else if c = '\\' then
      match escape start position rest with
      | .error e => .error e
      | .ok (d, n) =>
        (stringFrom start n (position + 1) rest).map fun (t, last) => (d :: t, last)
    else if c.toNat < 0x20 then .error (.malformed .controlCharacter position)
    else (stringFrom start 0 (position + 1) rest).map fun (t, last) => (c :: t, last)

/-! ## Numbers -/

/-- The whole part of a number: zero alone, or digits that do not start with it. -/
def wholePart (t : Text) : Text :=
  match t with
  | '0' :: _ => ['0']
  | _ => t.takeWhile Char.isDigit

/-- The digits after a point, if a point with a digit after it comes first. -/
def fractionPart? : Text → Option Text
  | '.' :: c :: rest => if c.isDigit then some (c :: rest.takeWhile Char.isDigit) else none
  | _ => none

/-- The number at the start of a text, and its length. -/
def number? (t : Text) : Option (NumberText × Nat) :=
  let negative := t.head? == some '-'
  let unsigned := if negative then t.drop 1 else t
  let whole := wholePart unsigned
  if whole.isEmpty then none
  else
    let afterWhole := unsigned.drop whole.length
    let fraction := fractionPart? afterWhole
    let fractionWidth := (fraction.map (·.length + 1)).getD 0
    let exponent := NumberText.exponentPart? (afterWhole.drop fractionWidth)
    let width := whole.length + fractionWidth + (exponent.map Prod.snd).getD 0
    some (⟨negative, whole, fraction, exponent.map Prod.fst⟩, if negative then width + 1 else width)

/-! ## Tokens -/

/-- A token of JSON, or what stands where none can be recognised. -/
inductive Token where
  | openArray
  | closeArray
  | openObject
  | closeObject
  | comma
  | colon
  | text (value : Text)
  | atom (value : Json)
  | broken (error : ReadError)
  | junk
  | finish

/-- The words that stand for values of their own. -/
def literals : List (Text × Json) := [
  ("null".toList, .null),
  ("true".toList, .bool true),
  ("false".toList, .bool false),
  ("NaN".toList, .float .nan),
  ("Infinity".toList, .float (.infinite false)),
  ("-Infinity".toList, .float (.infinite true))]

/-- The token of a number. An integer stays whole, and may not have too many digits. -/
def numberToken (n : NumberText) : Token :=
  if n.fraction.isSome || n.exponent.isSome then .atom (.float n.toBinary64)
  else if maxIntegerDigits < n.whole.length then .broken (.oversizedInteger n.whole.length)
  else .atom (.int (Binary64.signed n.negative (Numeral.decimalValue n.whole)))

/-- The punctuation mark of a character. -/
def mark? : Char → Option Token
  | '[' => some .openArray
  | ']' => some .closeArray
  | '\x7b' => some .openObject
  | '\x7d' => some .closeObject
  | ',' => some .comma
  | ':' => some .colon
  | _ => none

/-- The token that starts with `c` at `position`, and the position after it; no position if nothing
can follow. -/
def tokenAt (position : Nat) (c : Char) (rest : Text) : Token × Option Nat :=
  match mark? c with
  | some token => (token, some (position + 1))
  | none =>
    if c = '"' then
      match stringFrom position 0 (position + 1) rest with
      | .ok (value, last) => (.text value, some last)
      | .error e => (.broken e, none)
    else
      match literals.find? fun l => l.1.isPrefixOf (c :: rest) with
      | some (word, value) => (.atom value, some (position + word.length))
      | none =>
        match number? (c :: rest) with
        | some (n, width) => (numberToken n, some (position + width))
        | none => (.junk, none)

/-- Blank space between tokens. -/
def isSpace (c : Char) : Bool := c == ' ' || c == '\t' || c == '\n' || c == '\r'

/-- The tokens of a text from `position` on, each with the place where it starts. The first `skip`
code points belong to a token already read. -/
def tokensFrom : (skip position : Nat) → Text → List (Nat × Token)
  | _, position, [] => [(position, .finish)]
  | skip + 1, position, _ :: rest => tokensFrom skip (position + 1) rest
  | 0, position, c :: rest =>
    if isSpace c then tokensFrom 0 (position + 1) rest
    else
      match tokenAt position c rest with
      | (token, none) => [(position, token)]
      | (token, some next) =>
        (position, token) :: tokensFrom (next - (position + 1)) (position + 1) rest

/-- The tokens of a text. -/
def tokens (t : Text) : List (Nat × Token) := tokensFrom 0 0 t

end Flowchart.Json
