import Flowchart.Text

/-!
# UTF-8

Texts as bytes. Decoding accepts the well-formed sequences of the Unicode standard only; on others
it reports the first fault: a byte that starts no character, a byte that does not continue the one
before it, or an end within a character. Encoding writes the sequence that decoding reads.
-/

namespace Flowchart

/-- A sequence of bytes. -/
abbrev Bytes := List UInt8

namespace Utf8

/-! ## Faults -/

/-- What is wrong with a sequence of bytes. -/
inductive Cause where
  | invalidStart
  | invalidContinuation
  | unexpectedEnd
  deriving DecidableEq, Repr

/-- A fault: its cause, the byte where the character starts, and the range of the bytes that
belong to it. -/
structure DecodeError where
  cause : Cause
  first : UInt8
  start : Nat
  width : Nat
  deriving DecidableEq, Repr

/-- The wording of a cause. -/
def Cause.message : Cause → String
  | invalidStart => "invalid start byte"
  | invalidContinuation => "invalid continuation byte"
  | unexpectedEnd => "unexpected end of data"

/-- A byte as two hexadecimal digits. -/
def hexByte (b : UInt8) : Text := Nat.toDigits 16 (b.toNat / 16) ++ Nat.toDigits 16 (b.toNat % 16)

/-- The wording of a fault. -/
def DecodeError.message (e : DecodeError) : Text :=
  let place :=
    if e.width = 1 then
      "byte 0x".toList ++ hexByte e.first ++ " in position ".toList ++ Nat.toDigits 10 e.start
    else
      "bytes in position ".toList ++ Nat.toDigits 10 e.start ++ '-' ::
        Nat.toDigits 10 (e.start + e.width - 1)
  "'utf-8' codec can't decode ".toList ++ place ++ ": ".toList ++ e.cause.message.toList

/-! ## The mark -/

/-- The bytes of the byte order mark. -/
def mark : Bytes := [0xEF, 0xBB, 0xBF]

/-! ## Decoding -/

/-- Reads the last `needed` bytes of a character whose first `width` bytes have the value `value`.
The next byte must lie between `low` and `high`, the ones after it between 0x80 and 0xBF. -/
def continued : (needed low high value width : Nat) → Bytes → Except (Cause × Nat) Char
  | 0, _, _, value, _, _ => .ok (Char.ofNat value)
  | _ + 1, _, _, _, width, [] => .error (.unexpectedEnd, width)
  | needed + 1, low, high, value, width, b :: rest =>
    if low ≤ b.toNat ∧ b.toNat ≤ high then
      continued needed 0x80 0xBF (value * 64 + (b.toNat - 0x80)) (width + 1) rest
    else .error (.invalidContinuation, width)

/-- The character that starts with the byte `b`, and the number of further bytes it has. -/
def character (b : Nat) (rest : Bytes) : Except (Cause × Nat) (Char × Nat) :=
  if b < 0x80 then .ok (Char.ofNat b, 0)
  else if b < 0xC2 then .error (.invalidStart, 1)
  else if b < 0xE0 then (continued 1 0x80 0xBF (b - 0xC0) 1 rest).map (·, 1)
  else if b < 0xF0 then
    let low := if b = 0xE0 then 0xA0 else 0x80
    let high := if b = 0xED then 0x9F else 0xBF
    (continued 2 low high (b - 0xE0) 1 rest).map (·, 2)
  else if b < 0xF5 then
    let low := if b = 0xF0 then 0x90 else 0x80
    let high := if b = 0xF4 then 0x8F else 0xBF
    (continued 3 low high (b - 0xF0) 1 rest).map (·, 3)
  else .error (.invalidStart, 1)

/-- The text of the bytes from `position` on. The first `skip` bytes belong to a character already
read. -/
def decodeFrom : (skip position : Nat) → Bytes → Except DecodeError Text
  | _, _, [] => .ok []
  | skip + 1, position, _ :: rest => decodeFrom skip (position + 1) rest
  | 0, position, b :: rest =>
    match character b.toNat rest with
    | .ok (c, more) => (decodeFrom more (position + 1) rest).map (c :: ·)
    | .error (cause, width) => .error ⟨cause, b, position, width⟩

/-- The text that bytes encode. -/
def decode (bytes : Bytes) : Except DecodeError Text := decodeFrom 0 0 bytes

/-! ## Encoding -/

/-- The bytes of a character. -/
def encodeCharacter (c : Char) : Bytes :=
  let n := c.toNat
  let tail (shift : Nat) : UInt8 := UInt8.ofNat (0x80 + n / shift % 64)
  if n < 0x80 then [UInt8.ofNat n]
  else if n < 0x800 then [UInt8.ofNat (0xC0 + n / 64), tail 1]
  else if n < 0x10000 then [UInt8.ofNat (0xE0 + n / 4096), tail 64, tail 1]
  else [UInt8.ofNat (0xF0 + n / 262144), tail 4096, tail 64, tail 1]

/-- The bytes of a text. -/
def encode (t : Text) : Bytes := t.flatMap encodeCharacter

end Utf8

end Flowchart
