import Flowchart.Text.Surrogate
import Flowchart.Text.Utf8

/-!
# Encodings of a text

A body that carries JSON may be encoded as UTF-8, UTF-16 or UTF-32. A byte order mark tells which,
and so do the zero bytes at the start, since JSON begins with a character of ASCII. A mark is no
part of the text. In each of the encodings a lone surrogate is let through as a code point of its
own (`Encoding.points?`), although it is no character of a text (`Encoding.text?`).
-/

namespace Flowchart

/-- The order of the bytes of a code unit. -/
inductive ByteOrder where
  | big
  | little
  deriving DecidableEq, Repr

/-- An encoding of texts. -/
inductive Encoding where
  | utf8
  | utf16 (order : ByteOrder)
  | utf32 (order : ByteOrder)
  deriving DecidableEq, Repr

namespace Encoding

/-- The byte order marks, each with the encoding it announces. The longer ones come first, because
a mark of UTF-32 begins like one of UTF-16. -/
def marks : List (Bytes × Encoding) := [
  ([0x00, 0x00, 0xFE, 0xFF], utf32 .big),
  ([0xFF, 0xFE, 0x00, 0x00], utf32 .little),
  ([0xFE, 0xFF], utf16 .big),
  ([0xFF, 0xFE], utf16 .little),
  (Utf8.mark, utf8)]

/-- The encoding of bytes without a mark, judged by the zeros among the first of them. -/
def unmarked : Bytes → Encoding
  | [a, b] => if a = 0 then utf16 .big else if b = 0 then utf16 .little else utf8
  | a :: b :: c :: d :: _ =>
    if a = 0 then (if b = 0 then utf32 .big else utf16 .big)
    else if b = 0 then (if c = 0 ∧ d = 0 then utf32 .little else utf16 .little)
    else utf8
  | _ => utf8

/-- The encoding of bytes, and the bytes after the mark. -/
def detect (bytes : Bytes) : Encoding × Bytes :=
  match marks.find? fun mark => mark.1.isPrefixOf bytes with
  | some (mark, encoding) => (encoding, bytes.drop mark.length)
  | none => (unmarked bytes, bytes)

/-- The number that a group of bytes stands for. -/
def unit (order : ByteOrder) (group : Bytes) : Nat :=
  let ordered :=
    match order with
    | .big => group
    | .little => group.reverse
  ordered.foldl (fun acc b => acc * 256 + b.toNat) 0

/-- The code units of two bytes each, if the bytes can be paired. -/
def units16 (order : ByteOrder) : Bytes → Option (List Nat)
  | [] => some []
  | a :: b :: rest => (units16 order rest).map (unit order [a, b] :: ·)
  | _ => none

/-- The code units of four bytes each, if the bytes can be grouped. -/
def units32 (order : ByteOrder) : Bytes → Option (List Nat)
  | [] => some []
  | a :: b :: c :: d :: rest => (units32 order rest).map (unit order [a, b, c, d] :: ·)
  | _ => none

/-- The code points of code units of two bytes, where pairs of surrogates make one. -/
def joinUnits16 : List Nat → List Nat
  | high :: low :: rest =>
    if isHighSurrogate high && isLowSurrogate low then
      (joinSurrogates high low).toNat :: joinUnits16 rest
    else high :: joinUnits16 (low :: rest)
  | units => units

/-- The surrogate at the start of bytes, written in three of them as UTF-8 writes its neighbours. -/
def surrogate8? : Bytes → Option Nat
  | a :: b :: c :: _ =>
    if a = 0xED ∧ 0xA0 ≤ b ∧ b ≤ 0xBF ∧ 0x80 ≤ c ∧ c ≤ 0xBF then
      some (0xD000 + (b.toNat - 0x80) * 64 + (c.toNat - 0x80))
    else none
  | _ => none

/-- The code points of bytes in UTF-8. The first `skip` bytes belong to a code point already
read. -/
def points8? : (skip : Nat) → Bytes → Option (List Nat)
  | _, [] => some []
  | skip + 1, _ :: rest => points8? skip rest
  | 0, b :: rest =>
    match surrogate8? (b :: rest) with
    | some n => (points8? 2 rest).map (n :: ·)
    | none =>
      match Utf8.character b.toNat rest with
      | .ok (c, more) => (points8? more rest).map (c.toNat :: ·)
      | .error _ => none

/-- The code points that bytes encode. -/
def decode? (encoding : Encoding) (bytes : Bytes) : Option (List Nat) :=
  match encoding with
  | utf8 => points8? 0 bytes
  | utf16 order => (units16 order bytes).map joinUnits16
  | utf32 order => (units32 order bytes).filter fun units => units.all fun n => n < 0x110000

/-- The code points that bytes encode, whatever their encoding. -/
def points? (bytes : Bytes) : Option (List Nat) :=
  let (encoding, rest) := detect bytes
  encoding.decode? rest

/-- The text that bytes encode, whatever their encoding. -/
def text? (bytes : Bytes) : Option Text := (points? bytes).map (List.map unitCharacter)

end Encoding

end Flowchart
