import Http2.Bytes

/-!
# UTF-8 text

`encode` writes a text as UTF-8. `decode` reads any byte string: each maximal part that cannot begin
or continue a well-formed sequence becomes one replacement character. The decoder takes one byte at
a time, so that decoding is a fold and a well-formed text may be read in any pieces.
-/

namespace Http2.Utf8

/-- The character that stands for an ill-formed part. -/
def replacement : Char := '\ufffd'

/-- The bytes of a text. -/
def encode (text : String) : Bytes :=
  text.toList.flatMap String.utf8EncodeChar

/-- A sequence that has begun: the value of the bits so far, how many bytes are missing, and the
bounds of the next one. -/
structure Pending where
  value : Nat
  missing : Nat
  low : Nat := 0x80
  high : Nat := 0xBF
  deriving DecidableEq, Repr

/-- A decoder between two bytes. Characters are kept newest first. -/
structure Decoder where
  pending : Option Pending := none
  text : List Char := []
  deriving DecidableEq, Repr

namespace Decoder

/-- Adds a character. -/
def emit (d : Decoder) (c : Char) : Decoder :=
  { pending := none, text := c :: d.text }

/-- Waits for the rest of a sequence. -/
def await (d : Decoder) (p : Pending) : Decoder :=
  { d with pending := some p }

/-- Takes the first byte of a sequence. The bounds of the second byte exclude overlong forms,
surrogates and values above the last code point. -/
def start (d : Decoder) (b : Nat) : Decoder :=
  if b < 0x80 then d.emit (Char.ofNat b)
  else if b < 0xC2 then d.emit replacement
  else if b < 0xE0 then d.await { value := b - 0xC0, missing := 1 }
  else if b = 0xE0 then d.await { value := 0, missing := 2, low := 0xA0 }
  else if b = 0xED then d.await { value := 13, missing := 2, high := 0x9F }
  else if b < 0xF0 then d.await { value := b - 0xE0, missing := 2 }
  else if b = 0xF0 then d.await { value := 0, missing := 3, low := 0x90 }
  else if b < 0xF4 then d.await { value := b - 0xF0, missing := 3 }
  else if b = 0xF4 then d.await { value := 4, missing := 3, high := 0x8F }
  else d.emit replacement

/-- Takes one byte. A byte that cannot continue the sequence under way ends it and starts anew. -/
def push (d : Decoder) (byte : UInt8) : Decoder :=
  let b := byte.toNat
  match d.pending with
  | none => d.start b
  | some p =>
    if p.low ≤ b ∧ b ≤ p.high then
      let value := p.value * 64 + (b - 0x80)
      if p.missing ≤ 1 then d.emit (Char.ofNat value)
      else d.await { value, missing := p.missing - 1 }
    else
      (d.emit replacement).start b

/-- The text, once no byte follows. -/
def finish (d : Decoder) : String :=
  match d.pending with
  | none => String.ofList d.text.reverse
  | some _ => String.ofList (replacement :: d.text).reverse

end Decoder

/-- The text of a byte string. -/
def decode (bytes : Bytes) : String :=
  (bytes.foldl Decoder.push {}).finish

end Http2.Utf8
