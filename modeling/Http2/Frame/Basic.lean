import Http2.Frame.Header
import Http2.Text.Quoted

/-!
# Frames

A frame is a header and a payload. Its length is the number of its payload bytes, so it is not
stored; the reserved bit is kept as received. `toBytes` is the wire form, and `ofBytes?` accepts
exactly the byte strings whose declared length is the number of bytes after the header.
-/

namespace Http2

/-- One frame. -/
structure Frame where
  /-- The kind byte. -/
  code : UInt8
  flags : UInt8
  /-- The reserved bit and the stream identifier, as on the wire. -/
  word : UInt32
  payload : Bytes
  deriving DecidableEq, Repr, Inhabited

namespace Frame

/-- The kind of the frame. -/
def kind (f : Frame) : FrameKind :=
  FrameKind.ofCode f.code

/-- The stream identifier, without the reserved bit. -/
def stream (f : Frame) : UInt32 :=
  f.word &&& maxStreamId

/-- The reserved bit, 0 or 1. -/
def reserved (f : Frame) : UInt32 :=
  f.word >>> 31

/-- The number of payload bytes. -/
def length (f : Frame) : Nat :=
  f.payload.length

/-- Whether the frame has one of the flags of a mask. -/
def hasFlag (f : Frame) (mask : UInt8) : Bool :=
  Flag.has f.flags mask

/-- The header of the frame. -/
def header (f : Frame) : FrameHeader where
  length := f.length
  kind := f.kind
  flags := f.flags
  stream := f.stream

/-- The nine bytes before the payload, reserved bit included. -/
def headBytes (f : Frame) : Bytes :=
  Bytes.ofNat24 f.length ++ f.code :: f.flags :: Bytes.ofUInt32 f.word

/-- The wire form. -/
def toBytes (f : Frame) : Bytes :=
  f.headBytes ++ f.payload

/-- The frame with the given fields, whatever the length of its payload. -/
def ofParts (kind : FrameKind) (flags : UInt8) (stream : UInt32) (payload : Bytes) : Frame where
  code := kind.code
  flags
  word := stream &&& maxStreamId
  payload

/-- The frame with the given fields; a payload above 24 bits of length is refused. -/
def create? (kind : FrameKind) (flags : UInt8) (stream : UInt32) (payload : Bytes) :
    Except Misuse Frame :=
  if payload.length ≤ maxFrameLength then
    .ok (ofParts kind flags stream payload)
  else
    .error .payloadTooLarge

/-- The frame of all zeros with `size` payload bytes. -/
def zeroed? (size : Nat) : Except Misuse Frame :=
  if size ≤ maxFrameLength then
    .ok { code := 0, flags := 0, word := 0, payload := List.replicate size 0 }
  else
    .error .payloadTooLarge

/-- Reads a frame that takes up a whole byte string. -/
def ofBytes? : Bytes → Except FrameError Frame
  | l₀ :: l₁ :: l₂ :: code :: flags :: s₀ :: s₁ :: s₂ :: s₃ :: payload =>
    if Bytes.toNat24 l₀ l₁ l₂ = payload.length then
      .ok { code, flags, word := Bytes.toUInt32 s₀ s₁ s₂ s₃, payload }
    else
      .error (.lengthMismatch (Bytes.toNat24 l₀ l₁ l₂) payload.length)
  | short => .error (.tooShort short.length)

/-- The payload length that the first three bytes of a region declare. -/
def declaredLength (region : Bytes) : Nat :=
  Bytes.toNat24 (region.getD 0 0) (region.getD 1 0) (region.getD 2 0)

/-- The frame that takes up a region whose declared length is known to be right. Only the nine header
bytes are looked at; missing ones count as zero. -/
def ofRegion (region : Bytes) : Frame where
  code := region.getD 3 0
  flags := region.getD 4 0
  word := Bytes.toUInt32 (region.getD 5 0) (region.getD 6 0) (region.getD 7 0) (region.getD 8 0)
  payload := region.drop frameHeaderSize

/-- Sets the kind. -/
def withKind (f : Frame) (kind : FrameKind) : Frame :=
  { f with code := kind.code }

/-- Sets the flags. -/
def withFlags (f : Frame) (flags : UInt8) : Frame :=
  { f with flags }

/-- Sets the stream identifier and clears the reserved bit. -/
def withStream (f : Frame) (stream : UInt32) : Frame :=
  { f with word := stream &&& maxStreamId }

/-- Overwrites the payload bytes from the front; neither their number nor the rest changes. -/
def overwrite (f : Frame) (front : Bytes) : Frame :=
  { f with payload := front.take f.length ++ f.payload.drop front.length }

/-- Cuts the payload down to `length` bytes. -/
def shrink? (f : Frame) (length : Nat) : Except Misuse Frame :=
  if length ≤ f.length then
    .ok { f with payload := f.payload.take length }
  else
    .error (.beyondCapacity length f.length)

/-- Replaces the payload by one that is not longer. -/
def replace? (f : Frame) (payload : Bytes) : Except Misuse Frame :=
  if payload.length ≤ f.length then
    .ok { f with payload }
  else
    .error (.beyondCapacity payload.length f.length)

/-- A frame shown by its header. -/
def describe (f : Frame) : String :=
  Text.describe "Frame" [
    ("type", f.kind.name),
    ("flags", toString f.flags.toNat),
    ("stream_id", toString f.stream.toNat),
    ("length", toString f.length)]

/-- The payload bytes of a list of frames, counted together. -/
def payloadSize : List Frame → Nat
  | [] => 0
  | f :: rest => f.length + payloadSize rest

theorem payloadSize_append (front back : List Frame) :
    payloadSize (front ++ back) = payloadSize front + payloadSize back := by
  induction front with
  | nil => simp [payloadSize]
  | cons f front ih => simp [payloadSize, ih, Nat.add_assoc]

@[simp] theorem length_headBytes (f : Frame) : f.headBytes.length = frameHeaderSize := by
  simp [headBytes, frameHeaderSize]

@[simp] theorem length_toBytes (f : Frame) : f.toBytes.length = frameHeaderSize + f.length := by
  simp [toBytes, length]

end Frame

end Http2
