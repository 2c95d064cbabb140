import Http2.Frame.Error

/-!
# Frame headers

Nine bytes precede every payload: length (24 bits), kind, flags, and a word whose high bit is
reserved and whose other 31 bits name a stream. Reading drops the reserved bit and writing clears it.
-/

namespace Http2

/-- The largest length that three bytes can carry. -/
def maxFrameLength : Nat := 0xFFFFFF

/-- The largest stream identifier, 31 bits. -/
def maxStreamId : UInt32 := 0x7FFFFFFF

/-- The number of bytes of a frame header. -/
def frameHeaderSize : Nat := 9

/-- The fields of a frame header. -/
structure FrameHeader where
  length : Nat
  kind : FrameKind
  flags : UInt8
  stream : UInt32
  deriving DecidableEq, Repr

namespace FrameHeader

/-- Reads a header from the first nine bytes; the rest is not looked at. -/
def parse? : Bytes → Option FrameHeader
  | l₀ :: l₁ :: l₂ :: code :: flags :: s₀ :: s₁ :: s₂ :: s₃ :: _ =>
    some {
      length := Bytes.toNat24 l₀ l₁ l₂
      kind := FrameKind.ofCode code
      flags
      stream := Bytes.toUInt32 s₀ s₁ s₂ s₃ &&& maxStreamId }
  | _ => none

/-- The nine bytes of a header. A length above 24 bits has no such form. -/
def encode? (h : FrameHeader) : Except Frame.Misuse Bytes :=
  if h.length ≤ maxFrameLength then
    .ok (Bytes.ofNat24 h.length ++ h.kind.code :: h.flags ::
      Bytes.ofUInt32 (h.stream &&& maxStreamId))
  else
    .error .headerLengthTooLarge

/-- The size of the frame that the header announces, header included. -/
def totalSize (h : FrameHeader) : Nat :=
  frameHeaderSize + h.length

/-- Whether the END_STREAM bit is set. -/
def isEndStream (h : FrameHeader) : Bool :=
  Flag.has h.flags Flag.endStream

/-- Whether the END_HEADERS bit is set. -/
def isEndHeaders (h : FrameHeader) : Bool :=
  Flag.has h.flags Flag.endHeaders

/-- Whether the PADDED bit is set. -/
def isPadded (h : FrameHeader) : Bool :=
  Flag.has h.flags Flag.padded

end FrameHeader

end Http2
