import Http2.Assembler
import Http2.HeaderBlock
import Http2.Stream.Registry

/-!
# One endpoint of a connection, without a socket

A codec takes received bytes and queues frames to send. It owns the frame under assembly, the
streams, the queue, and the counter for streams that this side opens. The header block that is open
is not stored: it follows from the last received frame and the flag on its stream.
-/

namespace Http2

/-- The largest number of payload bytes in the frames of one header block. -/
def maxHeaderBlockSize : Nat := 262144

/-- Payload limit of a codec that is given none. -/
def defaultMaxFrameSize : Nat := 16384

/-- Which end of the connection a codec is. -/
inductive Role where
  | client
  | server
  deriving DecidableEq, Repr

namespace Role

/-- The first stream that this end opens: odd for a client, even for a server. -/
def firstStreamId : Role → UInt32
  | client => 1
  | server => 2

/-- The name of a role. -/
def name : Role → String
  | client => "Client"
  | server => "Server"

end Role

/-- Why a frame cannot be queued. -/
inductive SendError where
  | unknownStream (id : UInt32)
  | illegalTransition (id : UInt32) (state : StreamState) (kind : FrameKind)
  | duplicateStream (id : UInt32)
  | idsExhausted
  | badField (fault : FieldError)
  deriving DecidableEq, Repr

/-- The text of a refused frame. -/
def SendError.message : SendError → String
  | unknownStream id => "stream " ++ toString id.toNat ++ " is not registered on this connection"
  | illegalTransition id state kind =>
    "cannot send " ++ kind.name ++ " on stream " ++ toString id.toNat ++ " in state " ++ state.name
  | duplicateStream id => "stream " ++ toString id.toNat ++ " is already registered"
  | idsExhausted => "stream identifiers exhausted"
  | badField fault => fault.message

/-- One endpoint of a connection. -/
structure Codec (δ : Type) where
  role : Role
  /-- Largest payload accepted or produced. -/
  maxFrameSize : Nat
  assembler : Assembler
  streams : Registry δ := {}
  /-- Frames to send, in order. -/
  outbound : List Frame := []
  /-- The next stream that this side opens. -/
  nextStreamId : UInt32
  /-- Kind and stream of the last received frame. -/
  lastFrame : Option (FrameKind × UInt32) := none
  /-- Whether frames were queued since the owner last asked. -/
  writeSignal : Bool := false

namespace Codec

variable {δ : Type}

/-- A fresh codec; the frame size is brought into the range from 1 to 2²⁴ - 1. -/
def create (role : Role) (maxFrameSize : Nat) : Codec δ :=
  let size := max 1 (min maxFrameSize maxFrameLength)
  { role, maxFrameSize := size, assembler := { limit := size }, nextStreamId := role.firstStreamId }

/-- The stream with an identifier. -/
def stream? (c : Codec δ) (id : UInt32) : Option (Stream δ) :=
  c.streams.get? id

/-- Whether frames wait in the queue. -/
def hasPendingOutput (c : Codec δ) : Bool :=
  !c.outbound.isEmpty

/-- The stream whose header block waits for CONTINUATION. -/
def openBlock? (c : Codec δ) : Option UInt32 :=
  match c.lastFrame with
  | none => none
  | some (kind, id) =>
    if kind.carriesHeaderBlock && (c.streams.get? id).any (·.awaiting) then some id else none

/-- Stores a stream. -/
def putStream (c : Codec δ) (s : Stream δ) : Codec δ :=
  { c with streams := c.streams.put s }

/-- A codec shown by its fields. -/
def describe (c : Codec δ) : String :=
  Text.describe "H2Codec" [
    ("role", c.role.name),
    ("max_frame_size", toString c.maxFrameSize),
    ("streams", toString c.streams.size),
    ("outbound", toString c.outbound.length),
    ("next_stream_id", toString c.nextStreamId.toNat)]

end Codec

end Http2
