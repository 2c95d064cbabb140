import Http2.Codec.Receive
import Http2.Connection.Socket
import Http2.Request
import Http2.Worker.Chain

/-!
# Connections

A connection is a codec over a socket. It holds the frame being written, the request streams whose
bodies are still pulled, what is known about the health of the socket, and the work chains that it is
on.
-/

namespace Http2

/-- Names a connection: the worker it belongs to and a number that this worker never gives twice. -/
structure ConnectionId where
  worker : Nat
  serial : Nat
  deriving DecidableEq, Repr

namespace ConnectionId

/-- The two numbers with a colon between them. -/
def text (id : ConnectionId) : String :=
  toString id.worker ++ ":" ++ toString id.serial

/-- An identifier shown by its fields. -/
def describe (id : ConnectionId) : String :=
  Text.describe "ConnectionId" [("worker", toString id.worker), ("serial", toString id.serial)]

end ConnectionId

/-- A report shown by its fields. -/
def Readiness.describe (r : Readiness) : String :=
  Text.describe "EventSummary" [
    ("readable", Text.word r.readable),
    ("writable", Text.word r.writable),
    ("read_closed", Text.word r.readClosed),
    ("write_closed", Text.word r.writeClosed),
    ("error", Text.word r.error)]

/-- What is known about the health of a socket. -/
structure Health where
  connected : Bool := false
  /-- The peer has closed its side. -/
  hungUp : Bool := false
  error : Option SocketError := none
  lastReport : Option Readiness := none
  bytesRead : Nat := 0
  bytesWritten : Nat := 0
  deriving DecidableEq, Repr

/-- The health of a socket shown by its fields. -/
def Health.describe (h : Health) : String :=
  Text.describe "SocketState" [
    ("has_connected", Text.word h.connected),
    ("has_remote_hungup", Text.word h.hungUp),
    ("io_error", Text.optional (h.error.map SocketError.name)),
    ("last_event", Text.optional (h.lastReport.map Readiness.describe)),
    ("bytes_read", toString h.bytesRead),
    ("bytes_written", toString h.bytesWritten)]

/-- The membership shown as one number. -/
def Membership.describe (m : Membership) : String :=
  "ChainFlags(" ++ toString m.bits ++ ")"

/-- A codec over a socket, and the application behind it. -/
structure Connection (δ σ : Type) where
  id : ConnectionId
  socket : Socket
  handler : Handler δ σ
  endpoint : Endpoint δ σ
  /-- The frame being written, and how many of its bytes the socket has taken. -/
  sending : Option (Frame × Nat) := none
  health : Health := {}
  /-- The request streams whose bodies are still pulled, in turn order. -/
  inProgress : List UInt32 := []
  membership : Membership := {}

namespace Connection

variable {δ σ : Type}

/-- The codec. -/
def codec (c : Connection δ σ) : Codec δ :=
  c.endpoint.codec

/-- Replaces the codec. -/
def withCodec (c : Connection δ σ) (codec : Codec δ) : Connection δ σ :=
  { c with endpoint := { c.endpoint with codec } }

/-- Whether bytes wait to be written. -/
def hasPendingOutput (c : Connection δ σ) : Bool :=
  c.sending.isSome || c.codec.hasPendingOutput

/-- Whether request bodies are still pulled. -/
def hasRequestsInProgress (c : Connection δ σ) : Bool :=
  !c.inProgress.isEmpty

/-- Whether frames were queued since the last time this was asked. -/
def takeWriteSignal (c : Connection δ σ) : Bool × Connection δ σ :=
  let (signal, codec) := c.codec.takeWriteSignal
  (signal, c.withCodec codec)

/-- Stops pulling request bodies. -/
def abandonRequests (c : Connection δ σ) : Connection δ σ :=
  { c with inProgress := [] }

/-- Takes note of a readiness report. -/
def noteReport (c : Connection δ σ) (report : Readiness) : Connection δ σ :=
  { c with health := { c.health with
      connected := c.health.connected || report.writable
      hungUp := c.health.hungUp || report.readClosed
      lastReport := some report } }

/-- Takes note that the socket is connected. -/
def markConnected (c : Connection δ σ) : Connection δ σ :=
  { c with health := { c.health with connected := true } }

/-- Takes note of an error of the socket. -/
def noteError (c : Connection δ σ) (error : SocketError) : Connection δ σ :=
  { c with health := { c.health with error := some error } }

/-- A connection shown by its fields. -/
def describe (c : Connection δ σ) : String :=
  Text.describe "Connection" [
    ("id", c.id.describe),
    ("codec", c.codec.describe),
    ("state", c.health.describe),
    ("in_progress", Text.listing (c.inProgress.map fun id => toString id.toNat)),
    ("chains", c.membership.describe)]

end Connection

end Http2
