import Http2.Connection.Basic

/-!
# Reading a connection

`readAvailable` reads until the socket has no more, and feeds every byte to the codec. Each read goes
through a buffer that is shared with others; what was in it before the read stays behind the bytes
read.
-/

namespace Http2

/-- How reading ended. -/
inductive ReadOutcome where
  /-- The socket has no more bytes now. -/
  | drained
  /-- Interrupted before that; read again. -/
  | interrupted
  /-- The peer closed, the socket failed, or a frame was faulty. -/
  | closed
  deriving DecidableEq, Repr

/-- The buffer after bytes were stored at its front; it keeps its length. -/
def overlay (buffer front : Bytes) : Bytes :=
  front.take buffer.length ++ buffer.drop front.length

/-- What reading a connection left behind. -/
structure ReadResult (δ σ : Type) where
  connection : Connection δ σ
  buffer : Bytes
  outcome : ReadOutcome

namespace Connection

variable {δ σ : Type}

/-- Feeds bytes that were read to the codec. -/
def takeIn (c : Connection δ σ) (bytes : Bytes) : Connection δ σ × Option FrameError :=
  let received := c.endpoint.process c.handler bytes
  ({ c with
      endpoint := received.endpoint
      health := { c.health with bytesRead := c.health.bytesRead + bytes.length } },
    received.fault)

theorem socket_takeIn (c : Connection δ σ) (bytes : Bytes) :
    (c.takeIn bytes).1.socket = c.socket := rfl

/-- Reads until the socket would block. -/
def readAvailable (c : Connection δ σ) (buffer : Bytes) : ReadResult δ σ :=
  match _found : c.socket.read buffer.length with
  | (.ok bytes, socket) =>
    let c' := { c with socket }
    if _ended : bytes = [] then
      { connection := { c' with health := { c'.health with hungUp := true } }
        buffer
        outcome := .closed }
    else
      match _fed : c'.takeIn bytes with
      | (connection, none) => readAvailable connection (overlay buffer bytes)
      | (connection, some _) =>
        { connection, buffer := overlay buffer bytes, outcome := .closed }
  | (.error .wouldBlock, socket) =>
    { connection := { c with socket }, buffer, outcome := .drained }
  | (.error .interrupted, socket) =>
    { connection := { c with socket }, buffer, outcome := .interrupted }
  | (.error (.hard name), socket) =>
    { connection := ({ c with socket } : Connection δ σ).noteError (.hard name)
      buffer
      outcome := .closed }
termination_by c.socket.incomingWeight
decreasing_by
  have same := socket_takeIn { c with socket } bytes
  rw [_fed] at same
  rw [same]
  exact Socket.incomingWeight_read _found _ended

end Connection

end Http2
