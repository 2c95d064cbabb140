import Http2.Frame.Kind

/-!
# Stream states

A stream is one exchange on a connection. `transition` says what one frame does to it: receiving and
sending have separate tables, because the legal next state depends on which side produces the frame.
Both tables are total, so no frame is left without an answer.
-/

namespace Http2

/-- The state of a stream. -/
inductive StreamState where
  | idle
  | reservedLocal
  | reservedRemote
  | opened
  | halfClosedLocal
  | halfClosedRemote
  | closed
  deriving DecidableEq, Repr, Inhabited

/-- The name of a state, as it appears in messages. -/
def StreamState.name : StreamState → String
  | idle => "Idle"
  | reservedLocal => "ReservedLocal"
  | reservedRemote => "ReservedRemote"
  | opened => "Open"
  | halfClosedLocal => "HalfClosedLocal"
  | halfClosedRemote => "HalfClosedRemote"
  | closed => "Closed"

/-- Which side produced something: a stream (its origin) or a frame. -/
inductive Direction where
  /-- The peer. -/
  | inbound
  /-- This side. -/
  | outbound
  deriving DecidableEq, Repr, Inhabited

/-- The name of a direction. -/
def Direction.name : Direction → String
  | inbound => "Inbound"
  | outbound => "Outbound"

/-- A fault that closes one stream and leaves the connection usable. -/
inductive StreamError where
  | protocolError
  | streamClosed
  deriving DecidableEq, Repr

namespace StreamError

/-- The error code that a reset of the stream would carry. -/
def code : StreamError → UInt32
  | protocolError => 1
  | streamClosed => 5

/-- The text of a stream fault. -/
def message : StreamError → String
  | protocolError => "protocol error"
  | streamClosed => "stream closed"

end StreamError

/-- What one frame does to a stream. -/
inductive Transition where
  /-- The frame is legal and the stream is in this state after it. -/
  | accept (next : StreamState)
  /-- The frame is dropped without effect. -/
  | ignore
  /-- The received frame violates the state. -/
  | reject (fault : StreamError)
  /-- The frame must not be sent in this state. -/
  | refuse
  deriving DecidableEq, Repr

/-- The receive table. `last` says whether the frame ends the peer's side of the stream. -/
def StreamState.receive (state : StreamState) (kind : FrameKind) (last : Bool) : Transition :=
  match state with
  | .idle =>
    match kind with
    | .headers => .accept (if last then .halfClosedRemote else .opened)
    | .pushPromise => .accept .reservedRemote
    | _ => .reject .protocolError
  | .reservedRemote =>
    match kind with
    | .headers => .accept (if last then .closed else .halfClosedLocal)
    | .priority => .accept .reservedRemote
    | .rstStream => .accept .closed
    | _ => .reject .protocolError
  | .reservedLocal =>
    match kind with
    | .rstStream => .accept .closed
    | .priority | .windowUpdate => .accept .reservedLocal
    | _ => .reject .protocolError
  | .opened =>
    match kind with
    | .rstStream => .accept .closed
    | .headers | .data => .accept (if last then .halfClosedRemote else .opened)
    | .windowUpdate | .priority => .accept .opened
    | _ => .reject .protocolError
  | .halfClosedLocal =>
    match kind with
    | .rstStream => .accept .closed
    | .headers | .data => .accept (if last then .closed else .halfClosedLocal)
    | .windowUpdate | .priority => .accept .halfClosedLocal
    | _ => .reject .protocolError
  | .halfClosedRemote =>
    match kind with
    | .rstStream => .accept .closed
    | .windowUpdate | .priority => .accept .halfClosedRemote
    | _ => .reject .streamClosed
  | .closed =>
    match kind with
    | .priority | .rstStream | .windowUpdate => .ignore
    | _ => .reject .streamClosed

/-- The send table. `last` says whether the frame ends this side of the stream. -/
def StreamState.send (state : StreamState) (kind : FrameKind) (last : Bool) : Transition :=
  match state with
  | .idle =>
    match kind with
    | .headers => .accept (if last then .halfClosedLocal else .opened)
    | .pushPromise => .accept .reservedLocal
    | _ => .refuse
  | .reservedLocal =>
    match kind with
    | .headers => .accept (if last then .closed else .halfClosedRemote)
    | .rstStream => .accept .closed
    | .priority => .accept .reservedLocal
    | _ => .refuse
  | .reservedRemote =>
    match kind with
    | .rstStream => .accept .closed
    | .priority | .windowUpdate => .accept .reservedRemote
    | _ => .refuse
  | .opened =>
    match kind with
    | .rstStream => .accept .closed
    | .headers | .data => .accept (if last then .halfClosedLocal else .opened)
    | .windowUpdate | .priority => .accept .opened
    | _ => .refuse
  | .halfClosedRemote =>
    match kind with
    | .rstStream => .accept .closed
    | .headers | .data => .accept (if last then .closed else .halfClosedRemote)
    | .windowUpdate | .priority => .accept .halfClosedRemote
    | _ => .refuse
  | .halfClosedLocal =>
    match kind with
    | .rstStream => .accept .closed
    | .windowUpdate | .priority => .accept .halfClosedLocal
    | _ => .refuse
  | .closed =>
    match kind with
    | .priority => .ignore
    | _ => .refuse

/-- Whether a frame ends its side of the stream: the bit means so on DATA and HEADERS only. -/
def FrameKind.endsStream (kind : FrameKind) (flags : UInt8) : Bool :=
  (kind = .data || kind = .headers) && Flag.has flags Flag.endStream

/-- What a frame that is received or about to be sent does to a stream. -/
def StreamState.transition (state : StreamState) (direction : Direction) (kind : FrameKind)
    (flags : UInt8) : Transition :=
  match direction with
  | .inbound => state.receive kind (kind.endsStream flags)
  | .outbound => state.send kind (kind.endsStream flags)

end Http2
