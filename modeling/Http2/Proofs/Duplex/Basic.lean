import Http2.Proofs.Codec.Conversation
import Mathlib.Logic.Function.Basic

/-!
# Two endpoints joined by two channels

A client and a server, each with its own application and handler. Either end may play a script, write
the next frame of its queue, or read some of the bytes that the other end has written, in any order.
The ends keep histories, and the channels keep the frames that they have carried.
-/

namespace Http2

namespace Role

@[simp] theorem peer_peer (role : Role) : role.peer.peer = role := by
  cases role <;> rfl

theorem peer_ne (role : Role) : role.peer ≠ role := by
  cases role <;> decide

/-- What holds of one end and of the other one holds of both. -/
theorem both {P : Role → Prop} (role : Role) (here : P role) (there : P role.peer) (other : Role) :
    P other := by
  cases role <;> cases other <;> assumption

/-- No stream is opened by both ends. -/
theorem not_opens_peer {role : Role} {id : UInt32} (opens : role.Opens id) :
    ¬role.peer.Opens id := by
  intro also
  have same : role.firstStreamId.toNat % 2 = role.peer.firstStreamId.toNat % 2 :=
    opens.symm.trans also
  cases role <;> exact absurd same (by decide)

end Role

/-- Two endpoints and what is under way between them. -/
structure Duplex (δ σ : Role → Type) where
  ends : ∀ role, Endpoint (δ role) (σ role × List (Event (δ role)))
  /-- The bytes that one end has written and the other one has not read. -/
  wire : Role → Bytes
  /-- The frames that one end has written. -/
  carried : Role → List Frame

namespace Duplex

variable {δ σ : Role → Type}

/-- The frames that wait at one end. -/
def queue (d : Duplex δ σ) (role : Role) : List Frame :=
  (d.ends role).codec.outbound

/-- The bytes of an incomplete frame that one end holds. -/
def held (d : Duplex δ σ) (role : Role) : Bytes :=
  (d.ends role).codec.assembler.progress.buffer

/-- The history of one end. -/
def log (d : Duplex δ σ) (role : Role) : List (Event (δ role)) :=
  (d.ends role).app.2

/-- Only allowed operations were performed. -/
def Orderly (d : Duplex δ σ) : Prop :=
  ∀ role, Http2.Orderly (d.log role)

/-- Nothing is under way. -/
def Settled (d : Duplex δ σ) : Prop :=
  ∀ role, d.wire role = [] ∧ d.queue role = []

/-- A frame of the stream has been written by either end. -/
def Carried (d : Duplex δ σ) (id : UInt32) : Prop :=
  ∃ role, ∃ f ∈ d.carried role, f.stream = id

/-! ## Steps -/

/-- Two fresh codecs with the same frame size, before anything happens. -/
def start (maxFrameSize : Nat) (apps : ∀ role, σ role) : Duplex δ σ where
  ends role := { codec := .create role maxFrameSize, app := (apps role, []) }
  wire _ := []
  carried _ := []

/-- One end has gone on, and has left some of the bytes on the wire unread. -/
def replace (d : Duplex δ σ) (role : Role) (e : Endpoint (δ role) (σ role × List (Event (δ role))))
    (unread : Bytes) : Duplex δ σ :=
  { d with
    ends := Function.update d.ends role e
    wire := Function.update d.wire role.peer unread }

/-- One end plays a script of its own. -/
def act (d : Duplex δ σ) (role : Role) (s : σ role → Script (δ role) (σ role)) : Duplex δ σ :=
  d.replace role ((d.ends role).act s) (d.wire role.peer)

/-- One end has written a frame, and is left with a codec. -/
def write (d : Duplex δ σ) (role : Role) (f : Frame) (codec : Codec (δ role)) : Duplex δ σ where
  ends := Function.update d.ends role { d.ends role with codec }
  wire := Function.update d.wire role (d.wire role ++ f.toBytes)
  carried := Function.update d.carried role (d.carried role ++ [f])

/-- One end writes the next frame of its queue, if there is one. -/
def transmit (d : Duplex δ σ) (role : Role) : Duplex δ σ :=
  match (d.ends role).codec.popOutbound with
  | (none, _) => d
  | (some f, codec) => d.write role f codec

/-- What comes of it when one end reads the next `count` bytes. -/
def reading (h : ∀ role, Handler (δ role) (σ role)) (d : Duplex δ σ) (role : Role) (count : Nat) :
    Received (δ role) (σ role × List (Event (δ role))) :=
  (d.ends role).process (h role).traced ((d.wire role.peer).take count)

/-- One end reads the next `count` bytes. -/
def deliver (h : ∀ role, Handler (δ role) (σ role)) (d : Duplex δ σ) (role : Role) (count : Nat) :
    Duplex δ σ :=
  d.replace role (d.reading h role count).endpoint ((d.wire role.peer).drop count)

/-- One step of either end. -/
inductive Step (h : ∀ role, Handler (δ role) (σ role)) (d : Duplex δ σ) : Duplex δ σ → Prop
  | act (role : Role) (s : σ role → Script (δ role) (σ role)) : Step h d (d.act role s)
  | transmit (role : Role) : Step h d (d.transmit role)
  | deliver (role : Role) (count : Nat) : Step h d (d.deliver h role count)

/-- What steps lead to, in any order, while only allowed operations are performed. -/
inductive Reachable (h : ∀ role, Handler (δ role) (σ role)) (maxFrameSize : Nat)
    (apps : ∀ role, σ role) : Duplex δ σ → Prop
  | start : Reachable h maxFrameSize apps (.start maxFrameSize apps)
  | step {d d' : Duplex δ σ} (before : Reachable h maxFrameSize apps d) (step : Step h d d')
      (orderly : d'.Orderly) : Reachable h maxFrameSize apps d'

section Replace

variable (d : Duplex δ σ) (role : Role) (e : Endpoint (δ role) (σ role × List (Event (δ role))))
  (unread : Bytes)

@[simp] theorem ends_replace : (d.replace role e unread).ends role = e := by
  simp [replace]

@[simp] theorem ends_replace_peer :
    (d.replace role e unread).ends role.peer = d.ends role.peer := by
  simp [replace, role.peer_ne]

@[simp] theorem wire_replace : (d.replace role e unread).wire role = d.wire role := by
  simp [replace, role.peer_ne.symm]

@[simp] theorem wire_replace_peer : (d.replace role e unread).wire role.peer = unread := by
  simp [replace]

@[simp] theorem queue_replace : (d.replace role e unread).queue role = e.codec.outbound := by
  rw [queue, ends_replace]

@[simp] theorem queue_replace_peer :
    (d.replace role e unread).queue role.peer = d.queue role.peer := by
  rw [queue, ends_replace_peer, queue]

@[simp] theorem carried_replace : (d.replace role e unread).carried = d.carried := rfl

end Replace

section Write

variable (d : Duplex δ σ) (role : Role) (f : Frame) (c : Codec (δ role))

@[simp] theorem ends_write : (d.write role f c).ends role = { d.ends role with codec := c } := by
  simp [write]

@[simp] theorem ends_write_peer : (d.write role f c).ends role.peer = d.ends role.peer := by
  simp [write, role.peer_ne]

@[simp] theorem wire_write : (d.write role f c).wire role = d.wire role ++ f.toBytes := by
  simp [write]

@[simp] theorem wire_write_peer : (d.write role f c).wire role.peer = d.wire role.peer := by
  simp [write, role.peer_ne]

@[simp] theorem carried_write : (d.write role f c).carried role = d.carried role ++ [f] := by
  simp [write]

@[simp] theorem carried_write_peer : (d.write role f c).carried role.peer = d.carried role.peer := by
  simp [write, role.peer_ne]

@[simp] theorem queue_write : (d.write role f c).queue role = c.outbound := by
  rw [queue, ends_write]

@[simp] theorem queue_write_peer : (d.write role f c).queue role.peer = d.queue role.peer := by
  rw [queue, ends_write_peer, queue]

end Write

end Duplex

end Http2
