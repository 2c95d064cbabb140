import Http2.Connection.Basic

/-!
# Writing a connection

`writePending` writes the queued frames in order and goes on where a frame was cut off. At every
moment the bytes taken by the socket, the rest of the frame being written and the queued frames make
up, in this order, all that was ever queued.
-/

namespace Http2

/-- How writing ended. -/
inductive WriteOutcome where
  /-- Every queued frame is written. -/
  | flushed
  /-- The socket takes no more now. -/
  | blocked
  /-- Interrupted before that; write again. -/
  | interrupted
  /-- The socket failed. -/
  | closed
  deriving DecidableEq, Repr

/-- What writing a connection left behind. -/
structure WriteResult (δ σ : Type) where
  connection : Connection δ σ
  outcome : WriteOutcome

namespace Connection

variable {δ σ : Type}

/-- The frame being written and its position, or the next one in the queue from its first byte. -/
def nextToSend (c : Connection δ σ) : Option ((Frame × Nat) × Connection δ σ) :=
  match c.sending with
  | some current => some (current, c)
  | none =>
    match c.codec.popOutbound with
    | (none, _) => none
    | (some frame, codec) => some ((frame, 0), { c.withCodec codec with sending := some (frame, 0) })

/-- Takes note of bytes taken by the socket. -/
def advance (c : Connection δ σ) (frame : Frame) (cursor count : Nat) : Connection δ σ :=
  { c with
    sending :=
      if cursor + count = frame.toBytes.length then none else some (frame, cursor + count)
    health := { c.health with bytesWritten := c.health.bytesWritten + count } }

/-- The number of frames not yet written as a whole. -/
def unsentFrames (c : Connection δ σ) : Nat :=
  c.codec.outbound.length + c.sending.toList.length

/-- The frame that is to be sent is the one in progress or the foremost queued, and it is in progress
then. -/
theorem nextToSend_eq {c c' : Connection δ σ} {frame : Frame} {cursor : Nat}
    (next : c.nextToSend = some ((frame, cursor), c')) :
    c'.unsentFrames = c.unsentFrames ∧ c'.socket = c.socket ∧
      c'.sending = some (frame, cursor) := by
  unfold nextToSend at next
  split at next
  · rename_i current sending
    simp only [Option.some.injEq, Prod.mk.injEq] at next
    obtain ⟨rfl, rfl⟩ := next
    exact ⟨rfl, rfl, sending⟩
  · rename_i sending
    split at next
    · simp at next
    · rename_i popped codec pop
      simp only [Option.some.injEq, Prod.mk.injEq] at next
      obtain ⟨⟨rfl, rfl⟩, rfl⟩ := next
      refine ⟨?_, rfl, rfl⟩
      unfold Codec.popOutbound at pop
      split at pop
      · simp at pop
      · rename_i queue
        simp only [Prod.mk.injEq, Option.some.injEq] at pop
        obtain ⟨rfl, rfl⟩ := pop
        simp [unsentFrames, Connection.codec, withCodec, sending] at queue ⊢
        simp [queue]

/-- A write that takes some bytes uses up a step of the script or finishes a frame. -/
theorem advance_progress {c : Connection δ σ} {frame : Frame} {cursor count : Nat} {socket : Socket}
    (sending : c.sending = some (frame, cursor))
    (written : c.socket.write (frame.toBytes.drop cursor) = (.ok count, socket))
    (some : count ≠ 0) :
    socket.outgoing.length
        + (({ c with socket } : Connection δ σ).advance frame cursor count).unsentFrames
      < c.socket.outgoing.length + c.unsentFrames := by
  simp only [unsentFrames, advance, Connection.codec, sending]
  rcases Socket.write_progress written with shorter | ⟨equal, whole⟩
  · split <;> simp <;> omega
  · have ends : cursor + count = frame.toBytes.length := by
      simp only [List.length_drop] at whole
      omega
    rw [if_pos ends, equal]
    simp

/-- Writes until every frame is written or the socket takes no more. -/
def writeLoop (c : Connection δ σ) : WriteResult δ σ :=
  match _next : c.nextToSend with
  | none => { connection := c, outcome := .flushed }
  | some ((frame, cursor), loaded) =>
    match _written : loaded.socket.write (frame.toBytes.drop cursor) with
    | (.ok count, socket) =>
      if _stuck : count = 0 then
        { connection := ({ loaded with socket } : Connection δ σ).noteError .writeZero
          outcome := .closed }
      else
        writeLoop (({ loaded with socket } : Connection δ σ).advance frame cursor count)
    | (.error .wouldBlock, socket) =>
      { connection := { loaded with socket }, outcome := .blocked }
    | (.error .interrupted, socket) =>
      { connection := { loaded with socket }, outcome := .interrupted }
    | (.error (.hard name), socket) =>
      { connection := ({ loaded with socket } : Connection δ σ).noteError (.hard name)
        outcome := .closed }
termination_by c.socket.outgoing.length + c.unsentFrames
decreasing_by
  obtain ⟨frames, same, sending⟩ := nextToSend_eq _next
  rw [← frames, ← same]
  exact advance_progress sending _written _stuck

/-- Writes the queued frames, and takes note that they were looked at. -/
def writePending (c : Connection δ σ) : WriteResult δ σ :=
  c.takeWriteSignal.2.writeLoop

end Connection

end Http2
