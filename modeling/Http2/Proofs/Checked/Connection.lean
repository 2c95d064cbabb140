import Http2.Proofs.Checked.Receiving
import Http2.Proofs.Connection.Serving

/-!
# Connections, with every access checked

A connection gives its codec the front of a buffer, writes what a cursor has left of a frame, and
queues the front of a buffer that the application filled; the cursor is counted in a word. None of this
is cut short on a sound connection, because a socket reports no more bytes than it was given: `turn_eq`.
So no run is ever cut short, of a codec by itself or of a connection: `nothing_is_cut_short`.
-/

namespace Http2

variable {δ σ : Type}

namespace Checked

/-! ## Reading -/

/-- Feeds bytes that were read to the codec. -/
def takeIn (c : Connection δ σ) (bytes : Bytes) : Checked (Connection δ σ × Option FrameError) := do
  let received ← process c.handler c.endpoint bytes
  return ({ c with
      endpoint := received.endpoint
      health := { c.health with bytesRead := c.health.bytesRead + bytes.length } },
    received.fault)

/-- Reads until the socket would block. -/
def readAvailable (c : Connection δ σ) (buffer : Bytes) : Checked (ReadResult δ σ) :=
  match c.socket.read buffer.length with
  | (.ok bytes, socket) =>
    let c' := { c with socket }
    if bytes = [] then
      return {
        connection := { c' with health := { c'.health with hungUp := true } }
        buffer
        outcome := .closed }
    else do
      let filled := overlay buffer bytes
      match ← takeIn c' (← slice filled 0 bytes.length) with
      | (connection, none) =>
        again connection.socket.incomingWeight c.socket.incomingWeight fun _ =>
          readAvailable connection filled
      | (connection, some _) => return { connection, buffer := filled, outcome := .closed }
  | (.error .wouldBlock, socket) =>
    return { connection := { c with socket }, buffer, outcome := .drained }
  | (.error .interrupted, socket) =>
    return { connection := { c with socket }, buffer, outcome := .interrupted }
  | (.error (.hard name), socket) =>
    return {
      connection := ({ c with socket } : Connection δ σ).noteError (.hard name)
      buffer
      outcome := .closed }
termination_by c.socket.incomingWeight

/-- What was read stands at the front of the buffer. -/
theorem slice_overlay {buffer front : Bytes} (fits : front.length ≤ buffer.length) :
    slice (overlay buffer front) 0 front.length = pure front := by
  have inside : front.length ≤ (overlay buffer front).length := by
    rwa [Connection.length_overlay]
  rw [slice_eq (Nat.zero_le _) inside, overlay, List.take_of_length_le fits, List.take_left,
    List.drop_zero]

/-- Taking in bytes traps nowhere on a sound connection. -/
theorem takeIn_eq {c : Connection δ σ} (sound : c.Sound) (bytes : Bytes) :
    takeIn c bytes = pure (c.takeIn bytes) := by
  have processed : process c.handler c.endpoint bytes = pure (c.endpoint.process c.handler bytes) :=
    process_eq sound.reachable.framed sound.reachable.consistent bytes
  rw [takeIn, processed, pure_bind]
  rfl

/-- Reading until the socket blocks, ends or fails traps nowhere on a sound connection, and terminates. -/
theorem readAvailable_eq {c : Connection δ σ} (sound : c.Sound) (buffer : Bytes) :
    readAvailable c buffer = pure (c.readAvailable buffer) := by
  induction c, buffer using Connection.readAvailable.induct_unfolding with
  | case1 c buffer socket c' found =>
    rw [readAvailable, found]
    rfl
  | case2 c buffer bytes socket found c' some connection fed ih =>
    have next : c'.Sound := sound.meet socket c.health
    have taken : takeIn c' bytes = pure (connection, none) := by rw [takeIn_eq next, fed]
    have after := next.takeIn bytes
    have same := Connection.socket_takeIn c' bytes
    rw [fed] at after same
    have nearer : connection.socket.incomingWeight < c.socket.incomingWeight :=
      same ▸ Socket.incomingWeight_read found some
    rw [readAvailable, found]
    simp only [if_neg some, slice_overlay (Socket.length_of_read found), pure_bind]
    rw [taken, pure_bind]
    exact (again_eq nearer _).trans (ih after)
  | case3 c buffer bytes socket found c' some connection fault fed =>
    have next : c'.Sound := sound.meet socket c.health
    have taken : takeIn c' bytes = pure (connection, .some fault) := by rw [takeIn_eq next, fed]
    rw [readAvailable, found]
    simp only [if_neg some, slice_overlay (Socket.length_of_read found), pure_bind]
    rw [taken, pure_bind]
  | case4 c buffer socket found => rw [readAvailable, found]
  | case5 c buffer socket found => rw [readAvailable, found]
  | case6 c buffer name socket found => rw [readAvailable, found]

/-! ## Writing -/

/-- Takes note of bytes taken by the socket. -/
def advance (c : Connection δ σ) (frame : Frame) (cursor count : Nat) :
    Checked (Connection δ σ) := do
  let moved ← add wordLimit cursor count
  return { c with
    sending := if moved = frame.toBytes.length then none else some (frame, moved)
    health := { c.health with bytesWritten := c.health.bytesWritten + count } }

/-- Writes until every frame is written or the socket takes no more. -/
def writeLoop (c : Connection δ σ) : Checked (WriteResult δ σ) :=
  match c.nextToSend with
  | none => return { connection := c, outcome := .flushed }
  | some ((frame, cursor), loaded) => do
    match loaded.socket.write (← sliceFrom frame.toBytes cursor) with
    | (.ok count, socket) =>
      if count = 0 then
        return {
          connection := ({ loaded with socket } : Connection δ σ).noteError .writeZero
          outcome := .closed }
      else
        let moved ← advance { loaded with socket } frame cursor count
        again (moved.socket.outgoing.length + moved.unsentFrames)
          (c.socket.outgoing.length + c.unsentFrames) fun _ => writeLoop moved
    | (.error .wouldBlock, socket) =>
      return { connection := { loaded with socket }, outcome := .blocked }
    | (.error .interrupted, socket) =>
      return { connection := { loaded with socket }, outcome := .interrupted }
    | (.error (.hard name), socket) =>
      return {
        connection := ({ loaded with socket } : Connection δ σ).noteError (.hard name)
        outcome := .closed }
termination_by c.socket.outgoing.length + c.unsentFrames

/-- Writes the queued frames, and takes note that they were looked at. -/
def writePending (c : Connection δ σ) : Checked (WriteResult δ σ) :=
  writeLoop c.takeWriteSignal.2

/-- The end of a frame that fits its length field can be counted. -/
theorem advance_eq (c : Connection δ σ) {frame : Frame} {cursor count : Nat}
    (fits : frame.length ≤ maxFrameLength) (inside : cursor + count ≤ frame.toBytes.length) :
    advance c frame cursor count = pure (c.advance frame cursor count) := by
  have counted : cursor + count < wordLimit := by
    rw [Frame.length_toBytes, frameHeaderSize] at inside
    simp only [maxFrameLength] at fits
    simp only [wordLimit]
    omega
  rw [advance, add_eq counted, pure_bind]
  rfl

/-- The cursor is inside the frame that is written next. -/
theorem cursor_of_next {c loaded : Connection δ σ} (sound : c.Sound) {frame : Frame} {cursor : Nat}
    (next : c.nextToSend = some ((frame, cursor), loaded)) :
    frame.length ≤ maxFrameLength ∧ cursor ≤ frame.toBytes.length :=
  (sound.nextToSend next).cursor frame cursor (Connection.nextToSend_eq next).2.2

/-- Writing until the socket blocks or nothing is left traps nowhere on a sound connection, and
terminates. -/
theorem writeLoop_eq {c : Connection δ σ} (sound : c.Sound) :
    writeLoop c = pure c.writeLoop := by
  induction c using Connection.writeLoop.induct_unfolding with
  | case1 c none => rw [writeLoop, none]
  | case2 c frame cursor loaded next socket written =>
    have sent := sliceFrom_eq (cursor_of_next sound next).2
    rw [writeLoop, next]
    simp only [sent, pure_bind, written, if_true]
  | case3 c frame cursor loaded next count socket written stuck ih =>
    have ready := sound.nextToSend next
    obtain ⟨frames, same, sending⟩ := Connection.nextToSend_eq next
    obtain ⟨fits, inside⟩ := cursor_of_next sound next
    have moved := Socket.add_le_of_write inside written
    have nearer := Connection.advance_progress sending written stuck
    rw [frames, same] at nearer
    rw [writeLoop, next]
    simp only [sliceFrom_eq inside, pure_bind, written, if_neg stuck, advance_eq _ fits moved]
    exact (again_eq nearer _).trans
      (ih ((ready.meet socket loaded.health).advance sending moved))
  | case4 c frame cursor loaded next socket written =>
    have sent := sliceFrom_eq (cursor_of_next sound next).2
    rw [writeLoop, next]
    simp only [sent, pure_bind, written]
  | case5 c frame cursor loaded next socket written =>
    have sent := sliceFrom_eq (cursor_of_next sound next).2
    rw [writeLoop, next]
    simp only [sent, pure_bind, written]
  | case6 c frame cursor loaded next name socket written =>
    have sent := sliceFrom_eq (cursor_of_next sound next).2
    rw [writeLoop, next]
    simp only [sent, pure_bind, written]

/-! ## Requests -/

/-- Opens a stream for a request and queues its headers. -/
def startRequest (c : Connection δ σ) (request : Request δ) :
    Checked (Except SendError UInt32 × Connection δ σ) := do
  match ← openStream c.codec with
  | (.error fault, codec) => return (.error fault, c.withCodec codec)
  | (.ok id, opened) =>
    let attached :=
      match request.userData with
      | none => (Except.ok (), opened)
      | some value => opened.setUserData id value
    match attached with
    | (.error fault, codec) => return (.error fault, c.withCodec codec)
    | (.ok (), ready) =>
      match ← pushHeaders ready id request.fields (!request.hasBody) with
      | (.error fault, codec) => return (.error fault, c.withCodec codec)
      | (.ok (), queued) =>
        let c := c.withCodec queued
        return (.ok id, if request.hasBody then { c with inProgress := c.inProgress ++ [id] } else c)

/-- Asks the application for the next piece of one body and queues it. -/
def pullBody (c : Connection δ σ) (buffer : Bytes) (id : UInt32) :
    Checked (Connection δ σ × Bytes) := do
  let (reply, codec) ← run (c.handler.onDataNeeded c.endpoint.app id buffer) c.codec
  let buffer := overlay buffer reply.stored
  let piece ← slice buffer 0 (min reply.chunk.written buffer.length)
  match ← pushData codec id piece reply.chunk.finished with
  | (.error _, codec) => return ({ c with endpoint := { codec, app := reply.app } }, buffer)
  | (.ok (), codec) =>
    let c := { c with endpoint := { codec, app := reply.app } }
    return (if reply.chunk.finished then c else { c with inProgress := c.inProgress ++ [id] }, buffer)

/-- Asks once for each body in progress. -/
def pullBodies (c : Connection δ σ) (buffer : Bytes) : Checked (Connection δ σ × Bytes) :=
  c.inProgress.foldlM (fun (c, buffer) id => pullBody c buffer id)
    ({ c with inProgress := [] }, buffer)

/-- Starting a request traps nowhere on a sound connection, whatever the request asks for. -/
theorem startRequest_eq {c : Connection δ σ} (sound : c.Sound) (request : Request δ) :
    startRequest c request = pure (c.startRequest request) := by
  have opens := sound.reachable.perform .openStream
  simp only [Codec.perform] at opens
  rw [startRequest, openStream_eq, pure_bind, Connection.startRequest]
  rcases result : c.codec.openStream with ⟨fault | id, opened⟩
  · rfl
  · rw [result] at opens
    simp only
    cases request.userData with
    | none =>
      simp only [pushHeaders_eq opens.framed, pure_bind]
      rcases opened.pushHeaders id request.fields !request.hasBody with ⟨fault | ⟨⟩, queued⟩ <;> rfl
    | some value =>
      have stored := opens.perform (.setUserData id value)
      simp only [Codec.perform] at stored
      dsimp only
      generalize opened.setUserData id value = attached at stored ⊢
      obtain ⟨fault | ⟨⟩, ready⟩ := attached
      · rfl
      · simp only [pushHeaders_eq stored.framed, pure_bind]
        rcases ready.pushHeaders id request.fields !request.hasBody with ⟨fault | ⟨⟩, queued⟩ <;> rfl

/-- Asking for a body traps nowhere on a sound connection, whatever the handler answers. -/
theorem pullBody_eq {c : Connection δ σ} (sound : c.Sound) (buffer : Bytes) (id : UInt32) :
    pullBody c buffer id = pure (c.pullBody buffer id) := by
  have answered := sound.reachable.run (c.handler.onDataNeeded c.endpoint.app id buffer)
  rw [pullBody, run_eq sound.reachable.framed, pure_bind, Connection.pullBody]
  simp only [slice_eq (Nat.zero_le _) (Nat.min_le_right _ _), pure_bind, List.drop_zero,
    pushData_eq answered.framed]
  rcases Codec.pushData _ _ _ _ with ⟨fault | ⟨⟩, queued⟩ <;> rfl

/-- Asking for every open body traps nowhere on a sound connection. -/
theorem pullBodies_eq {c : Connection δ σ} (sound : c.Sound) (buffer : Bytes) :
    pullBodies c buffer = pure (c.pullBodies buffer) := by
  unfold pullBodies Connection.pullBodies
  have emptied : ({ c with inProgress := [] } : Connection δ σ).Sound :=
    sound.of_reachable sound.reachable rfl
  generalize ({ c with inProgress := [] } : Connection δ σ) = current at emptied
  induction c.inProgress generalizing current buffer with
  | nil => rfl
  | cons id ids ih =>
    simp only [List.foldlM_cons, pullBody_eq emptied, pure_bind, List.foldl_cons]
    exact ih _ _ (emptied.pullBody buffer id)

/-! ## All turns -/

/-- The connection after one turn. -/
def turn (c : Connection δ σ) : Connection.Turn δ σ → Checked (Connection δ σ)
  | .read buffer => return (← readAvailable c buffer).connection
  | .write => return (← writePending c).connection
  | .start request => return (← startRequest c request).2
  | .pull buffer => return (← pullBodies c buffer).1
  | .abandon => return c.abandonRequests
  | .deed deed => return { c with endpoint := ← after c.handler c.endpoint deed }
  | .meet socket health => return { c with socket, health }

/-- The connection after any number of turns. -/
def serve (c : Connection δ σ) : List (Connection.Turn δ σ) → Checked (Connection δ σ)
  | [] => return c
  | t :: turns => do serve (← turn c t) turns

/-- No turn of a sound connection is cut short. -/
theorem turn_eq {c : Connection δ σ} (sound : c.Sound) (t : Connection.Turn δ σ) :
    turn c t = pure (c.turn t) := by
  cases t with
  | read buffer =>
    rw [turn, readAvailable_eq sound, pure_bind]
    rfl
  | write =>
    rw [turn, writePending, writeLoop_eq sound.takeWriteSignal, pure_bind]
    rfl
  | start request =>
    rw [turn, startRequest_eq sound, pure_bind]
    rfl
  | pull buffer =>
    rw [turn, pullBodies_eq sound, pure_bind]
    rfl
  | abandon => rfl
  | deed deed =>
    rw [turn, after_eq sound.reachable, pure_bind]
    rfl
  | meet socket health => rfl

/-- No run of a sound connection is cut short, and every run ends. -/
theorem serve_eq {c : Connection δ σ} (sound : c.Sound) (turns : List (Connection.Turn δ σ)) :
    serve c turns = pure (c.serve turns) := by
  induction turns generalizing c with
  | nil => rfl
  | cons t turns ih =>
    rw [serve, turn_eq sound, pure_bind]
    exact ih (sound.turn t)

end Checked

/-! ## Nothing is cut short -/

/-- For every role and every number given as the frame size, nothing that is done to a fresh codec is
cut short, neither by itself nor over a socket: with every access checked, every run ends and gives
what it gives without the checks. -/
theorem nothing_is_cut_short (role : Role) (maxFrameSize : UInt32) (h : Handler δ σ) (app : σ) :
    (∀ deeds : List (Deed δ σ),
      (do
        let codec ← Checked.createCodec role maxFrameSize
        Checked.live h { codec, app } deeds) =
      pure (Endpoint.live h { codec := .create role maxFrameSize.toNat, app } deeds)) ∧
    ∀ (id : ConnectionId) (socket : Socket) (turns : List (Connection.Turn δ σ)),
      (do
        let codec ← Checked.createCodec role maxFrameSize
        Checked.serve { id, socket, handler := h, endpoint := { codec, app } } turns) =
      pure (Connection.serve
        { id, socket, handler := h, endpoint := { codec := .create role maxFrameSize.toNat, app } }
        turns) := by
  have fresh : (Codec.create role maxFrameSize.toNat : Codec δ).Reachable := .create _ _
  simp only [Checked.createCodec_eq, pure_bind]
  refine ⟨fun deeds => Checked.live_eq fresh deeds, fun id socket turns => ?_⟩
  exact Checked.serve_eq (.fresh fresh) turns

end Http2
