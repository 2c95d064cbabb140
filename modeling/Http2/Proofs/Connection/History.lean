import Http2.Proofs.Connection.Serving

/-!
# Everything that happens on a connection

A connection does three things of its own: something happens at its codec, it takes the next frame off
the queue, and it gives bytes to its socket. An `Instant` is one of these together with the outflow of
the connection just before it, and `Connection.history` lists the instants of a run in order. What a
request or a body pull asks of the codec is a script (`startRequest_eq`, `pullBody_eq`), so its instants
are the moments of that script.
-/

namespace Http2

variable {δ σ : Type}

/-- The part of a connection that bytes to be sent pass through. -/
structure Outflow (δ : Type) where
  codec : Codec δ
  /-- The frame being written, and how many of its bytes the socket has taken. -/
  sending : Option (Frame × Nat)
  socket : Socket
  /-- How many bytes were counted as written. -/
  written : Nat

/-- What a connection does next. -/
inductive Happening (δ : Type) where
  /-- Something happens at its codec. -/
  | codec (occurrence : Occurrence δ)
  /-- It takes the next frame off the queue to write it. -/
  | load
  /-- It gives bytes to its socket. -/
  | offer (bytes : Bytes)

/-- What a connection does next, and its outflow just before that. -/
structure Instant (δ : Type) extends Outflow δ where
  happening : Happening δ

namespace Instant

/-- The frames that are queued now. -/
def queued (i : Instant δ) : List Frame :=
  match i.happening with
  | .codec occurrence => Moment.queued ⟨i.codec, occurrence⟩
  | _ => []

/-- Whether a frame is taken off the queue by an operation on the codec. -/
def pops (i : Instant δ) : Bool :=
  match i.happening with
  | .codec (.performed .popOutbound _) => true
  | _ => false

/-- Whether the write signal is taken by an operation on the codec. -/
def takesSignal (i : Instant δ) : Bool :=
  match i.happening with
  | .codec (.performed .takeWriteSignal _) => true
  | _ => false

end Instant

/-! ## Requests and body pulls as scripts -/

namespace Request

/-- Queues the headers of a request on its stream. -/
def pushScript (request : Request δ) (id : UInt32) : Script δ (Except SendError UInt32) :=
  .call (.pushHeaders id request.fields (!request.hasBody)) fun pushed =>
    .done (Except.map (fun _ : Unit => id) pushed)

/-- Goes on with a request after its data was attached or not. -/
def attached (request : Request δ) (id : UInt32) :
    Except SendError Unit → Script δ (Except SendError UInt32)
  | .error fault => .done (.error fault)
  | .ok () => request.pushScript id

/-- Goes on with a request after its stream was opened or not. -/
def opened (request : Request δ) : Except SendError UInt32 → Script δ (Except SendError UInt32)
  | .error fault => .done (.error fault)
  | .ok id =>
    match request.userData with
    | none => request.pushScript id
    | some value => .call (.setUserData id value) fun reply => request.attached id reply

/-- What a request asks of the codec. -/
def script (request : Request δ) : Script δ (Except SendError UInt32) :=
  .call .openStream fun reply => request.opened reply

end Request

namespace Connection

/-- The list of bodies in progress after a request got an answer. -/
def pullingAfter (c : Connection δ σ) (request : Request δ) :
    Except SendError UInt32 → List UInt32
  | .error _ => c.inProgress
  | .ok id => if request.hasBody then c.inProgress ++ [id] else c.inProgress

/-- The answer to a request, and the connection with the codec that its script leaves behind. -/
def started (c : Connection δ σ) (request : Request δ)
    (played : Except SendError UInt32 × Codec δ) : Except SendError UInt32 × Connection δ σ :=
  (played.1, { c.withCodec played.2 with inProgress := c.pullingAfter request played.1 })

/-- To start a request is, from its stream on, to run the script that queues its headers. -/
theorem pushHeaders_eq (c : Connection δ σ) (request : Request δ) (ready : Codec δ) (id : UInt32) :
    (match ready.pushHeaders id request.fields (!request.hasBody) with
      | (.error fault, codec) => (.error fault, c.withCodec codec)
      | (.ok (), queued) =>
        let c := c.withCodec queued
        (.ok id, if request.hasBody then { c with inProgress := c.inProgress ++ [id] } else c)) =
      c.started request ((request.pushScript id).run ready) := by
  simp only [Request.pushScript, Script.run_call, Script.run_done, Codec.perform]
  rcases ready.pushHeaders id request.fields (!request.hasBody) with ⟨fault | ⟨⟩, queued⟩
  · rfl
  · simp only [started, pullingAfter, Except.map, withCodec]
    split <;> rfl

/-- Starting a request plays its script on the codec and touches nothing else but the list of bodies in
progress. -/
theorem startRequest_eq (c : Connection δ σ) (request : Request δ) :
    c.startRequest request = c.started request (request.script.run c.codec) := by
  unfold startRequest
  simp only [Request.script, Script.run_call, Codec.perform]
  rcases c.codec.openStream with ⟨fault | id, opened⟩
  · rfl
  · simp only [Request.opened]
    cases request.userData with
    | none => exact c.pushHeaders_eq request opened id
    | some value =>
      simp only [Script.run_call, Codec.perform]
      rcases opened.setUserData id value with ⟨fault | ⟨⟩, ready⟩
      · rfl
      · exact c.pushHeaders_eq request ready id

/-- What pulling one body asks of the application and the codec. -/
def pullScript (c : Connection δ σ) (buffer : Bytes) (id : UInt32) :
    Script δ (BodyReply σ × Except SendError Unit) :=
  (c.handler.onDataNeeded c.endpoint.app id buffer).bind fun reply =>
    let filled := overlay buffer reply.stored
    let piece := filled.take (min reply.chunk.written filled.length)
    .call (.pushData id piece reply.chunk.finished) fun pushed => .done (reply, pushed)

/-- The list of bodies in progress after one of them got an answer. -/
def pullingOn (c : Connection δ σ) (id : UInt32) (reply : BodyReply σ) :
    Except SendError Unit → List UInt32
  | .error _ => c.inProgress
  | .ok () => if reply.chunk.finished then c.inProgress else c.inProgress ++ [id]

/-- Pulling a body plays its script, stores what the application wrote in the buffer, and touches nothing
else but the list of bodies in progress. -/
theorem pullBody_eq (c : Connection δ σ) (buffer : Bytes) (id : UInt32) :
    c.pullBody buffer id =
      let pulled := (c.pullScript buffer id).run c.codec
      ({ c with
          endpoint := { codec := pulled.2, app := pulled.1.1.app }
          inProgress := c.pullingOn id pulled.1.1 pulled.1.2 },
        overlay buffer pulled.1.1.stored) := by
  unfold pullBody
  simp only [pullScript, Script.run_bind, Script.run_call, Script.run_done, Codec.perform]
  rcases Codec.pushData _ _ _ _ with ⟨fault | ⟨⟩, queued⟩
  · rfl
  · simp only [pullingOn]
    split <;> rfl

/-! ## What the parts of a turn touch -/

/-- The next frame to be written is the one in progress, or the front of the queue. -/
theorem nextToSend_cases {c loaded : Connection δ σ} {frame : Frame} {cursor : Nat}
    (next : c.nextToSend = some ((frame, cursor), loaded)) :
    (c.sending = some (frame, cursor) ∧ loaded = c) ∨
      (c.sending = none ∧ cursor = 0 ∧ ∃ rest, c.codec.outbound = frame :: rest ∧
        loaded = { c.withCodec { c.codec with outbound := rest } with sending := some (frame, 0) }) := by
  unfold nextToSend at next
  split at next
  · rename_i current sending
    cases next
    exact .inl ⟨sending, rfl⟩
  · rename_i idle
    unfold Codec.popOutbound at next
    cases queue : c.codec.outbound with
    | nil =>
      rw [queue] at next
      cases next
    | cons first rest =>
      rw [queue] at next
      cases next
      exact .inr ⟨idle, rfl, rest, rfl, rfl⟩

/-- There is no next frame to be written if nothing is pending. -/
theorem nextToSend_eq_none {c : Connection δ σ} (next : c.nextToSend = none) :
    c.hasPendingOutput = false := by
  unfold nextToSend at next
  split at next
  · cases next
  · rename_i idle
    unfold Codec.popOutbound at next
    cases queue : c.codec.outbound with
    | nil => simp [hasPendingOutput, Codec.hasPendingOutput, idle, queue]
    | cons first rest =>
      rw [queue] at next
      cases next

/-- Taking in bytes touches endpoint and health and nothing else. -/
theorem exists_takeIn (c : Connection δ σ) (bytes : Bytes) :
    ∃ endpoint health, (c.takeIn bytes).1 = { c with endpoint, health } :=
  ⟨_, _, rfl⟩

/-- Reading touches the endpoint, the socket and what is known about it. -/
theorem exists_readAvailable (c : Connection δ σ) (buffer : Bytes) :
    ∃ endpoint socket health,
      (c.readAvailable buffer).connection = { c with endpoint, socket, health } := by
  induction c, buffer using readAvailable.induct_unfolding with
  | case2 c buffer bytes socket found c' some connection fed ih =>
    obtain ⟨endpoint, socket', health, read⟩ := ih
    obtain ⟨endpoint', health', taken⟩ := c'.exists_takeIn bytes
    rw [fed] at taken
    subst taken
    exact ⟨endpoint, socket', health, read⟩
  | case3 c buffer bytes socket found c' some connection fault fed =>
    obtain ⟨endpoint, health, taken⟩ := c'.exists_takeIn bytes
    rw [fed] at taken
    subst taken
    exact ⟨endpoint, socket, _, rfl⟩
  | case1 | case4 | case5 | case6 => exact ⟨_, _, _, rfl⟩

/-- Writing touches the queue, the frame being written, the socket and what is known about it. -/
theorem exists_writeLoop (c : Connection δ σ) :
    ∃ outbound sending socket health, c.writeLoop.connection =
      { c.withCodec { c.codec with outbound } with sending, socket, health } := by
  induction c using writeLoop.induct_unfolding with
  | case1 c next => exact ⟨_, _, _, _, rfl⟩
  | case3 c frame cursor loaded next count socket written some ih =>
    obtain ⟨outbound, sending, socket', health, wrote⟩ := ih
    rcases nextToSend_cases next with ⟨-, rfl⟩ | ⟨-, -, rest, -, rfl⟩
    · exact ⟨outbound, sending, socket', health, wrote⟩
    · exact ⟨outbound, sending, socket', health, wrote⟩
  | case2 c frame cursor loaded next | case4 c frame cursor loaded next
  | case5 c frame cursor loaded next | case6 c frame cursor loaded next =>
    rcases nextToSend_cases next with ⟨-, rfl⟩ | ⟨-, -, rest, -, rfl⟩
    · exact ⟨_, _, _, _, rfl⟩
    · exact ⟨_, _, _, _, rfl⟩

/-- Pulling bodies touches the endpoint and the list of bodies in progress. -/
theorem exists_pullBodies (c : Connection δ σ) (buffer : Bytes) :
    ∃ endpoint inProgress, (c.pullBodies buffer).1 = { c with endpoint, inProgress } := by
  have start : ∃ endpoint inProgress,
      ({ c with inProgress := [] } : Connection δ σ) = { c with endpoint, inProgress } := ⟨_, _, rfl⟩
  unfold pullBodies
  generalize ({ c with inProgress := [] } : Connection δ σ) = current at start
  induction c.inProgress generalizing current buffer with
  | nil => exact start
  | cons id ids ih =>
    obtain ⟨endpoint, inProgress, rfl⟩ := start
    have one := pullBody_eq { c with endpoint, inProgress } buffer id
    exact ih _ _ ⟨_, _, congrArg Prod.fst one⟩

/-- The codec that pulling a body leaves behind. -/
theorem codec_pullBody (c : Connection δ σ) (buffer : Bytes) (id : UInt32) :
    (c.pullBody buffer id).1.codec = ((c.pullScript buffer id).run c.codec).2 := by
  rw [pullBody_eq]
  rfl

/-- Pulling a body leaves the application in its place. -/
theorem handler_pullBody (c : Connection δ σ) (buffer : Bytes) (id : UInt32) :
    (c.pullBody buffer id).1.handler = c.handler := by
  rw [pullBody_eq]

/-- A turn leaves the application in its place. -/
theorem handler_turn (c : Connection δ σ) (t : Turn δ σ) : (c.turn t).handler = c.handler := by
  cases t with
  | read buffer =>
    obtain ⟨endpoint, socket, health, read⟩ := c.exists_readAvailable buffer
    rw [turn, read]
  | write =>
    obtain ⟨outbound, sending, socket, health, wrote⟩ := c.takeWriteSignal.2.exists_writeLoop
    rw [turn, writePending, wrote]
    rfl
  | start request =>
    rw [turn, startRequest_eq]
    rfl
  | pull buffer =>
    obtain ⟨endpoint, inProgress, pulled⟩ := c.exists_pullBodies buffer
    rw [turn, pulled]
  | abandon | deed | meet => rfl

/-! ## Instants -/

/-- The part that bytes to be sent pass through. -/
def outflow (c : Connection δ σ) : Outflow δ where
  codec := c.codec
  sending := c.sending
  socket := c.socket
  written := c.health.bytesWritten

/-- The instants of a connection at whose codec such moments happen. -/
def during (c : Connection δ σ) (moments : List (Moment δ)) : List (Instant δ) :=
  moments.map fun m => { c.outflow with codec := m.codec, happening := .codec m.occurrence }

/-- The instants of one reading, read by read. -/
def readInstants (c : Connection δ σ) (buffer : Bytes) : List (Instant δ) :=
  match _found : c.socket.read buffer.length with
  | (.ok bytes, socket) =>
    if _ended : bytes = [] then
      []
    else
      let arrived := { c with socket }
      arrived.during (arrived.endpoint.moments arrived.handler bytes) ++
        match _fed : arrived.takeIn bytes with
        | (connection, none) => readInstants connection (overlay buffer bytes)
        | (_, some _) => []
  | (.error _, _) => []
termination_by c.socket.incomingWeight
decreasing_by
  have same := socket_takeIn { c with socket } bytes
  rw [_fed] at same
  rw [same]
  exact Socket.incomingWeight_read _found _ended

/-- The instants of writing, call by call. -/
def writeInstants (c : Connection δ σ) : List (Instant δ) :=
  match _next : c.nextToSend with
  | none => []
  | some ((frame, cursor), loaded) =>
    let offered := frame.toBytes.drop cursor
    (if c.sending.isNone then [{ c.outflow with happening := .load }] else []) ++
      { loaded.outflow with happening := .offer offered } ::
        match _written : loaded.socket.write offered with
        | (.ok count, socket) =>
          if _stuck : count = 0 then
            []
          else
            writeInstants (({ loaded with socket } : Connection δ σ).advance frame cursor count)
        | (.error _, _) => []
termination_by c.socket.outgoing.length + c.unsentFrames
decreasing_by
  obtain ⟨frames, same, sending⟩ := nextToSend_eq _next
  rw [← frames, ← same]
  exact advance_progress sending _written _stuck

/-- The instants of pulling bodies, one after the other. -/
def pullInstants (c : Connection δ σ) (buffer : Bytes) : List UInt32 → List (Instant δ)
  | [] => []
  | id :: ids =>
    c.during ((c.pullScript buffer id).moments c.codec) ++
      pullInstants (c.pullBody buffer id).1 (c.pullBody buffer id).2 ids

/-- The instants of one turn. -/
def instants (c : Connection δ σ) : Turn δ σ → List (Instant δ)
  | .read buffer => c.readInstants buffer
  | .write => c.takeWriteSignal.2.writeInstants
  | .start request => c.during (request.script.moments c.codec)
  | .pull buffer => ({ c with inProgress := [] } : Connection δ σ).pullInstants buffer c.inProgress
  | .abandon => []
  | .deed deed => c.during (c.endpoint.momentsOf c.handler deed)
  | .meet _ _ => []

/-- The instants of any number of turns, in order. -/
def history (c : Connection δ σ) : List (Turn δ σ) → List (Instant δ)
  | [] => []
  | turn :: turns => c.instants turn ++ (c.turn turn).history turns

end Connection

end Http2
