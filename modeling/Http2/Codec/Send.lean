import Http2.Codec.Basic

/-!
# Opening streams and queueing frames

Every operation of this side answers, and leaves a codec behind whether it succeeds or not. A push runs
the send table of the stream first, and then queues all its frames at once, at the end of the queue.
`openStream` uses up an identifier even if the peer has taken it.
-/

namespace Http2.Codec

variable {δ : Type}

/-- Opens the next stream of this side. -/
def openStream (c : Codec δ) : Except SendError UInt32 × Codec δ :=
  if maxStreamId < c.nextStreamId then
    (.error .idsExhausted, c)
  else
    let id := c.nextStreamId
    let counted := { c with nextStreamId := id + 2 }
    match c.streams.add? { id, origin := .outbound } with
    | .error taken => (.error (.duplicateStream taken.id), counted)
    | .ok streams => (.ok id, { counted with streams })

/-- Applies the send table of a stream to a frame about to be queued. -/
def applySend (c : Codec δ) (id : UInt32) (kind : FrameKind) (flags : UInt8) :
    Except SendError Unit × Codec δ :=
  match c.streams.get? id with
  | none => (.error (.unknownStream id), c)
  | some s =>
    match s.state.transition .outbound kind flags with
    | .accept next => (.ok (), c.putStream { s with state := next })
    | .ignore => (.ok (), c)
    | .refuse | .reject _ => (.error (.illegalTransition id s.state kind), c)

/-- Queues frames and remembers that there is something to write. -/
def enqueue (c : Codec δ) (frames : List Frame) : Codec δ :=
  { c with
    outbound := c.outbound ++ frames
    writeSignal := c.writeSignal || !frames.isEmpty }

/-- Queues frames on a stream if the send table accepts a frame of this kind with these flags. -/
def send (c : Codec δ) (id : UInt32) (kind : FrameKind) (flags : UInt8) (frames : List Frame) :
    Except SendError Unit × Codec δ :=
  match c.applySend id kind flags with
  | (.error fault, sent) => (.error fault, sent)
  | (.ok (), sent) => (.ok (), sent.enqueue frames)

/-- The pieces of a payload; an empty payload is one empty piece. -/
def payloadPieces (size : Nat) (payload : Bytes) : List Bytes :=
  match Bytes.pieces size payload with
  | [] => [[]]
  | pieces => pieces

/-- The END_STREAM bit, or none. -/
def endFlag (last : Bool) : UInt8 :=
  if last then Flag.endStream else 0

/-- The frames of a header block: HEADERS, then CONTINUATIONs, the last one ending the block. -/
def blockFrames (id : UInt32) (last : Bool) (pieces : List Bytes) : List Frame :=
  let count := pieces.length
  pieces.mapIdx fun i piece =>
    let kind := if i = 0 then FrameKind.headers else .continuation
    let opening := if i = 0 then endFlag last else 0
    let closing := if i + 1 = count then Flag.endHeaders else 0
    Frame.ofParts kind (opening ||| closing) id piece

/-- The DATA frames of a body segment, the last one ending the stream if `last` says so. -/
def dataFrames (id : UInt32) (last : Bool) (pieces : List Bytes) : List Frame :=
  let count := pieces.length
  pieces.mapIdx fun i piece =>
    Frame.ofParts .data (if i + 1 = count then endFlag last else 0) id piece

/-- Queues a header list on a stream. -/
def pushHeaders (c : Codec δ) (id : UInt32) (fields : List Field) (last : Bool) :
    Except SendError Unit × Codec δ :=
  match HeaderBlock.encode? fields with
  | .error fault => (.error (.badField fault), c)
  | .ok block =>
    c.send id .headers (endFlag last) (blockFrames id last (payloadPieces c.maxFrameSize block))

/-- Queues a body segment on a stream. An empty segment that is not the last queues nothing. -/
def pushData (c : Codec δ) (id : UInt32) (data : Bytes) (last : Bool) :
    Except SendError Unit × Codec δ :=
  if data.isEmpty && !last then
    c.applySend id .data 0
  else
    c.send id .data (endFlag last) (dataFrames id last (payloadPieces c.maxFrameSize data))

/-- Queues a reset of a stream and closes it. -/
def pushReset (c : Codec δ) (id code : UInt32) : Except SendError Unit × Codec δ :=
  c.send id .rstStream 0 [Frame.ofParts .rstStream 0 id (Bytes.ofUInt32 code)]

/-- Takes the next frame to write. -/
def popOutbound (c : Codec δ) : Option Frame × Codec δ :=
  match c.outbound with
  | [] => (none, c)
  | frame :: rest => (some frame, { c with outbound := rest })

/-- Whether frames were queued since the last time this was asked. -/
def takeWriteSignal (c : Codec δ) : Bool × Codec δ :=
  (c.writeSignal, { c with writeSignal := false })

/-- Attaches the application's data to a stream. -/
def setUserData (c : Codec δ) (id : UInt32) (value : δ) : Except SendError Unit × Codec δ :=
  match c.streams.get? id with
  | none => (.error (.unknownStream id), c)
  | some s => (.ok (), c.putStream { s with userData := some value })

/-- Takes the application's data off a stream. -/
def takeUserData (c : Codec δ) (id : UInt32) : Option δ × Codec δ :=
  match c.streams.get? id with
  | none => (none, c)
  | some s => (s.userData, c.putStream { s with userData := none })

/-- Forgets every closed stream and counts them. -/
def evictClosed (c : Codec δ) : Nat × Codec δ :=
  let kept := c.streams.retain fun s => !s.isClosed
  (c.streams.size - kept.size, { c with streams := kept })

/-! ## Operations that fail

The send table is asked before anything is stored, and frames are only queued once it has accepted. So
the codec that a failed push leaves behind is the one that it found. -/

variable {c c' : Codec δ} {id : UInt32} {fault : SendError}

/-- A frame that is not accepted moves no stream. -/
theorem applySend_error {kind : FrameKind} {flags : UInt8}
    (failed : c.applySend id kind flags = (.error fault, c')) : c' = c := by
  unfold applySend at failed
  split at failed
  · exact (congrArg Prod.snd failed).symm
  · split at failed
    · cases failed
    · cases failed
    · exact (congrArg Prod.snd failed).symm
    · exact (congrArg Prod.snd failed).symm

/-- Frames that are not queued move no stream. -/
theorem send_error {kind : FrameKind} {flags : UInt8} {frames : List Frame}
    (failed : c.send id kind flags frames = (.error fault, c')) : c' = c := by
  unfold send at failed
  split at failed
  · rename_i refused
    cases failed
    exact applySend_error refused
  · cases failed

/-- Frames are queued once the send table has moved their stream. -/
theorem send_eq_ok {kind : FrameKind} {flags : UInt8} {frames : List Frame}
    (queued : c.send id kind flags frames = (.ok (), c')) :
    ∃ sent, c.applySend id kind flags = (.ok (), sent) ∧ c' = sent.enqueue frames := by
  unfold send at queued
  split at queued
  · cases queued
  · rename_i sent accepted
    cases queued
    exact ⟨sent, accepted, rfl⟩

/-- A header list is queued as a whole or not at all. -/
theorem pushHeaders_error {fields : List Field} {last : Bool}
    (failed : c.pushHeaders id fields last = (.error fault, c')) : c' = c := by
  unfold pushHeaders at failed
  split at failed
  · exact (congrArg Prod.snd failed).symm
  · exact send_error failed

/-- A body segment is queued as a whole or not at all. -/
theorem pushData_error {data : Bytes} {last : Bool}
    (failed : c.pushData id data last = (.error fault, c')) : c' = c := by
  unfold pushData at failed
  split at failed
  · exact applySend_error failed
  · exact send_error failed

/-- A reset that is not queued does not close its stream. -/
theorem pushReset_error {code : UInt32}
    (failed : c.pushReset id code = (.error fault, c')) : c' = c :=
  send_error failed

end Http2.Codec
