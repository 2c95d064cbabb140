import Http2.Codec.Handler
import Http2.Proofs.Checked.HeaderBlock
import Http2.Proofs.Checked.Region
import Http2.Proofs.Codec.Operations

/-!
# Operations of this side, with every access checked

Payloads are cut into pieces of the frame size, every piece is built into a region of its own, and the
next stream identifier is counted in a word of 32 bits. On a codec whose frame size is in range no
operation is cut short, and neither is a script: `run_eq`.
-/

namespace Http2.Checked

variable {δ σ α : Type} {c : Codec δ}

/-! ## Queueing -/

/-- Queues a region; what is logged about it is read off its header. -/
def enqueue (c : Codec δ) (raw : Bytes) : Checked (Codec δ) := do
  let _ ← header raw
  return c.enqueue [Frame.ofRegion raw]

/-- Queues pieces one after the other, each built into a region by its position. -/
def enqueueAll (build : Nat → Bytes → Checked Bytes) (c : Codec δ) (i : Nat) :
    List Bytes → Checked (Codec δ)
  | [] => return c
  | piece :: rest => do enqueueAll build (← enqueue c (← build i piece)) (i + 1) rest

/-- The pieces of a payload, one at least, and the position of the last one. -/
def payloadPieces (size : Nat) (payload : Bytes) : Checked (List Bytes × Nat) := do
  let cut ← pieces size payload
  let cut := if cut.isEmpty then [[]] else cut
  return (cut, ← sub cut.length 1)

/-- Queues a header list on a stream. -/
def pushHeaders (c : Codec δ) (id : UInt32) (fields : List Field) (last : Bool) :
    Checked (Except SendError Unit × Codec δ) := do
  match ← encode fields with
  | .error fault => return (.error (.badField fault), c)
  | .ok block =>
    match c.applySend id .headers (Codec.endFlag last) with
    | (.error fault, sent) => return (.error fault, sent)
    | (.ok (), sent) =>
      let (cut, final) ← payloadPieces c.maxFrameSize block
      let build (i : Nat) (piece : Bytes) : Checked Bytes :=
        let kind := if i = 0 then FrameKind.headers else .continuation
        let opening := if i = 0 then Codec.endFlag last else 0
        let closing := if i = final then Flag.endHeaders else 0
        create kind (opening ||| closing) id piece
      return (.ok (), ← enqueueAll build sent 0 cut)

/-- Queues a body segment on a stream. An empty segment that is not the last queues nothing. -/
def pushData (c : Codec δ) (id : UInt32) (data : Bytes) (last : Bool) :
    Checked (Except SendError Unit × Codec δ) :=
  if data.isEmpty && !last then return c.applySend id .data 0
  else
    match c.applySend id .data (Codec.endFlag last) with
    | (.error fault, sent) => return (.error fault, sent)
    | (.ok (), sent) => do
      let (cut, final) ← payloadPieces c.maxFrameSize data
      let build (i : Nat) (piece : Bytes) : Checked Bytes :=
        create .data (if i = final then Codec.endFlag last else 0) id piece
      return (.ok (), ← enqueueAll build sent 0 cut)

/-- Queues a reset of a stream and closes it. -/
def pushReset (c : Codec δ) (id code : UInt32) : Checked (Except SendError Unit × Codec δ) :=
  match c.applySend id .rstStream 0 with
  | (.error fault, sent) => return (.error fault, sent)
  | (.ok (), sent) => do
    let raw ← create .rstStream 0 id (Bytes.ofUInt32 code)
    return (.ok (), ← enqueue sent raw)

/-- Frames that are queued one after the other are queued in order. -/
theorem enqueue_enqueue (c : Codec δ) (front back : List Frame) :
    (c.enqueue front).enqueue back = c.enqueue (front ++ back) := by
  cases front <;> simp [Codec.enqueue]

/-- A frame is queued without a trap. -/
theorem enqueue_eq (c : Codec δ) {f : Frame} (fits : f.length ≤ maxFrameLength) :
    enqueue c f.toBytes = pure (c.enqueue [f]) := by
  rw [enqueue, header_toBytes fits, pure_bind, Frame.ofRegion_toBytes]

/-- Pieces that are built into frames are queued as these frames. -/
theorem enqueueAll_eq {build : Nat → Bytes → Checked Bytes} {frame : Nat → Bytes → Frame}
    {cut : List Bytes} (builds : ∀ i, ∀ piece ∈ cut, build i piece = pure (frame i piece).toBytes ∧
      (frame i piece).length ≤ maxFrameLength) (c : Codec δ) :
    enqueueAll build c 0 cut = pure (c.enqueue (cut.mapIdx frame)) := by
  rw [List.mapIdx_eq_zipIdx_map]
  generalize 0 = i
  induction cut generalizing c i with
  | nil => simp [enqueueAll, Codec.enqueue]
  | cons piece cut ih =>
    obtain ⟨built, fits⟩ := builds i piece List.mem_cons_self
    rw [enqueueAll, built, pure_bind, enqueue_eq c fits, pure_bind,
      ih (fun i piece member => builds i piece (List.mem_cons_of_mem _ member)), enqueue_enqueue]
    rfl

/-- Even an empty payload is sent in one frame. -/
theorem length_payloadPieces_pos {size : Nat} (positive : 1 ≤ size) (payload : Bytes) :
    1 ≤ (Codec.payloadPieces size payload).length := by
  rw [Codec.payloadPieces_eq positive]
  exact List.length_pos_iff.mpr (Bytes.slices_ne_nil size payload)

/-- There is always a last piece. -/
theorem payloadPieces_eq {size : Nat} (positive : 1 ≤ size) (payload : Bytes) :
    payloadPieces size payload =
      pure (Codec.payloadPieces size payload, (Codec.payloadPieces size payload).length - 1) := by
  have filled : (if (Bytes.pieces size payload).isEmpty then [[]] else Bytes.pieces size payload) =
      Codec.payloadPieces size payload := by
    unfold Codec.payloadPieces
    cases Bytes.pieces size payload <;> rfl
  rw [payloadPieces, pieces_eq positive, pure_bind]
  simp only [filled, sub_eq (length_payloadPieces_pos positive payload), pure_bind]

/-- A piece of a payload is built into a frame, whatever its other fields. -/
theorem create_piece (framed : c.Framed) {payload piece : Bytes}
    (member : piece ∈ Codec.payloadPieces c.maxFrameSize payload) (kind : FrameKind) (flags : UInt8)
    (id : UInt32) : create kind flags id piece = pure (Frame.ofParts kind flags id piece).toBytes ∧
      (Frame.ofParts kind flags id piece).length ≤ maxFrameLength := by
  have fits : piece.length ≤ maxFrameLength :=
    Nat.le_trans (Codec.length_of_mem_payloadPieces framed.positive member) framed.small
  exact ⟨create_eq kind flags id fits, fits⟩

/-- The position of the last piece, counted from the end. -/
theorem eq_final_iff {size : Nat} (positive : 1 ≤ size) (payload : Bytes) (i : Nat) :
    i = (Codec.payloadPieces size payload).length - 1 ↔
      i + 1 = (Codec.payloadPieces size payload).length := by
  have some := length_payloadPieces_pos positive payload
  omega

/-- Queueing a list of fields traps nowhere, and neither does refusing it. -/
theorem pushHeaders_eq (framed : c.Framed) (id : UInt32) (fields : List Field) (last : Bool) :
    pushHeaders c id fields last = pure (c.pushHeaders id fields last) := by
  rw [pushHeaders, encode_eq, pure_bind, Codec.pushHeaders]
  cases HeaderBlock.encode? fields with
  | error fault => rfl
  | ok block =>
    simp only [Codec.send]
    rcases c.applySend id .headers (Codec.endFlag last) with ⟨fault | ⟨⟩, sent⟩
    · rfl
    · simp only [payloadPieces_eq framed.positive, pure_bind, eq_final_iff framed.positive]
      rw [enqueueAll_eq fun i piece member => create_piece framed member _ _ _]
      rfl

/-- Queueing a body traps nowhere, and neither does refusing it. -/
theorem pushData_eq (framed : c.Framed) (id : UInt32) (data : Bytes) (last : Bool) :
    pushData c id data last = pure (c.pushData id data last) := by
  rw [pushData, Codec.pushData]
  split
  · rfl
  · rw [Codec.send]
    rcases c.applySend id .data (Codec.endFlag last) with ⟨fault | ⟨⟩, sent⟩
    · rfl
    · simp only [payloadPieces_eq framed.positive, pure_bind, eq_final_iff framed.positive]
      rw [enqueueAll_eq fun i piece member => create_piece framed member _ _ _]
      rfl

/-- Queueing a reset traps nowhere, and neither does refusing it. -/
theorem pushReset_eq (c : Codec δ) (id code : UInt32) :
    pushReset c id code = pure (c.pushReset id code) := by
  have fits : (Bytes.ofUInt32 code).length ≤ maxFrameLength := by
    rw [Bytes.length_ofUInt32]
    decide
  have queued (sent : Codec δ) :
      enqueue sent (Frame.ofParts .rstStream 0 id (Bytes.ofUInt32 code)).toBytes =
        pure (sent.enqueue [Frame.ofParts .rstStream 0 id (Bytes.ofUInt32 code)]) :=
    enqueue_eq sent fits
  rw [pushReset, Codec.pushReset, Codec.send]
  rcases c.applySend id .rstStream 0 with ⟨fault | ⟨⟩, sent⟩
  · rfl
  · simp only [create_eq .rstStream 0 id fits, queued, pure_bind]

/-! ## All operations -/

/-- Opens the next stream of this side. -/
def openStream (c : Codec δ) : Checked (Except SendError UInt32 × Codec δ) :=
  if maxStreamId < c.nextStreamId then
    return (.error .idsExhausted, c)
  else do
    let id := c.nextStreamId
    let counted := { c with nextStreamId := UInt32.ofNat (← add wordLimit id.toNat 2) }
    match c.streams.add? { id, origin := .outbound } with
    | .error taken => return (.error (.duplicateStream taken.id), counted)
    | .ok streams => return (.ok id, { counted with streams })

/-- Forgets every closed stream and counts them. -/
def evictClosed (c : Codec δ) : Checked (Nat × Codec δ) := do
  let kept := c.streams.retain fun s => !s.isClosed
  return (← sub c.streams.size kept.size, { c with streams := kept })

/-- Performs one operation. -/
def perform (c : Codec δ) : (op : Codec.Op δ) → Checked (op.Reply × Codec δ)
  | .openStream => openStream c
  | .pushHeaders id fields last => pushHeaders c id fields last
  | .pushData id data last => pushData c id data last
  | .pushReset id code => pushReset c id code
  | .popOutbound => return c.popOutbound
  | .takeWriteSignal => return c.takeWriteSignal
  | .setUserData id value => return c.setUserData id value
  | .takeUserData id => return c.takeUserData id
  | .evictClosed => evictClosed c
  | .inspect => return (c, c)

/-- Plays a script. -/
def run : Script δ α → Codec δ → Checked (α × Codec δ)
  | .done value, c => return (value, c)
  | .call op next, c => do
    let (reply, c) ← perform c op
    run (next reply) c

/-- Plays a script whose value is the new state of the application. -/
def play (e : Endpoint δ σ) (script : σ → Script δ σ) : Checked (Endpoint δ σ) := do
  let (app, codec) ← run (script e.app) e.codec
  return { codec, app }

/-- Identifiers are used up before their counter overflows. -/
theorem openStream_eq (c : Codec δ) : openStream c = pure c.openStream := by
  rw [openStream, Codec.openStream]
  by_cases exhausted : maxStreamId < c.nextStreamId
  · rw [if_pos exhausted, if_pos exhausted]
  · have next := Codec.toNat_next exhausted
    have room : c.nextStreamId.toNat + 2 < wordLimit := next ▸ (c.nextStreamId + 2).toNat_lt
    have same : UInt32.ofNat (c.nextStreamId.toNat + 2) = c.nextStreamId + 2 := by
      rw [← next, UInt32.ofNat_toNat]
    rw [if_neg exhausted, if_neg exhausted]
    simp only [add_eq room, pure_bind, same]
    cases c.streams.add? { id := c.nextStreamId, origin := .outbound } <;> rfl

/-- No more streams are kept than there are. -/
theorem evictClosed_eq (c : Codec δ) : evictClosed c = pure c.evictClosed := by
  have fewer : (c.streams.retain fun s => !s.isClosed).size ≤ c.streams.size :=
    Std.ExtTreeMap.size_filter_le_size
  rw [evictClosed, sub_eq fewer, pure_bind]
  rfl

/-- No operation is cut short. -/
theorem perform_eq (framed : c.Framed) (op : Codec.Op δ) : perform c op = pure (c.perform op) := by
  cases op with
  | openStream => exact openStream_eq c
  | pushHeaders id fields last => exact pushHeaders_eq framed id fields last
  | pushData id data last => exact pushData_eq framed id data last
  | pushReset id code => exact pushReset_eq c id code
  | popOutbound => rfl
  | takeWriteSignal => rfl
  | setUserData id value => rfl
  | takeUserData id => rfl
  | evictClosed => exact evictClosed_eq c
  | inspect => rfl

/-- No script is cut short, whatever it makes of the answers. -/
theorem run_eq (framed : c.Framed) (s : Script δ α) : run s c = pure (s.run c) := by
  induction s generalizing c with
  | done value => rfl
  | call op next ih =>
    rw [run, perform_eq framed, pure_bind, Script.run_call]
    exact ih _ (framed.of_sameFraming (Codec.sameReceiver_perform c op).toSameFraming)

/-- What the application does in a callback traps nowhere. -/
theorem play_eq {e : Endpoint δ σ} (framed : e.codec.Framed) (script : σ → Script δ σ) :
    play e script = pure (e.play script) := by
  rw [play, run_eq framed, pure_bind]
  rfl

end Http2.Checked
