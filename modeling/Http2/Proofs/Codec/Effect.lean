import Http2.Codec.Script
import Http2.Proofs.Stream.Phase

/-!
# What the operations of one side do

`Codec.Effect` lists what an operation can do to a codec, with what it has found there. An invariant of
operations goes through these cases, and no such proof has to open an operation again. The three pushes
are one case: they differ in the frames (`Codec.Op.Emits`), not in how a stream is moved.
-/

namespace Http2.Codec

variable {δ : Type} {c c' : Codec δ} {id : UInt32} {kind : FrameKind} {flags : UInt8} {last : Bool}

/-! ## Opening a stream -/

/-- Past the last identifier, opening a stream is an error and changes nothing. -/
theorem openStream_spent (spent : maxStreamId < c.nextStreamId) :
    c.openStream = (.error .idsExhausted, c) :=
  if_pos spent

/-- The peer has taken the identifier. -/
theorem openStream_taken (left : ¬maxStreamId < c.nextStreamId)
    (taken : c.streams.contains c.nextStreamId = true) :
    c.openStream = (.error (.duplicateStream c.nextStreamId),
      { c with nextStreamId := c.nextStreamId + 2 }) := by
  simp only [openStream, Registry.add?, if_neg left, if_pos taken]

/-- An identifier that is free is given out, and the next one is two further. -/
theorem openStream_free (left : ¬maxStreamId < c.nextStreamId)
    (free : c.streams.contains c.nextStreamId = false) :
    c.openStream = (.ok c.nextStreamId,
      { c with
        nextStreamId := c.nextStreamId + 2
        streams := c.streams.put { id := c.nextStreamId, origin := .outbound } }) := by
  simp only [openStream, Registry.add?, if_neg left, free, Bool.false_eq_true, if_false]

/-! ## Pushing -/

/-- A flag that is asked for is found again on frames that can end a stream. -/
theorem endsStream_endFlag (ends : kind = .headers ∨ kind = .data) (last : Bool) :
    kind.endsStream (endFlag last) = last := by
  rcases ends with rfl | rfl <;> cases last <;> decide

/-- Nothing is sent on a stream that is not registered. -/
theorem applySend_unknown (absent : c.streams.get? id = none) :
    c.applySend id kind flags = (.error (.unknownStream id), c) := by
  rw [applySend, absent]

/-- Nothing is sent that the send table refuses. -/
theorem applySend_refused {s : Stream δ} (found : c.streams.get? id = some s)
    (refused : s.state.send kind (kind.endsStream flags) = .refuse) :
    c.applySend id kind flags = (.error (.illegalTransition id s.state kind), c) := by
  simp only [applySend, found, StreamState.transition, refused]

/-- A frame that the send table accepts moves its stream, and no other. -/
theorem applySend_accepted {s : Stream δ} {next : StreamState} (found : c.streams.get? id = some s)
    (accepted : s.state.send kind (kind.endsStream flags) = .accept next) :
    c.applySend id kind flags = (.ok (), c.putStream { s with state := next }) := by
  simp only [applySend, found, StreamState.transition, accepted]

/-- An accepted frame stores the next state of its stream. -/
theorem applySend_eq_ok (moving : StreamState.Moving kind)
    (accepted : c.applySend id kind flags = (.ok (), c')) :
    ∃ s next, c.streams.get? id = some s ∧ s.state.send kind (kind.endsStream flags) = .accept next ∧
      c' = c.putStream { s with state := next } := by
  unfold applySend at accepted
  cases found : c.streams.get? id with
  | none =>
    rw [found] at accepted
    cases accepted
  | some s =>
    rw [found] at accepted
    simp only [StreamState.transition] at accepted
    split at accepted
    · rename_i next table
      cases accepted
      exact ⟨s, next, rfl, table, rfl⟩
    · rename_i table
      exact absurd table (StreamState.send_ne_ignore moving)
    · cases accepted
    · cases accepted

/-- The frames that a push queues if frames are cut to a size, and what it asks the send table of its
stream: a kind of frame, and whether this side ends. -/
inductive Op.Emits (size : Nat) : Op δ → UInt32 → FrameKind → Bool → List Frame → Prop
  | headers {id : UInt32} {fields : List Field} {last : Bool} {block : Bytes}
      (written : HeaderBlock.encode? fields = .ok block) :
      Emits size (.pushHeaders id fields last) id .headers last
        (blockFrames id last (payloadPieces size block))
  /-- An empty segment that is not the last. -/
  | noData {id : UInt32} : Emits size (.pushData id [] false) id .data false []
  | data {id : UInt32} {data : Bytes} {last : Bool} (content : (data.isEmpty && !last) = false) :
      Emits size (.pushData id data last) id .data last (dataFrames id last (payloadPieces size data))
  | reset {id code : UInt32} :
      Emits size (.pushReset id code) id .rstStream false
        [Frame.ofParts .rstStream 0 id (Bytes.ofUInt32 code)]

namespace Op.Emits

variable {size : Nat} {op : Op δ} {frames : List Frame}

/-- Pushes ask the send table about kinds that move a stream. -/
theorem moving (emits : op.Emits size id kind last frames) : StreamState.Moving kind := by
  cases emits with
  | headers => exact .inl rfl
  | noData | data => exact .inr (.inl rfl)
  | reset => exact .inr (.inr rfl)

/-- The flags that a push shows to the send table end the stream exactly if the caller asked for it. -/
theorem endsStream (emits : op.Emits size id kind last frames) :
    kind.endsStream (endFlag last) = last := by
  cases emits with
  | headers => exact endsStream_endFlag (.inl rfl) last
  | noData | data => exact endsStream_endFlag (.inr rfl) _
  | reset => rfl

end Op.Emits

/-! ## All operations -/

/-- What an operation may do. -/
inductive Effect (c : Codec δ) : Op δ → Codec δ → Prop
  /-- It fails, or there is nothing to do. -/
  | still {op : Op δ} : Effect c op c
  /-- The peer has taken the identifier. -/
  | skipped (left : ¬maxStreamId < c.nextStreamId)
      (taken : c.streams.contains c.nextStreamId = true) :
      Effect c .openStream { c with nextStreamId := c.nextStreamId + 2 }
  | opened (left : ¬maxStreamId < c.nextStreamId)
      (free : c.streams.contains c.nextStreamId = false) :
      Effect c .openStream
        { c with
          nextStreamId := c.nextStreamId + 2
          streams := c.streams.put { id := c.nextStreamId, origin := .outbound } }
  | pushed {op : Op δ} {id : UInt32} {kind : FrameKind} {last : Bool} {frames : List Frame}
      {s : Stream δ} {next : StreamState} (emits : op.Emits c.maxFrameSize id kind last frames)
      (found : c.streams.get? id = some s) (accepted : s.state.send kind last = .accept next) :
      Effect c op ((c.putStream { s with state := next }).enqueue frames)
  | popped : Effect c .popOutbound { c with outbound := c.outbound.tail }
  | heard : Effect c .takeWriteSignal { c with writeSignal := false }
  | marked {op : Op δ} {id : UInt32} {s : Stream δ} (found : c.streams.get? id = some s)
      (userData : Option δ) : Effect c op (c.putStream { s with userData })
  | evicted : Effect c .evictClosed c.evictClosed.2

theorem enqueue_nil (c : Codec δ) : c.enqueue [] = c := by
  simp [enqueue]

/-- To send no frames is to ask the send table. -/
theorem send_nil (c : Codec δ) (id : UInt32) (kind : FrameKind) (flags : UInt8) :
    c.send id kind flags [] = c.applySend id kind flags := by
  rw [send]
  rcases c.applySend id kind flags with ⟨fault | ⟨⟩, sent⟩
  · rfl
  · exact congrArg (Prod.mk _) sent.enqueue_nil

/-- To pop gives the foremost frame and drops it. -/
theorem popOutbound_eq (c : Codec δ) :
    c.popOutbound = (c.outbound.head?, { c with outbound := c.outbound.tail }) := by
  obtain ⟨role, size, assembler, streams, queue, counter, last, signal⟩ := c
  cases queue <;> rfl

namespace Effect

/-- A push changes nothing unless the send table accepts it. -/
theorem of_send {op : Op δ} {frames : List Frame}
    (emits : op.Emits c.maxFrameSize id kind last frames) :
    Effect c op (c.send id kind (endFlag last) frames).2 := by
  rcases pushed : c.send id kind (endFlag last) frames with ⟨fault | ⟨⟩, c'⟩
  · rw [send_error pushed]
    exact .still
  · obtain ⟨sent, accepted, rfl⟩ := send_eq_ok pushed
    obtain ⟨s, next, found, table, rfl⟩ := applySend_eq_ok emits.moving accepted
    rw [emits.endsStream] at table
    exact .pushed emits found table

/-- A header list is queued if it can be written and the send table accepts it. -/
theorem pushHeaders (c : Codec δ) (id : UInt32) (fields : List Field) (last : Bool) :
    Effect c (.pushHeaders id fields last) (c.pushHeaders id fields last).2 := by
  unfold Codec.pushHeaders
  split
  · exact .still
  · rename_i block written
    exact of_send (.headers written)

/-- A body segment is queued if the send table accepts it, but no frame is if it is empty and not the
last. -/
theorem pushData (c : Codec δ) (id : UInt32) (data : Bytes) (last : Bool) :
    Effect c (.pushData id data last) (c.pushData id data last).2 := by
  unfold Codec.pushData
  split
  · rename_i empty
    obtain ⟨rfl, rfl⟩ : data = [] ∧ last = false := by simpa using empty
    rw [← send_nil]
    exact of_send .noData
  · rename_i content
    exact of_send (.data (Bool.eq_false_iff.mpr content))

/-- A reset is queued if the send table accepts it. -/
theorem pushReset (c : Codec δ) (id code : UInt32) :
    Effect c (.pushReset id code) (c.pushReset id code).2 :=
  of_send .reset

/-- Opening a stream fails, skips an identifier of the peer, or registers an idle stream. -/
theorem openStream (c : Codec δ) : Effect c .openStream c.openStream.2 := by
  by_cases spent : maxStreamId < c.nextStreamId
  · rw [openStream_spent spent]
    exact .still
  · cases known : c.streams.contains c.nextStreamId with
    | true =>
      rw [openStream_taken spent known]
      exact .skipped spent known
    | false =>
      rw [openStream_free spent known]
      exact .opened spent known

end Effect

/-- Every operation does one of these things. -/
theorem effect_perform (c : Codec δ) (op : Op δ) : Effect c op (c.perform op).2 := by
  cases op with
  | openStream => exact .openStream c
  | pushHeaders id fields last => exact .pushHeaders c id fields last
  | pushData id data last => exact .pushData c id data last
  | pushReset id code => exact .pushReset c id code
  | popOutbound =>
    rw [perform, popOutbound_eq]
    exact .popped
  | takeWriteSignal => exact .heard
  | setUserData id value =>
    simp only [perform, setUserData]
    split
    · exact .still
    · exact .marked ‹_› _
  | takeUserData id =>
    simp only [perform, takeUserData]
    split
    · exact .still
    · exact .marked ‹_› _
  | evictClosed => exact .evicted
  | inspect => exact .still

end Http2.Codec
