import Http2.Proofs.Codec.Sending

/-!
# The operations of one endpoint

Each operation of this side is one step of `Sends`: `sends_perform` has a case for every operation,
and `sends_run` goes through a whole script. Operations that fail send nothing.
-/

namespace Http2

variable {δ σ α : Type}

namespace Codec

variable {c c' : Codec δ} {sent sent' received : View} {id : UInt32} {kind : FrameKind}
  {flags : UInt8}

/-- An identifier that is left to give out has 31 bits. -/
theorem toNat_le_of_left {next : UInt32} (left : ¬maxStreamId < next) : next.toNat ≤ 0x7FFFFFFF :=
  UInt32.le_iff_toNat_le.mp (UInt32.not_lt.mp left)

/-- The identifier after the next one, while identifiers last. -/
theorem toNat_next {next : UInt32} (left : ¬maxStreamId < next) :
    (next + 2).toNat = next.toNat + 2 := by
  have bound := toNat_le_of_left left
  rw [UInt32.toNat_add, show (2 : UInt32).toNat = 2 from rfl]
  omega

/-- An identifier that lasts is one that frames can carry. -/
theorem isStreamId_next {next : UInt32} (left : ¬maxStreamId < next) (positive : 0 < next.toNat) :
    IsStreamId next := by
  constructor
  · rintro rfl
    exact absurd positive (by decide)
  · exact and_maxStreamId_eq_iff.mpr (UInt32.not_lt.mp left)

/-- Skipping an identifier keeps the parity of the counter, which is all that is said of it. -/
theorem side_counted (side : c.Side sent received) (left : ¬maxStreamId < c.nextStreamId) :
    ({ c with nextStreamId := c.nextStreamId + 2 } : Codec δ).Side sent received := by
  refine side.of_fields rfl rfl rfl ?_ ?_
  · show (c.nextStreamId + 2).toNat % 2 = c.role.firstStreamId.toNat % 2
    rw [toNat_next left, Nat.add_mod_right]
    exact side.counter
  · show 0 < (c.nextStreamId + 2).toNat
    rw [toNat_next left]
    omega

/-- Opening a stream sends nothing, whether it succeeds or not. -/
theorem sends_openStream (side : c.Side sent received) :
    Sends received c sent [.performed .openStream c.openStream.1] c.openStream.2 sent [] := by
  by_cases exhausted : maxStreamId < c.nextStreamId
  · rw [openStream_spent exhausted]
    exact .of_failed side rfl rfl rfl
  · have counted := side_counted side exhausted
    cases taken : c.streams.contains c.nextStreamId with
    | true =>
      rw [openStream_taken exhausted taken]
      exact .of_silent counted rfl rfl rfl (by simp [Event.opened])
    | false =>
      rw [openStream_free exhausted taken]
      refine .of_silent ?_ rfl rfl rfl fun id known => ?_
      case refine_2 =>
        rw [Registry.contains_put]
        rcases known with known | same
        · exact .inr known
        · exact .inl (Option.some.inj same).symm
      have unseen : c.streams.get? c.nextStreamId = none := by
        rwa [Registry.contains, Option.isSome_eq_false_iff, Option.isNone_iff_eq_none] at taken
      have unused : c.streams.inbound c.nextStreamId =
          { id := c.nextStreamId, origin := .inbound } := by
        rw [Registry.inbound, unseen]
        rfl
      have waiting : (c.streams.inbound c.nextStreamId).awaiting = false := by rw [unused]
      have fragments : (c.streams.inbound c.nextStreamId).fragments = [] := by rw [unused]
      have stored := counted.put { id := c.nextStreamId, origin := .outbound }
        (sent.phase c.nextStreamId) waiting.symm fragments.symm
        (by rw [← side.state c.nextStreamId, unused]) id
        (isStreamId_next exhausted side.positive) fun _ => side.counter
      rwa [View.move_same side.whole] at stored

/-- Queued frames change no stream. -/
theorem side_enqueue (side : c.Side sent received) (frames : List Frame) :
    (c.enqueue frames).Side sent received :=
  side.of_same rfl rfl rfl rfl

/-- If a move resets a stream, an operation of this history has reset it. -/
theorem resets_move {phase : Phase} {answered last : Bool} {event : Event δ}
    (moved : (sent.phase id).after? answered kind last = some phase)
    (logged : kind = .rstStream → ∃ code, event = .performed (.pushReset id code) (.ok ()))
    (other : UInt32) (reset : (sent.move id phase).phase other = .reset) :
    sent.phase other = .reset ∨
      ∃ code, .performed (.pushReset other code) (.ok ()) ∈ [event] := by
  by_cases same : other = id
  · subst same
    right
    by_cases kind : kind = .rstStream
    · obtain ⟨code, rfl⟩ := logged kind
      exact ⟨code, List.mem_singleton_self _⟩
    · rw [View.phase_move_self] at reset
      rw [reset] at moved
      exact absurd moved (Phase.after?_ne_reset kind)
  · rw [View.phase_move_of_ne sent phase same] at reset
    exact .inl reset

theorem length_of_mem_blockFrames {pieces : List Bytes} {last : Bool} {size : Nat} {f : Frame}
    (small : ∀ piece ∈ pieces, piece.length ≤ size) (member : f ∈ blockFrames id last pieces) :
    f.length ≤ size := by
  obtain ⟨i, bound, rfl⟩ := List.mem_mapIdx.mp member
  exact small _ (List.getElem_mem bound)

theorem length_of_mem_dataFrames {pieces : List Bytes} {last : Bool} {size : Nat} {f : Frame}
    (small : ∀ piece ∈ pieces, piece.length ≤ size) (member : f ∈ dataFrames id last pieces) :
    f.length ≤ size := by
  obtain ⟨i, bound, rfl⟩ := List.mem_mapIdx.mp member
  exact small _ (List.getElem_mem bound)

/-- An operation that queues frames sends them, if they may travel and are reported as the operation
asks for. -/
theorem sends_send {flags : UInt8} {last : Bool} {frames : List Frame} {event : Event δ}
    (side : c.Side sent received) (moving : StreamState.Moving kind)
    (ends : kind.endsStream flags = last) (queued : c.send id kind flags frames = (.ok (), c'))
    (kept : event.popped = []) (unopened : event.opened = none)
    (logged : kind = .rstStream → ∃ code, event = .performed (.pushReset id code) (.ok ()))
    (fits : ∀ f ∈ frames, f.length ≤ max 4 c.maxFrameSize)
    (travel : ∀ phase, IsStreamId id →
      (sent.phase id).after? (received.begun id) kind last = some phase →
        View.Runs received.begun sent frames { sent.move id phase with gathered := [] } ∧
          View.callbacks [] frames = event.deliveries c.maxFrameSize) :
    ∃ sent' frames, Sends received c sent [event] c' sent' frames := by
  obtain ⟨moved, accepted, rfl⟩ := send_eq_ok queued
  obtain ⟨phase, after, valid, side', outbound, size, known⟩ := side_applySend side moving accepted
  rw [ends] at after
  obtain ⟨runs, reported⟩ := travel phase valid after
  exact ⟨_, frames, {
    side := side_enqueue side' frames
    queued := by simp [kept, enqueue, outbound]
    runs
    fits
    reported := by rw [reported, List.flatMap_singleton]
    resets := resets_move after logged
    known := by simpa [unopened, enqueue] using known
    size }⟩

/-- A header list that was queued. -/
theorem sends_pushHeaders {fields : List Field} {last : Bool} (side : c.Side sent received)
    (positive : 1 ≤ c.maxFrameSize)
    (small : ∀ block, HeaderBlock.encode? fields = .ok block → block.length ≤ maxHeaderBlockSize)
    (pushed : c.pushHeaders id fields last = (.ok (), c')) :
    ∃ sent' frames,
      Sends received c sent [.performed (.pushHeaders id fields last) (.ok ())] c' sent' frames := by
  unfold pushHeaders at pushed
  split at pushed
  · cases pushed
  · rename_i block written
    rw [payloadPieces_eq positive] at pushed
    refine sends_send side (.inl rfl) (endsStream_endFlag (.inl rfl) last) pushed rfl rfl nofun ?_ ?_
    · intro f member
      have fits := length_of_mem_blockFrames
        (fun piece => Bytes.length_of_mem_slices positive) member
      omega
    · intro phase valid moved
      obtain ⟨runs, reported⟩ := View.runs_blockFrames valid side.whole
        (Bytes.slices_ne_nil c.maxFrameSize block) (by simpa using small block written) moved
      rw [Bytes.flatten_slices, HeaderBlock.decode_of_encode? written] at reported
      exact ⟨runs, reported⟩

/-- A body segment that was queued, or that was empty and queued nothing. -/
theorem sends_pushData {data : Bytes} {last : Bool} (side : c.Side sent received)
    (positive : 1 ≤ c.maxFrameSize) (pushed : c.pushData id data last = (.ok (), c')) :
    ∃ sent' frames,
      Sends received c sent [.performed (.pushData id data last) (.ok ())] c' sent' frames := by
  unfold pushData at pushed
  split at pushed
  · rename_i empty
    obtain ⟨side', outbound, size, known⟩ := side_applySend_empty side pushed
    exact ⟨sent, [],
      .of_silent side' outbound (if_pos empty) size (by simpa [Event.opened] using known)⟩
  · rename_i some
    rw [payloadPieces_eq positive] at pushed
    refine sends_send side (.inr (.inl rfl)) (endsStream_endFlag (.inr rfl) last) pushed rfl rfl nofun
      ?_ ?_
    · intro f member
      have fits := length_of_mem_dataFrames
        (fun piece => Bytes.length_of_mem_slices positive) member
      omega
    · intro phase valid moved
      obtain ⟨runs, reported⟩ := View.runs_dataFrames valid side.whole
        (Bytes.slices_ne_nil c.maxFrameSize data) moved
      exact ⟨runs, reported.trans (if_neg some).symm⟩

/-- A reset that was queued. -/
theorem sends_pushReset {code : UInt32} (side : c.Side sent received)
    (pushed : c.pushReset id code = (.ok (), c')) :
    ∃ sent' frames,
      Sends received c sent [.performed (.pushReset id code) (.ok ())] c' sent' frames := by
  refine sends_send side (.inr (.inr rfl)) rfl pushed rfl rfl (fun _ => ⟨code, rfl⟩) ?_ ?_
  · intro g member
    rw [List.mem_singleton.mp member]
    exact Nat.le_max_left 4 _
  · intro phase valid moved
    let f := Frame.ofParts .rstStream 0 id (Bytes.ofUInt32 code)
    have kind : f.kind = .rstStream := Frame.kind_ofParts rfl
    have stream : f.stream = id := Frame.stream_ofParts valid
    have takes : View.Takes received.begun sent f
        { sent.move f.stream phase with gathered := View.gather sent.gathered f } :=
      .moving (Frame.plain_ofParts valid (by decide) (by decide)) (.inr kind) side.whole
        (by rwa [kind, stream])
    rw [stream, View.gather_of_moving _ (.inr kind)] at takes
    refine ⟨.single takes, ?_⟩
    simp [View.callbacks, View.firing, kind, Event.deliveries, f]

/-- The application's data on a stream matters to no frame. -/
theorem side_putUserData (side : c.Side sent received) {s : Stream δ}
    (found : c.streams.get? id = some s) (userData : Option δ) :
    (c.putStream { s with userData }).Side sent received := by
  have known := Registry.contains_of_get? found
  have here := Registry.inbound_of_get? found
  obtain rfl : s.id = id := Registry.id_of_get? found
  have stored := side.put { s with userData } (sent.phase s.id) (by rw [here]) (by rw [here])
    (by rw [← side.state s.id, here]) (fun reset => reset) (side.valid s.id known)
    (side.own s.id known)
  rwa [View.move_same side.whole] at stored

/-- One operation. -/
theorem sends_perform (side : c.Side sent received) (positive : 1 ≤ c.maxFrameSize) (op : Op δ)
    (modest : Event.Modest (.performed op (c.perform op).1)) :
    ∃ sent' frames,
      Sends received c sent [.performed op (c.perform op).1] (c.perform op).2 sent' frames := by
  cases op with
  | openStream => exact ⟨sent, [], sends_openStream side⟩
  | pushHeaders id fields last =>
    simp only [perform] at modest ⊢
    rcases pushed : c.pushHeaders id fields last with ⟨fault | ⟨⟩, c'⟩
    · rw [pushHeaders_error pushed]
      exact ⟨sent, [], .of_failed side rfl rfl rfl⟩
    · rw [pushed] at modest
      exact sends_pushHeaders side positive modest pushed
  | pushData id data last =>
    simp only [perform]
    rcases pushed : c.pushData id data last with ⟨fault | ⟨⟩, c'⟩
    · rw [pushData_error pushed]
      exact ⟨sent, [], .of_failed side rfl rfl rfl⟩
    · exact sends_pushData side positive pushed
  | pushReset id code =>
    simp only [perform]
    rcases pushed : c.pushReset id code with ⟨fault | ⟨⟩, c'⟩
    · rw [pushReset_error pushed]
      exact ⟨sent, [], .of_failed side rfl rfl rfl⟩
    · exact sends_pushReset side pushed
  | popOutbound =>
    simp only [perform, popOutbound]
    cases queue : c.outbound with
    | nil =>
      exact ⟨sent, [], .of_silent side (by simp [Event.popped, queue]) rfl rfl
        (by simp [Event.opened])⟩
    | cons frame rest =>
      exact ⟨sent, [], .of_silent (side.of_same rfl rfl rfl rfl)
        (by simp [Event.popped, queue]) rfl rfl (by simp [Event.opened])⟩
  | takeWriteSignal =>
    exact ⟨sent, [], .of_silent (side.of_same rfl rfl rfl rfl) rfl rfl rfl
      (by simp [Event.opened, perform, Codec.takeWriteSignal])⟩
  | setUserData id value =>
    simp only [perform, setUserData]
    cases found : c.streams.get? id with
    | none => exact ⟨sent, [], .of_failed side rfl rfl rfl⟩
    | some s =>
      refine ⟨sent, [], .of_silent (side_putUserData side found _) rfl rfl rfl fun id known => ?_⟩
      exact contains_putStream c _ (known.resolve_right (by simp [Event.opened]))
  | takeUserData id =>
    simp only [perform, takeUserData]
    cases found : c.streams.get? id with
    | none => exact ⟨sent, [], .of_failed side rfl rfl rfl⟩
    | some s =>
      refine ⟨sent, [], .of_silent (side_putUserData side found _) rfl rfl rfl fun id known => ?_⟩
      exact contains_putStream c _ (known.resolve_right (by simp [Event.opened]))
  | evictClosed => exact absurd modest id
  | inspect => exact ⟨sent, [], .of_failed side rfl rfl rfl⟩

/-- A whole script. -/
theorem sends_run (side : c.Side sent received) (positive : 1 ≤ c.maxFrameSize) (s : Script δ α)
    (modest : ∀ event ∈ s.steps c, event.Modest) :
    ∃ sent' frames, Sends received c sent (s.steps c) (s.run c).2 sent' frames := by
  induction s generalizing c sent with
  | done value => exact ⟨sent, [], .refl side⟩
  | call op next ih =>
    rw [Script.steps] at modest ⊢
    obtain ⟨sent', frames, first⟩ := sends_perform side positive op (modest _ List.mem_cons_self)
    have positive' : 1 ≤ (c.perform op).2.maxFrameSize := by rwa [first.size]
    obtain ⟨sent'', frames', second⟩ := ih (c.perform op).1 first.side positive'
      fun event later => modest event (List.mem_cons_of_mem _ later)
    exact ⟨sent'', frames ++ frames', first.trans side.whole second⟩

end Codec

end Http2
