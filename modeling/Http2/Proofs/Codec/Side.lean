import Http2.Proofs.Codec.Dispatch
import Http2.Proofs.Codec.View

/-!
# One endpoint between two views

`Side c sent received` says that a codec is what the frames sent and the frames received make it: the
state of every stream is the pair of its phases, and the header block in progress is what the
received frames leave incomplete. `Side.dispatch` is the step for a received frame: the endpoint
reports what the view says, unless it has itself reset the stream of the frame.
-/

namespace Http2

variable {δ σ : Type}

/-- The other end. -/
def Role.peer : Role → Role
  | client => .server
  | server => .client

/-- Whether an endpoint is the one that opens a stream. -/
def Role.Opens (role : Role) (id : UInt32) : Prop :=
  id.toNat % 2 = role.firstStreamId.toNat % 2

namespace Codec

/-- How a codec deals with the header block that the received frames leave incomplete. -/
inductive Gathers (c : Codec δ) (sent : View) (gathered : List Frame) : Prop
  /-- There is none. -/
  | idle (closed : gathered = []) (quiet : c.Quiet)
  /-- Its stream keeps the frames. -/
  | keeping (id : UInt32) (opened : gathered ≠ []) (streams : ∀ g ∈ gathered, g.stream = id)
      (plain : ∀ g ∈ gathered, g.fragment = .ok g.payload)
      (noted : ∃ kind, c.lastFrame = some (kind, id) ∧ kind.carriesHeaderBlock)
      (awaits : (c.streams.inbound id).awaiting)
      (kept : (c.streams.inbound id).fragments = gathered)
      (others : ∀ other, other ≠ id → (c.streams.inbound other).awaiting = false)
  /-- It came for a stream that this side had reset, and is dropped. -/
  | dropping (id : UInt32) (opened : gathered ≠ []) (streams : ∀ g ∈ gathered, g.stream = id)
      (reset : sent.phase id = .reset) (quiet : c.Quiet)

/-- If the frames so far leave no incomplete block, no stream waits. -/
theorem Gathers.quiet {c : Codec δ} {sent : View} {gathered : List Frame}
    (gathers : c.Gathers sent gathered) (closed : gathered = []) : c.Quiet := by
  cases gathers with
  | idle _ quiet => exact quiet
  | keeping id opened => exact absurd closed opened
  | dropping id opened => exact absurd closed opened

/-- A codec that is what the frames sent and received make it. -/
structure Side (c : Codec δ) (sent received : View) : Prop where
  state : ∀ id, (c.streams.inbound id).state =
    StreamState.of (sent.phase id) (received.phase id)
  whole : sent.gathered = []
  gathers : Gathers c sent received.gathered
  valid : ∀ id, c.streams.contains id → IsStreamId id
  own : ∀ id, c.streams.contains id → received.begun id = false → c.role.Opens id
  counter : c.role.Opens c.nextStreamId
  positive : 0 < c.nextStreamId.toNat

/-- Before any frame, both directions of every stream are fresh. -/
theorem side_create (role : Role) (maxFrameSize : Nat) :
    (create role maxFrameSize : Codec δ).Side {} {} where
  state id := by simp [create, Registry.inbound, StreamState.of]
  whole := rfl
  gathers := .idle rfl fun id => by simp [create, Registry.inbound]
  valid id known := by simp [create, Registry.contains] at known
  own id known := by simp [create, Registry.contains] at known
  counter := rfl
  positive := by
    show 0 < role.firstStreamId.toNat
    cases role <;> decide

end Codec

namespace Endpoint

variable {e : Endpoint δ σ} {f : Frame} {sent received received' : View} {s : Stream δ}

/-- Storing the stream of a frame that moved its phase. -/
theorem side_note_putStream (side : e.codec.Side sent received)
    (takes : View.Takes sent.begun received f received') (stored : s.id = f.stream)
    (state : s.state = StreamState.of (sent.phase f.stream) (received'.phase f.stream))
    (gathers : ((e.note f).putStream s).codec.Gathers sent received'.gathered) :
    ((e.note f).putStream s).codec.Side sent received' where
  state id := by
    rw [inbound_note_putStream, stored]
    by_cases same : f.stream = id
    · rw [if_pos same, ← same]
      exact state
    · rw [if_neg same, takes.phase_of_ne (Ne.symm same)]
      exact side.state id
  whole := side.whole
  gathers := gathers
  valid id known := by
    rcases (Registry.contains_put _ s id).mp known with same | known
    · rw [← same, stored]
      refine ⟨takes.plain.stream, ?_⟩
      simp only [Frame.stream, UInt32.and_assoc, UInt32.and_self]
    · exact side.valid id known
  own id known fresh := by
    have stale : received.begun id = false := by
      cases begun : received.begun id with
      | false => rfl
      | true => rw [takes.begun_mono begun] at fresh; cases fresh
    rcases (Registry.contains_put _ s id).mp known with same | known
    · rw [← same, stored, takes.begun_stream] at fresh
      cases fresh
    · exact side.own id known stale
  counter := side.counter
  positive := side.positive

/-! ## Receiving one frame -/

/-- What a received frame does to an endpoint: it stores its stream and reports what the view says,
or an error if this side had reset the stream. -/
structure Receives (h : Handler δ σ) (e : Endpoint δ σ) (f : Frame) (sent received received' : View)
    (s : Stream δ) (callback : Option Callback) : Prop where
  side : ((e.note f).putStream s).codec.Side sent received'
  dispatched : e.dispatch h f = { endpoint := ((e.note f).putStream s).answer h callback }
  reported : callback = View.firing received.gathered f ∨
    sent.phase f.stream = .reset ∧ ∃ fault, callback = some (.error f.stream fault)

/-- A frame that the receive table rejects, because this side has reset the stream. -/
theorem receives_rejected (h : Handler δ σ) {fault : StreamError}
    (side : e.codec.Side sent received) (takes : View.Takes sent.begun received f received')
    (quiet : e.codec.Quiet) (tabled : Tabled f) (reset : sent.phase f.stream = .reset)
    (gathered : received'.gathered = [] ∨ received'.gathered = [f])
    (rejected : (e.codec.streams.inbound f.stream).state.transition .inbound f.kind f.flags =
      .reject fault) :
    Receives h e f sent received received' (e.codec.streams.inbound f.stream).failed
      (some (.error f.stream fault)) where
  side := by
    have still := quiet_note_putStream (f := f) (s := (e.codec.streams.inbound f.stream).failed)
      quiet rfl
    refine side_note_putStream side takes (Registry.id_inbound _ _) ?_ ?_
    · rw [reset]
      rfl
    · rcases gathered with gathered | gathered
      · exact .idle gathered still
      · exact .dropping f.stream (by simp [gathered]) (by simp [gathered]) reset still
  dispatched := dispatch_rejected (tabled.judged quiet.openBlock?) rejected
  reported := .inr ⟨reset, fault, rfl⟩

/-- A fragment stored on its stream, which keeps the frames before it. -/
theorem receives_fragment (h : Handler δ σ) (side : e.codec.Side sent received)
    (takes : View.Takes sent.begun received f received')
    (kind : f.kind = .headers ∨ f.kind = .continuation)
    (small : Frame.payloadSize (received.gathered ++ [f]) ≤ maxHeaderBlockSize)
    (plain : ∀ g ∈ received.gathered ++ [f], g.fragment = .ok g.payload)
    (streams : ∀ g ∈ received.gathered ++ [f], g.stream = f.stream)
    (others : ∀ other, other ≠ f.stream → (e.codec.streams.inbound other).awaiting = false)
    (stored : s.id = f.stream)
    (state : s.state = StreamState.of (sent.phase f.stream) (received'.phase f.stream))
    (kept : s.fragments = received.gathered ++ [f]) (awaits : s.awaiting = true)
    (dispatched : e.dispatch h f =
      ((e.note f).putStream s).afterFragment h f.stream (f.hasFlag Flag.endHeaders)) :
    ∃ s callback, Receives h e f sent received received' s callback := by
  have carries : f.kind.carriesHeaderBlock := by
    rcases kind with kind | kind <;> rw [kind] <;> rfl
  have same := takes.gathered_eq
  rw [← kept] at small plain streams
  cases ended : f.hasFlag Flag.endHeaders with
  | true =>
    rw [View.gather_of_ended _ ended] at same
    have joined : joinFragments s.fragments = .ok (s.fragments.flatMap Frame.payload) := by
      rw [List.flatMap]
      apply joinFragments_eq
      rw [List.map_map]
      exact List.map_congr_left plain
    refine ⟨{ s with fragments := [], awaiting := false }, _,
      side_note_putStream side takes stored state (.idle same ?_), ?_,
      .inl (View.firing_of_ended received.gathered kind ended).symm⟩
    · intro id
      rw [inbound_note_putStream]
      by_cases this : s.id = id
      · rw [if_pos this]
      · rw [if_neg this]
        exact others id fun that => this (stored.trans that.symm)
    · rw [dispatched, ended, afterFragment_last stored small joined, kept]
      rfl
  | false =>
    rw [View.gather_of_more _ carries ended, ← kept] at same
    refine ⟨s, none, side_note_putStream side takes stored state ?_, ?_,
      .inl (View.firing_of_more received.gathered kind ended).symm⟩
    · rw [same]
      have here : ((e.note f).putStream s).codec.streams.inbound f.stream = s := by
        rw [inbound_note_putStream, if_pos stored]
      refine .keeping f.stream (by simp [kept]) streams plain ⟨f.kind, rfl, carries⟩
        (by rw [here, awaits]) (by rw [here]) ?_
      intro other ne
      rw [inbound_note_putStream, stored, if_neg (Ne.symm ne)]
      exact others other ne
    · rw [dispatched, ended, afterFragment_more stored small]
      rfl

/-- A HEADERS frame that may come opens a block on its stream, or fails there because this side had reset
it. -/
theorem receives_opening (h : Handler δ σ) {phase : Phase} (side : e.codec.Side sent received)
    (plain : f.Plain) (kind : f.kind = .headers) (closed : received.gathered = [])
    (small : f.length ≤ maxHeaderBlockSize)
    (moved : (received.phase f.stream).after? (sent.begun f.stream) f.kind
      (f.kind.endsStream f.flags) = some phase) :
    ∃ s callback, Receives h e f sent received
      { received.move f.stream phase with gathered := View.gather received.gathered f }
      s callback := by
  have takes := View.Takes.opening plain kind closed small moved
  have quiet := side.gathers.quiet closed
  have table := StreamState.receive_moves_phase (.inl kind) moved
  rw [← side.state f.stream] at table
  rcases table with accepted | ⟨reset, -⟩ | ⟨-, reset, rejected⟩
  · let opened : Stream δ := { e.codec.streams.inbound f.stream with
      state := StreamState.of (sent.phase f.stream) phase, fragments := [f], awaiting := true }
    have state : opened.state =
        StreamState.of (sent.phase f.stream) ((received.move f.stream phase).phase f.stream) := by
      rw [View.phase_move_self]
    have kept : opened.fragments = received.gathered ++ [f] := by rw [closed]; rfl
    refine receives_fragment h side takes (.inl kind) ?_ ?_ ?_ (fun other _ => quiet other)
      (s := opened) (Registry.id_inbound e.codec.streams f.stream) state kept rfl
      (dispatch_opening quiet.openBlock? (.inl kind) plain.stream accepted plain.fragment_eq)
    · simpa [closed, Frame.payloadSize] using small
    · simpa [closed] using plain.fragment_eq
    · simp [closed]
  · rw [kind] at reset
    cases reset
  · refine ⟨_, _, receives_rejected h side takes quiet ⟨.inl kind, plain.stream⟩ reset ?_ rejected⟩
    simp only [closed, View.gather]
    split <;> simp

/-- A CONTINUATION that may come is added to the block of its stream, and the last one completes it. -/
theorem receives_continuing (h : Handler δ σ) (side : e.codec.Side sent received)
    (plain : f.Plain) (kind : f.kind = .continuation) (opened : received.gathered ≠ [])
    (same : ∀ g ∈ received.gathered, g.stream = f.stream) (begun : received.begun f.stream)
    (small : Frame.payloadSize (received.gathered ++ [f]) ≤ maxHeaderBlockSize) :
    ∃ s callback, Receives h e f sent received
      { received with gathered := View.gather received.gathered f } s callback := by
  have takes : View.Takes sent.begun received f
      { received with gathered := View.gather received.gathered f } :=
    .continuing plain kind opened same begun small
  have streams : ∀ g ∈ received.gathered ++ [f], g.stream = f.stream := by
    intro g member
    rcases List.mem_append.mp member with member | member
    · exact same g member
    · rw [List.mem_singleton.mp member]
  obtain ⟨g, member⟩ := List.exists_mem_of_ne_nil _ opened
  cases side.gathers with
  | idle closed => exact absurd closed opened
  | keeping id _ here plainBefore noted awaits kept others =>
    obtain rfl : f.stream = id := (same g member).symm.trans (here g member)
    obtain ⟨noted, last, carries⟩ := noted
    have waiting := Codec.openBlock?_of_inbound last carries awaits
    let more : Stream δ := { e.codec.streams.inbound f.stream with
      fragments := (e.codec.streams.inbound f.stream).fragments ++ [f] }
    refine receives_fragment h side takes (.inr kind) small ?_ streams others (s := more)
      (Registry.id_inbound _ _) (side.state f.stream) (by rw [← kept]) awaits
      (dispatch_continuation waiting kind plain.stream)
    intro g member
    rcases List.mem_append.mp member with member | member
    · exact plainBefore g member
    · rw [List.mem_singleton.mp member]
      exact plain.fragment_eq
  | dropping id _ here reset quiet =>
    obtain rfl : f.stream = id := (same g member).symm.trans (here g member)
    have still := quiet_note_putStream (f := f) (s := (e.codec.streams.inbound f.stream).failed)
      quiet rfl
    refine ⟨(e.codec.streams.inbound f.stream).failed, some (.error f.stream .protocolError),
      side_note_putStream side takes (Registry.id_inbound _ _) (by rw [reset]; rfl) ?_,
      dispatch_stray quiet.openBlock? kind plain.stream, .inr ⟨reset, _, rfl⟩⟩
    simp only [View.gather]
    split
    · exact .dropping f.stream (by simp) streams reset still
    · exact .idle rfl still

/-- A DATA frame or a reset that may come moves its stream, and data is reported. -/
theorem receives_moving (h : Handler δ σ) {phase : Phase} (side : e.codec.Side sent received)
    (plain : f.Plain) (kind : f.kind = .data ∨ f.kind = .rstStream)
    (closed : received.gathered = [])
    (moved : (received.phase f.stream).after? (sent.begun f.stream) f.kind
      (f.kind.endsStream f.flags) = some phase) :
    ∃ s callback, Receives h e f sent received
      { received.move f.stream phase with gathered := View.gather received.gathered f }
      s callback := by
  have takes := View.Takes.moving plain kind closed moved
  have quiet := side.gathers.quiet closed
  have gathered := View.gather_of_moving received.gathered kind
  have tabled : Tabled f := ⟨.inr (.inr kind), plain.stream⟩
  have table := StreamState.receive_moves_phase (.inr kind) moved
  rw [← side.state f.stream] at table
  have state : StreamState.of (sent.phase f.stream) phase =
      StreamState.of (sent.phase f.stream) ((received.move f.stream phase).phase f.stream) := by
    rw [View.phase_move_self]
  rcases table with accepted | ⟨reset, ignored, unchanged⟩ | ⟨notReset, reset, rejected⟩
  · let moved : Stream δ := { e.codec.streams.inbound f.stream with
      state := StreamState.of (sent.phase f.stream) phase }
    have side' := side_note_putStream (s := moved) side takes (Registry.id_inbound _ _) state
      (.idle gathered (quiet_note_putStream quiet (quiet f.stream)))
    rcases kind with kind | kind
    · refine ⟨moved, some (.body f.stream f.payload (f.hasFlag Flag.endStream)), side',
        dispatch_data quiet.openBlock? kind plain.stream accepted plain.unpadded_eq, .inl ?_⟩
      simp [View.firing, kind]
    · refine ⟨moved, none, side',
        dispatch_moved (tabled.judged quiet.openBlock?) (by simp [kind]) accepted,
        .inl ?_⟩
      simp [View.firing, kind]
  · refine ⟨e.codec.streams.inbound f.stream, none,
      side_note_putStream side takes (Registry.id_inbound _ _) ?_
        (.idle gathered (quiet_note_putStream quiet (quiet f.stream))),
      dispatch_unmoved (tabled.judged quiet.openBlock?) ignored, .inl ?_⟩
    · rw [← state, unchanged]
    · simp [View.firing, reset]
  · exact ⟨_, _, receives_rejected h side takes quiet tabled reset (.inl gathered) rejected⟩

/-- A frame that the view of the received frames takes causes no fault, and leaves an endpoint that is
what the frames make it. -/
theorem receives_of_takes (h : Handler δ σ) (side : e.codec.Side sent received)
    (takes : View.Takes sent.begun received f received') :
    ∃ s callback, Receives h e f sent received received' s callback := by
  cases takes with
  | opening plain kind closed small moved =>
    exact receives_opening h side plain kind closed small moved
  | continuing plain kind opened same begun small =>
    exact receives_continuing h side plain kind opened same begun small
  | moving plain kind closed moved => exact receives_moving h side plain kind closed moved

end Endpoint

end Http2
