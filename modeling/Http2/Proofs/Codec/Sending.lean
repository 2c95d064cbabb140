import Http2.Proofs.Codec.Effect
import Http2.Proofs.Codec.Emission
import Http2.Proofs.Codec.Side
import Http2.Proofs.HeaderBlock

/-!
# What one endpoint sends

`Sends` relates two states of a codec between which this side performed operations: the frames queued
may follow what was sent before, and the other end will report about them what the operations ask
for. `sends_perform` is the step for one operation, `sends_run` the run of a whole script.
-/

namespace Http2

variable {δ σ α : Type}

namespace Event

/-- The frame that an operation took off the queue. -/
def popped : Event δ → List Frame
  | .performed .popOutbound (some frame) => [frame]
  | _ => []

/-- The stream that an operation opened. -/
def opened : Event δ → Option UInt32
  | .performed .openStream (.ok id) => some id
  | _ => none

/-- The callbacks that an operation asks for at the other end, if frames carry `size` bytes of
payload. A push that failed asks for none. -/
def deliveries (size : Nat) : Event δ → List Callback
  | .performed (.pushHeaders id fields last) (.ok ()) => [.headers id fields last]
  | .performed (.pushData id data last) (.ok ()) =>
    if data.isEmpty && !last then [] else View.bodies id last (Bytes.slices size data)
  | _ => []

/-- Operations that keep every stream, and queue no header block that is larger than a receiver
accepts. -/
def Modest : Event δ → Prop
  | .performed .evictClosed _ => False
  | .performed (.pushHeaders _ fields _) (.ok ()) =>
    ∀ block, HeaderBlock.encode? fields = .ok block → block.length ≤ maxHeaderBlockSize
  | _ => True

end Event

namespace View

/-- Outside of a header block, a stream that moves to where it is makes no difference. -/
theorem move_same {v : View} (closed : v.gathered = []) (id : UInt32) :
    { v.move id (v.phase id) with gathered := [] } = v := by
  obtain ⟨phase, gathered⟩ := v
  subst closed
  simp only [move, mk.injEq, and_true]
  funext other
  split
  · rename_i same
    rw [same]
  · rfl

end View

namespace Codec

variable {c c' : Codec δ} {sent sent' received : View} {id : UInt32} {kind : FrameKind}
  {flags : UInt8}

/-- What a header block in progress is to a codec shows in the streams and the last frame. -/
theorem Gathers.of_inbound {gathered : List Frame} (gathers : c.Gathers sent gathered)
    (last : c'.lastFrame = c.lastFrame)
    (awaiting : ∀ id, (c'.streams.inbound id).awaiting = (c.streams.inbound id).awaiting)
    (fragments : ∀ id, (c'.streams.inbound id).fragments = (c.streams.inbound id).fragments)
    (still : ∀ id, sent.phase id = .reset → sent'.phase id = .reset) :
    c'.Gathers sent' gathered := by
  have quiet (before : c.Quiet) : c'.Quiet := fun id => by rw [awaiting, before id]
  cases gathers with
  | idle closed before => exact .idle closed (quiet before)
  | keeping id opened streams plain noted awaits kept others =>
    refine .keeping id opened streams plain ?_ ?_ ?_ ?_
    · rwa [last]
    · rwa [awaiting]
    · rwa [fragments]
    · intro other ne
      rw [awaiting, others other ne]
  | dropping id opened streams reset before =>
    exact .dropping id opened streams (still id reset) (quiet before)

/-- Storing a stream whose sent phase moved. -/
theorem Side.put (side : c.Side sent received) (s : Stream δ) (phase : Phase)
    (awaiting : s.awaiting = (c.streams.inbound s.id).awaiting)
    (fragments : s.fragments = (c.streams.inbound s.id).fragments)
    (state : s.state = StreamState.of phase (received.phase s.id))
    (still : sent.phase s.id = .reset → phase = .reset) (valid : IsStreamId s.id)
    (own : received.begun s.id = false → c.role.Opens s.id) :
    (c.putStream s).Side { sent.move s.id phase with gathered := [] } received where
  state id := by
    rw [putStream, Registry.inbound_put]
    by_cases same : s.id = id
    · rw [if_pos same, ← same, state]
      simp only [View.phase_move_self]
    · rw [if_neg same, side.state id]
      simp only [View.phase_move_of_ne sent phase (Ne.symm same)]
  whole := rfl
  gathers := by
    refine side.gathers.of_inbound rfl ?_ ?_ ?_
    · intro id
      rw [putStream, Registry.inbound_put]
      split
      · rename_i same
        rw [awaiting, same]
      · rfl
    · intro id
      rw [putStream, Registry.inbound_put]
      split
      · rename_i same
        rw [fragments, same]
      · rfl
    · intro id reset
      by_cases same : id = s.id
      · rw [same] at reset ⊢
        simpa using still reset
      · simpa only [View.phase_move_of_ne sent phase same] using reset
  valid id known := by
    rcases (Registry.contains_put _ s id).mp known with same | known
    · rwa [← same]
    · exact side.valid id known
  own id known fresh := by
    rcases (Registry.contains_put _ s id).mp known with same | known
    · rw [← same] at fresh ⊢
      exact own fresh
    · exact side.own id known fresh
  counter := side.counter
  positive := side.positive

/-- The invariant looks at streams, last frame, role and counter only. -/
theorem Side.of_fields (side : c.Side sent received) (streams : c'.streams = c.streams)
    (last : c'.lastFrame = c.lastFrame) (role : c'.role = c.role)
    (counter : c'.role.Opens c'.nextStreamId) (positive : 0 < c'.nextStreamId.toNat) :
    c'.Side sent received where
  state := by rw [streams]; exact side.state
  whole := side.whole
  gathers := side.gathers.of_inbound last (by rw [streams]; exact fun _ => rfl)
    (by rw [streams]; exact fun _ => rfl) fun _ reset => reset
  valid := by rw [streams]; exact side.valid
  own := by rw [streams, role]; exact side.own
  counter := counter
  positive := positive

/-- Only streams, last frame, role and counter count for what the frames have made. -/
theorem Side.of_same (side : c.Side sent received) (streams : c'.streams = c.streams)
    (last : c'.lastFrame = c.lastFrame) (role : c'.role = c.role)
    (next : c'.nextStreamId = c.nextStreamId) : c'.Side sent received := by
  apply side.of_fields streams last role
  · rw [role, next]
    exact side.counter
  · rw [next]
    exact side.positive

theorem contains_putStream (c : Codec δ) (s : Stream δ) {id : UInt32}
    (known : c.streams.contains id) : (c.putStream s).streams.contains id :=
  (Registry.contains_put _ s id).mpr (.inr known)

/-- Storing the next state of a registered stream. -/
theorem Side.put_state (side : c.Side sent received) (phase : Phase) {s : Stream δ}
    {next : StreamState} (found : c.streams.get? id = some s)
    (state : next = StreamState.of phase (received.phase id))
    (still : sent.phase id = .reset → phase = .reset) :
    (c.putStream { s with state := next }).Side { sent.move id phase with gathered := [] }
      received := by
  have known := Registry.contains_of_get? found
  obtain rfl : s.id = id := Registry.id_of_get? found
  refine side.put { s with state := next } phase ?_ ?_ state still (side.valid s.id known)
    (side.own s.id known)
  · rw [Registry.inbound_of_get? found]
  · rw [Registry.inbound_of_get? found]

/-- An accepted frame moves its stream as the view of what is sent moves. -/
theorem side_applySend (side : c.Side sent received) (moving : StreamState.Moving kind)
    (accepted : c.applySend id kind flags = (.ok (), c')) :
    ∃ phase, (sent.phase id).after? (received.begun id) kind (kind.endsStream flags) = some phase ∧
      IsStreamId id ∧ c'.Side { sent.move id phase with gathered := [] } received ∧
      c'.outbound = c.outbound ∧ c'.maxFrameSize = c.maxFrameSize ∧
      ∀ id, c.streams.contains id → c'.streams.contains id := by
  obtain ⟨s, next, found, table, rfl⟩ := applySend_eq_ok moving accepted
  rw [← Registry.inbound_of_get? found, side.state id] at table
  obtain ⟨phase, moved, state⟩ := StreamState.send_moves_phase moving table
  refine ⟨phase, moved, side.valid id (Registry.contains_of_get? found),
    side.put_state phase found state ?_, rfl, rfl, fun _ => contains_putStream c _⟩
  intro reset
  rw [reset, Phase.after?_reset] at moved
  cases moved

/-- An empty body segment that is not the last changes nothing. -/
theorem side_applySend_empty (side : c.Side sent received)
    (accepted : c.applySend id .data 0 = (.ok (), c')) : c'.Side sent received ∧
      c'.outbound = c.outbound ∧ c'.maxFrameSize = c.maxFrameSize ∧
      ∀ id, c.streams.contains id → c'.streams.contains id := by
  obtain ⟨s, next, found, table, rfl⟩ := applySend_eq_ok (.inr (.inl rfl)) accepted
  rw [← Registry.inbound_of_get? found, side.state id] at table
  have stored := side.put_state (sent.phase id) found (StreamState.send_data_more table)
    fun reset => reset
  rw [View.move_same side.whole] at stored
  exact ⟨stored, rfl, rfl, fun _ => contains_putStream c _⟩

/-! ## Operations -/

/-- What this side did between two states of a codec. -/
structure Sends (received : View) (c : Codec δ) (sent : View) (events : List (Event δ))
    (c' : Codec δ) (sent' : View) (frames : List Frame) : Prop where
  side : c'.Side sent' received
  queued : events.flatMap Event.popped ++ c'.outbound = c.outbound ++ frames
  runs : View.Runs received.begun sent frames sent'
  fits : ∀ f ∈ frames, f.length ≤ max 4 c.maxFrameSize
  reported : View.callbacks [] frames = events.flatMap (Event.deliveries c.maxFrameSize)
  resets : ∀ id, sent'.phase id = .reset →
    sent.phase id = .reset ∨ ∃ code, .performed (.pushReset id code) (.ok ()) ∈ events
  known : ∀ id, c.streams.contains id ∨ some id ∈ events.map Event.opened →
    c'.streams.contains id
  size : c'.maxFrameSize = c.maxFrameSize

namespace Sends

variable {events events' : List (Event δ)} {c'' : Codec δ} {sent'' : View}
  {frames frames' : List Frame}

protected theorem refl (side : c.Side sent received) : Sends received c sent [] c sent [] where
  side := side
  queued := by simp
  runs := .nil sent
  fits := by simp
  reported := rfl
  resets _ reset := .inl reset
  known id known := by simpa using known
  size := rfl

/-- What was done in two steps was queued and reported in the order of the steps. -/
protected theorem trans (whole : sent.gathered = [])
    (first : Sends received c sent events c' sent' frames)
    (second : Sends received c' sent' events' c'' sent'' frames') :
    Sends received c sent (events ++ events') c'' sent'' (frames ++ frames') where
  side := second.side
  queued := by
    rw [List.flatMap_append, List.append_assoc, second.queued, ← List.append_assoc, first.queued,
      List.append_assoc]
  runs := first.runs.append second.runs
  fits f member := by
    rcases List.mem_append.mp member with member | member
    · exact first.fits f member
    · rw [← first.size]
      exact second.fits f member
  reported := by
    have split := first.runs.callbacks_append frames'
    rw [whole, first.side.whole] at split
    rw [split, first.reported, second.reported, first.size, List.flatMap_append]
  resets id reset := by
    rcases second.resets id reset with before | ⟨code, member⟩
    · rcases first.resets id before with before | ⟨code, member⟩
      · exact .inl before
      · exact .inr ⟨code, List.mem_append_left events' member⟩
    · exact .inr ⟨code, List.mem_append_right events member⟩
  known id known := by
    rcases known with known | member
    · exact second.known id (.inl (first.known id (.inl known)))
    · rw [List.map_append] at member
      rcases List.mem_append.mp member with member | member
      · exact second.known id (.inl (first.known id (.inr member)))
      · exact second.known id (.inr member)
  size := second.size.trans first.size

/-- An operation that queues nothing. -/
theorem of_silent {event : Event δ} (side : c'.Side sent received)
    (queued : event.popped ++ c'.outbound = c.outbound)
    (asks : event.deliveries c.maxFrameSize = []) (size : c'.maxFrameSize = c.maxFrameSize)
    (known : ∀ id, c.streams.contains id ∨ some id = event.opened → c'.streams.contains id) :
    Sends received c sent [event] c' sent [] where
  side := side
  queued := by simpa using queued
  runs := .nil sent
  fits := by simp
  reported := by simpa [View.callbacks] using asks.symm
  resets _ reset := .inl reset
  known id before := known id (before.imp_right List.mem_singleton.mp)
  size := size

/-- An operation that leaves the codec as it was, such as one that failed. -/
theorem of_failed {event : Event δ} (side : c.Side sent received) (took : event.popped = [])
    (asks : event.deliveries c.maxFrameSize = []) (unopened : event.opened = none) :
    Sends received c sent [event] c sent [] :=
  .of_silent side (by rw [took]; rfl) asks rfl (by simp [unopened])

end Sends

end Codec

end Http2
