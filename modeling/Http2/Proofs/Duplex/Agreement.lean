import Http2.Proofs.Duplex.Basic

/-!
# The two ends agree

`Joined` relates both codecs to the channels between them: for each direction there is one view of what
has been sent and one of what has been received, and the frames under way lead from the latter to the
former. Every step keeps it, so no frame that arrives is a fault, whatever crosses in flight. When
nothing is under way the views of each direction are the same, and the two ends of a stream are dual.
-/

namespace Http2.Duplex

variable {δ σ : Role → Type} {d d' : Duplex δ σ} {limit : Nat} {sent received : Role → View}
  {pending : Role → List Frame} {role : Role}

/-- An endpoint that is what the frames sent and received make it. `pending role` are the frames that
`role` has not received yet, as far as they are no longer in the queue of the other end. -/
structure Joined (limit : Nat) (d : Duplex δ σ) (sent received : Role → View)
    (pending : Role → List Frame) (role : Role) : Prop where
  converses : (d.ends role).Converses (sent role) (received role)
  framed : (d.ends role).codec.Framed
  playing : (d.ends role).codec.role = role
  size : (d.ends role).codec.maxFrameSize = limit
  spelled : d.held role ++ d.wire role.peer = (pending role).flatMap Frame.toBytes
  coming : View.Runs (sent role).begun (received role) (pending role ++ d.queue role.peer)
    (sent role.peer)
  fits : ∀ f ∈ pending role ++ d.queue role.peer, f.length ≤ limit
  history : View.Runs (fun _ => true) {} (d.carried role ++ d.queue role) (sent role)

/-- At the start, either end is what no frames at all make it. -/
theorem joined_start (maxFrameSize : Nat) (apps : ∀ role, σ role) (role : Role) :
    Joined (max 1 (min maxFrameSize maxFrameLength)) (.start maxFrameSize apps : Duplex δ σ)
      (fun _ => {}) (fun _ => {}) (fun _ => []) role where
  converses := Endpoint.converses_create role maxFrameSize (apps role)
  framed := Codec.framed_create role maxFrameSize
  playing := rfl
  size := rfl
  spelled := rfl
  coming := .nil {}
  fits _ member := by cases member
  history := .nil {}

/-- One end speaks, and perhaps receives some of the frames under way. -/
theorem joined_replace (joined : ∀ role, Joined limit d sent received pending role)
    (room : 4 ≤ limit) {e : Endpoint (δ role) (σ role × List (Event (δ role)))} {unread : Bytes}
    {rest said : List Frame} {sent' received' : View}
    (hears : (d.ends role).Hears (sent role) (sent role.peer) (d.queue role.peer) e rest sent'
      received' said) (left : rest <:+ pending role) (framed : e.codec.Framed)
    (spelled : e.codec.assembler.progress.buffer ++ unread = rest.flatMap Frame.toBytes) :
    ∀ other, Joined limit (d.replace role e unread) (Function.update sent role sent')
      (Function.update received role received') (Function.update pending role rest) other := by
  have far : role.peer ≠ role := role.peer_ne
  have here := joined role
  have there := joined role.peer
  have queued : e.codec.outbound = d.queue role ++ said := hears.queued
  have fits : ∀ f ∈ said, f.length ≤ limit := by
    intro f member
    have bound := hears.fits f member
    rw [here.size] at bound
    omega
  -- What was said arrives behind the frames under way to the other end.
  have coming := there.coming
  have fitting := there.fits
  rw [role.peer_peer] at coming fitting
  refine role.both ?here ?there
  case here =>
    have history := here.history.append (hears.runs.mono fun _ _ => rfl)
    exact
      { converses := by simpa using hears.converses
        framed := by simpa using framed
        playing := by simpa using hears.role.trans here.playing
        size := by simpa using hears.size.trans here.size
        spelled := by simpa [held] using spelled
        coming := by simpa [far] using hears.coming
        fits := by
          intro f member
          apply here.fits f
          simp only [Function.update_self, queue_replace_peer] at member
          rcases List.mem_append.mp member with member | member
          · exact List.mem_append_left _ (left.subset member)
          · exact List.mem_append_right _ member
        history := by simpa [queued] using history }
  case there =>
    exact
      { converses := by simpa [far] using there.converses
        framed := by simpa using there.framed
        playing := by simpa using there.playing
        size := by simpa using there.size
        spelled := by simpa [held, far] using there.spelled
        coming := by simpa [far, queued] using coming.append hears.runs
        fits := by
          intro f member
          simp only [Role.peer_peer, Function.update_of_ne far, queue_replace, queued,
            ← List.append_assoc] at member
          rcases List.mem_append.mp member with member | member
          · exact fitting f member
          · exact fits f member
        history := by simpa [far] using there.history }

/-- One end plays a script of its own. -/
theorem joined_act (joined : ∀ role, Joined limit d sent received pending role) (room : 4 ≤ limit)
    {s : σ role → Script (δ role) (σ role)} (orderly : (d.act role s).Orderly) :
    ∃ sent' received' pending', ∀ other,
      Joined limit (d.act role s) sent' received' pending' other := by
  have here := joined role
  have polite : Http2.Orderly ((d.ends role).act s).app.2 := by
    simpa [log, act] using orderly role
  have framing := Endpoint.sameFraming_play (d.ends role) fun (app, log) => (s app).traced log
  obtain ⟨sent', said, hears⟩ :=
    Endpoint.hears_act here.converses here.framed.positive here.coming polite
  refine ⟨_, _, _, joined_replace joined room hears List.suffix_rfl
    (here.framed.of_sameFraming framing) ?_⟩
  rw [Endpoint.act, framing.assembler]
  exact here.spelled

/-- One end reads: no frame under way is a fault. -/
theorem joined_deliver {h : ∀ role, Handler (δ role) (σ role)} {count : Nat}
    (joined : ∀ role, Joined limit d sent received pending role) (room : 4 ≤ limit)
    (orderly : (d.deliver h role count).Orderly) : (d.reading h role count).fault = none ∧
      ∃ sent' received' pending', ∀ other,
        Joined limit (d.deliver h role count) sent' received' pending' other := by
  have here := joined role
  have polite : Http2.Orderly (d.reading h role count).endpoint.app.2 := by
    simpa [log, deliver] using orderly role
  have fits : ∀ f ∈ pending role, f.length ≤ (d.ends role).codec.maxFrameSize := by
    intro f member
    rw [here.size]
    exact here.fits f (List.mem_append_left _ member)
  have spelled : d.held role ++ (d.wire role.peer).take count ++ (d.wire role.peer).drop count =
      (pending role).flatMap Frame.toBytes := by
    rw [List.append_assoc, List.take_append_drop]
    exact here.spelled
  obtain ⟨fine, rest, sent', received', said, left, hears, held⟩ :=
    Endpoint.hears_process here.framed here.converses here.coming fits spelled polite
  exact ⟨fine, _, _, _, joined_replace joined room hears left
    (Endpoint.framed_process _ _ _ here.framed) held⟩

/-- One end writes a frame, which is under way from then on. -/
theorem joined_write (joined : ∀ role, Joined limit d sent received pending role) {f : Frame}
    {rest : List Frame} (queued : d.queue role = f :: rest) :
    ∀ other, Joined limit (d.write role f { (d.ends role).codec with outbound := rest }) sent received
      (Function.update pending role.peer (pending role.peer ++ [f])) other := by
  have far : role.peer ≠ role := role.peer_ne
  have here := joined role
  have there := joined role.peer
  have spelled := there.spelled
  have coming := there.coming
  have fits := there.fits
  have history := here.history
  rw [role.peer_peer] at spelled coming fits
  rw [queued] at coming fits history
  refine role.both ?here ?there
  case here =>
    exact
      { converses := by
          rw [ends_write]
          exact here.converses.withCodec (here.converses.side.of_same rfl rfl rfl rfl)
            fun _ known => known
        framed := by
          rw [ends_write]
          exact here.framed.of_sameFraming ⟨rfl, rfl, rfl⟩
        playing := by simpa using here.playing
        size := by simpa using here.size
        spelled := by simpa [held, far.symm] using here.spelled
        coming := by simpa [far.symm] using here.coming
        fits := by simpa [far.symm] using here.fits
        history := by simpa using history }
  case there =>
    exact
      { converses := by simpa using there.converses
        framed := by simpa using there.framed
        playing := by simpa using there.playing
        size := by simpa using there.size
        spelled := by
          rw [held, ends_write_peer, Role.peer_peer, wire_write, Function.update_self,
            List.flatMap_append, ← spelled, held]
          simp
        coming := by simpa using coming
        fits := by simpa using fits
        history := by simpa using there.history }

/-- A frame that is written is no longer in a queue, and is still to be received. -/
theorem joined_transmit (joined : ∀ role, Joined limit d sent received pending role) :
    ∃ pending', ∀ other, Joined limit (d.transmit role) sent received pending' other := by
  unfold transmit Codec.popOutbound
  cases queued : (d.ends role).codec.outbound with
  | nil => exact ⟨pending, joined⟩
  | cons f rest => exact ⟨_, joined_write joined queued⟩

/-- The frame size of a codec is large enough for RST_STREAM if the one asked for is. -/
theorem four_le_frameSize {maxFrameSize : Nat} (room : 4 ≤ maxFrameSize) :
    4 ≤ max 1 (min maxFrameSize maxFrameLength) := by
  have wide : 4 ≤ maxFrameLength := by decide
  omega

/-- Every run keeps the two ends joined. -/
theorem joined_of_reachable {h : ∀ role, Handler (δ role) (σ role)} {maxFrameSize : Nat}
    {apps : ∀ role, σ role} (room : 4 ≤ maxFrameSize)
    (reachable : Reachable h maxFrameSize apps d) :
    ∃ sent received pending, ∀ role,
      Joined (max 1 (min maxFrameSize maxFrameLength)) d sent received pending role := by
  have room := four_le_frameSize room
  induction reachable with
  | start => exact ⟨_, _, _, joined_start maxFrameSize apps⟩
  | step before step orderly ih =>
    obtain ⟨sent, received, pending, joined⟩ := ih
    cases step with
    | act role s => exact joined_act joined room orderly
    | transmit role => exact ⟨sent, received, joined_transmit joined⟩
    | deliver role count => exact (joined_deliver joined room orderly).2

/-! ## When nothing is under way -/

/-- An assembler does not hold a whole frame, so what is not on the wire has been received. -/
theorem Joined.pending_nil (joined : Joined limit d sent received pending role)
    (read : d.wire role.peer = []) : pending role = [] := by
  cases frames : pending role with
  | nil => rfl
  | cons f rest =>
    have bound : (d.ends role).codec.assembler.limit = limit := by
      rw [joined.framed.limit, joined.size]
    have fits : f.length ≤ limit := joined.fits f (by simp [frames])
    have small := joined.framed.small
    have spelled := joined.spelled
    rw [read, frames, List.flatMap_cons] at spelled
    rw [← joined.framed.limit] at small
    rw [← bound] at fits
    have taken := Assembler.next_frame joined.framed.settled fits small spelled
    rw [Assembler.next_nil joined.framed.settled] at taken
    exact absurd (congrArg Prod.snd taken) nofun

/-- When nothing is under way, each end has received what the other has sent. -/
theorem Joined.received_eq (joined : Joined limit d sent received pending role)
    (settled : d.Settled) : received role = sent role.peer := by
  have coming := joined.coming
  rw [joined.pending_nil (settled role.peer).1, (settled role.peer).2] at coming
  exact coming.eq_of_nil

/-- When nothing is under way, exactly the streams with frames on the wire have begun. -/
theorem Joined.begun_iff (joined : Joined limit d sent received pending role)
    (settled : d.Settled) (id : UInt32) :
    (sent role).begun id ↔ ∃ f ∈ d.carried role, f.stream = id := by
  have history := joined.history
  rw [(settled role).2, List.append_nil] at history
  rw [history.begun_iff id]
  simp [View.begun, Phase.begun]

/-- When nothing is under way, the frames that both ends have sent on a stream make its state. -/
theorem Joined.state (joined : Joined limit d sent received pending role) (settled : d.Settled)
    (id : UInt32) : ((d.ends role).codec.streams.inbound id).state =
      StreamState.of ((sent role).phase id) ((sent role.peer).phase id) := by
  rw [joined.converses.side.state id, joined.received_eq settled]

/-- The two ends of a stream that carried a frame. -/
def DualAt (d : Duplex δ σ) (id : UInt32) : Prop :=
  ∃ s s', (d.ends .client).codec.stream? id = some s ∧ (d.ends .server).codec.stream? id = some s' ∧
    StreamState.Dual s.state s'.state

/-- A stream that one end has opened and the other one has not heard of. -/
def KnownOnlyAt (d : Duplex δ σ) (role : Role) (id : UInt32) : Prop :=
  (∃ s, (d.ends role).codec.stream? id = some s ∧ s.state = .idle) ∧
    (d.ends role.peer).codec.stream? id = none

/-- When nothing is under way, both ends know a stream that carried frames, in states that fit each other.
-/
theorem dual_of_carried (joined : ∀ role, Joined limit d sent received pending role)
    (settled : d.Settled) {id : UInt32} (carried : d.Carried id) : d.DualAt id := by
  have travelled : (sent .client).phase id ≠ .fresh ∨ (sent .server).phase id ≠ .fresh := by
    obtain ⟨role, member⟩ := carried
    have begun := ((joined role).begun_iff settled id).mpr member
    simp only [View.begun, Phase.begun, decide_eq_true_eq] at begun
    cases role
    · exact .inl begun
    · exact .inr begun
  have dual := StreamState.dual_of travelled
  have client := (joined .client).state settled id
  have server := (joined .server).state settled id
  obtain ⟨active, active'⟩ := dual.ne_idle
  obtain ⟨s, found, state⟩ := Registry.get?_of_active client active
  obtain ⟨s', found', state'⟩ := Registry.get?_of_active server active'
  refine ⟨s, s', found, found', ?_⟩
  rw [state, state']
  exact dual

/-- When nothing is under way, a stream that carried no frame is known to the end that opened it alone. -/
theorem known_only_at_opener (joined : ∀ role, Joined limit d sent received pending role)
    (settled : d.Settled) {id : UInt32} (silent : ¬d.Carried id) {role : Role}
    (opened : .performed .openStream (.ok id) ∈ d.log role) : d.KnownOnlyAt role id := by
  have here := joined role
  have there := joined role.peer
  have fresh (role : Role) : (sent role).begun id = false := by
    rw [← Bool.not_eq_true, (joined role).begun_iff settled id]
    exact fun member => silent ⟨role, member⟩
  have contains : (d.ends role).codec.streams.contains id :=
    here.converses.opened id (List.mem_map_of_mem (f := Event.opened) opened)
  obtain ⟨s, found⟩ := Option.isSome_iff_exists.mp contains
  refine ⟨⟨s, found, ?_⟩, ?_⟩
  · have state := here.state settled id
    have quiet := fresh role
    have quiet' := fresh role.peer
    simp only [View.begun, Phase.begun, decide_eq_false_iff_not, not_not] at quiet quiet'
    rw [Registry.inbound_of_get? found, quiet, quiet'] at state
    exact state
  · have own := here.converses.side.own id contains
    rw [here.received_eq settled, here.playing] at own
    by_contra known
    have own' := there.converses.side.own id (Option.isSome_iff_ne_none.mpr known)
    rw [there.received_eq settled, there.playing] at own'
    exact Role.not_opens_peer (own (fresh _)) (own' (fresh _))

/-- Whatever the two ends do, and however the bytes between them are cut and delayed: what arrives is
never a fault; an end reports an error only for a stream that it has itself reset before; and when
nothing is under way the ends agree on every stream. -/
theorem endpoints_agree {h : ∀ role, Handler (δ role) (σ role)} {maxFrameSize : Nat}
    {apps : ∀ role, σ role} (room : 4 ≤ maxFrameSize)
    (reachable : Reachable h maxFrameSize apps d) :
    (∀ role count, (d.deliver h role count).Orderly → (d.reading h role count).fault = none) ∧
      (∀ role, Excused (d.log role)) ∧
      (d.Settled → ∀ id, (d.Carried id → d.DualAt id) ∧
        (¬d.Carried id → ∀ role, .performed .openStream (.ok id) ∈ d.log role →
          d.KnownOnlyAt role id)) := by
  obtain ⟨sent, received, pending, joined⟩ := joined_of_reachable room reachable
  refine ⟨?_, ?_, ?_⟩
  · intro role count orderly
    exact (joined_deliver joined (four_le_frameSize room) orderly).1
  · intro role
    exact (joined role).converses.excused
  · intro settled id
    constructor
    · exact dual_of_carried joined settled
    · intro silent role opened
      exact known_only_at_opener joined settled silent opened

/-- A request without header fields has been read, and is not answered yet. -/
theorem endpoints_agree_on_request :
    let request : Script Unit Unit :=
      .call .openStream fun _ => .call (.pushHeaders 1 [] true) fun _ => .done ()
    let silent : Handler Unit Unit :=
      { onHeaders := fun _ _ _ _ => .done (), onBody := fun _ _ _ _ => .done () }
    let asked : Duplex (fun _ => Unit) (fun _ => Unit) :=
      (start 16384 fun _ => ()).act .client fun _ => request
    let d := (asked.transmit .client).deliver (fun _ => silent) .server 9
    d.Settled ∧ d.Carried 1 ∧ d.DualAt 1 := by
  intro request silent asked d
  have asking : Http2.Orderly (asked.log .client) := by
    show Http2.Orderly
      [.performed .openStream (.ok 1), .performed (.pushHeaders 1 [] true) (.ok ())]
    rintro event (_ | ⟨_, _ | ⟨_, ⟨⟩⟩⟩)
    · exact ⟨trivial, rfl⟩
    · refine ⟨?_, rfl⟩
      intro block written
      cases written
      decide
  have resting : Http2.Orderly (asked.log .server) := List.forall_mem_nil _
  have reading : d.ends .server =
      (Endpoint.dispatchAll silent.traced ⟨.create .server 16384, ((), [])⟩
        [.ofParts .headers 5 1 []]).endpoint := by
    refine (ends_replace _ .server _ _).trans (congrArg Received.endpoint ?_)
    apply Endpoint.process_eq_dispatchAll _ (Codec.framed_create .server 16384)
    · intro f member
      rw [List.mem_singleton.mp member]
      decide
    · rfl
  have answering : Http2.Orderly (d.log .server) := by
    rw [log, reading]
    show Http2.Orderly [.called (.headers 1 [] true)]
    rintro event (_ | ⟨_, ⟨⟩⟩)
    exact ⟨trivial, rfl⟩
  have reachable : Reachable (fun _ => silent) 16384 (fun _ => ()) d := by
    refine .step (.step (.step .start (.act .client fun _ => request) ?_) (.transmit .client) ?_)
      (.deliver .server 9) ?_
    · exact Role.both .client asking resting
    · exact Role.both .client asking resting
    · exact Role.both .client asking answering
  have settled : d.Settled := by
    refine Role.both .client ⟨rfl, rfl⟩ ⟨rfl, ?_⟩
    show (d.ends .server).codec.outbound = []
    rw [reading]
    rfl
  have carried : d.Carried 1 := ⟨.client, .ofParts .headers 5 1 [], List.mem_singleton_self _, rfl⟩
  exact ⟨settled, carried, ((endpoints_agree (by decide) reachable).2.2 settled 1).1 carried⟩

end Http2.Duplex
