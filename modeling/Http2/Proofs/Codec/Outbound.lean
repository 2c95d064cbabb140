import Http2.Proofs.Codec.Closing
import Http2.Proofs.Codec.Operations
import Http2.Proofs.Codec.Wire

/-!
# What is queued in a run

Every push queues bundles of one stream, and only if the send table of that stream lets it: `Acts`
says what an operation does to streams and queue. `Sent` relates everything that was queued to the
states of the streams: a stream that this side has ended says so, and so does one that it has reset.
Received frames keep that, whatever they are, so the sequence of all frames ever queued is regular.
-/

namespace Http2

variable {δ σ : Type}

namespace Moment

/-- The frames that are queued: the end of the queue that was not there before. -/
def queued (m : Moment δ) : List Frame :=
  m.next.outbound.drop m.codec.outbound.length

/-- The frame that is taken off the queue. -/
def popped (m : Moment δ) : List Frame :=
  match m.occurrence with
  | .performed .popOutbound (some frame) => [frame]
  | _ => []

end Moment

namespace StreamState

/-- This side of the stream has ended. -/
def Finished (state : StreamState) : Prop :=
  state = .halfClosedLocal ∨ state = .closed

/-- Neither table lets this side go on after its end. -/
theorem lasting_finished : Lasting Finished where
  seen := by simp [Finished]
  closes := .inr rfl
  receives := by
    rintro _ next kind flags (rfl | rfl) accepted <;> cases kind <;>
      simp_all [transition, receive, Finished] <;> split at accepted <;> simp_all
  sends := by
    rintro _ next kind flags (rfl | rfl) accepted <;> cases kind <;>
      simp_all [transition, send, Finished]

/-- Once this side has ended, it can only reset the stream. -/
theorem reset_of_finished {state next : StreamState} {kind : FrameKind} {last : Bool}
    (finished : state.Finished) (moving : Moving kind)
    (accepted : state.send kind last = .accept next) : kind = .rstStream := by
  rcases finished with rfl | rfl <;> rcases moving with rfl | rfl | rfl <;>
    simp_all [send]

/-- Sending HEADERS or DATA with the end flag ends this side. -/
theorem finished_of_send {state next : StreamState} {kind : FrameKind}
    (accepted : state.send kind true = .accept next) (kinds : kind = .headers ∨ kind = .data) :
    next.Finished := by
  rcases kinds with rfl | rfl <;> cases state <;> simp [send] at accepted <;> subst accepted <;>
    simp [Finished]

/-- A reset that the send table accepts closes the stream. -/
theorem closed_of_send_reset {state next : StreamState} {last : Bool}
    (accepted : state.send .rstStream last = .accept next) : next = .closed := by
  cases state <;> simp_all [send]

/-- The send table accepts nothing on a closed stream. -/
theorem send_closed {next : StreamState} {kind : FrameKind} {last : Bool} :
    closed.send kind last ≠ .accept next := by
  cases kind <;> simp [send]

end StreamState

namespace Codec

variable {c c' : Codec δ} {id : UInt32} {last : Bool} {bundles new : List (List Frame)} {f : Frame}

/-! ## Bundles of a push -/

/-- Every CONTINUATION that is queued is of the block's stream, and does not end it. -/
theorem facts_of_continuationFrames {pieces : List Bytes} (valid : IsStreamId id)
    (member : f ∈ continuationFrames id pieces) :
    f.kind = .continuation ∧ f.stream = id ∧ f.hasFlag Flag.endStream = false := by
  have made (flags : UInt8) (piece : Bytes) (plain : Flag.has flags Flag.endStream = false) :
      let f := Frame.ofParts .continuation flags id piece
      f.kind = .continuation ∧ f.stream = id ∧ f.hasFlag Flag.endStream = false :=
    ⟨Frame.kind_ofParts rfl, Frame.stream_ofParts valid, plain⟩
  induction pieces using continuationFrames.induct with
  | case1 => cases member
  | case2 piece =>
    rw [List.mem_singleton.mp member]
    exact made Flag.endHeaders piece (by decide)
  | case3 piece next rest ih =>
    rcases List.mem_cons.mp member with rfl | member
    · exact made 0 piece (by decide)
    · exact ih member

/-- Exactly the last CONTINUATION ends its block. -/
theorem continuationFrames_split (id : UInt32) {pieces : List Bytes} (nonempty : pieces ≠ []) :
    ∃ front final, continuationFrames id pieces = front ++ [final] ∧
      final.hasFlag Flag.endHeaders = true ∧ ∀ f ∈ front, f.hasFlag Flag.endHeaders = false := by
  induction pieces using continuationFrames.induct with
  | case1 => exact absurd rfl nonempty
  | case2 piece => exact ⟨[], _, rfl, by rw [Frame.hasFlag_ofParts]; decide, by simp⟩
  | case3 piece next rest ih =>
    obtain ⟨front, final, split, ended, more⟩ := ih (List.cons_ne_nil next rest)
    refine ⟨Frame.ofParts .continuation 0 id piece :: front, final, ?_, ended, ?_⟩
    · rw [continuationFrames, split, List.cons_append]
    · intro f member
      rcases List.mem_cons.mp member with rfl | member
      · rw [Frame.hasFlag_ofParts]
        decide
      · exact more f member

/-- The frames of a header list are one bundle. -/
theorem bundle_blockFrames {pieces : List Bytes} (valid : IsStreamId id) (nonempty : pieces ≠ []) :
    Bundle (blockFrames id last pieces) := by
  cases pieces with
  | nil => exact absurd rfl nonempty
  | cons piece rest =>
    let opening := Frame.ofParts .headers (openingFlags last rest.isEmpty) id piece
    have kind : opening.kind = .headers := Frame.kind_ofParts rfl
    have stream : opening.stream = id := Frame.stream_ofParts valid
    have alone : opening.hasFlag Flag.endHeaders = rest.isEmpty :=
      (has_openingFlags last rest.isEmpty).2.2.1
    have continues : ∀ f ∈ continuationFrames id rest, f.kind = .continuation ∧
        f.stream = opening.stream ∧ f.hasFlag Flag.endStream = false := by
      intro f member
      rw [stream]
      exact facts_of_continuationFrames valid member
    rw [blockFrames_cons]
    cases rest with
    | nil => exact .block kind continues (List.nil_append [opening]).symm alone (by simp)
    | cons next rest =>
      obtain ⟨front, final, split, ended, more⟩ :=
        continuationFrames_split id (List.cons_ne_nil next rest)
      have whole : opening :: continuationFrames id (next :: rest) =
          (opening :: front) ++ [final] := by
        rw [split, List.cons_append]
      refine .block kind continues whole ended fun f member => ?_
      rcases List.mem_cons.mp member with rfl | member
      · exact alone
      · exact more f member

/-- Every DATA frame that is queued is of the segment's stream, and ends it only if the segment does. -/
theorem facts_of_dataFrames {pieces : List Bytes} (valid : IsStreamId id)
    (member : f ∈ dataFrames id last pieces) :
    f.kind = .data ∧ f.stream = id ∧ (f.hasFlag Flag.endStream = true → last = true) := by
  obtain ⟨i, bound, rfl⟩ := List.mem_mapIdx.mp member
  refine ⟨Frame.kind_ofParts rfl, Frame.stream_ofParts valid, fun ends => ?_⟩
  rw [Frame.hasFlag_ofParts] at ends
  split at ends
  · rwa [(has_endFlag last).2.2] at ends
  · exact absurd ends (by decide)

/-- Only the last DATA frame of a segment ends the stream. -/
theorem pairwise_dataFrames (id : UInt32) (last : Bool) (pieces : List Bytes) :
    (dataFrames id last pieces).Pairwise fun f _ =>
      f.kind = .data ∧ f.hasFlag Flag.endStream = false := by
  induction pieces using View.bodies.induct with
  | case1 => exact .nil
  | case2 piece => exact List.pairwise_singleton _ _
  | case3 piece next rest ih =>
    rw [dataFrames_cons]
    exact .cons (fun _ _ => ⟨Frame.kind_ofParts rfl, (has_endFlag false).2.2⟩) ih

/-- What a push queues on a stream, with the frame that the send table is asked about. -/
inductive Pushes (id : UInt32) : FrameKind → Bool → List (List Frame) → Prop
  | headers {pieces : List Bytes} (last : Bool) (nonempty : pieces ≠ []) :
      Pushes id .headers last [blockFrames id last pieces]
  | data (last : Bool) (pieces : List Bytes) :
      Pushes id .data last ((dataFrames id last pieces).map ([·]))
  | reset (code : UInt32) :
      Pushes id .rstStream false [[Frame.ofParts .rstStream 0 id (Bytes.ofUInt32 code)]]

namespace Pushes

variable {kind : FrameKind}

/-- The send table is asked about kinds of frames that move a stream. -/
theorem moving (pushes : Pushes id kind last new) : StreamState.Moving kind := by
  cases pushes with
  | headers => exact .inl rfl
  | data => exact .inr (.inl rfl)
  | reset => exact .inr (.inr rfl)

/-- What a push queues are whole bundles. -/
theorem whole (pushes : Pushes id kind last new) (valid : IsStreamId id) :
    ∀ bundle ∈ new, Bundle bundle := by
  cases pushes with
  | headers last nonempty =>
    intro bundle member
    rw [List.mem_singleton.mp member]
    exact bundle_blockFrames valid nonempty
  | data last pieces =>
    intro bundle member
    obtain ⟨f, there, rfl⟩ := List.mem_map.mp member
    exact .data (facts_of_dataFrames valid there).1
  | reset code =>
    intro bundle member
    rw [List.mem_singleton.mp member]
    exact .reset (Frame.kind_ofParts rfl) rfl (by rw [Frame.hasFlag_ofParts]; decide)

/-- Within one push, only the last frame may end the stream, and a reset is alone. -/
theorem law (pushes : Pushes id kind last new) : new.Pairwise MayPrecede := by
  cases pushes with
  | headers | reset => exact List.pairwise_singleton _ _
  | data last pieces =>
    refine List.pairwise_map.mpr ((pairwise_dataFrames id last pieces).imp ?_)
    rintro f g ⟨data, plain⟩ f' here g' there -
    rw [List.mem_singleton.mp here, data, plain]
    exact ⟨nofun, nofun⟩

/-- All frames of a push are of its stream, end it only if the push does, and are resets only if the
push is one. -/
theorem facts (pushes : Pushes id kind last new) (valid : IsStreamId id)
    (member : f ∈ new.flatten) :
    f.stream = id ∧ (f.hasFlag Flag.endStream = true → last = true ∧ (kind = .headers ∨ kind = .data)) ∧
      (f.kind = .rstStream ↔ kind = .rstStream) := by
  cases pushes with
  | @headers pieces last nonempty =>
    cases pieces with
    | nil => exact absurd rfl nonempty
    | cons piece rest =>
      rw [List.flatten_singleton, blockFrames_cons] at member
      rcases List.mem_cons.mp member with rfl | member
      · refine ⟨Frame.stream_ofParts valid, fun ends => ⟨?_, .inl rfl⟩, by
          rw [Frame.kind_ofParts rfl]⟩
        rwa [Frame.hasFlag_ofParts, (has_openingFlags last rest.isEmpty).2.2.2] at ends
      · obtain ⟨continues, stream, plain⟩ := facts_of_continuationFrames valid member
        exact ⟨stream, by simp [plain], by simp [continues]⟩
  | data last pieces =>
    obtain ⟨bundle, queued, here⟩ := List.mem_flatten.mp member
    obtain ⟨g, there, rfl⟩ := List.mem_map.mp queued
    rw [List.mem_singleton.mp here]
    obtain ⟨data, stream, ends⟩ := facts_of_dataFrames valid there
    exact ⟨stream, fun flagged => ⟨ends flagged, .inr rfl⟩, by simp [data]⟩
  | reset code =>
    rw [List.flatten_singleton] at member
    rw [List.mem_singleton.mp member]
    refine ⟨Frame.stream_ofParts valid, fun ends => ?_, by rw [Frame.kind_ofParts rfl]⟩
    rw [Frame.hasFlag_ofParts] at ends
    exact absurd ends (by decide)

end Pushes

/-! ## Operations -/

/-- What an operation other than eviction does to streams and counter, and the bundles that it
queues. -/
inductive Acts (c : Codec δ) : Codec δ → List (List Frame) → Prop
  | still {c' : Codec δ} (streams : c'.streams = c.streams)
      (counter : c'.nextStreamId = c.nextStreamId) : Acts c c' []
  /-- The identifier was taken by the peer. -/
  | counted {c' : Codec δ} (left : ¬maxStreamId < c.nextStreamId) (streams : c'.streams = c.streams)
      (counter : c'.nextStreamId = c.nextStreamId + 2) : Acts c c' []
  | opened {c' : Codec δ} (left : ¬maxStreamId < c.nextStreamId)
      (streams : c'.streams = c.streams.put { id := c.nextStreamId, origin := .outbound })
      (counter : c'.nextStreamId = c.nextStreamId + 2) : Acts c c' []
  | marked {c' : Codec δ} {id : UInt32} {s : Stream δ} {userData : Option δ}
      (found : c.streams.get? id = some s) (streams : c'.streams = c.streams.put { s with userData })
      (counter : c'.nextStreamId = c.nextStreamId) : Acts c c' []
  | pushed {c' : Codec δ} {id : UInt32} {s : Stream δ} {kind : FrameKind} {last : Bool}
      {next : StreamState} {bundles : List (List Frame)} (found : c.streams.get? id = some s)
      (accepted : s.state.send kind last = .accept next) (pushes : Pushes id kind last bundles)
      (streams : c'.streams = c.streams.put { s with state := next })
      (counter : c'.nextStreamId = c.nextStreamId) : Acts c c' bundles

/-- What an operation does, with the frames that it queues and takes off the queue. -/
structure Performs (c : Codec δ) (op : Op δ) (bundles : List (List Frame)) : Prop where
  acts : Acts c (c.perform op).2 bundles
  queued : Moment.queued ⟨c, .performed op (c.perform op).1⟩ = bundles.flatten
  popped : Moment.popped ⟨c, .performed op (c.perform op).1⟩ ++ (c.perform op).2.outbound =
    c.outbound ++ bundles.flatten

/-- Every payload has a piece, if only an empty one. -/
theorem payloadPieces_ne_nil (size : Nat) (payload : Bytes) : payloadPieces size payload ≠ [] := by
  unfold payloadPieces
  split
  · exact List.cons_ne_nil _ _
  · assumption

/-- The frames of a push as bundles. -/
theorem Op.Emits.pushes {op : Op δ} {size : Nat} {frames : List Frame}
    (emits : op.Emits size id kind last frames) :
    ∃ bundles, Pushes id kind last bundles ∧ frames = bundles.flatten := by
  cases emits with
  | headers => exact ⟨_, .headers last (payloadPieces_ne_nil _ _), List.flatten_singleton.symm⟩
  | noData => exact ⟨_, .data false [], rfl⟩
  | @data _ data =>
    refine ⟨_, .data last (payloadPieces size data), ?_⟩
    rw [← List.flatMap_def, List.flatMap_singleton']
  | @reset _ code => exact ⟨_, .reset code, rfl⟩

/-- Every operation but eviction acts by one of a few rules, and appends what it queues. -/
theorem Effect.acts {op : Op δ} (effect : Effect c op c') (kept : op ≠ .evictClosed) :
    ∃ bundles, Acts c c' bundles ∧
      (op ≠ .popOutbound → c'.outbound = c.outbound ++ bundles.flatten) := by
  have same : c.outbound = c.outbound ++ ([] : List (List Frame)).flatten := by simp
  cases effect with
  | still | heard => exact ⟨[], .still rfl rfl, fun _ => same⟩
  | skipped left => exact ⟨[], .counted left rfl rfl, fun _ => same⟩
  | opened left => exact ⟨[], .opened left rfl rfl, fun _ => same⟩
  | pushed emits found accepted =>
    obtain ⟨bundles, pushes, rfl⟩ := emits.pushes
    exact ⟨bundles, .pushed found accepted pushes rfl rfl, fun _ => rfl⟩
  | popped => exact ⟨[], .still rfl rfl, fun other => absurd rfl other⟩
  | marked found => exact ⟨[], .marked found rfl rfl, fun _ => same⟩
  | evicted => exact absurd rfl kept

/-- Every operation but eviction. -/
theorem exists_performs (c : Codec δ) {op : Op δ} (kept : op ≠ .evictClosed) :
    ∃ bundles, Performs c op bundles := by
  by_cases pops : op = .popOutbound
  · subst pops
    refine ⟨[], ?_, ?_, ?_⟩ <;> cases queue : c.outbound <;>
      simp only [perform, popOutbound, Moment.queued, Moment.popped, Moment.next, queue]
    case refine_1.nil | refine_1.cons => exact .still rfl rfl
    all_goals simp
  · obtain ⟨bundles, acts, queue⟩ := (effect_perform c op).acts kept
    have popped : Moment.popped ⟨c, .performed op (c.perform op).1⟩ = [] := by
      cases op <;> first | rfl | exact absurd rfl pops
    exact ⟨bundles, acts, by simp [Moment.queued, Moment.next, queue pops], by
      rw [popped, queue pops, List.nil_append]⟩

/-! ## Identifiers -/

/-- Every stream has an identifier that frames can carry. -/
structure Numbered (c : Codec δ) : Prop where
  valid : ∀ id, c.streams.contains id → IsStreamId id
  positive : 0 < c.nextStreamId.toNat

/-- A fresh codec has no streams, and a counter that is not 0. -/
theorem numbered_create (role : Role) (maxFrameSize : Nat) :
    (create role maxFrameSize : Codec δ).Numbered where
  valid id known := by simp [create, Registry.contains] at known
  positive := by
    show 0 < role.firstStreamId.toNat
    cases role <;> decide

/-- An identifier that comes off the wire has 31 bits, for the reserved bit is masked. -/
theorem isStreamId_stream (nonzero : f.stream ≠ 0) : IsStreamId f.stream :=
  ⟨nonzero, by rw [Frame.stream, UInt32.and_assoc, UInt32.and_self]⟩

/-- A stream that waits for CONTINUATION has been stored. -/
theorem contains_of_awaits (awaits : c.Awaits id) : c.streams.contains id := by
  cases found : c.streams.get? id with
  | none => simp [Awaits, Registry.inbound, found] at awaits
  | some s => exact Registry.contains_of_get? found

namespace Numbered

/-- A stream may be stored if a frame can carry its identifier. -/
theorem put (numbered : c.Numbered) {s : Stream δ} (valid : IsStreamId s.id) :
    (c.putStream s).Numbered where
  valid id known := by
    rcases (Registry.contains_put _ s id).mp known with same | known
    · rwa [← same]
    · exact numbered.valid id known
  positive := numbered.positive

/-- Only registry and counter decide whether a codec is numbered. -/
theorem of_fields (numbered : c.Numbered) (streams : c'.streams = c.streams)
    (positive : 0 < c'.nextStreamId.toNat) : c'.Numbered where
  valid := by rw [streams]; exact numbered.valid
  positive := positive

/-- Operations give out identifiers below the limit, and take no others. -/
theorem of_acts (numbered : c.Numbered) (acts : Acts c c' bundles) : c'.Numbered := by
  have counted (left : ¬maxStreamId < c.nextStreamId) (counter : c'.nextStreamId = c.nextStreamId + 2) :
      0 < c'.nextStreamId.toNat := by
    rw [counter, toNat_next left]
    omega
  cases acts with
  | still streams counter => exact numbered.of_fields streams (by rw [counter]; exact numbered.positive)
  | counted left streams counter => exact numbered.of_fields streams (counted left counter)
  | opened left streams counter =>
    have put := numbered.put (s := { id := c.nextStreamId, origin := .outbound })
      (isStreamId_next left numbered.positive)
    exact put.of_fields streams (counted left counter)
  | @marked id s userData found streams counter =>
    obtain rfl := Registry.id_of_get? found
    have put := numbered.put (s := { s with userData })
      (numbered.valid s.id (Registry.contains_of_get? found))
    exact put.of_fields streams (by rw [counter]; exact numbered.positive)
  | @pushed id s kind last next _ found accepted pushes streams counter =>
    obtain rfl := Registry.id_of_get? found
    have put := numbered.put (s := { s with state := next })
      (numbered.valid s.id (Registry.contains_of_get? found))
    exact put.of_fields streams (by rw [counter]; exact numbered.positive)

/-- Eviction registers nothing. -/
theorem evictClosed (numbered : c.Numbered) : c.evictClosed.2.Numbered where
  valid id known := by
    apply numbered.valid id
    have filtered : c.evictClosed.2.streams.get? id = (c.streams.get? id).filter fun s => !s.isClosed :=
      Registry.get?_retain _ _ _
    rw [Registry.contains, filtered] at known
    exact Option.isSome_of_isSome_filter _ _ known
  positive := numbered.positive

/-- A received frame registers an identifier that came off the wire. -/
theorem outcome {callback : Option Callback} {fault : Option FrameError} (numbered : c.Numbered)
    (outcome : Outcome c f c' callback fault) : c'.Numbered := by
  have noted : (c.noted f).Numbered := ⟨numbered.valid, numbered.positive⟩
  have stored {s : Stream δ} (same : s.id = f.stream) (nonzero : f.stream ≠ 0) :
      ((c.noted f).putStream s).Numbered :=
    noted.put (by rw [same]; exact isStreamId_stream nonzero)
  cases outcome with
  | ignored | streamZero => exact noted
  | unmoved judged | malformed judged | rejected judged | moved judged | body judged =>
    exact stored (Registry.id_inbound _ _) judged.stream
  | opening judged accepted opens wellFormed collects =>
    exact stored (collects.id_eq.trans (Registry.id_inbound _ _)) judged.stream
  | continuing opened kind stream collects =>
    exact stored (collects.id_eq.trans (Registry.id_inbound _ _)) stream
  | stray closed kind stream => exact stored (Registry.id_inbound _ _) stream
  | @interrupting owner opened =>
    have known := contains_of_awaits (awaits_of_openBlock? opened)
    rw [← Registry.id_inbound c.streams owner] at known
    exact noted.put (numbered.valid _ known)

end Numbered

/-- Whatever happens, streams have identifiers that frames can carry. -/
theorem Leads.Keeps.numbered {allowed : Op δ → Prop} : Keeps allowed Numbered where
  perform op _ numbered := by
    by_cases kept : op = .evictClosed
    · subst kept
      exact numbered.evictClosed
    · obtain ⟨bundles, performs⟩ := exists_performs _ kept
      exact numbered.of_acts performs.acts
  receive outcome numbered := numbered.outcome outcome
  fail {c _ f} astray numbered :=
    numbered.put (by
      rw [show (c.streams.inbound f.stream).failed.id = f.stream from Registry.id_inbound _ _]
      exact isStreamId_stream astray.stream)
  reassemble _ numbered := ⟨numbered.valid, numbered.positive⟩

/-! ## Everything that was queued -/

/-- The bundles that were queued so far. Streams that they end or reset are in a state that says so. -/
structure Sent (c : Codec δ) (bundles : List (List Frame)) : Prop where
  whole : ∀ bundle ∈ bundles, Bundle bundle
  law : bundles.Pairwise MayPrecede
  ended : ∀ f ∈ bundles.flatten, f.hasFlag Flag.endStream = true →
    (c.streams.inbound f.stream).state.Finished
  reset : ∀ f ∈ bundles.flatten, f.kind = .rstStream → c.Closed f.stream

namespace Sent

theorem nil (c : Codec δ) : c.Sent [] where
  whole := by simp
  law := .nil
  ended := by simp
  reset := by simp

/-- What lasts is enough. -/
theorem of_lasting (sent : c.Sent bundles)
    (keeps : ∀ {P : StreamState → Prop}, StreamState.Lasting P → ∀ id,
      P (c.streams.inbound id).state → P (c'.streams.inbound id).state) : c'.Sent bundles where
  whole := sent.whole
  law := sent.law
  ended f member ends := keeps StreamState.lasting_finished _ (sent.ended f member ends)
  reset f member kind := keeps StreamState.lasting_closed _ (sent.reset f member kind)

/-- A push that the send table accepts may follow everything that was queued. -/
theorem mayPrecede (sent : c.Sent bundles) (valid : IsStreamId id) {s : Stream δ}
    (found : c.streams.get? id = some s) {kind : FrameKind} {next : StreamState}
    (accepted : s.state.send kind last = .accept next) (pushes : Pushes id kind last new) :
    ∀ p ∈ bundles, ∀ q ∈ new, MayPrecede p q := by
  intro p here q there f first g second same
  have queued : f ∈ bundles.flatten := List.mem_flatten.mpr ⟨p, here, first⟩
  obtain ⟨stream, -, resets⟩ := pushes.facts valid (List.mem_flatten.mpr ⟨q, there, second⟩)
  have state : (c.streams.inbound f.stream).state = s.state := by
    rw [same, stream, Registry.inbound_of_get? found]
  constructor
  · intro reset
    have closed := sent.reset f queued reset
    rw [Closed, state] at closed
    rw [closed] at accepted
    exact StreamState.send_closed accepted
  · intro ends
    have finished := sent.ended f queued ends
    rw [state] at finished
    exact resets.mpr (StreamState.reset_of_finished finished pushes.moving accepted)

/-- A push may follow what was sent: the send table would have refused it on a stream that has ended. -/
theorem push (sent : c.Sent bundles) (valid : IsStreamId id) {s : Stream δ}
    (found : c.streams.get? id = some s) {kind : FrameKind} {next : StreamState}
    (accepted : s.state.send kind last = .accept next) (pushes : Pushes id kind last new)
    (stored : (c'.streams.inbound id).state = next) (still : c'.Sent bundles) :
    c'.Sent (bundles ++ new) where
  whole bundle member :=
    (List.mem_append.mp member).elim (sent.whole bundle) (pushes.whole valid bundle)
  law := List.pairwise_append.mpr
    ⟨sent.law, pushes.law, sent.mayPrecede valid found accepted pushes⟩
  ended f member ends := by
    rw [List.flatten_append] at member
    rcases List.mem_append.mp member with member | member
    · exact still.ended f member ends
    · obtain ⟨stream, ending, -⟩ := pushes.facts valid member
      obtain ⟨rfl, kinds⟩ := ending ends
      rw [stream, stored]
      exact StreamState.finished_of_send accepted kinds
  reset f member kind := by
    rw [List.flatten_append] at member
    rcases List.mem_append.mp member with member | member
    · exact still.reset f member kind
    · obtain ⟨stream, -, resets⟩ := pushes.facts valid member
      rw [resets.mp kind] at accepted
      rw [Closed, stream, stored]
      exact StreamState.closed_of_send_reset accepted

/-- Every operation but eviction keeps the law of what has been sent. -/
theorem perform (sent : c.Sent bundles) (numbered : c.Numbered) {op : Op δ}
    (kept : op ≠ .evictClosed) (acts : Acts c (c.perform op).2 new) :
    (c.perform op).2.Sent (bundles ++ new) := by
  have still : (c.perform op).2.Sent bundles := sent.of_lasting fun lasting id holds =>
    state_of_edits lasting (edits_perform c kept) holds
  cases acts with
  | still | counted | opened | marked => rwa [List.append_nil]
  | @pushed id s kind last next _ found accepted pushes streams =>
    have stored : ((c.perform op).2.streams.inbound id).state = next := by
      obtain rfl := Registry.id_of_get? found
      rw [streams, Registry.inbound_put_of_id]
      rfl
    exact sent.push (numbered.valid id (Registry.contains_of_get? found)) found accepted pushes
      stored still

end Sent

/-- Only an operation queues anything. -/
theorem queued_of_called {arrival : Codec δ} {callback : Callback} :
    Moment.queued ⟨c, .called arrival f callback⟩ = [] := by
  simp [Moment.queued, Moment.next]

/-- A received frame queues nothing. -/
theorem queued_of_received : Moment.queued ⟨c, .received f⟩ = [] := by
  simp [Moment.queued, Moment.next]

/-- Received frames do not touch the outbound queue. -/
theorem Outcome.outbound_eq {callback : Option Callback} {fault : Option FrameError}
    (outcome : Outcome c f c' callback fault) : c'.outbound = c.outbound := by
  cases outcome <;> rfl

/-- Everything that was queued in a run without eviction, taken off the queue or still on it. -/
theorem Leads.sent {log : List (Moment δ)} {due : Option (Moment δ)} (leads : Leads c log due c')
    (numbered : c.Numbered) (kept : ∀ m ∈ log, m.evicts = false) :
    (∃ bundles, bundles.flatten = log.flatMap Moment.queued ∧ c'.Sent bundles) ∧
      log.flatMap Moment.popped ++ c'.outbound = c.outbound ++ log.flatMap Moment.queued := by
  induction leads with
  | nil => exact ⟨⟨[], rfl, .nil c⟩, by simp⟩
  | perform before op ih =>
    have keptBefore := fun m member => kept m (List.mem_append_left _ member)
    have allowed := Moment.within_of_evicts (kept _ (List.mem_append_right _ List.mem_cons_self)) op _
      rfl
    have numberedThere := before.keeps .numbered
      (fun m member => m.within_of_evicts (keptBefore m member)) (.inl numbered)
    obtain ⟨⟨bundles, flatten, sent⟩, whole⟩ := ih keptBefore
    obtain ⟨new, performs⟩ := exists_performs _ allowed
    refine ⟨⟨bundles ++ new, ?_, sent.perform numberedThere allowed performs.acts⟩, ?_⟩
    · simp [flatten, performs.queued]
    · simp only [List.flatMap_append, List.flatMap_singleton, List.append_assoc, performs.popped,
        performs.queued]
      rw [← List.append_assoc, whole, List.append_assoc]
  | receive before outcome ih =>
    obtain ⟨⟨bundles, flatten, sent⟩, whole⟩ := ih fun m member =>
      kept m (List.mem_append_left _ member)
    refine ⟨⟨bundles, ?_, sent.of_lasting fun lasting id => state_of_outcome lasting outcome⟩, ?_⟩
    · simp [flatten, queued_of_received]
    · simpa [queued_of_received, Moment.popped, outcome.outbound_eq] using whole
  | fail before astray ih =>
    obtain ⟨⟨bundles, flatten, sent⟩, whole⟩ := ih kept
    exact ⟨⟨bundles, flatten, sent.of_lasting fun lasting id => (Keeps.state lasting id).fail astray⟩,
      whole⟩
  | call before ih =>
    obtain ⟨-, _, _, _, rfl⟩ := follows_of_due before
    obtain ⟨⟨bundles, flatten, sent⟩, whole⟩ := ih fun m member =>
      kept m (List.mem_append_left _ member)
    refine ⟨⟨bundles, ?_, sent⟩, ?_⟩
    · simp [flatten, queued_of_called]
    · simpa [queued_of_called, Moment.popped] using whole
  | reassemble before a ih =>
    obtain ⟨⟨bundles, flatten, sent⟩, whole⟩ := ih kept
    exact ⟨⟨bundles, flatten, sent.of_lasting fun _ _ holds => holds⟩, whole⟩

/-- A frame is queued only on a stream that is registered and not closed. -/
theorem active_of_queued {op : Op δ} (numbered : c.Numbered) (kept : op ≠ .evictClosed)
    (queued : f ∈ Moment.queued ⟨c, .performed op (c.perform op).1⟩) :
    ∃ s, c.stream? f.stream = some s ∧ s.state ≠ .closed := by
  obtain ⟨bundles, acts, split, -⟩ := exists_performs c kept
  rw [split] at queued
  cases acts with
  | still | counted | opened | marked => cases queued
  | @pushed id s kind last next _ found accepted pushes =>
    obtain ⟨stream, -⟩ := pushes.facts (numbered.valid id (Registry.contains_of_get? found)) queued
    refine ⟨s, by rw [stream]; exact found, fun closed => ?_⟩
    rw [closed] at accepted
    exact StreamState.send_closed accepted

end Codec

/-- In a run without eviction, the frames ever queued are a regular sequence: they split in one way into
header blocks, DATA frames and resets, each stream is ended once at most, and only the rest of the
same block and perhaps a reset come after. What was taken off the queue and what is still on it make up
this sequence. Every frame of it was queued on a stream that was registered and not closed. -/
theorem queued_frames_are_regular (role : Role) (maxFrameSize : Nat) (h : Handler δ σ) (app : σ)
    (deeds : List (Deed δ σ)) :
    let start : Endpoint δ σ := ⟨.create role maxFrameSize, app⟩
    let history := start.history h deeds
    let queued := history.flatMap Moment.queued
    (∀ m ∈ history, m.evicts = false) →
      history.flatMap Moment.popped ++ (start.live h deeds).codec.outbound = queued ∧
      Regular queued ∧
      ∀ m ∈ history, ∀ f ∈ m.queued, ∃ s, m.codec.stream? f.stream = some s ∧ s.state ≠ .closed := by
  intro start history queued kept
  have consistent : start.codec.Consistent := Codec.consistent_create role maxFrameSize
  have numbered : start.codec.Numbered := Codec.numbered_create role maxFrameSize
  have leads := Endpoint.leads_history (e := start) consistent h deeds
  obtain ⟨⟨bundles, flatten, sent⟩, whole⟩ := leads.sent numbered kept
  have regular := regular_of_bundles sent.whole sent.law
  rw [flatten] at regular
  refine ⟨whole, regular, fun m member f here => ?_⟩
  obtain ⟨before, after, split⟩ := List.append_of_mem member
  have within : ∀ m ∈ history, m.Within (· ≠ .evictClosed) := fun m member =>
    m.within_of_evicts (kept m member)
  have numberedHere := leads.keeps_at .numbered within split (.inl numbered)
  have allowed := within m member
  cases leads.follows split with
  | performed c op => exact Codec.active_of_queued numberedHere (allowed op _ rfl) here
  | received =>
    rw [Codec.queued_of_received] at here
    cases here
  | called | stray =>
    rw [Codec.queued_of_called] at here
    cases here

/-- A server that answers a request before its end, and then resets the stream. -/
theorem queued_frames_are_regular_for_answer :
    let opening := Frame.ofParts .headers Flag.endHeaders 1 []
    let server : Endpoint Unit (List Callback) := ⟨.create .server 5, []⟩
    let answer : List Callback → Script Unit (List Callback) := fun log =>
      .call (.pushHeaders 1 [⟨"status", "200"⟩] false) fun _ =>
        .call (.pushData 1 [1, 2, 3, 4, 5, 6] true) fun _ => .call (.pushReset 1 8) fun _ => .done log
    let deeds : List (Deed Unit (List Callback)) := [.receive opening.toBytes, .act answer]
    let queued := (server.history .recorder deeds).flatMap Moment.queued
    queued.map Frame.kind =
        [.headers, .continuation, .continuation, .data, .data, .rstStream] ∧ Regular queued := by
  intro opening server answer deeds queued
  have kept : ∀ m ∈ server.history .recorder deeds, m.evicts = false := by decide +kernel
  exact ⟨by decide +kernel, (queued_frames_are_regular .server 5 .recorder [] deeds kept).2.1⟩

end Http2
