import Http2.Proofs.Codec.Effect
import Http2.Proofs.Codec.Outcome

/-!
# Whether a header block is in progress

A codec stores no header block as such: there is the last received frame, and each stream has a flag
and a list of frames. `Consistent` says that these agree. Every received frame keeps it
(`consistent_outcome`), and so does every operation of this side (`consistent_perform`), eviction
included. Where it holds, the frames that are stored can be joined, so every frame has an outcome
(`exists_outcome`).
-/

namespace Http2

variable {δ σ : Type}

namespace Stream

/-- No header block is in progress on the stream. -/
structure Rests (s : Stream δ) : Prop where
  settled : s.awaiting = false
  emptied : s.fragments = []

theorem rests_failed (s : Stream δ) : s.failed.Rests := ⟨rfl, rfl⟩

end Stream

namespace Codec

variable {c c' : Codec δ} {f : Frame} {callback : Option Callback} {fault : Option FrameError}
  {id : UInt32}

/-- The stream waits for CONTINUATION. -/
def Awaits (c : Codec δ) (id : UInt32) : Prop :=
  (c.streams.inbound id).awaiting = true

/-- Last frame, flags and stored frames agree on the header block in progress. -/
structure Consistent (c : Codec δ) : Prop where
  /-- A stream that waits is the one of the last frame, which carried a part of its block. -/
  noted : ∀ id, c.Awaits id → ∃ kind, c.lastFrame = some (kind, id) ∧
    (kind = .headers ∨ kind = .pushPromise ∨ kind = .continuation)
  /-- It holds the frames of its block. -/
  gathered : ∀ id, c.Awaits id → ∃ opening continuations,
    (c.streams.inbound id).fragments = opening :: continuations ∧
      PartialBlock id opening continuations
  /-- Any other stream holds no frames. -/
  emptied : ∀ id, ¬c.Awaits id → (c.streams.inbound id).fragments = []

/-- The stream whose block is open waits for its CONTINUATION. -/
theorem awaits_of_openBlock? (opened : c.openBlock? = some id) : c.Awaits id := by
  unfold openBlock? at opened
  split at opened
  · cases opened
  · rename_i kind owner noted
    split at opened
    · rename_i waiting
      obtain rfl := Option.some.inj opened
      rw [Bool.and_eq_true] at waiting
      cases found : c.streams.get? owner with
      | none => simp [found] at waiting
      | some s =>
        rw [Awaits, Registry.inbound_of_get? found]
        simpa [found] using waiting.2
    · cases opened

namespace Consistent

/-- The stream that waits is the one whose block is open. -/
theorem openBlock?_eq (consistent : c.Consistent) (awaits : c.Awaits id) :
    c.openBlock? = some id := by
  obtain ⟨kind, noted, carries⟩ := consistent.noted id awaits
  refine openBlock?_of_inbound noted ?_ awaits
  rcases carries with rfl | rfl | rfl <;> rfl

/-- At most one stream waits. -/
theorem eq_of_awaits (consistent : c.Consistent) {other : UInt32} (awaits : c.Awaits id)
    (also : c.Awaits other) : id = other :=
  Option.some.inj ((consistent.openBlock?_eq awaits).symm.trans (consistent.openBlock?_eq also))

/-- No block is in progress on a stream other than the one whose block is open. -/
theorem rests (consistent : c.Consistent) (other : c.openBlock? ≠ some id) :
    (c.streams.inbound id).Rests := by
  have still : ¬c.Awaits id := fun awaits => other (consistent.openBlock?_eq awaits)
  exact ⟨Bool.eq_false_iff.mpr still, consistent.emptied id still⟩

/-- No stream waits while no header block is open. -/
theorem rests_of_closed (consistent : c.Consistent) (closed : c.openBlock? = none) (id : UInt32) :
    (c.streams.inbound id).Rests :=
  consistent.rests (by simp [closed])

/-- The frames of an open block. -/
theorem partialBlock (consistent : c.Consistent) (opened : c.openBlock? = some id) :
    ∃ opening continuations, (c.streams.inbound id).fragments = opening :: continuations ∧
      PartialBlock id opening continuations :=
  consistent.gathered id (awaits_of_openBlock? opened)

end Consistent

/-! ## Consistent codecs -/

/-- A codec of which every stream rests is consistent, whatever its last frame was. -/
theorem consistent_of_rests (rests : ∀ id, (c.streams.inbound id).Rests) : c.Consistent := by
  have still (id) : ¬c.Awaits id := Bool.eq_false_iff.mp (rests id).settled
  exact ⟨fun id awaits => absurd awaits (still id), fun id awaits => absurd awaits (still id),
    fun id _ => (rests id).emptied⟩

/-- A fresh codec has no streams, so none is in the middle of a block. -/
theorem consistent_create (role : Role) (maxFrameSize : Nat) :
    (create role maxFrameSize : Codec δ).Consistent :=
  consistent_of_rests fun _ => by
    constructor <;> simp [create, Registry.inbound]

/-- A stream stores the latest frame of its block while all others rest. -/
theorem consistent_of_open {s : Stream δ} {opening : Frame} {continuations : List Frame}
    (others : ∀ id, s.id ≠ id → (c.streams.inbound id).Rests)
    (noted : ∃ kind, c.lastFrame = some (kind, s.id) ∧
      (kind = .headers ∨ kind = .pushPromise ∨ kind = .continuation))
    (fragments : s.fragments = opening :: continuations)
    (block : PartialBlock s.id opening continuations) (awaits : s.awaiting = true) :
    (c.putStream s).Consistent := by
  have here : (c.putStream s).streams.inbound s.id = s := Registry.inbound_put_of_id _ rfl
  have there (id) (other : s.id ≠ id) :
      (c.putStream s).streams.inbound id = c.streams.inbound id := by
    rw [putStream, Registry.inbound_put, if_neg other]
  have alone (id) (waits : (c.putStream s).Awaits id) : s.id = id := by
    by_cases same : s.id = id
    · exact same
    · rw [Awaits, there id same, (others id same).settled] at waits
      cases waits
  constructor
  · intro id waits
    obtain rfl := alone id waits
    exact noted
  · intro id waits
    obtain rfl := alone id waits
    rw [here]
    exact ⟨opening, continuations, fragments, block⟩
  · intro id still
    have other : s.id ≠ id := by
      rintro rfl
      rw [Awaits, here] at still
      exact still awaits
    rw [there id other]
    exact (others id other).emptied

/-- Streams that keep their part of a header block, or drop it, leave the codec consistent. -/
theorem Consistent.of_streams (consistent : c.Consistent) (noted : c'.lastFrame = c.lastFrame)
    (streams : ∀ id, (c'.streams.inbound id).Rests ∨
      (c'.streams.inbound id).awaiting = (c.streams.inbound id).awaiting ∧
        (c'.streams.inbound id).fragments = (c.streams.inbound id).fragments) :
    c'.Consistent := by
  have kept (id) (awaits : c'.Awaits id) :
      c.Awaits id ∧ (c'.streams.inbound id).fragments = (c.streams.inbound id).fragments := by
    rcases streams id with rests | ⟨awaiting, fragments⟩
    · rw [Awaits, rests.settled] at awaits
      cases awaits
    · rw [Awaits, awaiting] at awaits
      exact ⟨awaits, fragments⟩
  constructor
  · intro id awaits
    rw [noted]
    exact consistent.noted id (kept id awaits).1
  · intro id awaits
    rw [(kept id awaits).2]
    exact consistent.gathered id (kept id awaits).1
  · intro id still
    rcases streams id with rests | ⟨awaiting, fragments⟩
    · exact rests.emptied
    · rw [Awaits, awaiting] at still
      rw [fragments]
      exact consistent.emptied id still

/-- The bytes of a frame under assembly do not matter. -/
theorem Consistent.reassemble (consistent : c.Consistent) (a : Assembler) :
    ({ c with assembler := a } : Codec δ).Consistent :=
  consistent.of_streams rfl fun _ => .inr ⟨rfl, rfl⟩

/-! ## Received frames -/

/-- The codec after a frame that leaves no header block in progress. `s` is the stream that it
changes. -/
theorem Consistent.noted_put (consistent : c.Consistent) {s : Stream δ}
    (others : ∀ id, s.id ≠ id → c.openBlock? ≠ some id) (rests : s.Rests) :
    ((c.noted f).putStream s).Consistent := by
  refine consistent_of_rests fun id => ?_
  rw [putStream, Registry.inbound_put]
  by_cases same : s.id = id
  · rwa [if_pos same]
  · rw [if_neg same]
    exact consistent.rests (others id same)

/-- A fragment that comes to a stream. `s` is the stream with the frame behind those before it. -/
theorem Consistent.collects (consistent : c.Consistent) {s s' : Stream δ}
    (collects : s.Collects f s' callback) (others : ∀ id, s.id ≠ id → c.openBlock? ≠ some id)
    (noted : (c.noted f).lastFrame = some (f.kind, s.id))
    (kind : f.kind = .headers ∨ f.kind = .pushPromise ∨ f.kind = .continuation)
    (awaits : s.awaiting = true) {opening : Frame} {continuations : List Frame}
    (fragments : s.fragments = opening :: continuations)
    (block : Frame.payloadSize (opening :: continuations) ≤ maxHeaderBlockSize →
      f.hasFlag Flag.endHeaders = false → PartialBlock s.id opening continuations) :
    ((c.noted f).putStream s').Consistent := by
  cases collects with
  | kept small more =>
    rw [fragments] at small
    exact consistent_of_open (fun id other => consistent.rests (others id other))
      ⟨f.kind, noted, kind⟩ fragments (block small more) awaits
  | delivered => exact consistent.noted_put others ⟨rfl, rfl⟩
  | overflowed => exact consistent.noted_put others ⟨rfl, rfl⟩

/-- The frame that opens a block is a block that is not complete. -/
theorem partialBlock_opening {fragment : Bytes} (opens : f.kind = .headers ∨ f.kind = .pushPromise)
    (stream : f.stream ≠ 0) (wellFormed : f.fragment = .ok fragment)
    (small : Frame.payloadSize [f] ≤ maxHeaderBlockSize)
    (more : f.hasFlag Flag.endHeaders = false) : PartialBlock f.stream f [] where
  opens := opens
  stream := rfl
  nonzero := stream
  wellFormed := ⟨fragment, wellFormed⟩
  continues := by simp
  unended := by simpa using more
  small := small

/-- One more CONTINUATION leaves a block that is not complete. -/
theorem partialBlock_continuing {opening : Frame} {continuations : List Frame}
    (block : PartialBlock f.stream opening continuations) (kind : f.kind = .continuation)
    (small : Frame.payloadSize (opening :: continuations ++ [f]) ≤ maxHeaderBlockSize)
    (more : f.hasFlag Flag.endHeaders = false) :
    PartialBlock f.stream opening (continuations ++ [f]) where
  opens := block.opens
  stream := block.stream
  nonzero := block.nonzero
  wellFormed := block.wellFormed
  continues g member := by
    rcases List.mem_append.mp member with member | member
    · exact block.continues g member
    · rw [List.mem_singleton.mp member]
      exact ⟨kind, rfl⟩
  unended g member := by
    rw [← List.cons_append] at member
    rcases List.mem_append.mp member with member | member
    · exact block.unended g member
    · rwa [List.mem_singleton.mp member]
  small := small

/-- A received frame leaves the codec consistent, whatever it is. -/
theorem consistent_outcome (consistent : c.Consistent) (outcome : Outcome c f c' callback fault) :
    c'.Consistent := by
  -- Without an open block every stream rests; with one, every stream but its owner does.
  have quiet (closed : c.openBlock? = none) (id) : c.openBlock? ≠ some id := by
    rw [closed]
    exact nofun
  have owned {s : Stream δ} {owner : UInt32} (opened : c.openBlock? = some owner)
      (same : s.id = owner) (id) (other : s.id ≠ id) : c.openBlock? ≠ some id := by
    rw [opened, ← same]
    exact fun also => other (Option.some.inj also)
  cases outcome with
  | ignored closed => exact consistent_of_rests fun id => consistent.rests (quiet closed id)
  | streamZero closed => exact consistent_of_rests fun id => consistent.rests (quiet closed id)
  | unmoved judged =>
    exact consistent.noted_put (fun id _ => quiet judged.closed id)
      (consistent.rests (quiet judged.closed f.stream))
  | malformed judged =>
    exact consistent.noted_put (fun id _ => quiet judged.closed id)
      (consistent.rests (quiet judged.closed f.stream))
  | rejected judged =>
    exact consistent.noted_put (fun id _ => quiet judged.closed id) (Stream.rests_failed _)
  | moved judged =>
    obtain ⟨settled, emptied⟩ := consistent.rests (quiet judged.closed f.stream)
    exact consistent.noted_put (fun id _ => quiet judged.closed id) ⟨settled, emptied⟩
  | body judged =>
    obtain ⟨settled, emptied⟩ := consistent.rests (quiet judged.closed f.stream)
    exact consistent.noted_put (fun id _ => quiet judged.closed id) ⟨settled, emptied⟩
  | opening judged accepted opens wellFormed collects =>
    refine consistent.collects collects (fun id _ => quiet judged.closed id) ?_
      (opens.imp_right .inl) rfl rfl ?_
    · simp [noted]
    · intro small more
      rw [Stream.id_opening, Registry.id_inbound]
      exact partialBlock_opening opens judged.stream wellFormed small more
  | continuing opened kind stream collects =>
    obtain ⟨opening, continuations, fragments, block⟩ := consistent.partialBlock opened
    have stored : ((c.streams.inbound f.stream).continuing f).fragments =
        opening :: (continuations ++ [f]) := by
      rw [Stream.continuing, fragments, List.cons_append]
    refine consistent.collects collects (owned opened (Registry.id_inbound _ _)) ?_
      (.inr (.inr kind)) (awaits_of_openBlock? opened) stored ?_
    · simp [noted]
    · intro small more
      rw [Stream.id_continuing, Registry.id_inbound]
      exact partialBlock_continuing block kind small more
  | stray closed =>
    exact consistent.noted_put (fun id _ => quiet closed id) (Stream.rests_failed _)
  | interrupting opened =>
    exact consistent.noted_put (owned opened (Registry.id_inbound _ _)) (Stream.rests_failed _)

/-- The codec after a fault of one stream. -/
def failed (c : Codec δ) (id : UInt32) : Codec δ :=
  c.putStream (c.streams.inbound id).failed

/-- Closing a stream for a fault leaves the codec consistent. -/
theorem consistent_failed (consistent : c.Consistent) (id : UInt32) :
    (c.failed id).Consistent := by
  refine consistent.of_streams rfl fun other => ?_
  rw [failed, putStream, Registry.inbound_put]
  split
  · exact .inl (Stream.rests_failed _)
  · exact .inr ⟨rfl, rfl⟩

/-- The receive table refuses nothing. -/
theorem verdict_ne_refuse (c : Codec δ) (f : Frame) : c.verdict f ≠ .refuse := by
  simp only [verdict, StreamState.transition]
  generalize (c.streams.inbound f.stream).state = state
  generalize f.kind = kind
  unfold StreamState.receive
  intro refused
  split at refused <;> split at refused <;> cases refused

/-- What the receive table decides about has an outcome. -/
theorem exists_outcome_of_judged (judged : c.Judges f) :
    ∃ c' callback fault, c.Outcome f c' callback fault := by
  cases verdict : c.verdict f with
  | ignore => exact ⟨_, _, _, .unmoved judged verdict⟩
  | refuse => exact absurd verdict (verdict_ne_refuse c f)
  | reject fault => exact ⟨_, _, _, .rejected judged verdict⟩
  | accept next =>
    by_cases opens : f.kind = .headers ∨ f.kind = .pushPromise
    · cases wellFormed : f.fragment with
      | error fault => exact ⟨_, _, _, .malformed judged verdict (.inl ⟨opens, wellFormed⟩)⟩
      | ok fragment =>
        have joined : joinFragments [f] = .ok fragment := by
          have none : ∀ g ∈ ([] : List Frame), g.kind = .continuation := by simp
          simpa using joinFragments_of_continuations wellFormed none
        obtain ⟨s, callback, collects⟩ := Stream.exists_collects
          (s := (c.streams.inbound f.stream).opening next f) f joined
        exact ⟨_, _, _, .opening judged verdict opens wellFormed collects⟩
    · by_cases kind : f.kind = .data
      · cases unpadded : f.unpadded with
        | error fault => exact ⟨_, _, _, .malformed judged verdict (.inr ⟨kind, unpadded⟩)⟩
        | ok data => exact ⟨_, _, _, .body judged verdict kind unpadded⟩
      · rw [not_or] at opens
        exact ⟨_, _, _, .moved judged verdict ⟨opens.1, opens.2, kind⟩⟩

/-- Every frame has an outcome. -/
theorem Consistent.exists_outcome (consistent : c.Consistent) (f : Frame) :
    ∃ c' callback fault, c.Outcome f c' callback fault := by
  cases opened : c.openBlock? with
  | some owner =>
    by_cases more : f.kind = .continuation ∧ f.stream = owner
    · obtain ⟨kind, rfl⟩ := more
      obtain ⟨opening, continuations, fragments, block⟩ := consistent.partialBlock opened
      obtain ⟨fragment, wellFormed⟩ := block.wellFormed
      have continues : ∀ g ∈ continuations ++ [f], g.kind = .continuation := by
        intro g member
        rcases List.mem_append.mp member with member | member
        · exact (block.continues g member).1
        · rwa [List.mem_singleton.mp member]
      have joined := joinFragments_of_continuations wellFormed continues
      rw [← List.cons_append, ← fragments] at joined
      obtain ⟨s, callback, collects⟩ := Stream.exists_collects
        (s := (c.streams.inbound f.stream).continuing f) f joined
      exact ⟨_, _, _, .continuing opened kind block.nonzero collects⟩
    · exact ⟨_, _, _, .interrupting opened more⟩
  | none =>
    cases ignored : Endpoint.isIgnored f with
    | true => exact ⟨_, _, _, .ignored opened ignored⟩
    | false =>
      by_cases stream : f.stream = 0
      · exact ⟨_, _, _, .streamZero opened ignored stream⟩
      · by_cases kind : f.kind = .continuation
        · exact ⟨_, _, _, .stray opened kind stream⟩
        · exact exists_outcome_of_judged ⟨opened, ignored, stream, kind⟩

/-! ## Operations of this side -/

/-- What an operation other than eviction does to the streams. -/
inductive Edits (c : Codec δ) : Registry δ → Prop
  | kept : Edits c c.streams
  | opened {id : UInt32} (unknown : c.streams.get? id = none) :
      Edits c (c.streams.put { id, origin := .outbound })
  | moved {id : UInt32} {s : Stream δ} {kind : FrameKind} {flags : UInt8} {next : StreamState}
      (found : c.streams.get? id = some s)
      (accepted : s.state.transition .outbound kind flags = .accept next) :
      Edits c (c.streams.put { s with state := next })
  | marked {id : UInt32} {s : Stream δ} (found : c.streams.get? id = some s)
      (userData : Option δ) : Edits c (c.streams.put { s with userData })

/-- An operation other than eviction adds a stream, moves one in the send table, or leaves the streams
alone. -/
theorem Effect.edits {op : Op δ} (effect : Effect c op c') (keeps : op ≠ .evictClosed) :
    c.Edits c'.streams := by
  cases effect with
  | still | skipped | popped | heard => exact .kept
  | opened left free => exact .opened (by simpa [Registry.contains] using free)
  | @pushed _ _ kind last _ s next emits found accepted =>
    have moved : s.state.transition .outbound kind (endFlag last) = .accept next := by
      rwa [← emits.endsStream] at accepted
    exact .moved found moved
  | marked found userData => exact .marked found userData
  | evicted => exact absurd rfl keeps

/-- Every operation but eviction edits one stream at most. -/
theorem edits_perform (c : Codec δ) {op : Op δ} (keeps : op ≠ .evictClosed) :
    c.Edits (c.perform op).2.streams :=
  (effect_perform c op).edits keeps

/-- Storing a stream that keeps its part of a header block. -/
theorem block_of_put {s : Stream δ} (kept : s.awaiting = (c.streams.inbound s.id).awaiting ∧
    s.fragments = (c.streams.inbound s.id).fragments) (id : UInt32) :
    ((c.streams.put s).inbound id).awaiting = (c.streams.inbound id).awaiting ∧
      ((c.streams.put s).inbound id).fragments = (c.streams.inbound id).fragments := by
  rw [Registry.inbound_put]
  split
  · rename_i here
    rwa [← here]
  · exact ⟨rfl, rfl⟩

/-- An edit leaves every stream its part of a header block. -/
theorem block_of_edits {streams : Registry δ} (edits : c.Edits streams) (id : UInt32) :
    (streams.inbound id).awaiting = (c.streams.inbound id).awaiting ∧
      (streams.inbound id).fragments = (c.streams.inbound id).fragments := by
  cases edits with
  | kept => exact ⟨rfl, rfl⟩
  | opened unknown => exact block_of_put (by rw [Registry.inbound, unknown]; exact ⟨rfl, rfl⟩) id
  | moved found =>
    obtain rfl := Registry.id_of_get? found
    exact block_of_put (by rw [Registry.inbound_of_get? found]; exact ⟨rfl, rfl⟩) id
  | marked found =>
    obtain rfl := Registry.id_of_get? found
    exact block_of_put (by rw [Registry.inbound_of_get? found]; exact ⟨rfl, rfl⟩) id

/-- What lasts is kept by an edit. -/
theorem state_of_edits {P : StreamState → Prop} (lasting : StreamState.Lasting P)
    {streams : Registry δ} (edits : c.Edits streams) (holds : P (c.streams.inbound id).state) :
    P (streams.inbound id).state := by
  cases edits with
  | kept => exact holds
  | opened unknown =>
    rw [Registry.inbound_put]
    split
    · rename_i here
      subst here
      rw [Registry.inbound, unknown] at holds
      exact absurd holds lasting.seen
    · exact holds
  | moved found accepted =>
    obtain rfl := Registry.id_of_get? found
    rw [Registry.inbound_put]
    split
    · rename_i here
      rw [← here, Registry.inbound_of_get? found] at holds
      exact lasting.sends holds accepted
    · exact holds
  | marked found userData =>
    obtain rfl := Registry.id_of_get? found
    rw [Registry.inbound_put]
    split
    · rename_i here
      rwa [← here, Registry.inbound_of_get? found] at holds
    · exact holds

/-- A stream that was evicted is one that was never seen. -/
theorem inbound_evictClosed (c : Codec δ) (id : UInt32) :
    c.evictClosed.2.streams.inbound id =
      if (c.streams.inbound id).isClosed then { id, origin := .inbound }
      else c.streams.inbound id := by
  rcases Option.eq_none_or_eq_some (c.streams.get? id) with unknown | ⟨s, found⟩
  · simp [Codec.evictClosed, Registry.inbound, Registry.get?_retain, unknown]
  · cases closed : s.isClosed <;>
      simp [Codec.evictClosed, Registry.inbound, Registry.get?_retain, found, Option.filter, closed]

/-- No operation of this side makes a stream wait for CONTINUATION. -/
theorem Quiet.perform (quiet : c.Quiet) (op : Op δ) : (c.perform op).2.Quiet := by
  intro id
  by_cases evicts : op = .evictClosed
  · subst evicts
    show (c.evictClosed.2.streams.inbound id).awaiting = false
    rw [inbound_evictClosed]
    split
    · rfl
    · exact quiet id
  · rw [(block_of_edits (edits_perform c evicts) id).1]
    exact quiet id

/-- Nothing that the application does about a callback makes a stream wait for CONTINUATION. -/
theorem Quiet.report {e : Endpoint δ σ} (quiet : e.codec.Quiet) (h : Handler δ σ)
    (callback : Callback) : (e.report h callback).codec.Quiet :=
  (h.on callback e.app).run_preserves (fun _ op before => before.perform op) e.codec quiet

/-- Eviction takes away whole streams, with the frames that they hold. -/
theorem Consistent.evictClosed (consistent : c.Consistent) : c.evictClosed.2.Consistent := by
  refine consistent.of_streams rfl fun id => ?_
  rw [inbound_evictClosed]
  split
  · exact .inl ⟨rfl, rfl⟩
  · exact .inr ⟨rfl, rfl⟩

/-- Every operation of this side leaves the codec consistent. -/
theorem consistent_perform (consistent : c.Consistent) (op : Op δ) :
    (c.perform op).2.Consistent := by
  by_cases evicts : op = .evictClosed
  · subst evicts
    exact consistent.evictClosed
  · exact consistent.of_streams (sameReceiver_perform c op).lastFrame fun id =>
      .inr (block_of_edits (edits_perform c evicts) id)

end Codec

end Http2
