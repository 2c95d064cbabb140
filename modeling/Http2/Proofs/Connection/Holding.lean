import Http2.Proofs.Connection.Pulling

/-!
# How much of the bodies waits to be sent

`Outflow.unsentBody` counts the body bytes that are queued and not yet taken by the socket, in the frame
being written and in the queue. Only a push of body bytes makes it grow: loading a frame moves nothing
(`waiting_nextToSend`), and writing makes it shrink. So in a turn it stays where it was, and a pull adds no
more than one buffer for each body in progress (`stays_turn`).
-/

namespace Http2

variable {δ σ : Type}

/-- The body bytes of a frame behind a position. -/
def Frame.bodyFrom (f : Frame) (cursor : Nat) : Nat :=
  if f.kind = .data then f.length - (cursor - frameHeaderSize) else 0

/-- The body bytes of frames. -/
def Frame.bodySize (frames : List Frame) : Nat :=
  frames.foldr (fun f others => f.bodyFrom 0 + others) 0

namespace Frame

/-- The further a frame is written, the less of its body waits. -/
theorem bodyFrom_le (f : Frame) {cursor cursor' : Nat} (onward : cursor ≤ cursor') :
    f.bodyFrom cursor' ≤ f.bodyFrom cursor := by
  unfold bodyFrom
  split
  · omega
  · exact Nat.le_refl 0

theorem bodySize_append (first second : List Frame) :
    bodySize (first ++ second) = bodySize first + bodySize second := by
  induction first with
  | nil => exact (Nat.zero_add _).symm
  | cons f first ih => exact (congrArg (f.bodyFrom 0 + ·) ih).trans (Nat.add_assoc _ _ _).symm

/-- Frames carry no more body than payload. -/
theorem bodySize_le (frames : List Frame) : bodySize frames ≤ (frames.flatMap payload).length := by
  induction frames with
  | nil => exact Nat.le_refl 0
  | cons f frames ih =>
    have here : f.bodyFrom 0 ≤ f.payload.length := by
      unfold bodyFrom
      split
      · exact Nat.sub_le _ _
      · exact Nat.zero_le _
    rw [List.flatMap_cons, List.length_append]
    exact Nat.add_le_add here ih

/-- Frames other than DATA carry no body. -/
theorem bodySize_of_bodyless {frames : List Frame} (bodyless : ∀ f ∈ frames, f.kind ≠ .data) :
    bodySize frames = 0 := by
  induction frames with
  | nil => rfl
  | cons f frames ih =>
    obtain ⟨here, rest⟩ := List.forall_mem_cons.mp bodyless
    have none : f.bodyFrom 0 = 0 := if_neg here
    rw [bodySize, List.foldr_cons, none, Nat.zero_add]
    exact ih rest

end Frame

namespace Codec

variable {c : Codec δ} {id : UInt32}

/-- A header block has no DATA frame in it. -/
theorem kind_of_mem_blockFrames {last : Bool} {pieces : List Bytes} {f : Frame}
    (member : f ∈ blockFrames id last pieces) : f.kind ≠ .data := by
  obtain ⟨i, bound, rfl⟩ := List.mem_mapIdx.mp member
  split <;> exact (Frame.kind_ofParts rfl).trans_ne (by decide)

/-- A push queues as many body bytes as it is given. -/
theorem bodySize_framesOf (positive : 1 ≤ c.maxFrameSize) (bytes : Bytes) (last : Bool) :
    Frame.bodySize (c.framesOf id (.data bytes last)) ≤ bytes.length := by
  rw [framesOf]
  split
  · exact Nat.zero_le _
  · refine (Frame.bodySize_le _).trans ?_
    rw [payloadPieces_eq positive, List.flatMap_def, map_payload_dataFrames, Bytes.flatten_slices]

end Codec

/-! ## What waits -/

namespace Outflow

/-- The frames that are not written as a whole, and how many bytes of each the socket has taken. -/
def waiting (o : Outflow δ) : List (Frame × Nat) :=
  o.sending.toList ++ o.codec.outbound.map (·, 0)

/-- The body bytes that are queued and that the socket has not taken. -/
def unsentBody (o : Outflow δ) : Nat :=
  o.waiting.foldr (fun x others => x.1.bodyFrom x.2 + others) 0

/-- What waits is the rest of the frame being written, and all bodies in the queue. -/
theorem unsentBody_eq (o : Outflow δ) :
    o.unsentBody = o.sending.elim 0 (fun x => x.1.bodyFrom x.2) + Frame.bodySize o.codec.outbound := by
  rw [unsentBody, waiting, List.foldr_append, List.foldr_map]
  cases o.sending with
  | none => exact (Nat.zero_add _).symm
  | some x => rfl

/-- At none of the instants, nor at the end, does more of the bodies wait than this. -/
def Stays (bound : Nat) (between : List (Instant δ)) (last : Outflow δ) : Prop :=
  (∀ i ∈ between, i.unsentBody ≤ bound) ∧ last.unsentBody ≤ bound

namespace Stays

variable {bound bound' : Nat} {first second : List (Instant δ)} {middle last : Outflow δ}

/-- A bound that holds up to an instant and from it on holds throughout. -/
theorem append (one : Stays bound first middle) (two : Stays bound second last) :
    Stays bound (first ++ second) last :=
  ⟨List.forall_mem_append.mpr ⟨one.1, two.1⟩, two.2⟩

/-- One more instant, at which as much waits as before it. -/
theorem concat (stays : Stays bound first middle) {i : Instant δ}
    (here : i.unsentBody = middle.unsentBody) (later : last.unsentBody ≤ bound) :
    Stays bound (first ++ [i]) last :=
  stays.append ⟨List.forall_mem_singleton.mpr (here ▸ stays.2), later⟩

theorem mono (stays : Stays bound first last) (more : bound ≤ bound') : Stays bound' first last :=
  ⟨fun i member => (stays.1 i member).trans more, stays.2.trans more⟩

end Stays

end Outflow

namespace Connection

open Outflow (Stays)

variable {c : Connection δ σ} {bound : Nat}

/-- The body bytes that wait on a connection. -/
def unsentBody (c : Connection δ σ) : Nat :=
  c.outflow.unsentBody

/-- Nothing of the bodies waits if nothing is pending. -/
theorem unsentBody_of_flushed (flushed : c.hasPendingOutput = false) : c.unsentBody = 0 := by
  obtain ⟨idle, empty⟩ := Bool.or_eq_false_iff.mp flushed
  have sending : c.sending = none := by simpa using idle
  have queue : c.codec.outbound = [] := by simpa [Codec.hasPendingOutput] using empty
  rw [unsentBody, Outflow.unsentBody, Outflow.waiting, outflow, sending, queue]
  rfl

/-- What happens at the codec makes no more of the bodies wait, if no body is queued. -/
theorem stays_during {codec : Codec δ} {log : List (Moment δ)} {due : Option (Moment δ)}
    (leads : Codec.Leads c.codec log due codec) (few : c.unsentBody ≤ bound)
    (bodyless : ∀ m ∈ log, ∀ f ∈ m.queued, f.kind ≠ .data) :
    Stays bound (c.during log) { c.outflow with codec } := by
  induction leads with
  | nil => exact ⟨List.forall_mem_nil _, few⟩
  | @perform log codec before op ih =>
    have stays := ih fun m member => bodyless m (List.mem_append_left _ member)
    have none := Frame.bodySize_of_bodyless (bodyless _ (List.mem_append_right _ List.mem_cons_self))
    have balance := congrArg Frame.bodySize (codec.queue_perform op)
    rw [Frame.bodySize_append, Frame.bodySize_append, none] at balance
    rw [during, List.map_append]
    refine stays.concat rfl (Nat.le_trans ?_ stays.2)
    have fewer : Frame.bodySize (codec.perform op).2.outbound ≤ Frame.bodySize codec.outbound := by omega
    rw [Outflow.unsentBody_eq, Outflow.unsentBody_eq]
    exact Nat.add_le_add_left fewer _
  | @receive log codec next f callback fault before outcome ih =>
    have stays := ih fun m member => bodyless m (List.mem_append_left _ member)
    rw [during, List.map_append]
    refine stays.concat rfl (Nat.le_trans (Nat.le_of_eq ?_) stays.2)
    rw [Outflow.unsentBody_eq, Outflow.unsentBody_eq, outcome.outbound_eq]
  | fail before astray ih => exact ih bodyless
  | @call log codec m before ih =>
    obtain ⟨-, arrival, f, callback, rfl⟩ := before.follows_of_due
    have stays := ih fun m member => bodyless m (List.mem_append_left _ member)
    rw [during, List.map_append]
    exact stays.concat rfl stays.2
  | reassemble before a ih => exact ih bodyless

/-- If the application queues nothing at its codec, no body is queued there. -/
theorem bodyless_of_quiet {log : List (Moment δ)} (quiet : ∀ i ∈ c.during log, i.queued = []) :
    ∀ m ∈ log, ∀ f ∈ m.queued, f.kind ≠ .data := by
  intro m member f queued
  have none : m.queued = [] := quiet _ (List.mem_map_of_mem member)
  rw [none] at queued
  cases queued

/-! ## Reading and writing -/

/-- While a connection is read and its application queues nothing, no more of the bodies waits than
before. -/
theorem stays_read {buffer : Bytes} (sound : c.Sound) (few : c.unsentBody ≤ bound)
    (quiet : ∀ i ∈ c.readInstants buffer, i.queued = []) :
    Stays bound (c.readInstants buffer) (c.readAvailable buffer).connection.outflow := by
  induction c, buffer using readAvailable.induct_unfolding with
  | case1 c buffer socket c' found =>
    rw [readInstants_of_empty found]
    exact ⟨List.forall_mem_nil _, few⟩
  | case2 c buffer bytes socket found c' some connection fed ih =>
    rw [readInstants_of_bytes found some, fed] at quiet ⊢
    have arrived : c'.Sound := sound.meet socket c.health
    have taken := arrived.takeIn bytes
    have first : Stays bound (c'.during (c'.endpoint.moments c'.handler bytes))
        (c'.takeIn bytes).1.outflow :=
      stays_during (Endpoint.leads_moments arrived.reachable.consistent c'.handler bytes) few
        (bodyless_of_quiet fun i member => quiet i (List.mem_append_left _ member))
    rw [fed] at first taken
    exact first.append (ih taken first.2 fun i member => quiet i (List.mem_append_right _ member))
  | case3 c buffer bytes socket found c' some connection fault fed =>
    rw [readInstants_of_bytes found some, fed] at quiet ⊢
    have arrived : c'.Sound := sound.meet socket c.health
    have first : Stays bound (c'.during (c'.endpoint.moments c'.handler bytes))
        (c'.takeIn bytes).1.outflow :=
      stays_during (Endpoint.leads_moments arrived.reachable.consistent c'.handler bytes) few
        (bodyless_of_quiet fun i member => quiet i (List.mem_append_left _ member))
    rw [fed] at first
    rwa [List.append_nil]
  | case4 c buffer socket found | case5 c buffer socket found | case6 c buffer name socket found =>
    rw [readInstants_of_error found]
    exact ⟨List.forall_mem_nil _, few⟩

/-- Loading a frame leaves what waits as it is. -/
theorem waiting_nextToSend {frame : Frame} {cursor : Nat} {loaded : Connection δ σ}
    (next : c.nextToSend = some ((frame, cursor), loaded)) :
    loaded.outflow.waiting = c.outflow.waiting := by
  rcases nextToSend_cases next with ⟨-, rfl⟩ | ⟨idle, -, rest, front, rfl⟩
  · rfl
  · rw [Outflow.waiting, Outflow.waiting, outflow, outflow, idle, front]
    rfl

/-- Loading a frame moves it from the queue to the socket's side, where all of it still waits. -/
theorem unsentBody_nextToSend {frame : Frame} {cursor : Nat} {loaded : Connection δ σ}
    (next : c.nextToSend = some ((frame, cursor), loaded)) : loaded.unsentBody = c.unsentBody := by
  rw [unsentBody, Outflow.unsentBody, waiting_nextToSend next]
  rfl

/-- Offering a frame keeps a bound that holds of what the socket leaves. -/
theorem stays_offer {frame : Frame} {cursor : Nat} {loaded : Connection δ σ} {last : Outflow δ}
    {later : List (Instant δ)} (few : c.unsentBody ≤ bound)
    (next : c.nextToSend = some ((frame, cursor), loaded)) (further : Stays bound later last) :
    Stays bound
      ((if c.sending.isNone then [{ c.outflow with happening := .load }] else []) ++
        { loaded.outflow with happening := .offer (frame.toBytes.drop cursor) } :: later) last := by
  have offered : loaded.unsentBody ≤ bound := unsentBody_nextToSend next ▸ few
  refine ⟨List.forall_mem_append.mpr ⟨?_, List.forall_mem_cons.mpr ⟨offered, further.1⟩⟩, further.2⟩
  split
  · exact List.forall_mem_singleton.mpr few
  · exact List.forall_mem_nil _

/-- What the socket takes waits no longer. -/
theorem unsentBody_advance {frame : Frame} {cursor : Nat} (sending : c.sending = some (frame, cursor))
    (count : Nat) (socket : Socket) :
    (({ c with socket } : Connection δ σ).advance frame cursor count).unsentBody ≤ c.unsentBody := by
  rw [unsentBody, unsentBody, Outflow.unsentBody_eq, Outflow.unsentBody_eq]
  refine Nat.add_le_add_right ?_ _
  simp only [outflow, advance, sending]
  split
  · exact Nat.zero_le _
  · exact Nat.add_le_add_right (frame.bodyFrom_le (Nat.le_add_right cursor count)) 0

/-- Writing only lessens what waits. -/
theorem stays_write (few : c.unsentBody ≤ bound) :
    Stays bound c.writeInstants c.writeLoop.connection.outflow := by
  induction c using writeLoop.induct_unfolding with
  | case1 c next =>
    rw [writeInstants_of_idle next]
    exact ⟨List.forall_mem_nil _, few⟩
  | case3 c frame cursor loaded next count socket written some ih =>
    rw [writeInstants_of_next next written]
    obtain ⟨fewer, rfl⟩ := Nat.exists_eq_succ_of_ne_zero some
    refine stays_offer few next (ih ?_)
    exact (unsentBody_advance (nextToSend_eq next).2.2 _ socket).trans (unsentBody_nextToSend next ▸ few)
  | case2 c frame cursor loaded next socket written
  | case4 c frame cursor loaded next socket written
  | case5 c frame cursor loaded next socket written
  | case6 c frame cursor loaded next name socket written =>
    have still : loaded.unsentBody ≤ bound := unsentBody_nextToSend next ▸ few
    rw [writeInstants_of_next next written]
    exact stays_offer few next ⟨List.forall_mem_nil _, still⟩

/-! ## Requests and bodies -/

/-- Starting a request queues headers, which are no body. -/
theorem stays_start {request : Request δ} (few : c.unsentBody ≤ bound) :
    Stays bound (c.instants (.start request)) (c.startRequest request).2.outflow := by
  rw [startRequest_eq]
  refine stays_during (request.script.leads c.codec) few fun m member f queued => ?_
  -- All frames of a start are those of its header block.
  have head : f ∈ (c.instants (.start request)).flatMap Instant.queued := by
    rw [instants, queued_during]
    exact List.mem_flatMap.mpr ⟨m, member, queued⟩
  rw [queued_start, sends, opens, asksIn] at head
  split at head
  · rw [List.filter_nil, List.map_nil, List.append_nil, List.flatMap_singleton] at head
    exact Codec.kind_of_mem_blockFrames head
  · cases head

/-- Pulling one body adds no more than what was asked for. -/
theorem stays_pullBody {buffer : Bytes} {id : UInt32} (sound : c.Sound)
    (quiet : ∀ i ∈ c.during ((c.handler.onDataNeeded c.endpoint.app id buffer).moments c.codec),
      i.queued = []) :
    Stays (c.unsentBody + buffer.length) (c.during ((c.pullScript buffer id).moments c.codec))
      (c.pullBody buffer id).1.outflow := by
  have answers := sound.reachable.run (c.handler.onDataNeeded c.endpoint.app id buffer)
  have called := stays_during
    ((c.handler.onDataNeeded c.endpoint.app id buffer).leads c.codec) (Nat.le_refl _)
    (bodyless_of_quiet quiet)
  obtain ⟨-, -, pushed, moments⟩ := c.moments_pullScript buffer id
  generalize ((c.handler.onDataNeeded c.endpoint.app id buffer).run c.codec).2 = codec at *
  let a := c.asked buffer id
  have left : (c.pullBody buffer id).1.outflow =
      { c.outflow with codec := (codec.push id a.push).2 } := by
    rw [← pushed, pullBody_eq]
    rfl
  have added : Frame.bodySize (if (codec.push id a.push).1.isOk then codec.framesOf id a.push else []) ≤
      buffer.length := by
    split
    · have small : a.piece.length ≤ buffer.length := a.length_piece ▸ Nat.min_le_right _ _
      exact (Codec.bodySize_framesOf answers.bounded.positive _ _).trans small
    · exact Nat.zero_le _
  rw [moments, during, List.map_append, left]
  refine (called.mono (Nat.le_add_right _ _)).concat rfl ?_
  have before := called.2
  rw [Outflow.unsentBody_eq] at before ⊢
  simp only [codec.outbound_push, Frame.bodySize_append] at before ⊢
  omega

/-- Pulling some bodies makes at most a buffer for each of them wait in addition. -/
theorem stays_pulls {buffer : Bytes} {ids : List UInt32} (sound : c.Sound)
    (quiet : ∀ i ∈ c.callInstants buffer ids, i.queued = []) :
    Stays (c.unsentBody + ids.length * buffer.length) (c.pullInstants buffer ids)
      (ids.foldl (fun (c, buffer) id => c.pullBody buffer id) (c, buffer)).1.outflow := by
  induction ids generalizing c buffer with
  | nil => exact ⟨List.forall_mem_nil _, Nat.le_add_right _ _⟩
  | cons id ids ih =>
    rw [callInstants] at quiet
    rw [pullInstants]
    have first := stays_pullBody sound fun i member => quiet i (List.mem_append_left _ member)
    have room : (c.pullBody buffer id).2.length = buffer.length := by
      rw [pullBody_eq]
      exact length_overlay _ _
    have rest := ih (sound.pullBody buffer id) fun i member => quiet i (List.mem_append_right _ member)
    have grown : (c.pullBody buffer id).1.unsentBody ≤ c.unsentBody + buffer.length := first.2
    rw [room] at rest
    rw [List.length_cons, Nat.succ_mul]
    exact (first.mono (by omega)).append (rest.mono (by omega))

/-- The body bytes that a turn may ask for. -/
def demand (c : Connection δ σ) : Turn δ σ → Nat
  | .pull buffer => c.inProgress.length * buffer.length
  | .read _ | .write | .start _ | .abandon | .deed _ | .meet _ _ => 0

/-- In a turn no more of the bodies waits than before it and what the turn may ask for, if the application
queues nothing itself. -/
theorem stays_turn {t : Turn δ σ} (sound : c.Sound) (quiet : c.QuietIn t) :
    Stays (c.unsentBody + c.demand t) (c.instants t) (c.turn t).outflow := by
  have few : c.unsentBody ≤ c.unsentBody + c.demand t := Nat.le_add_right _ _
  cases t with
  | read buffer => exact stays_read sound few quiet
  | write => exact stays_write (c := c.takeWriteSignal.2) few
  | start request => exact stays_start few
  | pull buffer =>
    have emptied : ({ c with inProgress := [] } : Connection δ σ).Sound := ⟨sound.reachable, sound.cursor⟩
    exact stays_pulls emptied quiet
  | deed deed =>
    exact stays_during (Endpoint.leads_momentsOf sound.reachable.consistent c.handler deed) few
      (bodyless_of_quiet quiet)
  | abandon | meet => exact ⟨List.forall_mem_nil _, few⟩

end Connection

end Http2
