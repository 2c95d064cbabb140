import Http2.Proofs.Codec.Outbound

/-!
# How long queued frames are

Header lists and bodies are cut to the frame size, which is in range from the start and never changes.
A reset is not cut: it is four bytes whatever the frame size is. `appends_perform` says so of every
operation, and it follows that no queued frame is longer than three bytes can say, whatever was
received and pushed.
-/

namespace Http2

/-- How long a frame is that was queued under a frame size. -/
inductive Frame.Sized (limit : Nat) (f : Frame) : Prop
  /-- Its payload was cut to the frame size. -/
  | cut (kind : f.kind ≠ .rstStream) (short : f.length ≤ limit) : Sized limit f
  | reset (kind : f.kind = .rstStream) (length : f.length = 4) : Sized limit f

/-- A queued frame is within the frame size, or it is the four bytes of a reset. -/
theorem Frame.Sized.le {limit : Nat} {f : Frame} (sized : f.Sized limit) : f.length ≤ max limit 4 := by
  cases sized with
  | cut kind short => exact Nat.le_trans short (Nat.le_max_left limit 4)
  | reset kind length => exact length ▸ Nat.le_max_right limit 4

namespace Codec

variable {δ : Type} {c c' : Codec δ} {id : UInt32} {last : Bool} {f : Frame}

/-! ## What operations queue -/

/-- The frames of a header block are cut to the frame size, and none of them is a reset. -/
theorem sized_blockFrames {limit : Nat} (positive : 1 ≤ limit) {block : Bytes}
    (member : f ∈ blockFrames id last (payloadPieces limit block)) : f.Sized limit := by
  refine .cut ?_ (length_of_mem_blockFrames (fun piece => length_of_mem_payloadPieces positive) member)
  obtain ⟨i, bound, rfl⟩ := List.mem_mapIdx.mp member
  dsimp only
  split <;> rw [Frame.kind_ofParts rfl] <;> decide

/-- The frames of a body segment are cut to the frame size, and none of them is a reset. -/
theorem sized_dataFrames {limit : Nat} (positive : 1 ≤ limit) {data : Bytes}
    (member : f ∈ dataFrames id last (payloadPieces limit data)) : f.Sized limit := by
  refine .cut ?_ (length_of_mem_dataFrames (fun piece => length_of_mem_payloadPieces positive) member)
  obtain ⟨i, bound, rfl⟩ := List.mem_mapIdx.mp member
  rw [Frame.kind_ofParts rfl]
  decide

/-- Frames of the right length join the queue. -/
structure Appends (c c' : Codec δ) (frames : List Frame) : Prop where
  queue : c'.outbound = c.outbound ++ frames
  sized : ∀ f ∈ frames, f.Sized c.maxFrameSize

/-- What a push queues is cut to the frame size, but for the code of a reset. -/
theorem Op.Emits.sized {op : Op δ} {kind : FrameKind} {size : Nat} {frames : List Frame}
    (emits : op.Emits size id kind last frames) (positive : 1 ≤ size) :
    ∀ f ∈ frames, f.Sized size := by
  intro f member
  cases emits with
  | headers => exact sized_blockFrames positive member
  | noData => cases member
  | data => exact sized_dataFrames positive member
  | @reset _ code =>
    rw [List.mem_singleton.mp member]
    exact .reset (Frame.kind_ofParts rfl) (Bytes.length_ofUInt32 code)

/-- Of all operations only `popOutbound` takes frames off the queue; the others append. -/
theorem Effect.appends {op : Op δ} (effect : Effect c op c') (positive : 1 ≤ c.maxFrameSize)
    (kept : op ≠ .popOutbound) : ∃ frames, c.Appends c' frames := by
  cases effect with
  | pushed emits => exact ⟨_, rfl, emits.sized positive⟩
  | popped => exact absurd rfl kept
  | still | skipped | opened | heard | marked | evicted =>
    exact ⟨[], (List.append_nil _).symm, fun _ member => absurd member List.not_mem_nil⟩

/-- Every operation but the one that takes a frame off the queue. -/
theorem appends_perform (positive : 1 ≤ c.maxFrameSize) {op : Op δ} (kept : op ≠ .popOutbound) :
    ∃ frames, c.Appends (c.perform op).2 frames :=
  (effect_perform c op).appends positive kept

/-- To pop is to drop the foremost frame, if there is one. -/
theorem outbound_popOutbound (c : Codec δ) :
    (c.perform .popOutbound).2.outbound = c.outbound.tail := by
  rw [perform, popOutbound_eq]

/-- What an operation queues has the right length. -/
theorem sized_of_queued (positive : 1 ≤ c.maxFrameSize) {op : Op δ}
    (queued : f ∈ Moment.queued ⟨c, .performed op (c.perform op).1⟩) : f.Sized c.maxFrameSize := by
  by_cases pops : op = .popOutbound
  · subst pops
    have shorter : (c.perform .popOutbound).2.outbound.length ≤ c.outbound.length := by
      rw [outbound_popOutbound, List.length_tail]
      exact Nat.sub_le _ _
    rw [Moment.queued, Moment.next, List.drop_of_length_le shorter] at queued
    cases queued
  · obtain ⟨frames, queue, sized⟩ := appends_perform positive pops
    rw [Moment.queued, Moment.next, queue, List.drop_left] at queued
    exact sized f queued

/-! ## The queue -/

/-- The frame size is in range, and no queued frame is longer than a length field can say. -/
structure Bounded (c : Codec δ) : Prop where
  positive : 1 ≤ c.maxFrameSize
  small : c.maxFrameSize ≤ maxFrameLength
  queued : ∀ f ∈ c.outbound, f.length ≤ maxFrameLength

/-- The frame size never changes, so only the queue has to be checked again. -/
theorem Bounded.of_queue (bounded : c.Bounded) (same : SameFraming c c')
    (queued : ∀ f ∈ c'.outbound, f.length ≤ maxFrameLength) : c'.Bounded where
  positive := same.maxFrameSize ▸ bounded.positive
  small := same.maxFrameSize ▸ bounded.small
  queued := queued

/-- Every operation keeps the frame size and the length of queued frames in range. -/
theorem Bounded.perform (bounded : c.Bounded) (op : Op δ) : (c.perform op).2.Bounded := by
  refine bounded.of_queue (sameReceiver_perform c op).toSameFraming fun f member => ?_
  by_cases pops : op = .popOutbound
  · subst pops
    rw [outbound_popOutbound] at member
    exact bounded.queued f (List.mem_of_mem_tail member)
  · obtain ⟨frames, queue, sized⟩ := appends_perform bounded.positive pops
    rw [queue] at member
    rcases List.mem_append.mp member with member | member
    · exact bounded.queued f member
    · exact Nat.le_trans (sized f member).le (Nat.max_le.mpr ⟨bounded.small, by decide⟩)

/-- A received frame changes neither role nor frame size nor assembler. -/
theorem Outcome.sameFraming {callback : Option Callback} {fault : Option FrameError}
    (outcome : Outcome c f c' callback fault) : SameFraming c c' := by
  cases outcome <;> exact ⟨rfl, rfl, rfl⟩

/-- Neither frames that are received nor what the application does about them makes a frame too long. -/
theorem Leads.Keeps.bounded : Leads.Keeps (fun _ => True) (Bounded (δ := δ)) where
  perform op _ bounded := bounded.perform op
  receive outcome bounded :=
    bounded.of_queue outcome.sameFraming (outcome.outbound_eq ▸ bounded.queued)
  fail _ bounded := ⟨bounded.positive, bounded.small, bounded.queued⟩
  reassemble _ bounded := ⟨bounded.positive, bounded.small, bounded.queued⟩

/-- The frame size stays what it was. -/
theorem Leads.Keeps.maxFrameSize (size : Nat) :
    Leads.Keeps (fun _ => True) fun c : Codec δ => c.maxFrameSize = size where
  perform op _ same := (sameReceiver_perform _ op).maxFrameSize.trans same
  receive outcome same := outcome.sameFraming.maxFrameSize.trans same
  fail _ same := same
  reassemble _ same := same

/-- A fresh codec has an empty queue, and a frame size that is brought into range. -/
theorem bounded_create (role : Role) (maxFrameSize : Nat) :
    (create role maxFrameSize : Codec δ).Bounded := by
  have framed : (create role maxFrameSize : Codec δ).Framed := framed_create role maxFrameSize
  exact ⟨framed.positive, framed.small, by simp [create]⟩

/-- No queued frame of a reachable codec is too long. -/
theorem Reachable.bounded (reachable : c.Reachable) : c.Bounded := by
  induction reachable with
  | create role maxFrameSize => exact bounded_create role maxFrameSize
  | perform _ op ih => exact ih.perform op
  | @process σ c before h app input ih =>
    have leads := Endpoint.leads_moments (e := ⟨c, app⟩) before.consistent h input
    exact leads.keeps .bounded (fun _ _ _ _ _ => trivial) (.inl ih)

/-- Everything that was queued in a run has the right length. -/
theorem Leads.sized_of_queued {log : List (Moment δ)} {due : Option (Moment δ)} {size : Nat}
    (leads : Leads c log due c') (positive : 1 ≤ size) (same : c.maxFrameSize = size)
    (queued : f ∈ log.flatMap Moment.queued) : f.Sized size := by
  obtain ⟨m, happened, here⟩ := List.mem_flatMap.mp queued
  obtain ⟨before, after, split⟩ := List.append_of_mem happened
  have there : m.codec.maxFrameSize = size :=
    leads.keeps_at (.maxFrameSize size) (fun _ _ _ _ _ => trivial) split (.inl same)
  cases leads.follows split with
  | performed c op =>
    obtain rfl : c.maxFrameSize = size := there
    exact Codec.sized_of_queued positive here
  | received =>
    rw [queued_of_received] at here
    cases here
  | called | stray =>
    rw [queued_of_called] at here
    cases here

end Codec

end Http2
