import Http2.Proofs.Codec.History

/-!
# Interrupted header blocks

While a header block is open, every frame but a CONTINUATION of its stream does the same, whatever it
would do otherwise: it fails the stream of the block and has no effect of its own. A CONTINUATION of
another stream fails that stream as well.
-/

namespace Http2

variable {δ : Type}

namespace Frame

/-- A CONTINUATION of a stream, as seen by a receiver at which it does not belong. -/
def Strays (f : Frame) : Prop :=
  f.kind = .continuation ∧ f.stream ≠ 0

instance (f : Frame) : Decidable f.Strays :=
  inferInstanceAs (Decidable (_ ∧ _))

/-- The reports of a frame that interrupts the header block of `owner`, in order. -/
def interruptions (f : Frame) (owner : UInt32) : List Callback :=
  .error owner .protocolError :: if f.Strays then [.error f.stream .protocolError] else []

end Frame

namespace Codec

variable {c : Codec δ} {f : Frame} {owner id : UInt32}

/-- The codec after a frame that interrupts the header block of `owner`. -/
def interrupted (c : Codec δ) (f : Frame) (owner : UInt32) : Codec δ :=
  if f.Strays then ((c.noted f).failed owner).failed f.stream else (c.noted f).failed owner

/-- A fault closes its own stream, registering it if need be, and leaves the others as they are. -/
theorem stream?_failed (c : Codec δ) (id other : UInt32) :
    (c.failed id).stream? other =
      if id = other then some (c.streams.inbound id).failed else c.stream? other := by
  have same : (c.streams.inbound id).failed.id = id := Registry.id_inbound _ _
  rw [failed, stream?, putStream, Registry.get?_put, same, stream?]

/-- An interruption fails the stream of the block and the one of a stray frame, and no other. -/
theorem stream?_interrupted (elsewhere : f.Strays → f.stream ≠ owner) (id : UInt32) :
    (c.interrupted f owner).stream? id =
      if id = owner ∨ f.Strays ∧ id = f.stream then some (c.streams.inbound id).failed
      else c.stream? id := by
  unfold interrupted
  by_cases strays : f.Strays
  · have kept : ((c.noted f).failed owner).streams.inbound f.stream = c.streams.inbound f.stream := by
      rw [failed, putStream, Registry.inbound_put, if_neg]
      · rfl
      · rw [show (((c.noted f).streams.inbound owner).failed).id = owner from Registry.id_inbound _ _]
        exact (elsewhere strays).symm
    rw [if_pos strays, stream?_failed, stream?_failed, kept]
    by_cases here : f.stream = id
    · subst here
      rw [if_pos rfl, if_pos (.inr ⟨strays, rfl⟩)]
    · rw [if_neg here]
      by_cases owned : owner = id
      · subst owned
        rw [if_pos rfl, if_pos (.inl rfl)]
        rfl
      · rw [if_neg owned, if_neg]
        · rfl
        · rintro (rfl | ⟨-, rfl⟩)
          · exact owned rfl
          · exact here rfl
  · rw [if_neg strays, stream?_failed]
    by_cases owned : owner = id
    · subst owned
      rw [if_pos rfl, if_pos (.inl rfl)]
      rfl
    · rw [if_neg owned, if_neg]
      · rfl
      · rintro (rfl | ⟨also, -⟩)
        · exact owned rfl
        · exact strays also

/-- Nothing of a codec but its streams and the last frame is changed. -/
theorem interrupted_eq (c : Codec δ) (f : Frame) (owner : UInt32) :
    c.interrupted f owner = { c with
      lastFrame := some (f.kind, f.stream), streams := (c.interrupted f owner).streams } := by
  unfold interrupted
  split <;> rfl

/-- No header block is open after an interruption. -/
theorem Consistent.quiet_interrupted (consistent : c.Consistent)
    (opened : c.openBlock? = some owner) (elsewhere : f.Strays → f.stream ≠ owner) :
    (c.interrupted f owner).Quiet := by
  intro id
  have stored := stream?_interrupted (c := c) elsewhere id
  rw [stream?] at stored
  rw [Registry.inbound, stored]
  by_cases failed : id = owner ∨ f.Strays ∧ id = f.stream
  · rw [if_pos failed]
    rfl
  · rw [if_neg failed]
    refine (consistent.rests fun also => failed (.inl ?_)).settled
    exact (Option.some.inj (opened.symm.trans also)).symm

end Codec

namespace Endpoint

/-- What an interruption tells an application that only listens. -/
theorem dispatch_interrupted {c : Codec δ} {f : Frame} {owner : UInt32}
    (opened : c.openBlock? = some owner) (other : ¬(f.kind = .continuation ∧ f.stream = owner))
    (log : List Callback) :
    (⟨c, log⟩ : Endpoint δ (List Callback)).dispatch .recorder f =
      { endpoint := ⟨c.interrupted f owner, log ++ f.interruptions owner⟩ } := by
  rw [dispatch_interrupting opened other, interruptBlock, Codec.interrupted, Frame.interruptions]
  by_cases strays : f.kind = .continuation ∧ f.stream ≠ 0
  · have strayed : f.Strays := strays
    rw [if_pos strays, if_pos strayed, if_pos strayed, List.append_cons]
    rfl
  · have stayed : ¬f.Strays := strays
    rw [if_neg strays, if_neg stayed, if_neg stayed]
    rfl

/-- The bytes of a frame under assembly do not matter. -/
theorem interrupted_completing (c : Codec δ) (f : Frame) (owner : UInt32)
    (log log' : List Callback) :
    ((⟨c, log⟩ : Endpoint δ (List Callback)).completing f).codec.interrupted f owner =
      ((⟨c.interrupted f owner, log'⟩ : Endpoint δ (List Callback)).completing f).codec := by
  unfold Codec.interrupted
  split <;> rfl

/-- An interrupting frame that comes in as bytes. -/
theorem processAll_interrupted {c : Codec δ} {f : Frame} {owner : UInt32} {chunks : List Bytes}
    (framed : c.Framed) (opened : c.openBlock? = some owner)
    (other : ¬(f.kind = .continuation ∧ f.stream = owner)) (log : List Callback)
    (fits : f.length ≤ c.maxFrameSize)
    (spelled : c.assembler.progress.buffer ++ chunks.flatten = f.toBytes) :
    (⟨c, log⟩ : Endpoint δ (List Callback)).processAll .recorder chunks =
      { endpoint := (⟨c.interrupted f owner, log ++ f.interruptions owner⟩ :
          Endpoint δ (List Callback)).completing f } := by
  let start : Endpoint δ (List Callback) := ⟨c, log⟩
  have dispatched : (start.completing f).dispatch .recorder f =
      { endpoint := (⟨c.interrupted f owner, log ++ f.interruptions owner⟩ :
          Endpoint δ (List Callback)).completing f } := by
    refine (dispatch_interrupted (c := (start.completing f).codec) opened other log).trans ?_
    rw [interrupted_completing c f owner log (log ++ f.interruptions owner)]
    rfl
  have processed : start.process .recorder chunks.flatten = start.dispatchAll .recorder [f] :=
    process_eq_dispatchAll _ framed (by simpa using fits) (by simpa using spelled)
  rw [processAll_eq _ framed, processed, dispatchAll, dispatched]
  rfl

end Endpoint

/-- A frame that comes while a header block is open and does not continue it is no fault, whatever it
is. It fails the stream of the block, and then its own stream if it is a CONTINUATION of one; each is
reported once. Every other stream stays as it is, known or unknown, and so does the rest of the codec.
No header block is open afterwards. The same happens when the frame comes in as bytes. -/
theorem interrupted_block_fails {c : Codec δ} (reachable : c.Reachable) {owner : UInt32}
    (awaits : c.Awaits owner) {f : Frame} (other : ¬(f.kind = .continuation ∧ f.stream = owner))
    (log : List Callback) :
    let start : Endpoint δ (List Callback) := ⟨c, log⟩
    let after := c.interrupted f owner
    let told := .error owner .protocolError ::
      if f.Strays then [.error f.stream .protocolError] else []
    start.dispatch .recorder f = { endpoint := ⟨after, log ++ told⟩ } ∧
      (∀ id, after.stream? id =
        if id = owner ∨ f.Strays ∧ id = f.stream then
          some { c.streams.inbound id with state := .closed, fragments := [], awaiting := false }
        else c.stream? id) ∧
      after = { c with lastFrame := some (f.kind, f.stream), streams := after.streams } ∧
      (after.openBlock? = none ∧ ∀ id, ¬after.Awaits id) ∧
      (f.length ≤ c.maxFrameSize →
        ∀ chunks, c.assembler.progress.buffer ++ chunks.flatten = f.toBytes →
          start.processAll .recorder chunks =
            { endpoint := (⟨after, log ++ told⟩ : Endpoint δ (List Callback)).completing f }) := by
  intro start after told
  have opened : c.openBlock? = some owner := reachable.consistent.openBlock?_eq awaits
  have elsewhere (strays : f.Strays) : f.stream ≠ owner := fun same => other ⟨strays.1, same⟩
  have quiet : after.Quiet := reachable.consistent.quiet_interrupted opened elsewhere
  refine ⟨Endpoint.dispatch_interrupted opened other log, Codec.stream?_interrupted elsewhere,
    Codec.interrupted_eq c f owner,
    ⟨quiet.openBlock?, fun id => Bool.eq_false_iff.mp (quiet id)⟩, fun fits chunks spelled => ?_⟩
  exact Endpoint.processAll_interrupted reachable.framed opened other log fits spelled

/-- A server that has received half a header block gets a CONTINUATION of a stream that it has not seen. -/
theorem interrupted_block_fails_on_stray :
    let opening := Frame.ofParts .headers 0 1 [97, 61]
    let stray := Frame.ofParts .continuation Flag.endHeaders 3 [98]
    let half := ((⟨.create .server 16384, []⟩ : Endpoint Unit (List Callback)).process .recorder
      opening.toBytes).endpoint.codec
    let after := half.interrupted stray 1
    half.Awaits 1 ∧ ¬(stray.kind = .continuation ∧ stray.stream = 1) ∧
      (⟨half, []⟩ : Endpoint Unit (List Callback)).dispatch .recorder stray =
        { endpoint := ⟨after, [.error 1 .protocolError, .error 3 .protocolError]⟩ } ∧
      after.stream? 3 = some { id := 3, origin := .inbound, state := .closed } := by
  intro opening stray half after
  have reachable : half.Reachable := .process (.create .server 16384) .recorder [] _
  have awaits : half.Awaits 1 :=
    Codec.awaits_of_openBlock? (show half.openBlock? = some 1 by decide +kernel)
  have other : ¬(stray.kind = .continuation ∧ stray.stream = 1) := by decide
  have strays : stray.Strays := ⟨by decide, by decide⟩
  have unseen : half.stream? 3 = none := by decide +kernel
  obtain ⟨dispatched, streams, -⟩ := interrupted_block_fails reachable awaits other []
  have stream : stray.stream = 3 := by decide
  refine ⟨awaits, other, ?_, ?_⟩
  · rw [dispatched, if_pos strays, stream, List.nil_append]
  · rw [streams, if_pos (.inr ⟨strays, stream.symm⟩), Registry.inbound, ← Codec.stream?, unseen]
    rfl

end Http2
