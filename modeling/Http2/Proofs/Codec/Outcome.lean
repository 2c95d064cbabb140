import Http2.Proofs.Codec.Dispatch

/-!
# What a received frame does

`Outcome` lists what a received frame can do to a codec before the application hears of it.
`dispatch_of_outcome` and `dispatch_of_astray` say that an outcome decides everything else, so whatever
each of its cases keeps, a received frame keeps. `exists_outcome` says that every frame has one, as
long as the frames that streams hold can be joined; `Consistent` is what makes sure that they can.
-/

namespace Http2

variable {δ σ : Type}

/-! ## The frames of an incomplete header block -/

/-- The frames of a header block that is not complete: a well-formed opening frame of a stream and
CONTINUATIONs of that stream, none of which ends the block. -/
structure PartialBlock (id : UInt32) (opening : Frame) (continuations : List Frame) : Prop where
  opens : opening.kind = .headers ∨ opening.kind = .pushPromise
  stream : opening.stream = id
  nonzero : id ≠ 0
  wellFormed : ∃ fragment, opening.fragment = .ok fragment
  continues : ∀ f ∈ continuations, f.kind = .continuation ∧ f.stream = id
  unended : ∀ f ∈ opening :: continuations, f.hasFlag Flag.endHeaders = false
  small : Frame.payloadSize (opening :: continuations) ≤ maxHeaderBlockSize

/-- A well-formed opening frame and CONTINUATIONs can be joined. -/
theorem joinFragments_of_continuations {opening : Frame} {continuations : List Frame}
    {fragment : Bytes} (wellFormed : opening.fragment = .ok fragment)
    (continues : ∀ f ∈ continuations, f.kind = .continuation) :
    joinFragments (opening :: continuations) =
      .ok (fragment ++ (continuations.map Frame.payload).flatten) := by
  have others : continuations.map Frame.fragment = (continuations.map Frame.payload).map .ok := by
    rw [List.map_map]
    exact List.map_congr_left fun f member => Frame.fragment_of_continuation (continues f member)
  rw [← List.flatten_cons]
  apply joinFragments_eq
  rw [List.map_cons, List.map_cons, wellFormed, others]

namespace Stream

/-- The stream after a frame that opens a header block on it. -/
def opening (s : Stream δ) (next : StreamState) (f : Frame) : Stream δ :=
  { s with state := next, fragments := [f], awaiting := true }

/-- The stream after one more frame of its header block. -/
def continuing (s : Stream δ) (f : Frame) : Stream δ :=
  { s with fragments := s.fragments ++ [f] }

@[simp] theorem id_opening (s : Stream δ) (next : StreamState) (f : Frame) :
    (s.opening next f).id = s.id := rfl

@[simp] theorem id_continuing (s : Stream δ) (f : Frame) : (s.continuing f).id = s.id := rfl

/-- What becomes of a stream whose last fragment is `f`, and the report of it. -/
inductive Collects (s : Stream δ) (f : Frame) : Stream δ → Option Callback → Prop
  /-- The block goes on. -/
  | kept (small : Frame.payloadSize s.fragments ≤ maxHeaderBlockSize)
      (more : f.hasFlag Flag.endHeaders = false) : Collects s f s none
  /-- The block is complete. -/
  | delivered {block : Bytes} (small : Frame.payloadSize s.fragments ≤ maxHeaderBlockSize)
      (last : f.hasFlag Flag.endHeaders = true) (joined : joinFragments s.fragments = .ok block) :
      Collects s f { s with fragments := [], awaiting := false }
        (some (.headers s.id (HeaderBlock.decode block) (Endpoint.blockEndsStream s.fragments)))
  /-- The block is too large. -/
  | overflowed (large : maxHeaderBlockSize < Frame.payloadSize s.fragments) :
      Collects s f s.failed (some (.error s.id .protocolError))

/-- Fragments that can be joined are kept, delivered or too many, and nothing else. -/
theorem exists_collects {s : Stream δ} {block : Bytes} (f : Frame)
    (joined : joinFragments s.fragments = .ok block) : ∃ s' callback, s.Collects f s' callback := by
  by_cases large : maxHeaderBlockSize < Frame.payloadSize s.fragments
  · exact ⟨_, _, .overflowed large⟩
  · cases last : f.hasFlag Flag.endHeaders with
    | true => exact ⟨_, _, .delivered (Nat.le_of_not_lt large) last joined⟩
    | false => exact ⟨_, _, .kept (Nat.le_of_not_lt large) last⟩

theorem Collects.id_eq {s s' : Stream δ} {f : Frame} {callback : Option Callback}
    (collects : s.Collects f s' callback) : s'.id = s.id := by
  cases collects <;> rfl

end Stream

/-- What is wrong with a frame by itself, whatever came before it. -/
inductive Frame.Faulty (f : Frame) : FrameError → Prop
  | streamZero (zero : f.stream = 0) : Faulty f (.streamZero f.kind)
  | fragment {fault : FrameError} (opens : f.kind = .headers ∨ f.kind = .pushPromise)
      (malformed : f.fragment = .error fault) : Faulty f fault
  | payload {fault : FrameError} (kind : f.kind = .data) (malformed : f.unpadded = .error fault) :
      Faulty f fault

namespace Codec

/-! ## Outcomes -/

/-- The codec that remembers kind and stream of a received frame. -/
def noted (c : Codec δ) (f : Frame) : Codec δ :=
  { c with lastFrame := some (f.kind, f.stream) }

/-- What the receive table says about a frame. -/
def verdict (c : Codec δ) (f : Frame) : Transition :=
  (c.streams.inbound f.stream).state.transition .inbound f.kind f.flags

/-- The codec that a frame leaves behind before the application hears of it, with the callback that
reports the frame and the framing fault that it is. -/
inductive Outcome (c : Codec δ) (f : Frame) :
    Codec δ → Option Callback → Option FrameError → Prop
  /-- The frame is of no stream, or of an unknown kind. -/
  | ignored (closed : c.openBlock? = none) (ignored : Endpoint.isIgnored f = true) :
      Outcome c f (c.noted f) none none
  | streamZero (closed : c.openBlock? = none) (heeded : Endpoint.isIgnored f = false)
      (zero : f.stream = 0) : Outcome c f (c.noted f) none (some (.streamZero f.kind))
  /-- The frame has no effect on its stream. -/
  | unmoved (judged : c.Judges f) (ignored : c.verdict f = .ignore) :
      Outcome c f ((c.noted f).putStream (c.streams.inbound f.stream)) none none
  | malformed {next : StreamState} {fault : FrameError} (judged : c.Judges f)
      (accepted : c.verdict f = .accept next)
      (wrong : (f.kind = .headers ∨ f.kind = .pushPromise) ∧ f.fragment = .error fault ∨
        f.kind = .data ∧ f.unpadded = .error fault) :
      Outcome c f ((c.noted f).putStream (c.streams.inbound f.stream)) none (some fault)
  | rejected {fault : StreamError} (judged : c.Judges f) (rejected : c.verdict f = .reject fault) :
      Outcome c f ((c.noted f).putStream (c.streams.inbound f.stream).failed)
        (some (.error f.stream fault)) none
  /-- The frame carries nothing for the application. -/
  | moved {next : StreamState} (judged : c.Judges f) (accepted : c.verdict f = .accept next)
      (kind : f.kind ≠ .headers ∧ f.kind ≠ .pushPromise ∧ f.kind ≠ .data) :
      Outcome c f ((c.noted f).putStream { c.streams.inbound f.stream with state := next }) none none
  | body {next : StreamState} {data : Bytes} (judged : c.Judges f)
      (accepted : c.verdict f = .accept next) (kind : f.kind = .data)
      (unpadded : f.unpadded = .ok data) :
      Outcome c f ((c.noted f).putStream { c.streams.inbound f.stream with state := next })
        (some (.body f.stream data (f.hasFlag Flag.endStream))) none
  /-- The frame opens a header block. -/
  | opening {next : StreamState} {fragment : Bytes} {s : Stream δ} {callback : Option Callback}
      (judged : c.Judges f) (accepted : c.verdict f = .accept next)
      (opens : f.kind = .headers ∨ f.kind = .pushPromise) (wellFormed : f.fragment = .ok fragment)
      (collects : ((c.streams.inbound f.stream).opening next f).Collects f s callback) :
      Outcome c f ((c.noted f).putStream s) callback none
  /-- The frame continues the open header block. -/
  | continuing {s : Stream δ} {callback : Option Callback}
      (opened : c.openBlock? = some f.stream) (kind : f.kind = .continuation)
      (stream : f.stream ≠ 0)
      (collects : ((c.streams.inbound f.stream).continuing f).Collects f s callback) :
      Outcome c f ((c.noted f).putStream s) callback none
  /-- The frame continues a header block, and none is open. -/
  | stray (closed : c.openBlock? = none) (kind : f.kind = .continuation) (stream : f.stream ≠ 0) :
      Outcome c f ((c.noted f).putStream (c.streams.inbound f.stream).failed)
        (some (.error f.stream .protocolError)) none
  /-- The frame is not a CONTINUATION of the open header block. -/
  | interrupting {owner : UInt32} (opened : c.openBlock? = some owner)
      (other : ¬(f.kind = .continuation ∧ f.stream = owner)) :
      Outcome c f ((c.noted f).putStream (c.streams.inbound owner).failed)
        (some (.error owner .protocolError)) none

/-- A CONTINUATION of one stream interrupts the header block of another. After that block has been
reported, the stream of the frame fails as well. -/
structure Astray (c : Codec δ) (f : Frame) : Prop where
  kind : f.kind = .continuation
  stream : f.stream ≠ 0
  opened : ∃ owner, c.openBlock? = some owner ∧ f.stream ≠ owner

/-- No frame is a fault while a header block is open, and a frame that is one has only itself to
blame. -/
theorem Outcome.faulty {c c' : Codec δ} {f : Frame} {callback : Option Callback} {fault : FrameError}
    (outcome : Outcome c f c' callback (some fault)) : c.openBlock? = none ∧ f.Faulty fault := by
  cases outcome with
  | streamZero closed heeded zero => exact ⟨closed, .streamZero zero⟩
  | malformed judged accepted wrong =>
    rcases wrong with ⟨opens, malformed⟩ | ⟨kind, malformed⟩
    · exact ⟨judged.closed, .fragment opens malformed⟩
    · exact ⟨judged.closed, .payload kind malformed⟩

end Codec

/-! ## One stream -/

/-- A property of states that nothing destroys once a stream has it: neither table does, nor a fault. -/
structure StreamState.Lasting (P : StreamState → Prop) : Prop where
  seen : ¬P .idle
  closes : P .closed
  receives : ∀ {state next kind flags}, P state →
    state.transition .inbound kind flags = .accept next → P next
  sends : ∀ {state next kind flags}, P state →
    state.transition .outbound kind flags = .accept next → P next

namespace Codec

/-- What a received frame makes of the stream with an identifier. -/
inductive Turns (c : Codec δ) (f : Frame) (id : UInt32) : Stream δ → Prop
  | kept : Turns c f id (c.streams.inbound id)
  | failed : Turns c f id (c.streams.inbound id).failed
  | moved {next : StreamState} (judged : c.Judges f) (here : f.stream = id)
      (accepted : c.verdict f = .accept next) (kind : f.kind ≠ .headers ∧ f.kind ≠ .pushPromise) :
      Turns c f id { c.streams.inbound id with state := next }
  | opened {next : StreamState} {s : Stream δ} {callback : Option Callback} (judged : c.Judges f)
      (here : f.stream = id) (accepted : c.verdict f = .accept next)
      (opens : f.kind = .headers ∨ f.kind = .pushPromise)
      (collects : ((c.streams.inbound id).opening next f).Collects f s callback) : Turns c f id s
  | continued {s : Stream δ} {callback : Option Callback} (opened : c.openBlock? = some id)
      (collects : ((c.streams.inbound id).continuing f).Collects f s callback) : Turns c f id s

/-- Each outcome of a frame makes of every stream one of a few things. -/
theorem Outcome.turns {c c' : Codec δ} {f : Frame} {callback : Option Callback}
    {fault : Option FrameError} (outcome : Outcome c f c' callback fault) (id : UInt32) :
    Turns c f id (c'.streams.inbound id) := by
  -- Whatever is stored, another stream stays, and this one becomes what is stored.
  have stored {s : Stream δ} {owner : UInt32} (same : s.id = owner)
      (here : owner = id → Turns c f id s) :
      Turns c f id (((c.noted f).putStream s).streams.inbound id) := by
    rw [putStream, Registry.inbound_put, same]
    by_cases owned : owner = id
    · rw [if_pos owned]
      exact here owned
    · rw [if_neg owned]
      exact .kept
  cases outcome with
  | ignored => exact .kept
  | streamZero => exact .kept
  | unmoved | malformed =>
    refine stored (Registry.id_inbound _ _) fun here => ?_
    rw [here]
    exact .kept
  | rejected | stray | interrupting =>
    refine stored (Registry.id_inbound _ _) fun here => ?_
    rw [here]
    exact .failed
  | moved judged accepted kind =>
    refine stored (Registry.id_inbound _ _) fun here => ?_
    rw [here]
    exact .moved judged here accepted ⟨kind.1, kind.2.1⟩
  | body judged accepted kind =>
    refine stored (Registry.id_inbound _ _) fun here => ?_
    rw [here]
    exact .moved judged here accepted (by simp [kind])
  | opening judged accepted opens wellFormed collects =>
    refine stored (collects.id_eq.trans (Registry.id_inbound _ _)) fun here => ?_
    rw [here] at collects
    exact .opened judged here accepted opens collects
  | continuing opened kind stream collects =>
    refine stored (collects.id_eq.trans (Registry.id_inbound _ _)) fun here => ?_
    rw [here] at opened collects
    exact .continued opened collects

/-- What lasts is kept by a received frame. -/
theorem state_of_outcome {P : StreamState → Prop} (lasting : StreamState.Lasting P)
    {c c' : Codec δ} {f : Frame} {callback : Option Callback} {fault : Option FrameError}
    (outcome : Outcome c f c' callback fault) {id : UInt32}
    (holds : P (c.streams.inbound id).state) : P (c'.streams.inbound id).state := by
  have turns := outcome.turns id
  generalize c'.streams.inbound id = s at turns ⊢
  cases turns with
  | kept => exact holds
  | failed => exact lasting.closes
  | moved judged here accepted =>
    subst here
    exact lasting.receives holds accepted
  | opened judged here accepted opens collects =>
    subst here
    have next := lasting.receives holds accepted
    cases collects with
    | kept | delivered => exact next
    | overflowed => exact lasting.closes
  | continued opened collects =>
    cases collects with
    | kept | delivered => exact holds
    | overflowed => exact lasting.closes

end Codec

namespace Endpoint

open Codec (Outcome Astray)

variable {h : Handler δ σ} {e : Endpoint δ σ} {f : Frame} {c : Codec δ}
  {callback : Option Callback} {fault : Option FrameError}

/-- A fragment that makes a block too large fails its stream. -/
theorem afterFragment_overflowed {s : Stream δ} {id : UInt32} (same : s.id = id)
    (large : maxHeaderBlockSize < Frame.payloadSize s.fragments) (last : Bool) :
    (e.putStream s).afterFragment h id last =
      { endpoint := (e.putStream s.failed).report h (.error id .protocolError) } := by
  have stored : (e.putStream s).codec.streams.get? id = some s := Registry.get?_put_of_id _ same
  have here : (e.putStream s).codec.streams.inbound id = s := Registry.inbound_of_get? stored
  simp only [afterFragment, stored, large, if_true, failStream, here]
  rw [putStream_putStream]
  · rfl
  · rfl

/-- The code after a fragment does what the collecting of fragments says. -/
theorem afterFragment_of_collects {s s' : Stream δ} {id : UInt32} (same : s.id = id)
    (collects : s.Collects f s' callback) :
    (e.putStream s).afterFragment h id (f.hasFlag Flag.endHeaders) =
      { endpoint := (e.putStream s').answer h callback } := by
  subst same
  cases collects with
  | kept small more => rw [more, afterFragment_more rfl small, answer]
  | delivered small last joined => rw [last, afterFragment_last rfl small joined, answer]
  | overflowed large => rw [afterFragment_overflowed rfl large, answer]

/-- A frame does nothing that its outcome does not say, unless it went astray. -/
theorem dispatch_of_outcome (outcome : Outcome e.codec f c callback fault)
    (home : ¬Astray e.codec f) :
    e.dispatch h f = { endpoint := ({ e with codec := c } : Endpoint δ σ).answer h callback, fault } := by
  cases outcome with
  | ignored closed ignored => exact dispatch_ignored closed ignored
  | streamZero closed heeded zero => exact dispatch_streamZero closed heeded zero
  | unmoved judged ignored => exact dispatch_unmoved judged ignored
  | malformed judged accepted wrong => exact dispatch_malformed judged accepted wrong
  | rejected judged rejected => exact dispatch_rejected judged rejected
  | moved judged accepted kind => exact dispatch_moved judged kind accepted
  | body judged accepted kind unpadded =>
    exact dispatch_data judged.closed kind judged.stream accepted unpadded
  | opening judged accepted opens wellFormed collects =>
    exact (dispatch_opening judged.closed opens judged.stream accepted wellFormed).trans
      (afterFragment_of_collects (Registry.id_inbound _ _) collects)
  | continuing opened kind stream collects =>
    exact (dispatch_continuation opened kind stream).trans
      (afterFragment_of_collects (Registry.id_inbound _ _) collects)
  | stray closed kind stream => exact dispatch_stray closed kind stream
  | @interrupting owner opened other =>
    have alone : ¬(f.kind = .continuation ∧ f.stream ≠ 0) := fun ⟨kind, stream⟩ =>
      home ⟨kind, stream, owner, opened, fun same => other ⟨kind, same⟩⟩
    rw [dispatch_interrupting opened other, interruptBlock, if_neg alone]
    rfl

/-- A frame that went astray fails its stream as well. -/
theorem dispatch_of_astray (outcome : Outcome e.codec f c callback fault)
    (astray : Astray e.codec f) :
    e.dispatch h f =
      { endpoint := (({ e with codec := c } : Endpoint δ σ).answer h callback).failStream h f.stream
          .protocolError } := by
  obtain ⟨kind, stream, owner, opened, elsewhere⟩ := astray
  have other : ¬(f.kind = .continuation ∧ f.stream = owner) := fun same => elsewhere same.2
  cases outcome with
  | interrupting here =>
    obtain rfl := Option.some.inj (here.symm.trans opened)
    rw [dispatch_interrupting opened other, interruptBlock, if_pos ⟨kind, stream⟩]
    rfl
  | continuing here => exact absurd (Option.some.inj (here.symm.trans opened)) elsewhere
  | ignored closed => rw [opened] at closed; cases closed
  | streamZero closed => rw [opened] at closed; cases closed
  | stray closed => rw [opened] at closed; cases closed
  | unmoved judged => exact absurd kind judged.kind
  | malformed judged => exact absurd kind judged.kind
  | rejected judged => exact absurd kind judged.kind
  | moved judged => exact absurd kind judged.kind
  | body judged => exact absurd kind judged.kind
  | opening judged => exact absurd kind judged.kind

end Endpoint

end Http2
