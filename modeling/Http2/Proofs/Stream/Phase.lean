import Http2.Stream.State

/-!
# One direction of a stream

What has travelled on a stream in one direction is a `Phase`. Two phases, of what an endpoint has sent
and of what it has received, make up its state: `StreamState.of`. The send table and the receive table
both follow from how a frame moves one phase, `Phase.after?`. This is what makes the two ends of a
stream agree although their tables are written separately: `send_moves_phase` and
`receive_moves_phase` speak of the same move.
-/

namespace Http2

/-- What has travelled on a stream in one direction. -/
inductive Phase where
  /-- No frame. -/
  | fresh
  /-- Frames, of which none ends the direction. -/
  | flowing
  /-- A frame with END_STREAM. -/
  | ended
  /-- RST_STREAM. -/
  | reset
  deriving DecidableEq, Repr

/-- The state of a stream at an endpoint, by what it has sent and what it has received. -/
def StreamState.of : Phase → Phase → StreamState
  | .reset, _ => .closed
  | _, .reset => .closed
  | .ended, .ended => .closed
  | .ended, _ => .halfClosedLocal
  | _, .ended => .halfClosedRemote
  | .fresh, .fresh => .idle
  | _, _ => .opened

/-- The states that two endpoints may have of one stream when nothing is in flight. -/
def StreamState.Dual : StreamState → StreamState → Prop
  | .opened, .opened => True
  | .halfClosedLocal, .halfClosedRemote => True
  | .halfClosedRemote, .halfClosedLocal => True
  | .closed, .closed => True
  | _, _ => False

namespace Phase

/-- How a frame moves the phase of its direction. A direction begins with HEADERS, unless frames of
the other direction answer it already. -/
def after? (answered : Bool) (phase : Phase) (kind : FrameKind) (last : Bool) : Option Phase :=
  match phase, kind with
  | .fresh, .headers | .flowing, .headers | .flowing, .data =>
    some (if last then .ended else .flowing)
  | .fresh, .data => if answered then some (if last then .ended else .flowing) else none
  | .fresh, .rstStream => if answered then some .reset else none
  | .flowing, .rstStream | .ended, .rstStream => some .reset
  | _, _ => none

/-- Whether frames have travelled. -/
def begun (phase : Phase) : Bool :=
  phase ≠ .fresh

/-- A direction that has moved has begun. -/
theorem begun_of_after? {answered last : Bool} {phase next : Phase} {kind : FrameKind}
    (moved : phase.after? answered kind last = some next) : next.begun := by
  unfold after? at moved
  split at moved <;> cases last <;> cases answered <;> simp_all [begun] <;> subst moved <;> decide

/-- A reset direction is over. -/
theorem after?_reset (answered last : Bool) (kind : FrameKind) :
    reset.after? answered kind last = none := by
  cases kind <;> rfl

/-- An answer that came meanwhile forbids nothing. -/
theorem after?_of_answered {answered answered' last : Bool} {phase next : Phase} {kind : FrameKind}
    (moved : phase.after? answered kind last = some next) (still : answered → answered') :
    phase.after? answered' kind last = some next := by
  unfold after? at moved ⊢
  split at moved <;> simp_all

/-- Only RST_STREAM resets a direction. -/
theorem after?_ne_reset {answered last : Bool} {phase : Phase} {kind : FrameKind}
    (other : kind ≠ .rstStream) : phase.after? answered kind last ≠ some .reset := by
  cases phase <;> cases kind <;> cases last <;> cases answered <;> simp_all [after?]

/-- A DATA frame may be sent in several, of which only the last may end the direction. -/
theorem after?_data_split {answered last : Bool} {phase next : Phase}
    (moved : phase.after? answered .data last = some next) :
    phase.after? answered .data false = some .flowing ∧
      flowing.after? answered .data last = some next := by
  cases phase <;> cases answered <;> simp_all [after?]

end Phase

namespace StreamState

/-- Kinds of frames that move a phase. -/
def Moving (kind : FrameKind) : Prop :=
  kind = .headers ∨ kind = .data ∨ kind = .rstStream

/-- The send table lets a frame out only if it moves the sent phase. -/
theorem send_moves_phase {sent received : Phase} {kind : FrameKind} {last : Bool}
    {next : StreamState} (moving : Moving kind)
    (accepted : (StreamState.of sent received).send kind last = .accept next) :
    ∃ sent', sent.after? received.begun kind last = some sent' ∧
      next = StreamState.of sent' received := by
  rcases moving with rfl | rfl | rfl <;> cases sent <;> cases received <;> cases last <;>
    simp_all [StreamState.of, send, Phase.after?, Phase.begun]

/-- No frame that moves a phase is let out without effect. -/
theorem send_ne_ignore {state : StreamState} {kind : FrameKind} {last : Bool}
    (moving : Moving kind) : state.send kind last ≠ .ignore := by
  rcases moving with rfl | rfl | rfl <;> cases state <;> simp [send]

/-- A DATA frame that ends nothing leaves the state alone. -/
theorem send_data_more {sent received : Phase} {next : StreamState}
    (accepted : (StreamState.of sent received).send .data false = .accept next) :
    next = StreamState.of sent received := by
  cases sent <;> cases received <;> simp_all [StreamState.of, send]

/-- What the receive table says about a frame that moves the received phase. Only an endpoint that
has reset the stream itself rejects it. -/
theorem receive_moves_phase {sent received received' : Phase} {kind : FrameKind} {last : Bool}
    (moving : Moving kind) (moved : received.after? sent.begun kind last = some received') :
    (StreamState.of sent received).receive kind last = .accept (StreamState.of sent received') ∨
      (kind = .rstStream ∧ (StreamState.of sent received).receive kind last = .ignore ∧
        StreamState.of sent received' = StreamState.of sent received) ∨
      (kind ≠ .rstStream ∧ sent = .reset ∧
        (StreamState.of sent received).receive kind last = .reject .streamClosed) := by
  rcases moving with rfl | rfl | rfl <;> cases sent <;> cases received <;> cases last <;>
    simp [Phase.after?, Phase.begun] at moved <;> subst moved <;> simp [StreamState.of, receive]

/-- No end of a stream that carried frames is idle. -/
theorem Dual.ne_idle {state state' : StreamState} (dual : Dual state state') :
    state ≠ .idle ∧ state' ≠ .idle := by
  cases state <;> cases state' <;> simp_all [Dual]

/-- Two ends that have received what the other one has sent are dual once a frame has travelled. -/
theorem dual_of {sent received : Phase} (carried : sent ≠ .fresh ∨ received ≠ .fresh) :
    Dual (StreamState.of sent received) (StreamState.of received sent) := by
  cases sent <;> cases received <;> simp_all [StreamState.of, Dual]

end StreamState

end Http2
