import Http2.Proofs.Codec.Operations

/-!
# From one end to the other

A sender that receives nothing, and a receiver that only records. The receiver's view of what it has
received follows the sender's view of what it has sent, frame by frame, so what it records is what the
sender's pushes ask for, in order.
-/

namespace Http2

variable {δ α β : Type}

/-- The frames that a script puts on the wire: those it takes off the queue, and then those that it
leaves there. -/
def Script.emitted (s : Script δ α) (c : Codec δ) : List Frame :=
  (s.steps c).flatMap Event.popped ++ (s.run c).2.outbound

namespace Endpoint

/-- How far a recorder has come through frames that call for some callbacks in all. -/
def Recording (sent : View) (calls : List Callback) (e : Endpoint δ (List Callback))
    (rest : List Frame) : Prop :=
  ∃ received, e.codec.Side {} received ∧ View.Runs ({} : View).begun received rest sent ∧
    e.app ++ View.callbacks received.gathered rest = calls

theorem recording_withAssembler {sent : View} {calls : List Callback}
    {e : Endpoint δ (List Callback)} {rest : List Frame} (recording : Recording sent calls e rest)
    (a : Assembler) : Recording sent calls (e.withAssembler a) rest := by
  obtain ⟨received, side, runs, recorded⟩ := recording
  exact ⟨received, side.of_same rfl rfl rfl rfl, runs, recorded⟩

/-- A recorder takes one more frame. -/
theorem recording_dispatch {sent : View} {calls : List Callback} (e : Endpoint δ (List Callback))
    (f : Frame) (rest : List Frame) (recording : Recording sent calls e (f :: rest)) :
    (e.dispatch .recorder f).fault = none ∧
      Recording sent calls (e.dispatch .recorder f).endpoint rest := by
  obtain ⟨received, side, runs, recorded⟩ := recording
  cases runs with
  | @cons _ received' _ _ _ takes later =>
    obtain ⟨s, callback, receives⟩ := receives_of_takes .recorder side takes
    have reported : callback = View.firing received.gathered f := by
      rcases receives.reported with reported | ⟨reset, -⟩
      · exact reported
      · cases reset
    rw [receives.dispatched, answer_recorder]
    refine ⟨rfl, received', receives.side, later, ?_⟩
    rw [← recorded, View.callbacks, ← reported, takes.gathered_eq, ← List.append_assoc]
    rfl

end Endpoint

/-- Whatever one end pushes, the other end reports, exactly and in order, however the bytes are cut;
no call faults and no stream fails. -/
theorem pushes_are_delivered (role : Role) (sendSize receiveSize : Nat) (s : Script δ α)
    (chunks : List Bytes) :
    let sender : Codec δ := .create role sendSize
    let receiver : Endpoint β (List Callback) := ⟨.create role.peer receiveSize, []⟩
    sender.maxFrameSize ≤ receiver.codec.maxFrameSize → 4 ≤ receiver.codec.maxFrameSize →
      (∀ event ∈ s.steps sender, event.Modest) →
      chunks.flatten = (s.emitted sender).flatMap Frame.toBytes →
      (receiver.processAll .recorder chunks).fault = none ∧
        (receiver.processAll .recorder chunks).endpoint.app =
          (s.steps sender).flatMap (Event.deliveries sender.maxFrameSize) := by
  intro sender receiver fits room modest spelled
  have framed : receiver.codec.Framed := Codec.framed_create role.peer receiveSize
  obtain ⟨sent, frames, sends⟩ := Codec.sends_run (Codec.side_create role sendSize)
    (Codec.framed_create (δ := δ) role sendSize).positive s modest
  have emitted : s.emitted sender = frames := sends.queued
  have small : ∀ f ∈ frames, f.length ≤ receiver.codec.maxFrameSize := fun f member =>
    Nat.le_trans (sends.fits f member) (Nat.max_le.mpr ⟨room, fits⟩)
  have start : receiver.Recording sent (View.callbacks [] frames) (frames ++ []) := by
    rw [List.append_nil]
    exact ⟨{}, Codec.side_create role.peer receiveSize, sends.runs, rfl⟩
  obtain ⟨fine, received, side, runs, recorded⟩ := Endpoint.dispatchAll_keeps .recorder
    (Q := fun _ => True)
    (fun e f rest recording _ => Endpoint.recording_dispatch e f rest recording)
    (fun e a rest recording => Endpoint.recording_withAssembler recording a)
    (fun _ _ _ => trivial) start trivial
  rw [emitted] at spelled
  rw [Endpoint.processAll_eq .recorder framed,
    Endpoint.process_eq_dispatchAll .recorder framed small spelled]
  refine ⟨fine, ?_⟩
  rw [← sends.reported, ← recorded]
  simp [View.callbacks]

/-- A request without header fields, sent by a client in one go. -/
theorem pushes_are_delivered_to_server :
    let script : Script Unit Unit :=
      .call .openStream fun _ => .call (.pushHeaders 1 [] true) fun _ => .done ()
    let sender : Codec Unit := .create .client 16384
    let receiver : Endpoint Unit (List Callback) := ⟨.create .server 16384, []⟩
    let bytes := (script.emitted sender).flatMap Frame.toBytes
    (receiver.processAll .recorder [bytes]).fault = none ∧
      (receiver.processAll .recorder [bytes]).endpoint.app = [.headers 1 [] true] := by
  intro script sender receiver bytes
  have steps : script.steps sender =
      [.performed .openStream (.ok 1), .performed (.pushHeaders 1 [] true) (.ok ())] := rfl
  have modest : ∀ event ∈ script.steps sender, event.Modest := by
    intro event member
    rw [steps, List.mem_cons, List.mem_singleton] at member
    rcases member with rfl | rfl
    · trivial
    · intro block written
      cases written
      decide
  have delivered := pushes_are_delivered (β := Unit) .client 16384 16384 script [bytes]
    (Nat.le_refl _) (by decide) modest (List.append_nil bytes)
  rw [steps] at delivered
  exact delivered

end Http2
