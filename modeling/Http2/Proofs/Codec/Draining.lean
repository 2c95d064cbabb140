import Http2.Proofs.Assembler.Looping
import Http2.Proofs.Codec.Reachable
import Http2.Proofs.Codec.Trace

/-!
# The loop over received bytes

Processing received bytes goes round a loop: a call of the assembler, which loops itself, and then the
frame that it gives out is handled. `Endpoint.Drains` is that loop without a bound on its rounds. It can
end in one way only (`Drains.eq_process`). Between calls the assembler holds less than a frame, so every
round takes a byte, and there are no more rounds than bytes (`exists_drains`).
-/

namespace Http2

variable {δ σ : Type}

/-- What a call returns tells its outcome. -/
theorem Assembler.eq_of_returned {made : Assembler × Next} {ended : Return}
    (returns : returned made = ended) :
    match ended.result with
    | .ok none => made = (ended.after, .hungry)
    | .ok (some frame) => made = (ended.after, .frame frame ended.rest)
    | .error fault => made = (ended.after, .fault fault ended.rest) := by
  subst returns
  obtain ⟨a, outcome⟩ := made
  cases outcome <;> rfl

namespace Endpoint

/-- From an endpoint and received bytes, so many frames lead to what is left of the endpoint, and to the
fault if there was one. -/
inductive Drains (h : Handler δ σ) : Endpoint δ σ → Bytes → Nat → Received δ σ → Prop where
  /-- No further frame is complete. -/
  | hungry {e : Endpoint δ σ} {input rest : Bytes} {turns : Nat} {a : Assembler}
      (call : e.codec.assembler.Loops input turns { after := a, result := .ok none, rest }) :
      Drains h e input 0 { endpoint := e.withAssembler a }
  /-- The next frame is refused. -/
  | refused {e : Endpoint δ σ} {input rest : Bytes} {turns : Nat} {a : Assembler}
      {fault : FrameError}
      (call : e.codec.assembler.Loops input turns { after := a, result := .error fault, rest }) :
      Drains h e input 0 { endpoint := e.withAssembler a, fault := some fault }
  /-- Handling a frame ends the connection. -/
  | faulty {e : Endpoint δ σ} {input rest : Bytes} {turns : Nat} {a : Assembler} {frame : Frame}
      {fault : FrameError}
      (call : e.codec.assembler.Loops input turns { after := a, result := .ok (some frame), rest })
      (failed : ((e.withAssembler a).dispatch h frame).fault = some fault) :
      Drains h e input 1 ((e.withAssembler a).dispatch h frame)
  /-- A frame is handled, and the loop goes on with the bytes behind it. -/
  | frame {e : Endpoint δ σ} {input rest : Bytes} {turns frames : Nat} {a : Assembler}
      {frame : Frame} {received : Received δ σ}
      (call : e.codec.assembler.Loops input turns { after := a, result := .ok (some frame), rest })
      (fine : ((e.withAssembler a).dispatch h frame).fault = none)
      (later : Drains h ((e.withAssembler a).dispatch h frame).endpoint rest frames received) :
      Drains h e input (frames + 1) received

variable {h : Handler δ σ} {e : Endpoint δ σ} {input : Bytes} {frames : Nat}
  {received : Received δ σ}

/-- Where the loop ends is what processing the bytes makes of the endpoint. -/
theorem Drains.eq_process (drains : Drains h e input frames received) :
    received = e.process h input := by
  induction drains with
  | hungry call => exact (process_of_hungry (Assembler.eq_of_returned call.returned_eq)).symm
  | refused call => exact (process_of_fault (Assembler.eq_of_returned call.returned_eq)).symm
  | faulty call failed =>
    rw [process_of_frame (Assembler.eq_of_returned call.returned_eq), Received.andThen_of_some failed]
  | frame call fine later ih =>
    rw [process_of_frame (Assembler.eq_of_returned call.returned_eq), Received.andThen_of_none fine]
    exact ih

/-- The loop ends on all bytes, after no more frames than there are bytes. -/
theorem exists_drains (h : Handler δ σ) {e : Endpoint δ σ} (framed : e.codec.Framed)
    (input : Bytes) : ∃ frames ≤ input.length, Drains h e input frames (e.process h input) := by
  obtain ⟨turns, -, call⟩ := e.codec.assembler.exists_loops input
  have takes := (framed.settled.takes input).2
  have settled := Assembler.settled_next framed.settled input
  cases made : e.codec.assembler.next input with
  | mk a outcome =>
    rw [made] at call takes settled
    cases outcome with
    | hungry =>
      rw [process_of_hungry made]
      exact ⟨0, Nat.zero_le _, .hungry call⟩
    | fault fault rest =>
      rw [process_of_fault made]
      exact ⟨0, Nat.zero_le _, .refused call⟩
    | frame frame rest =>
      obtain ⟨taken, some, spelled⟩ := takes nofun
      have shorter : rest.length < input.length := by
        have positive := List.length_pos_iff.mpr some
        rw [← spelled, List.length_append]
        exact Nat.lt_add_of_pos_left positive
      rw [process_of_frame made]
      cases failed : ((e.withAssembler a).dispatch h frame).fault with
      | some fault =>
        rw [Received.andThen_of_some failed]
        exact ⟨1, by omega, .faulty call failed⟩
      | none =>
        have onward := framed_dispatch (framed_withAssembler framed settled.1 settled.2) h frame
        obtain ⟨frames, few, later⟩ := exists_drains h onward rest
        rw [Received.andThen_of_none failed]
        exact ⟨frames + 1, by omega, .frame call failed later⟩
termination_by input.length

end Endpoint

/-- Whatever an assembler is used for, between the uses its phase says how much it holds, and that is never a
whole frame. The loop of a call ends after at most four turns. A call that returns nothing has taken all of
its input, and one that returns a frame or a fault at least one byte of it. So the loop over received bytes
ends for every codec that comes about by use, whatever its handler does. -/
theorem calls_make_progress (limit : Nat) (uses : List Assembler.Use) {c : Codec δ}
    (reachable : c.Reachable) (h : Handler δ σ) (app : σ) :
    let a := Assembler.afterUses { limit } uses
    a.limit = limit ∧ a.InOrder ∧
    (∀ input : Bytes, ∃ turns ended, turns ≤ 4 ∧ a.Loops input turns ended ∧
      Assembler.returned (a.next input) = ended ∧
      (ended.result = .ok none → ended.rest = []) ∧
      (ended.result ≠ .ok none → ∃ taken, taken ≠ [] ∧ taken ++ ended.rest = input)) ∧
    ∀ input : Bytes, ∃ frames ≤ input.length,
      Endpoint.Drains h ⟨c, app⟩ input frames (Endpoint.process h ⟨c, app⟩ input) := by
  intro a
  have fresh : Assembler.Settled { limit } := rfl
  obtain ⟨settled, same⟩ := Assembler.settled_afterUses fresh uses
  refine ⟨same, settled.inOrder, fun input => ?_, Endpoint.exists_drains h reachable.framed⟩
  obtain ⟨turns, few, loops⟩ := a.exists_loops input
  have four : a.progress.phase.ahead ≤ 4 := by
    cases a.progress.phase <;> decide
  exact ⟨turns, _, Nat.le_trans few four, loops, rfl, settled.takes input⟩

/-- After a refused frame and a reset, an assembler holds a whole header and waits for one byte; a server has
received half a header. -/
theorem calls_make_progress_at_last_byte :
    let uses : List Assembler.Use := [.next [0, 0, 3, 0, 0, 0, 0, 0, 1], .next [0, 0], .reset,
      .next [0, 0, 1, 0, 1, 0, 0, 0, 1]]
    let a := Assembler.afterUses { limit := 2 } uses
    let fresh : Endpoint Unit (List Callback) := ⟨.create .server 2, []⟩
    let server := (fresh.process .recorder [0, 0, 1, 0]).endpoint
    server.codec.Reachable ∧ a.InOrder ∧ a.progress.phase = .readingPayload ∧
      a.progress.heldSize = 9 ∧
      (∃ turns ended, turns ≤ 4 ∧ a.Loops [65, 0] turns ended ∧ ended.rest = [0]) ∧
      ∃ frames ≤ 7, Endpoint.Drains .recorder ⟨server.codec, []⟩ [1, 0, 0, 0, 1, 65, 0] frames
        (Endpoint.process .recorder ⟨server.codec, []⟩ [1, 0, 0, 0, 1, 65, 0]) := by
  intro uses a fresh server
  have reachable : server.codec.Reachable := .process (.create .server 2) .recorder [] [0, 0, 1, 0]
  obtain ⟨-, inOrder, loops, drains⟩ := calls_make_progress 2 uses reachable .recorder []
  obtain ⟨turns, ended, few, loop, returned, -⟩ := loops [65, 0]
  have rest : ended.rest = [0] := by
    rw [← returned]
    decide
  exact ⟨reachable, inOrder, by decide, by decide, ⟨turns, ended, few, loop, rest⟩,
    drains [1, 0, 0, 0, 1, 65, 0]⟩

end Http2
