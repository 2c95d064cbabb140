import Http2.Codec.Receive
import Http2.Proofs.Assembler

/-!
# Processing bytes in pieces

`process_append` says that processing a byte string is processing its front and then, unless a framing
fault ended the connection, its back. `processAll_eq` extends this to any list of chunks; a settled
assembler is needed for the empty list only. `process_frames` is the rule for byte streams that are
known to spell frames: what handling one frame keeps, processing any part of the stream keeps.
-/

namespace Http2

variable {δ σ : Type}

namespace Received

/-- Goes on with what is left behind, unless a framing fault ended the connection. -/
def andThen (r : Received δ σ) (next : Endpoint δ σ → Received δ σ) : Received δ σ :=
  match r.fault with
  | none => next r.endpoint
  | some _ => r

/-- Without a fault, the next step goes on from what was left behind. -/
theorem andThen_of_none {r : Received δ σ} (fine : r.fault = none)
    (next : Endpoint δ σ → Received δ σ) : r.andThen next = next r.endpoint := by
  simp only [andThen, fine]

/-- After a fault there is no next step. -/
theorem andThen_of_some {r : Received δ σ} {fault : FrameError} (failed : r.fault = some fault)
    (next : Endpoint δ σ → Received δ σ) : r.andThen next = r := by
  simp only [andThen, failed]

/-- It does not matter how steps are grouped: the first fault ends them all. -/
theorem andThen_assoc (r : Received δ σ) (first second : Endpoint δ σ → Received δ σ) :
    (r.andThen first).andThen second = r.andThen fun e => (first e).andThen second := by
  cases failed : r.fault with
  | none => rw [andThen_of_none failed, andThen_of_none failed]
  | some fault => rw [andThen_of_some failed, andThen_of_some failed, andThen_of_some failed]

end Received

namespace Endpoint

/-- Bytes that complete no frame are kept for the next call. -/
theorem process_of_hungry {h : Handler δ σ} {e : Endpoint δ σ} {input : Bytes} {a : Assembler}
    (taken : e.codec.assembler.next input = (a, .hungry)) :
    e.process h input = { endpoint := e.withAssembler a } := by
  rw [process.eq_def]
  split <;> simp_all

/-- A header that declares too much ends the call, and the rest of the input is not read. -/
theorem process_of_fault {h : Handler δ σ} {e : Endpoint δ σ} {input rest : Bytes} {a : Assembler}
    {fault : FrameError} (taken : e.codec.assembler.next input = (a, .fault fault rest)) :
    e.process h input = { endpoint := e.withAssembler a, fault := some fault } := by
  rw [process.eq_def]
  split <;> simp_all

/-- A completed frame is dispatched, and then the rest of the input is processed. -/
theorem process_of_frame {h : Handler δ σ} {e : Endpoint δ σ} {input rest : Bytes} {a : Assembler}
    {frame : Frame} (taken : e.codec.assembler.next input = (a, .frame frame rest)) :
    e.process h input =
      ((e.withAssembler a).dispatch h frame).andThen fun e => e.process h rest := by
  rw [process.eq_def]
  split
  · simp_all
  · simp_all
  · rename_i a' frame' rest' taken'
    rw [taken] at taken'
    simp only [Prod.mk.injEq, Assembler.Next.frame.injEq] at taken'
    obtain ⟨rfl, rfl, rfl⟩ := taken'
    generalize (e.withAssembler a).dispatch h frame = handled
    split
    · rfl
    · rename_i faulty
      cases failed : handled.fault with
      | none => exact absurd (by cases handled; simp_all) (faulty handled.endpoint)
      | some fault => rw [Received.andThen_of_some failed]

/-- Processing a byte string is processing its front and then its back. -/
theorem process_append (h : Handler δ σ) (e : Endpoint δ σ) (input more : Bytes) :
    e.process h (input ++ more) = (e.process h input).andThen fun e => e.process h more := by
  induction e, input using process.induct h with
  | case1 e input a taken =>
    have joined := Assembler.next_append e.codec.assembler input more
    rw [taken, Assembler.resume] at joined
    rw [process_of_hungry taken, Received.andThen_of_none rfl]
    cases again : a.next more with
    | mk a' found =>
      rw [again] at joined
      cases found with
      | hungry => rw [process_of_hungry joined, process_of_hungry again]; rfl
      | fault fault rest => rw [process_of_fault joined, process_of_fault again]; rfl
      | frame frame rest => rw [process_of_frame joined, process_of_frame again]; rfl
  | case2 e input a fault rest taken =>
    have joined := Assembler.next_append e.codec.assembler input more
    rw [taken, Assembler.resume] at joined
    rw [process_of_fault joined, process_of_fault taken, Received.andThen_of_some rfl]
  | case3 e input a frame rest taken endpoint handled ih =>
    have joined := Assembler.next_append e.codec.assembler input more
    rw [taken, Assembler.resume] at joined
    rw [process_of_frame joined, process_of_frame taken, Received.andThen_assoc, handled]
    exact ih
  | case4 e input a frame rest taken faulty =>
    have joined := Assembler.next_append e.codec.assembler input more
    rw [taken, Assembler.resume] at joined
    rw [process_of_frame joined, process_of_frame taken, Received.andThen_assoc]
    cases failed : ((e.withAssembler a).dispatch h frame).fault with
    | none =>
      exact absurd (by rw [← failed]) (faulty ((e.withAssembler a).dispatch h frame).endpoint)
    | some fault => rw [Received.andThen_of_some failed, Received.andThen_of_some failed]

end Endpoint

/-! ## Between calls -/

/-- What holds of the receiving side of a codec between calls. -/
structure Codec.Framed (c : Codec δ) : Prop where
  settled : c.assembler.Settled
  limit : c.assembler.limit = c.maxFrameSize
  positive : 1 ≤ c.maxFrameSize
  small : c.maxFrameSize ≤ maxFrameLength

namespace Codec

/-- A fresh codec is between frames, with the limit brought into range. -/
theorem framed_create (role : Role) (maxFrameSize : Nat) :
    (create role maxFrameSize : Codec δ).Framed where
  settled := rfl
  limit := rfl
  positive := Nat.le_max_left 1 _
  small := Nat.max_le.mpr ⟨by decide, Nat.min_le_right _ _⟩

/-- What leaves role, limit and assembler alone keeps the receiving side framed. -/
theorem Framed.of_sameFraming {c c' : Codec δ} (framed : c.Framed) (same : SameFraming c c') :
    c'.Framed where
  settled := same.assembler ▸ framed.settled
  limit := by rw [same.assembler, same.maxFrameSize, framed.limit]
  positive := same.maxFrameSize ▸ framed.positive
  small := same.maxFrameSize ▸ framed.small

end Codec

namespace Endpoint

/-- The assembler may be exchanged for a settled one with the same limit. -/
theorem framed_withAssembler {e : Endpoint δ σ} (framed : e.codec.Framed) {a : Assembler}
    (settled : a.Settled) (limit : a.limit = e.codec.assembler.limit) :
    (e.withAssembler a).codec.Framed where
  settled := settled
  limit := limit.trans framed.limit
  positive := framed.positive
  small := framed.small

/-- The dispatch of a frame, callbacks included, keeps the receiving side framed. -/
theorem framed_dispatch {e : Endpoint δ σ} (framed : e.codec.Framed) (h : Handler δ σ)
    (frame : Frame) : (e.dispatch h frame).endpoint.codec.Framed :=
  framed.of_sameFraming (sameFraming_dispatch h e frame)

/-- Processing any bytes, with any outcome, leaves the receiving side ready for the next call. -/
theorem framed_process (h : Handler δ σ) (e : Endpoint δ σ) (input : Bytes)
    (framed : e.codec.Framed) : (e.process h input).endpoint.codec.Framed := by
  induction e, input using process.induct h with
  | case1 e input a taken =>
    have settled := Assembler.settled_next framed.settled input
    rw [taken] at settled
    rw [process_of_hungry taken]
    exact framed_withAssembler framed settled.1 settled.2
  | case2 e input a fault rest taken =>
    have settled := Assembler.settled_next framed.settled input
    rw [taken] at settled
    rw [process_of_fault taken]
    exact framed_withAssembler framed settled.1 settled.2
  | case3 e input a frame rest taken endpoint handled ih =>
    have settled := Assembler.settled_next framed.settled input
    rw [taken] at settled
    rw [process_of_frame taken, handled]
    apply ih
    have dispatched :=
      framed_dispatch (framed_withAssembler framed settled.1 settled.2) h frame
    rwa [handled] at dispatched
  | case4 e input a frame rest taken faulty =>
    have settled := Assembler.settled_next framed.settled input
    rw [taken] at settled
    rw [process_of_frame taken]
    cases failed : ((e.withAssembler a).dispatch h frame).fault with
    | none =>
      exact absurd (by rw [← failed]) (faulty ((e.withAssembler a).dispatch h frame).endpoint)
    | some fault =>
      rw [Received.andThen_of_some failed]
      exact framed_dispatch (framed_withAssembler framed settled.1 settled.2) h frame

/-! ## Chunks -/

/-- Feeds chunks one after the other, up to the first framing fault. -/
def processAll (h : Handler δ σ) (e : Endpoint δ σ) : List Bytes → Received δ σ
  | [] => { endpoint := e }
  | chunk :: chunks => (e.process h chunk).andThen fun e => processAll h e chunks

/-- Between frames, processing nothing does nothing. -/
theorem process_nil {e : Endpoint δ σ} (framed : e.codec.Framed) (h : Handler δ σ) :
    e.process h [] = { endpoint := e } :=
  process_of_hungry (Assembler.next_nil framed.settled)

/-- Chunks are processed as the byte string that they make up. -/
theorem processAll_eq (h : Handler δ σ) {e : Endpoint δ σ} (framed : e.codec.Framed)
    (chunks : List Bytes) : e.processAll h chunks = e.process h chunks.flatten := by
  induction chunks generalizing e with
  | nil => exact (process_nil framed h).symm
  | cons chunk chunks ih =>
    rw [List.flatten_cons, process_append, processAll]
    cases failed : (e.process h chunk).fault with
    | none =>
      rw [Received.andThen_of_none failed, Received.andThen_of_none failed]
      exact ih (framed_process h e chunk framed)
    | some fault => rw [Received.andThen_of_some failed, Received.andThen_of_some failed]

/-! ## Byte streams that spell frames -/

/-- The endpoint at the moment its assembler has completed a frame. -/
def completing (e : Endpoint δ σ) (f : Frame) : Endpoint δ σ :=
  e.withAssembler (e.codec.assembler.emptied f)

/-- At the moment a frame is complete, the receiving side is framed. -/
theorem framed_completing {e : Endpoint δ σ} (framed : e.codec.Framed) (f : Frame) :
    (e.completing f).codec.Framed :=
  framed_withAssembler framed (Assembler.settled_emptied _ f) rfl

/-- Dispatches frames one after the other as an assembler completes them, up to the first framing
fault. -/
def dispatchAll (h : Handler δ σ) (e : Endpoint δ σ) : List Frame → Received δ σ
  | [] => { endpoint := e }
  | f :: rest => ((e.completing f).dispatch h f).andThen fun e => dispatchAll h e rest

/-- Bytes that spell frames are processed as these frames. -/
theorem process_eq_dispatchAll (h : Handler δ σ) {e : Endpoint δ σ} {frames : List Frame}
    {input : Bytes} (framed : e.codec.Framed)
    (fits : ∀ f ∈ frames, f.length ≤ e.codec.maxFrameSize)
    (spelled : e.codec.assembler.progress.buffer ++ input = frames.flatMap Frame.toBytes) :
    e.process h input = e.dispatchAll h frames := by
  induction frames generalizing e input with
  | nil =>
    simp only [List.flatMap_nil, List.append_eq_nil_iff] at spelled
    rw [spelled.2, process_nil framed h, dispatchAll]
  | cons f rest ih =>
    have fitsLimit : f.length ≤ e.codec.assembler.limit := by
      rw [framed.limit]
      exact fits f List.mem_cons_self
    have small : e.codec.assembler.limit ≤ maxFrameLength := by
      rw [framed.limit]
      exact framed.small
    rw [List.flatMap_cons] at spelled
    rw [process_of_frame (Assembler.next_frame framed.settled fitsLimit small spelled), dispatchAll,
      ← completing]
    have same := sameFraming_dispatch h (e.completing f) f
    cases failed : ((e.completing f).dispatch h f).fault with
    | some fault => rw [Received.andThen_of_some failed, Received.andThen_of_some failed]
    | none =>
      rw [Received.andThen_of_none failed, Received.andThen_of_none failed]
      apply ih (framed_dispatch (framed_completing framed f) h f)
      · intro f' later
        rw [same.maxFrameSize]
        exact fits f' (List.mem_cons_of_mem f later)
      · rw [same.assembler]
        rfl

/-- Bytes that spell frames cause no fault only if all these frames fit. -/
theorem fits_of_fine (h : Handler δ σ) {e : Endpoint δ σ} {frames : List Frame} {input : Bytes}
    (framed : e.codec.Framed) (wire : ∀ f ∈ frames, f.length ≤ maxFrameLength)
    (spelled : e.codec.assembler.progress.buffer ++ input = frames.flatMap Frame.toBytes)
    (fine : (e.process h input).fault = none) : ∀ f ∈ frames, f.length ≤ e.codec.maxFrameSize := by
  induction frames generalizing e input with
  | nil => simp
  | cons f rest ih =>
    rw [List.flatMap_cons] at spelled
    have small : e.codec.assembler.limit ≤ maxFrameLength := by
      rw [framed.limit]
      exact framed.small
    by_cases fits : f.length ≤ e.codec.assembler.limit
    · have taken := Assembler.next_frame framed.settled fits small spelled
      rw [process_of_frame taken, ← completing] at fine
      have same := sameFraming_dispatch h (e.completing f) f
      cases failed : ((e.completing f).dispatch h f).fault with
      | some fault =>
        rw [Received.andThen_of_some failed, failed] at fine
        cases fine
      | none =>
        rw [Received.andThen_of_none failed] at fine
        have later := ih (framed_dispatch (framed_completing framed f) h f)
          (fun g member => wire g (List.mem_cons_of_mem f member))
          (by rw [same.assembler]; rfl) fine
        rw [same.maxFrameSize] at later
        intro g member
        rcases List.mem_cons.mp member with rfl | member
        · rwa [← framed.limit]
        · exact later g member
    · obtain ⟨a, fault, left, refused⟩ := Assembler.next_refused framed.settled
        (Nat.lt_of_not_le fits) (wire f List.mem_cons_self) spelled
      rw [process_of_fault refused] at fine
      cases fine

/-- To dispatch frames is to dispatch some of them and then, unless one was a fault, the others. -/
theorem dispatchAll_append (h : Handler δ σ) (e : Endpoint δ σ) (front back : List Frame) :
    e.dispatchAll h (front ++ back) =
      (e.dispatchAll h front).andThen fun e => e.dispatchAll h back := by
  induction front generalizing e with
  | nil => rfl
  | cons f front ih =>
    rw [List.cons_append, dispatchAll, dispatchAll, Received.andThen_assoc]
    simp only [ih]

/-- Dispatching stops at the first frame that is a fault. -/
theorem exists_of_fault {h : Handler δ σ} {e : Endpoint δ σ} {frames : List Frame}
    {fault : FrameError} (failed : (e.dispatchAll h frames).fault = some fault) :
    ∃ front f back, frames = front ++ f :: back ∧ (e.dispatchAll h front).fault = none ∧
      (((e.dispatchAll h front).endpoint.completing f).dispatch h f).fault = some fault := by
  induction frames generalizing e with
  | nil => cases failed
  | cons f frames ih =>
    rw [dispatchAll] at failed
    cases first : ((e.completing f).dispatch h f).fault with
    | some fault' =>
      rw [Received.andThen_of_some first] at failed
      exact ⟨[], f, frames, rfl, rfl, failed⟩
    | none =>
      rw [Received.andThen_of_none first] at failed
      obtain ⟨front, g, back, rfl, fine, here⟩ := ih failed
      refine ⟨f :: front, g, back, rfl, ?_⟩
      rw [dispatchAll, Received.andThen_of_none first]
      exact ⟨fine, here⟩

/-- Bytes that spell a part of some frames dispatch the frames that they complete, and all bytes of
the next frame are held. -/
theorem process_spelled (h : Handler δ σ) {e : Endpoint δ σ} {frames : List Frame}
    {input more : Bytes} (framed : e.codec.Framed)
    (fits : ∀ f ∈ frames, f.length ≤ e.codec.maxFrameSize)
    (spelled : e.codec.assembler.progress.buffer ++ input ++ more = frames.flatMap Frame.toBytes) :
    ∃ front back a, frames = front ++ back ∧
      a.progress.buffer ++ more = back.flatMap Frame.toBytes ∧
      e.process h input = (e.dispatchAll h front).andThen fun e =>
        { endpoint := e.withAssembler a } := by
  induction frames generalizing e input with
  | nil =>
    simp only [List.flatMap_nil, List.append_eq_nil_iff] at spelled
    obtain ⟨⟨held, rfl⟩, rfl⟩ := spelled
    rw [process_nil framed h]
    exact ⟨[], [], e.codec.assembler, rfl, by simp [held], rfl⟩
  | cons f rest ih =>
    have fitsLimit : f.length ≤ e.codec.assembler.limit := by
      rw [framed.limit]
      exact fits f List.mem_cons_self
    have small : e.codec.assembler.limit ≤ maxFrameLength := by
      rw [framed.limit]
      exact framed.small
    rw [List.flatMap_cons] at spelled
    by_cases short : (e.codec.assembler.progress.buffer ++ input).length < f.toBytes.length
    · obtain ⟨a, taken, -, -, held⟩ :=
        Assembler.next_hungry framed.settled fitsLimit small spelled short
      rw [process_of_hungry taken]
      exact ⟨[], f :: rest, a, rfl, by rw [held, spelled, List.flatMap_cons], rfl⟩
    · obtain ⟨tail, joined⟩ := List.prefix_of_prefix_length_le
        (List.prefix_append f.toBytes (rest.flatMap Frame.toBytes))
        (spelled ▸ List.prefix_append _ more) (Nat.le_of_not_lt short)
      have behind : tail ++ more = rest.flatMap Frame.toBytes := by
        rw [← joined, List.append_assoc] at spelled
        exact List.append_cancel_left spelled
      have taken := Assembler.next_frame framed.settled fitsLimit small joined.symm
      rw [process_of_frame taken, ← completing]
      have same := sameFraming_dispatch h (e.completing f) f
      cases failed : ((e.completing f).dispatch h f).fault with
      | some fault =>
        refine ⟨[f], rest, { limit := 0, progress := { buffer := tail } }, rfl, behind, ?_⟩
        simp only [dispatchAll, Received.andThen_assoc]
        rw [Received.andThen_of_some failed, Received.andThen_of_some failed]
      | none =>
        have fitsRest (f') (later : f' ∈ rest) :
            f'.length ≤ ((e.completing f).dispatch h f).endpoint.codec.maxFrameSize := by
          rw [same.maxFrameSize]
          exact fits f' (List.mem_cons_of_mem f later)
        have spelledRest :
            ((e.completing f).dispatch h f).endpoint.codec.assembler.progress.buffer ++ tail ++
              more = rest.flatMap Frame.toBytes := by
          rw [same.assembler]
          exact behind
        obtain ⟨front, back, a, split, held, processed⟩ :=
          ih (framed_dispatch (framed_completing framed f) h f) fitsRest spelledRest
        refine ⟨f :: front, back, a, by rw [split, List.cons_append], held, ?_⟩
        simp only [dispatchAll]
        rw [Received.andThen_of_none failed, Received.andThen_of_none failed]
        exact processed

section Keeping

/-! `P` is an invariant of an endpoint and the frames that are still to come. Handling a frame may rely
on `Q`, which the application's state at the end satisfies, as long as it then also satisfied it
before. -/

variable {P : Endpoint δ σ → List Frame → Prop} {Q : σ → Prop} {e : Endpoint δ σ}
  {frames front back : List Frame} {input more : Bytes}

/-- A property of the application that can be traced back over one frame can be traced back over many. -/
theorem asks_dispatchAll {h : Handler δ σ}
    (earlier : ∀ (e : Endpoint δ σ) f, Q (e.dispatch h f).endpoint.app → Q e.app)
    (asks : Q (e.dispatchAll h front).endpoint.app) : Q e.app := by
  induction front generalizing e with
  | nil => exact asks
  | cons f front ih =>
    apply earlier (e.completing f) f
    rw [dispatchAll] at asks
    cases failed : ((e.completing f).dispatch h f).fault with
    | some fault => rwa [Received.andThen_of_some failed] at asks
    | none =>
      rw [Received.andThen_of_none failed] at asks
      exact ih asks

/-- What a frame keeps while the application has a property, many frames keep, as long as it has it in the
end. -/
theorem dispatchAll_keeps (h : Handler δ σ)
    (handles : ∀ e f rest, P e (f :: rest) → Q (e.dispatch h f).endpoint.app →
      (e.dispatch h f).fault = none ∧ P (e.dispatch h f).endpoint rest)
    (blind : ∀ e a rest, P e rest → P (e.withAssembler a) rest)
    (earlier : ∀ (e : Endpoint δ σ) f, Q (e.dispatch h f).endpoint.app → Q e.app)
    (holds : P e (front ++ back)) (asks : Q (e.dispatchAll h front).endpoint.app) :
    (e.dispatchAll h front).fault = none ∧ P (e.dispatchAll h front).endpoint back := by
  induction front generalizing e with
  | nil => exact ⟨rfl, holds⟩
  | cons f front ih =>
    have handled := handles (e.completing f) f (front ++ back) (blind e _ _ holds)
    rw [dispatchAll] at asks ⊢
    cases failed : ((e.completing f).dispatch h f).fault with
    | some fault =>
      rw [Received.andThen_of_some failed] at asks
      rw [(handled asks).1] at failed
      cases failed
    | none =>
      rw [Received.andThen_of_none failed] at asks ⊢
      exact ih (handled (asks_dispatchAll earlier asks)).2 asks

/-- What handling one frame of a stream keeps, processing any part of its bytes keeps: no fault
occurs, and the bytes held spell the frames that are left together with those still to come. -/
theorem process_frames (h : Handler δ σ)
    (handles : ∀ e f rest, P e (f :: rest) → Q (e.dispatch h f).endpoint.app →
      (e.dispatch h f).fault = none ∧ P (e.dispatch h f).endpoint rest)
    (blind : ∀ e a rest, P e rest → P (e.withAssembler a) rest)
    (earlier : ∀ (e : Endpoint δ σ) f, Q (e.dispatch h f).endpoint.app → Q e.app)
    (framed : e.codec.Framed) (holds : P e frames)
    (fits : ∀ f ∈ frames, f.length ≤ e.codec.maxFrameSize)
    (spelled : e.codec.assembler.progress.buffer ++ input ++ more = frames.flatMap Frame.toBytes)
    (asks : Q (e.process h input).endpoint.app) :
    (e.process h input).fault = none ∧
      ∃ rest, rest <:+ frames ∧ P (e.process h input).endpoint rest ∧
        (e.process h input).endpoint.codec.assembler.progress.buffer ++ more =
          rest.flatMap Frame.toBytes := by
  obtain ⟨front, back, a, rfl, held, processed⟩ := process_spelled h framed fits spelled
  have asked : Q (e.dispatchAll h front).endpoint.app := by
    rw [processed] at asks
    cases failed : (e.dispatchAll h front).fault with
    | some fault => rwa [Received.andThen_of_some failed] at asks
    | none => rwa [Received.andThen_of_none failed] at asks
  obtain ⟨fine, kept⟩ := dispatchAll_keeps h handles blind earlier holds asked
  rw [processed, Received.andThen_of_none fine]
  exact ⟨rfl, back, List.suffix_append front back, blind _ a _ kept, held⟩

end Keeping

end Endpoint

end Http2
