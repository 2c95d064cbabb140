import Http2.Proofs.Codec.History
import Http2.Proofs.Frame.Padding

/-!
# What ends a connection, and what only a stream

`Fatal` says which frames are framing faults where they arrive, and `Offends` which frames break the
rules of a stream. `dispatch_fault_iff` says that the first are all the faults; they leave no trace but
an idle stream. The second close their stream and are reported (`told_of_offends`), and nothing else is
reported as an error (`offends_of_told`). `framing_faults_are_exact` follows the frames of a byte string
up to the fault.
-/

namespace Http2

variable {δ σ : Type}

/-- Frames of these kinds must name a stream. -/
def FrameKind.namesStream : FrameKind → Bool
  | data | headers | priority | rstStream | pushPromise | continuation => true
  | _ => false

/-- On stream 0, exactly the frames are ignored that need not name a stream. -/
theorem Endpoint.isIgnored_of_zero {f : Frame} (zero : f.stream = 0) :
    isIgnored f = !f.kind.namesStream := by
  simp only [isIgnored, zero]
  cases f.kind <;> rfl

namespace Codec

variable {c c' : Codec δ} {f : Frame} {callback : Option Callback} {fault : FrameError}

/-! ## Faulty frames -/

/-- Why a frame is a framing fault. None is while a header block is open. -/
inductive Fatal (c : Codec δ) (f : Frame) : FrameError → Prop
  | streamZero (closed : c.openBlock? = none) (zero : f.stream = 0)
      (kind : f.kind.namesStream = true) : Fatal c f (.streamZero f.kind)
  /-- The table accepts the frame, but its padding does not fit its payload. -/
  | padding {next : StreamState} (closed : c.openBlock? = none) (stream : f.stream ≠ 0)
      (kind : f.kind.isPaddable = true) (accepted : c.verdict f = .accept next)
      (misfit : ¬∃ content, f.Carries content) : Fatal c f (.invalidPadding f.kind)
  /-- The table accepts the frame, but what the padding leaves is no room for its priority data. -/
  | priority {next : StreamState} {content : Bytes} (closed : c.openBlock? = none)
      (stream : f.stream ≠ 0) (weighted : f.isWeighted = true)
      (accepted : c.verdict f = .accept next) (carries : f.Carries content)
      (short : content.length < Frame.prioritySize) : Fatal c f (.invalidPriority f.kind)

/-- No framing fault is found while a header block is open. -/
theorem Fatal.closed (fatal : c.Fatal f fault) : c.openBlock? = none := by
  cases fatal <;> assumption

/-- An outcome with a fault has a reason for it. -/
theorem Outcome.fatal (outcome : Outcome c f c' callback (some fault)) : c.Fatal f fault := by
  cases outcome with
  | streamZero closed heeded zero =>
    rw [Endpoint.isIgnored_of_zero zero, Bool.not_eq_false'] at heeded
    exact .streamZero closed zero heeded
  | malformed judged accepted wrong =>
    rcases wrong with ⟨opens, malformed⟩ | ⟨kind, malformed⟩
    · have paddable : f.kind.isPaddable = true := by
        rcases opens with kind | kind <;> rw [kind] <;> rfl
      rcases Frame.fragment_eq_error_iff.mp malformed with
        ⟨rfl, misfit⟩ | ⟨rfl, weighted, content, carries, short⟩
      · exact .padding judged.closed judged.stream paddable accepted misfit
      · exact .priority judged.closed judged.stream weighted accepted carries short
    · obtain ⟨rfl, misfit⟩ := Frame.unpadded_eq_error_iff.mp malformed
      exact .padding judged.closed judged.stream (by rw [kind]; rfl) accepted misfit

/-- The codec after a frame that was a framing fault. -/
def halted (c : Codec δ) (f : Frame) : Codec δ :=
  if f.stream = 0 then c.noted f else (c.noted f).putStream (c.streams.inbound f.stream)

/-- Paddable frames of a stream are judged if no header block is open. -/
theorem judges_of_paddable (closed : c.openBlock? = none) (stream : f.stream ≠ 0)
    (kind : f.kind.isPaddable = true) : c.Judges f := by
  have tabled : Endpoint.Tabled f := by
    refine ⟨?_, stream⟩
    cases known : f.kind <;> simp [known, FrameKind.isPaddable] at kind ⊢
  exact tabled.judged (e := ⟨c, ()⟩) closed

/-- A reason for a fault leads to the outcome. -/
theorem Fatal.outcome (fatal : c.Fatal f fault) : Outcome c f (c.halted f) none (some fault) := by
  unfold halted
  cases fatal with
  | streamZero closed zero kind =>
    rw [if_pos zero]
    exact .streamZero closed (by rw [Endpoint.isIgnored_of_zero zero, kind]; rfl) zero
  | padding closed stream kind accepted misfit =>
    rw [if_neg stream]
    refine .malformed (judges_of_paddable closed stream kind) accepted ?_
    by_cases data : f.kind = .data
    · exact .inr ⟨data, Frame.unpadded_eq_error_iff.mpr ⟨rfl, misfit⟩⟩
    · refine .inl ⟨?_, Frame.fragment_eq_error_iff.mpr (.inl ⟨rfl, misfit⟩)⟩
      cases known : f.kind <;> simp [known, FrameKind.isPaddable] at kind data ⊢
  | priority closed stream weighted accepted carries short =>
    have kind : f.kind = .headers := by
      rw [Frame.isWeighted, Bool.and_eq_true, decide_eq_true_eq] at weighted
      exact weighted.1
    rw [if_neg stream]
    exact .malformed (judges_of_paddable closed stream (by rw [kind]; rfl)) accepted
      (.inl ⟨.inl kind, Frame.fragment_eq_error_iff.mpr
        (.inr ⟨rfl, weighted, _, carries, short⟩)⟩)

/-- A faulty frame changes no stream that is there, and adds at most an idle one. -/
theorem stream?_halted (c : Codec δ) (f : Frame) (id : UInt32) :
    (c.halted f).stream? id = c.stream? id ∨
      c.stream? id = none ∧ f.stream = id ∧ f.stream ≠ 0 ∧
        (c.halted f).stream? id = some { id, origin := .inbound } := by
  unfold halted
  by_cases zero : f.stream = 0
  · rw [if_pos zero]
    exact .inl rfl
  · rw [if_neg zero]
    by_cases here : f.stream = id
    · subst here
      have stored : ((c.noted f).putStream (c.streams.inbound f.stream)).stream? f.stream =
          some (c.streams.inbound f.stream) :=
        Registry.get?_put_of_id _ (Registry.id_inbound _ _)
      cases found : c.streams.get? f.stream with
      | some s =>
        rw [Registry.inbound_of_get? found] at stored ⊢
        exact .inl (stored.trans found.symm)
      | none =>
        rw [Registry.inbound, found] at stored ⊢
        exact .inr ⟨found, rfl, zero, stored⟩
    · exact .inl (Registry.get?_put_of_ne _ (by rwa [Registry.id_inbound]))

end Codec

namespace Endpoint

open Codec (Outcome Astray Fatal)

variable {h : Handler δ σ} {e : Endpoint δ σ} {f : Frame} {fault : FrameError}

/-- A faulty frame is returned as a fault, and the application does not hear of it. -/
theorem dispatch_of_fatal (h : Handler δ σ) (fatal : e.codec.Fatal f fault) :
    e.dispatch h f = { endpoint := { e with codec := e.codec.halted f }, fault := some fault } := by
  refine dispatch_of_outcome fatal.outcome fun ⟨_, _, owner, opened, _⟩ => ?_
  rw [fatal.closed] at opened
  cases opened

/-- The faults of a frame are the reasons that there are for one. -/
theorem dispatch_fault_iff (consistent : e.codec.Consistent) (h : Handler δ σ) :
    (e.dispatch h f).fault = some fault ↔ e.codec.Fatal f fault := by
  constructor
  · intro failed
    obtain ⟨c, callback, fault', outcome⟩ := consistent.exists_outcome f
    by_cases astray : Astray e.codec f
    · rw [dispatch_of_astray outcome astray] at failed
      cases failed
    · rw [dispatch_of_outcome outcome astray] at failed
      subst failed
      exact outcome.fatal
  · intro fatal
    rw [dispatch_of_fatal h fatal]

end Endpoint

/-! ## Frames that offend a stream -/

namespace Codec

variable {c : Codec δ} {f : Frame} {id : UInt32} {fault : StreamError}

/-- Why a frame closes a stream. -/
inductive Offends (c : Codec δ) (f : Frame) : UInt32 → StreamError → Prop
  /-- The receive table rejects the frame. -/
  | rejected {fault : StreamError} (judged : c.Judges f) (rejected : c.verdict f = .reject fault) :
      Offends c f f.stream fault
  /-- The frame opens a header block that is too large already. -/
  | swollen {next : StreamState} {fragment : Bytes} (judged : c.Judges f)
      (accepted : c.verdict f = .accept next) (opens : f.kind = .headers ∨ f.kind = .pushPromise)
      (wellFormed : f.fragment = .ok fragment) (large : maxHeaderBlockSize < f.length) :
      Offends c f f.stream .protocolError
  /-- The frame makes the open header block too large. -/
  | swelling (opened : c.openBlock? = some f.stream) (kind : f.kind = .continuation)
      (stream : f.stream ≠ 0)
      (large : maxHeaderBlockSize <
        Frame.payloadSize ((c.streams.inbound f.stream).fragments ++ [f])) :
      Offends c f f.stream .protocolError
  /-- The frame continues a header block, and none is open. -/
  | stray (closed : c.openBlock? = none) (kind : f.kind = .continuation) (stream : f.stream ≠ 0) :
      Offends c f f.stream .protocolError
  /-- The frame comes in the middle of a header block. -/
  | interrupting {owner : UInt32} (opened : c.openBlock? = some owner)
      (other : ¬(f.kind = .continuation ∧ f.stream = owner)) : Offends c f owner .protocolError
  /-- The frame continues another header block than the open one. -/
  | astray (astray : c.Astray f) : Offends c f f.stream .protocolError

/-- The report of an outcome about a stream that was closed. -/
theorem Outcome.offends {c' : Codec δ}
    (outcome : Outcome c f c' (some (.error id fault)) none) : c.Offends f id fault := by
  generalize reported : some (Callback.error id fault) = callback at outcome
  cases outcome with
  | rejected judged rejected =>
    cases reported
    exact .rejected judged rejected
  | opening judged accepted opens wellFormed collects =>
    cases collects with
    | overflowed large =>
      cases reported
      rw [Stream.id_opening, Registry.id_inbound]
      exact .swollen judged accepted opens wellFormed large
    | _ => cases reported
  | continuing opened kind stream collects =>
    cases collects with
    | overflowed large =>
      cases reported
      rw [Stream.id_continuing, Registry.id_inbound]
      exact .swelling opened kind stream large
    | _ => cases reported
  | stray closed kind stream =>
    cases reported
    exact .stray closed kind stream
  | interrupting opened other =>
    cases reported
    exact .interrupting opened other
  | _ => cases reported

/-- A frame that offends a stream has the outcome that closes it, or went astray. -/
theorem Offends.outcome (offends : c.Offends f id fault) :
    Outcome c f ((c.noted f).failed id) (some (.error id fault)) none ∨
      c.Astray f ∧ id = f.stream ∧ fault = .protocolError := by
  cases offends with
  | rejected judged rejected => exact .inl (.rejected judged rejected)
  | swollen judged accepted opens wellFormed large =>
    have overflowed := Outcome.opening judged accepted opens wellFormed (.overflowed large)
    rw [Stream.id_opening, Registry.id_inbound] at overflowed
    exact .inl overflowed
  | swelling opened kind stream large =>
    have overflowed := Outcome.continuing opened kind stream (.overflowed large)
    rw [Stream.id_continuing, Registry.id_inbound] at overflowed
    exact .inl overflowed
  | stray closed kind stream => exact .inl (.stray closed kind stream)
  | interrupting opened other => exact .inl (.interrupting opened other)
  | astray astray => exact .inr ⟨astray, rfl, rfl⟩

end Codec

namespace Endpoint

open Codec (Outcome Astray Offends)

variable {h : Handler δ σ} {e : Endpoint δ σ} {f : Frame} {arrival c : Codec δ} {id : UInt32}
  {callback : Option Callback} {report : Callback} {fault : StreamError}

/-- A frame that has an outcome makes a moment of its arrival, and those of its one report. -/
theorem watch_of_outcome {fault : Option FrameError} (h : Handler δ σ)
    (outcome : Outcome e.codec f c callback fault) (home : ¬Astray e.codec f) :
    e.watch h f = ⟨e.codec, .received f⟩ :: told h e.codec f ⟨c, e.app⟩ callback := by
  rw [watch, dispatch_watched_of_outcome outcome home]

/-- A frame that goes astray makes a moment of its arrival, those of its report, and those of a second
error. -/
theorem watch_of_astray {fault : Option FrameError} (h : Handler δ σ)
    (outcome : Outcome e.codec f c callback fault) (astray : Astray e.codec f) :
    ∃ answered : Endpoint δ σ, e.watch h f = ⟨e.codec, .received f⟩ ::
      (told h e.codec f ⟨c, e.app⟩ callback ++
        told h e.codec f ⟨answered.codec.failed f.stream, answered.app⟩
          (some (.error f.stream .protocolError))) := by
  refine ⟨(⟨c, e.app⟩ : Endpoint δ σ).answer h callback, ?_⟩
  rw [watch, dispatch_watched_of_astray outcome astray]

/-- The application is told once, whatever it does then. -/
theorem eq_of_mem_told (member : ⟨c, .called arrival f report⟩ ∈ told h arrival f e callback) :
    callback = some report := by
  cases callback with
  | none => cases member
  | some callback =>
    rcases List.mem_cons.mp member with same | member
    · cases same
      rfl
    · obtain ⟨op, reply, happened⟩ := Script.performed_of_mem member
      cases happened

/-- The application is told what the outcome of a frame reports. -/
theorem mem_watch_of_outcome {fault : Option FrameError} (h : Handler δ σ)
    (outcome : Outcome e.codec f c (some report) fault) :
    ⟨c, .called e.codec f report⟩ ∈ e.watch h f := by
  by_cases astray : Astray e.codec f
  · obtain ⟨answered, watched⟩ := watch_of_astray h outcome astray
    rw [watched]
    exact List.mem_cons_of_mem _ (List.mem_append_left _ List.mem_cons_self)
  · rw [watch_of_outcome h outcome astray]
    exact List.mem_cons_of_mem _ List.mem_cons_self

/-- What the outcome says about a fault holds of frames that went astray as well. -/
theorem fault_of_outcome (h : Handler δ σ) (outcome : Outcome e.codec f c callback none) :
    (e.dispatch h f).fault = none := by
  by_cases astray : Astray e.codec f
  · rw [dispatch_of_astray outcome astray]
  · rw [dispatch_of_outcome outcome astray]

/-- A frame that offends a stream is no fault; the stream is closed when the application is told. -/
theorem told_of_offends (consistent : e.codec.Consistent) (h : Handler δ σ)
    (offends : e.codec.Offends f id fault) :
    (e.dispatch h f).fault = none ∧ ∃ c : Codec δ,
      ⟨c.failed id, .called e.codec f (.error id fault)⟩ ∈ e.watch h f := by
  rcases offends.outcome with outcome | ⟨astray, rfl, rfl⟩
  · exact ⟨fault_of_outcome h outcome, e.codec.noted f, mem_watch_of_outcome h outcome⟩
  · obtain ⟨c, callback, fault, outcome⟩ := consistent.exists_outcome f
    obtain ⟨answered, watched⟩ := watch_of_astray h outcome astray
    refine ⟨by rw [dispatch_of_astray outcome astray], answered.codec, ?_⟩
    rw [watched]
    exact List.mem_cons_of_mem _ (List.mem_append_right _ List.mem_cons_self)

/-- No other frame is reported as an error of a stream. -/
theorem offends_of_told (consistent : e.codec.Consistent)
    (member : ⟨c, .called e.codec f (.error id fault)⟩ ∈ e.watch h f) :
    e.codec.Offends f id fault := by
  obtain ⟨c', callback, fault', outcome⟩ := consistent.exists_outcome f
  have reported (same : callback = some (.error id fault)) : e.codec.Offends f id fault := by
    subst same
    cases fault' with
    | none => exact outcome.offends
    | some fault' => cases outcome
  by_cases astray : Astray e.codec f
  · obtain ⟨answered, watched⟩ := watch_of_astray h outcome astray
    rw [watched] at member
    rcases List.mem_cons.mp member with same | member
    · cases same
    · rcases List.mem_append.mp member with member | member
      · exact reported (eq_of_mem_told member)
      · cases eq_of_mem_told member
        exact .astray astray
  · rw [watch_of_outcome h outcome astray] at member
    rcases List.mem_cons.mp member with same | member
    · cases same
    · exact reported (eq_of_mem_told member)

end Endpoint

/-! ## Received bytes -/

namespace Codec

variable {c : Codec δ} {f : Frame} {fault : FrameError}

/-- The bytes of a frame under assembly do not matter. -/
theorem Fatal.reassemble (fatal : c.Fatal f fault) (a : Assembler) :
    ({ c with assembler := a } : Codec δ).Fatal f fault := by
  cases fatal with
  | streamZero closed zero kind => exact .streamZero closed zero kind
  | padding closed stream kind accepted misfit => exact .padding closed stream kind accepted misfit
  | priority closed stream weighted accepted carries short =>
    exact .priority closed stream weighted accepted carries short

/-- What is at the front of a byte string is a fault: a header that declares too much, or a whole
frame. -/
inductive StopsAt (c : Codec δ) (bytes : Bytes) : Option Frame → FrameError → Prop
  | tooLarge (whole : frameHeaderSize ≤ bytes.length)
      (large : c.maxFrameSize < Frame.declaredLength bytes) :
      StopsAt c bytes none (.tooLarge (Frame.declaredLength bytes) c.maxFrameSize)
  | faulty {f : Frame} {rest : Bytes} {fault : FrameError} (spelled : bytes = f.toBytes ++ rest)
      (fits : f.length ≤ c.maxFrameSize) (fatal : c.Fatal f fault) : StopsAt c bytes (some f) fault

/-- The codec after a fault. -/
def stopped (c : Codec δ) : Option Frame → Codec δ
  | none => { c with assembler := { limit := c.assembler.limit } }
  | some f => ({ c with assembler := c.assembler.emptied f } : Codec δ).halted f

/-- Only the receiving side is changed. -/
theorem stopped_eq (c : Codec δ) (culprit : Option Frame) :
    c.stopped culprit = { c with
      assembler := (c.stopped culprit).assembler
      lastFrame := (c.stopped culprit).lastFrame
      streams := (c.stopped culprit).streams } := by
  cases culprit with
  | none => rfl
  | some f =>
    simp only [stopped, halted]
    split <;> rfl

/-- A fault leaves the streams as they are, apart from registering that of the frame at fault. -/
theorem stream?_stopped (c : Codec δ) (culprit : Option Frame) (id : UInt32) :
    (c.stopped culprit).stream? id = c.stream? id ∨
      c.stream? id = none ∧ (∃ f ∈ culprit, f.stream = id ∧ f.stream ≠ 0) ∧
        (c.stopped culprit).stream? id = some { id, origin := .inbound } := by
  cases culprit with
  | none => exact .inl rfl
  | some f =>
    rcases stream?_halted ({ c with assembler := c.assembler.emptied f } : Codec δ) f id with
      same | ⟨unknown, here, stream, added⟩
    · exact .inl same
    · exact .inr ⟨unknown, ⟨f, rfl, here, stream⟩, added⟩

end Codec

namespace Endpoint

variable {h : Handler δ σ} {e : Endpoint δ σ} {f : Frame} {fault : FrameError}
  {front : List Frame} {input rest : Bytes} {culprit : Option Frame}

/-- Frames that come one after the other fit, and none is a fault when its turn comes. -/
def Passes (h : Handler δ σ) (e : Endpoint δ σ) : List Frame → Prop
  | [] => True
  | f :: frames =>
    f.length ≤ e.codec.maxFrameSize ∧ (∀ fault, ¬e.codec.Fatal f fault) ∧
      Passes h ((e.completing f).dispatch h f).endpoint frames

/-- The dispatch of a frame keeps flags, fragments and last frame in agreement. -/
theorem consistent_dispatch (consistent : e.codec.Consistent) (h : Handler δ σ) (f : Frame) :
    (e.dispatch h f).endpoint.codec.Consistent :=
  (leads_watch consistent h f).consistent consistent

/-- A frame is a fault or not, whatever bytes are held beside it. -/
theorem completing_fault_iff (consistent : e.codec.Consistent) (h : Handler δ σ) :
    ((e.completing f).dispatch h f).fault = some fault ↔ e.codec.Fatal f fault := by
  rw [dispatch_fault_iff (e := e.completing f) (consistent.reassemble _) h]
  exact ⟨fun fatal => fatal.reassemble e.codec.assembler, fun fatal => fatal.reassemble _⟩

/-- A frame that is no framing fault is dispatched without one. -/
theorem fine_of_not_fatal (consistent : e.codec.Consistent) (h : Handler δ σ)
    (fine : ∀ fault, ¬e.codec.Fatal f fault) : ((e.completing f).dispatch h f).fault = none :=
  Option.eq_none_iff_forall_ne_some.mpr fun fault failed =>
    fine fault ((completing_fault_iff consistent h).mp failed)

/-- Frames that pass are dispatched, and the bytes behind them are left. -/
theorem process_of_passes (framed : e.codec.Framed) (consistent : e.codec.Consistent)
    (passes : e.Passes h front)
    (spelled : e.codec.assembler.progress.buffer ++ input = front.flatMap Frame.toBytes ++ rest) :
    (e.dispatchAll h front).fault = none ∧
      (e.dispatchAll h front).endpoint.codec.Framed ∧
      ∃ left, (e.dispatchAll h front).endpoint.codec.assembler.progress.buffer ++ left = rest ∧
        e.process h input = (e.dispatchAll h front).endpoint.process h left := by
  induction front generalizing e input with
  | nil => exact ⟨rfl, framed, input, spelled, rfl⟩
  | cons f front ih =>
    obtain ⟨fits, fine, later⟩ := passes
    rw [← framed.limit] at fits
    have small : e.codec.assembler.limit ≤ maxFrameLength := framed.limit ▸ framed.small
    rw [List.flatMap_cons, List.append_assoc] at spelled
    have taken := Assembler.next_frame framed.settled fits small spelled
    have done := fine_of_not_fatal consistent h fine
    have emptied : ((e.completing f).dispatch h f).endpoint.codec.assembler.progress.buffer ++
        (front.flatMap Frame.toBytes ++ rest) = front.flatMap Frame.toBytes ++ rest := by
      rw [(sameFraming_dispatch h (e.completing f) f).assembler]
      rfl
    rw [process_of_frame taken, ← completing, dispatchAll, Received.andThen_of_none done,
      Received.andThen_of_none done]
    exact ih (framed_dispatch (framed_completing framed f) h f)
      (consistent_dispatch (e := e.completing f) (consistent.reassemble _) h f) later emptied

/-- A fault ends the processing of bytes, and leaves nothing but an idle stream. -/
theorem process_of_stopsAt (framed : e.codec.Framed) (h : Handler δ σ)
    (stops : e.codec.StopsAt (e.codec.assembler.progress.buffer ++ input) culprit fault) :
    e.process h input =
      { endpoint := { e with codec := e.codec.stopped culprit }, fault := some fault } := by
  cases stops with
  | tooLarge whole large =>
    rw [← framed.limit] at large ⊢
    rw [process_of_fault (Assembler.next_tooLarge framed.settled whole large)]
    rfl
  | @faulty f rest _ spelled fits fatal =>
    rw [← framed.limit] at fits
    have small : e.codec.assembler.limit ≤ maxFrameLength := framed.limit ▸ framed.small
    have failed := dispatch_of_fatal (e := e.completing f) h (fatal.reassemble _)
    rw [process_of_frame (Assembler.next_frame framed.settled fits small spelled), ← completing,
      failed, Received.andThen_of_some rfl]
    rfl

/-- A fault has a place in the bytes: frames that pass, and what stops the processing behind them. -/
theorem stopsAt_of_process (framed : e.codec.Framed) (consistent : e.codec.Consistent)
    (failed : (e.process h input).fault = some fault) :
    ∃ front rest culprit,
      e.codec.assembler.progress.buffer ++ input = front.flatMap Frame.toBytes ++ rest ∧
        e.Passes h front ∧ (e.dispatchAll h front).endpoint.codec.StopsAt rest culprit fault := by
  induction e, input using process.induct h with
  | case1 e input a taken =>
    rw [process_of_hungry taken] at failed
    cases failed
  | case2 e input a refused left taken =>
    rw [process_of_fault taken] at failed
    cases failed
    obtain ⟨whole, large, rfl⟩ := Assembler.tooLarge_of_next framed.settled taken
    rw [framed.limit] at large ⊢
    exact ⟨[], _, none, rfl, trivial, .tooLarge whole large⟩
  | case3 e input a f left taken endpoint handled ih =>
    obtain ⟨spelled, fits, rfl⟩ := Assembler.spelled_of_next framed.settled taken
    rw [process_of_frame taken, handled] at failed
    rw [← completing] at handled
    have fine (fault : FrameError) : ¬e.codec.Fatal f fault := by
      rw [← completing_fault_iff consistent h, handled]
      intro faulted
      cases faulted
    have framedNext := framed_dispatch (framed_completing framed f) h f
    have consistentNext := consistent_dispatch (e := e.completing f) (consistent.reassemble _) h f
    have emptied := (sameFraming_dispatch h (e.completing f) f).assembler
    rw [handled] at framedNext consistentNext emptied
    obtain ⟨front, rest, culprit, behind, passes, stops⟩ := ih framedNext consistentNext failed
    rw [emptied] at behind
    refine ⟨f :: front, rest, culprit, ?_, ⟨framed.limit ▸ fits, fine, ?_⟩, ?_⟩
    · rw [spelled, List.flatMap_cons, List.append_assoc, ← behind]
      rfl
    · rwa [handled]
    · rwa [dispatchAll, handled, Received.andThen_of_none rfl]
  | case4 e input a f left taken faulty =>
    obtain ⟨spelled, fits, rfl⟩ := Assembler.spelled_of_next framed.settled taken
    rw [process_of_frame taken, ← completing] at failed
    rw [← completing] at faulty
    cases handled : ((e.completing f).dispatch h f).fault with
    | none => exact absurd (by rw [← handled]) (faulty ((e.completing f).dispatch h f).endpoint)
    | some fault' =>
      rw [Received.andThen_of_some handled, handled] at failed
      cases failed
      exact ⟨[], _, some f, rfl, trivial, .faulty spelled (framed.limit ▸ fits)
        ((completing_fault_iff consistent h).mp handled)⟩

end Endpoint

/-- Processing returns a fault exactly if the bytes held and received spell frames that pass, one after
the other, and then a header that declares too much or a faulty frame. The frames that pass are
dispatched. After them the application hears nothing, nothing is queued and no stream that is there
changes; a faulty frame may leave an idle stream behind. Whatever else is wrong with a frame closes a
stream and is reported; these frames, and no others, are reported as errors, and none is a fault. -/
theorem framing_faults_are_exact {c : Codec δ} (reachable : c.Reachable) (h : Handler δ σ) (app : σ)
    (input : Bytes) :
    let start : Endpoint δ σ := ⟨c, app⟩
    let held := c.assembler.progress.buffer ++ input
    (∀ fault, (start.process h input).fault = some fault ↔
      ∃ front rest culprit, held = front.flatMap Frame.toBytes ++ rest ∧ start.Passes h front ∧
        (start.dispatchAll h front).endpoint.codec.StopsAt rest culprit fault) ∧
      (∀ front rest culprit fault, held = front.flatMap Frame.toBytes ++ rest →
        start.Passes h front →
        let last := (start.dispatchAll h front).endpoint
        let after := (start.process h input).endpoint
        last.codec.StopsAt rest culprit fault →
          (start.dispatchAll h front).fault = none ∧ after.app = last.app ∧
          after.codec = { last.codec with
            assembler := after.codec.assembler
            lastFrame := after.codec.lastFrame
            streams := after.codec.streams } ∧
          ∀ id, after.codec.stream? id = last.codec.stream? id ∨
            last.codec.stream? id = none ∧ (∃ f ∈ culprit, f.stream = id ∧ f.stream ≠ 0) ∧
              after.codec.stream? id = some { id, origin := .inbound }) ∧
      ∀ f, (∀ fault, (start.dispatch h f).fault = some fault ↔ c.Fatal f fault) ∧
        ∀ id fault,
          (c.Offends f id fault → (start.dispatch h f).fault = none ∧
            ∃ c' : Codec δ, ⟨c'.failed id, .called c f (.error id fault)⟩ ∈ start.watch h f) ∧
          ∀ c', ⟨c', .called c f (.error id fault)⟩ ∈ start.watch h f → c.Offends f id fault := by
  intro start held
  have framed : start.codec.Framed := reachable.framed
  have consistent : start.codec.Consistent := reachable.consistent
  have stopped {front rest culprit fault} (spelled : held = front.flatMap Frame.toBytes ++ rest)
      (passes : start.Passes h front)
      (stops : (start.dispatchAll h front).endpoint.codec.StopsAt rest culprit fault) :
      (start.dispatchAll h front).fault = none ∧ start.process h input =
        { endpoint := { (start.dispatchAll h front).endpoint with
            codec := (start.dispatchAll h front).endpoint.codec.stopped culprit }
          fault := some fault } := by
    obtain ⟨fine, framedLast, left, rfl, processed⟩ :=
      Endpoint.process_of_passes framed consistent passes spelled
    exact ⟨fine, processed.trans (Endpoint.process_of_stopsAt framedLast h stops)⟩
  refine ⟨fun fault => ⟨Endpoint.stopsAt_of_process framed consistent, ?_⟩, ?_, fun f => ⟨?_, ?_⟩⟩
  · rintro ⟨front, rest, culprit, spelled, passes, stops⟩
    rw [(stopped spelled passes stops).2]
  · intro front rest culprit fault spelled passes last after stops
    obtain ⟨fine, processed⟩ := stopped spelled passes stops
    have left : after = { last with codec := last.codec.stopped culprit } :=
      congrArg Received.endpoint processed
    rw [left]
    exact ⟨fine, rfl, last.codec.stopped_eq culprit, last.codec.stream?_stopped culprit⟩
  · exact fun fault => Endpoint.dispatch_fault_iff consistent h
  · exact fun id fault => ⟨Endpoint.told_of_offends consistent h,
      fun c' member => Endpoint.offends_of_told consistent member⟩

/-- A request, and then a body with more padding than payload. -/
theorem framing_faults_are_exact_on_padding :
    let opening := Frame.ofParts .headers Flag.endHeaders 1 []
    let body := Frame.ofParts .data Flag.padded 1 [5, 97]
    let start : Endpoint Unit (List Callback) := ⟨.create .server 16384, []⟩
    let after := start.process .recorder (opening.toBytes ++ body.toBytes ++ opening.toBytes)
    after.fault = some (.invalidPadding .data) ∧ after.endpoint.app = [.headers 1 [] false] := by
  intro opening body start after
  let last := (start.dispatchAll .recorder [opening]).endpoint
  have reachable : start.codec.Reachable := .create .server 16384
  have passes : start.Passes .recorder [opening] := by
    refine ⟨by decide, fun fault => ?_, trivial⟩
    rw [← Endpoint.completing_fault_iff reachable.consistent .recorder]
    have fine : ((start.completing opening).dispatch .recorder opening).fault = none := by
      decide +kernel
    rw [fine]
    exact nofun
  have misfit : ¬∃ content, body.Carries content := by
    rintro ⟨content, carries⟩
    cases carries with
    | plain plain => exact absurd plain (by decide)
    | @padded pad _ padding _ payload size =>
      obtain ⟨rfl, behind⟩ := List.cons.inj (show 5 :: [97] = pad :: (content ++ padding) from payload)
      have count := congrArg List.length behind
      rw [List.length_append, size] at count
      have five : (5 : UInt8).toNat = 5 := rfl
      rw [five, List.length_singleton] at count
      omega
  have fatal : last.codec.Fatal body (.invalidPadding .data) :=
    .padding (by decide +kernel) (by decide) rfl
      (show last.codec.verdict body = .accept .opened by decide +kernel) misfit
  have stops : last.codec.StopsAt (body.toBytes ++ opening.toBytes) (some body)
      (.invalidPadding .data) := .faulty rfl (by decide +kernel) fatal
  obtain ⟨exact, effects, -⟩ := framing_faults_are_exact reachable .recorder []
    (opening.toBytes ++ body.toBytes ++ opening.toBytes)
  refine ⟨(exact _).mpr ⟨[opening], _, some body, rfl, passes, stops⟩, ?_⟩
  rw [(effects [opening] _ (some body) _ rfl passes stops).2.1]
  decide +kernel

end Http2
