import Http2.Proofs.Codec.Leads
import Http2.Proofs.Codec.Reachable

/-!
# Everything that happens at an endpoint

`Endpoint.history` lists the moments of a run, those inside callbacks included: `Handler.watched` behaves
as the handler under it and looks at the codec before everything that it does. `leads_history` says
that every history is one that `Leads` allows, so that its rule applies to all runs. The first thing it
gives is the invariant of header blocks.
-/

namespace Http2

variable {δ σ α : Type}

/-! ## Watching an endpoint -/

namespace Script

/-- The script that also looks at the codec before each operation, and extends a list by the moments
that it sees. -/
def watched : Script δ α → List (Moment δ) → Script δ (α × List (Moment δ))
  | done value, log => done (value, log)
  | call op next, log => call .inspect fun c => call op fun reply =>
      watched (next reply) (log ++ [⟨c, .performed op reply⟩])

/-- Watching a script finds its moments and changes nothing else. -/
theorem run_watched (s : Script δ α) (log : List (Moment δ)) (c : Codec δ) :
    (s.watched log).run c = (((s.run c).1, log ++ s.moments c), (s.run c).2) := by
  induction s generalizing log c with
  | done value => simp [watched, moments]
  | call op next ih =>
    have looked : c.perform .inspect = (c, c) := rfl
    simp [watched, moments, run_call, looked, ih]

end Script

/-- A watched answer to a callback about a frame. -/
def Handler.watching (h : Handler δ σ) (arrival : Codec δ) (f : Frame) (callback : Callback) :
    σ × List (Moment δ) → Script δ (σ × List (Moment δ))
  | (app, log) => .call .inspect fun c =>
    (h.on callback app).watched (log ++ [⟨c, .called arrival f callback⟩])

/-- The handler that keeps the moments of one frame beside the application's state. -/
def Handler.watched (h : Handler δ σ) (arrival : Codec δ) (f : Frame) :
    Handler δ (σ × List (Moment δ)) where
  onHeaders := fun state id fields last => h.watching arrival f (.headers id fields last) state
  onBody := fun state id data last => h.watching arrival f (.body id data last) state
  onError := fun state id fault => h.watching arrival f (.error id fault) state

/-- A watched handler answers every callback with the watched answer to it. -/
theorem Handler.on_watched (h : Handler δ σ) (arrival : Codec δ) (f : Frame) (callback : Callback) :
    (h.watched arrival f).on callback = h.watching arrival f callback := by
  cases callback <;> rfl

namespace Endpoint

/-- The moments of one received frame. -/
def watch (h : Handler δ σ) (e : Endpoint δ σ) (f : Frame) : List (Moment δ) :=
  ⟨e.codec, .received f⟩ ::
    (dispatch (h.watched e.codec f) ⟨e.codec, (e.app, [])⟩ f).endpoint.app.2

/-- The moments of received bytes, frame by frame as `process` dispatches them. -/
def moments (h : Handler δ σ) (e : Endpoint δ σ) (input : Bytes) : List (Moment δ) :=
  match _taken : e.codec.assembler.next input with
  | (assembler, .frame frame rest) =>
    match _handled : (e.withAssembler assembler).dispatch h frame with
    | { endpoint, fault := none } =>
      (e.withAssembler assembler).watch h frame ++ moments h endpoint rest
    | _ => (e.withAssembler assembler).watch h frame
  | _ => []
termination_by e.codec.assembler.work input
decreasing_by
  have nearer := work_dispatch h _taken
  rwa [_handled] at nearer

end Endpoint

/-- What is done to an endpoint from outside. -/
inductive Deed (δ σ : Type) where
  /-- Bytes are received. -/
  | receive (input : Bytes)
  /-- The owner plays a script. -/
  | act (script : σ → Script δ σ)

namespace Endpoint

/-- The endpoint after a deed, whether it faulted or not. -/
def after (h : Handler δ σ) (e : Endpoint δ σ) : Deed δ σ → Endpoint δ σ
  | .receive input => (e.process h input).endpoint
  | .act script => e.play script

/-- The moments of a deed. -/
def momentsOf (h : Handler δ σ) (e : Endpoint δ σ) : Deed δ σ → List (Moment δ)
  | .receive input => e.moments h input
  | .act script => (script e.app).moments e.codec

/-- The endpoint after a run. -/
def live (h : Handler δ σ) (e : Endpoint δ σ) : List (Deed δ σ) → Endpoint δ σ
  | [] => e
  | deed :: deeds => live h (e.after h deed) deeds

/-- The moments of a run, in order. -/
def history (h : Handler δ σ) (e : Endpoint δ σ) : List (Deed δ σ) → List (Moment δ)
  | [] => []
  | deed :: deeds => e.momentsOf h deed ++ history h (e.after h deed) deeds

/-- The codecs of a run: one for every moment, and the last one. -/
def codecs (h : Handler δ σ) (e : Endpoint δ σ) (deeds : List (Deed δ σ)) : List (Codec δ) :=
  (e.history h deeds).map Moment.codec ++ [(e.live h deeds).codec]

/-- A deed leads from a reachable codec to a reachable one. -/
theorem reachable_after {e : Endpoint δ σ} (reachable : e.codec.Reachable) (h : Handler δ σ)
    (deed : Deed δ σ) : (e.after h deed).codec.Reachable := by
  cases deed with
  | receive input => exact reachable.process h e.app input
  | act script => exact reachable.run (script e.app)

end Endpoint

/-! ## Histories are made of moments that lead on -/

namespace Endpoint

open Codec (Leads Outcome Astray)

variable {h : Handler δ σ} {e : Endpoint δ σ} {f : Frame} {arrival c : Codec δ}
  {callback : Option Callback} {fault : Option FrameError}

/-- The moments in which the application is told about a frame. -/
def told (h : Handler δ σ) (arrival : Codec δ) (f : Frame) (e : Endpoint δ σ) :
    Option Callback → List (Moment δ)
  | none => []
  | some callback =>
    ⟨e.codec, .called arrival f callback⟩ :: (h.on callback e.app).moments e.codec

/-- Watching an answer adds the report and what the application does to the moments, and changes nothing
else. -/
theorem answer_watched (h : Handler δ σ) (arrival : Codec δ) (f : Frame) (e : Endpoint δ σ)
    (log : List (Moment δ)) (callback : Option Callback) :
    (⟨e.codec, (e.app, log)⟩ : Endpoint δ (σ × List (Moment δ))).answer (h.watched arrival f)
        callback =
      ⟨(e.answer h callback).codec,
        ((e.answer h callback).app, log ++ e.told h arrival f callback)⟩ := by
  cases callback with
  | none => simp [answer, told]
  | some callback =>
    have looked : e.codec.perform .inspect = (e.codec, e.codec) := rfl
    simp [answer, told, report, play, Handler.on_watched, Handler.watching, Script.run_call, looked,
      Script.run_watched]

/-- A watched frame with an outcome. -/
theorem dispatch_watched_of_outcome (outcome : Outcome e.codec f c callback fault)
    (home : ¬Astray e.codec f) :
    let answered := (⟨c, e.app⟩ : Endpoint δ σ).answer h callback
    dispatch (h.watched e.codec f) ⟨e.codec, (e.app, [])⟩ f =
      { endpoint := ⟨answered.codec, (answered.app, told h e.codec f ⟨c, e.app⟩ callback)⟩, fault } := by
  have dispatched := dispatch_of_outcome (h := h.watched e.codec f) (e := ⟨e.codec, (e.app, [])⟩)
    outcome home
  have answered := answer_watched h e.codec f ⟨c, e.app⟩ [] callback
  rwa [answered, List.nil_append] at dispatched

/-- A watched frame that went astray. -/
theorem dispatch_watched_of_astray (outcome : Outcome e.codec f c callback fault)
    (astray : Astray e.codec f) :
    let answered := (⟨c, e.app⟩ : Endpoint δ σ).answer h callback
    let last := answered.failStream h f.stream .protocolError
    dispatch (h.watched e.codec f) ⟨e.codec, (e.app, [])⟩ f =
      { endpoint := ⟨last.codec, (last.app, told h e.codec f ⟨c, e.app⟩ callback ++
          told h e.codec f ⟨answered.codec.failed f.stream, answered.app⟩
            (some (.error f.stream .protocolError)))⟩ } := by
  intro answered last
  have dispatched := dispatch_of_astray (h := h.watched e.codec f) (e := ⟨e.codec, (e.app, [])⟩)
    outcome astray
  have first := answer_watched h e.codec f ⟨c, e.app⟩ [] callback
  have second := answer_watched h e.codec f ⟨answered.codec.failed f.stream, answered.app⟩
    (told h e.codec f ⟨c, e.app⟩ callback) (some (.error f.stream .protocolError))
  rw [first, List.nil_append] at dispatched
  exact dispatched.trans (congrArg (Received.mk · none) second)

/-- What the application does when it is told about a frame. -/
theorem leads_told {log : List (Moment δ)} {callback : Callback} (e : Endpoint δ σ)
    (leads : Leads c log (some ⟨e.codec, .called arrival f callback⟩) e.codec) :
    Leads c (log ++ e.told h arrival f (some callback)) none (e.report h callback).codec := by
  have script := (h.on callback e.app).leads e.codec
  rw [told, List.append_cons]
  exact leads.call.trans script

/-- The moments of a frame lead to what it leaves behind. -/
theorem leads_watch (consistent : e.codec.Consistent) (h : Handler δ σ) (f : Frame) :
    Leads e.codec (e.watch h f) none (e.dispatch h f).endpoint.codec := by
  obtain ⟨c, callback, fault, outcome⟩ := consistent.exists_outcome f
  have arrived := Leads.receive .nil outcome
  have answered : Leads e.codec (⟨e.codec, .received f⟩ :: told h e.codec f ⟨c, e.app⟩ callback)
      none ((⟨c, e.app⟩ : Endpoint δ σ).answer h callback).codec := by
    cases callback with
    | none => exact arrived
    | some callback => exact leads_told ⟨c, e.app⟩ arrived
  by_cases astray : Astray e.codec f
  · rw [watch, dispatch_watched_of_astray outcome astray, dispatch_of_astray outcome astray]
    let answer := (⟨c, e.app⟩ : Endpoint δ σ).answer h callback
    exact leads_told ⟨answer.codec.failed f.stream, answer.app⟩ (.fail answered astray)
  · rw [watch, dispatch_watched_of_outcome outcome astray, dispatch_of_outcome outcome astray]
    exact answered

/-- Bytes that complete no frame make no moments. -/
theorem moments_of_hungry {input : Bytes} {a : Assembler}
    (taken : e.codec.assembler.next input = (a, .hungry)) : e.moments h input = [] := by
  rw [moments.eq_def]
  split <;> simp_all

/-- A header that declares too much makes no moments. -/
theorem moments_of_fault {input rest : Bytes} {a : Assembler} {fault : FrameError}
    (taken : e.codec.assembler.next input = (a, .fault fault rest)) : e.moments h input = [] := by
  rw [moments.eq_def]
  split <;> simp_all

/-- The moments of bytes that complete a frame. -/
theorem moments_of_frame {input rest : Bytes} {a : Assembler}
    (taken : e.codec.assembler.next input = (a, .frame f rest)) :
    e.moments h input = (e.withAssembler a).watch h f ++
      match (e.withAssembler a).dispatch h f with
      | { endpoint, fault := none } => endpoint.moments h rest
      | _ => [] := by
  rw [moments.eq_def]
  split
  · rename_i a' frame' rest' taken'
    rw [taken] at taken'
    simp only [Prod.mk.injEq, Assembler.Next.frame.injEq] at taken'
    obtain ⟨rfl, rfl, rfl⟩ := taken'
    split
    · rename_i handled
      rw [handled]
    · rename_i faulty
      split
      · rename_i handled
        exact absurd handled (faulty _)
      · rw [List.append_nil]
  · simp_all

/-- The moments of received bytes lead to what they leave behind. -/
theorem leads_moments (consistent : e.codec.Consistent) (h : Handler δ σ) (input : Bytes) :
    Leads e.codec (e.moments h input) none (e.process h input).endpoint.codec := by
  induction e, input using process.induct h with
  | case1 e input a taken =>
    rw [moments_of_hungry taken, process_of_hungry taken]
    exact .reassemble .nil a
  | case2 e input a fault rest taken =>
    rw [moments_of_fault taken, process_of_fault taken]
    exact .reassemble .nil a
  | case3 e input a f rest taken endpoint handled ih =>
    have reassembled : Leads e.codec [] none (e.withAssembler a).codec := .reassemble .nil a
    have first := reassembled.trans (leads_watch (consistent.reassemble a) h f)
    rw [moments_of_frame taken, process_of_frame taken]
    rw [handled] at first ⊢
    exact first.trans (ih (first.consistent consistent))
  | case4 e input a f rest taken faulty =>
    have reassembled : Leads e.codec [] none (e.withAssembler a).codec := .reassemble .nil a
    have first := reassembled.trans (leads_watch (consistent.reassemble a) h f)
    rw [moments_of_frame taken, process_of_frame taken]
    cases handled : (e.withAssembler a).dispatch h f with
    | mk endpoint fault =>
      rw [handled] at first
      cases fault with
      | none => exact absurd handled (faulty endpoint)
      | some fault =>
        rw [Received.andThen_of_some rfl]
        simpa using first

/-- The moments of a deed lead to what it leaves behind. -/
theorem leads_momentsOf (consistent : e.codec.Consistent) (h : Handler δ σ) (deed : Deed δ σ) :
    Leads e.codec (e.momentsOf h deed) none (e.after h deed).codec := by
  cases deed with
  | receive input => exact leads_moments consistent h input
  | act script => exact (script e.app).leads e.codec

/-- The moments of a run lead to what it leaves behind. -/
theorem leads_history (consistent : e.codec.Consistent) (h : Handler δ σ)
    (deeds : List (Deed δ σ)) :
    Leads e.codec (e.history h deeds) none (e.live h deeds).codec := by
  induction deeds generalizing e with
  | nil => exact .nil
  | cons deed deeds ih =>
    have first := leads_momentsOf consistent h deed
    exact first.trans (ih (first.consistent consistent))

/-- Only a frame that is wrong by itself is a fault, and only while no header block is open. -/
theorem faulty_of_dispatch {fault : FrameError} (consistent : e.codec.Consistent)
    (failed : (e.dispatch h f).fault = some fault) :
    e.codec.openBlock? = none ∧ f.Faulty fault := by
  obtain ⟨c, callback, fault', outcome⟩ := consistent.exists_outcome f
  by_cases astray : Astray e.codec f
  · rw [dispatch_of_astray outcome astray] at failed
    cases failed
  · rw [dispatch_of_outcome outcome astray] at failed
    subst failed
    exact outcome.faulty

/-! ## Runs without a fault -/

/-- The framing faults of a run, in order. -/
def faults (h : Handler δ σ) (e : Endpoint δ σ) : List (Deed δ σ) → List FrameError
  | [] => []
  | .receive input :: deeds =>
    (e.process h input).fault.toList ++ faults h (e.process h input).endpoint deeds
  | .act script :: deeds => faults h (e.play script) deeds

/-- What follows the arrival of a frame: the application is told about it, or acts. -/
inductive Answers (arrival : Codec δ) (f : Frame) : Moment δ → Prop
  | called (c : Codec δ) (callback : Callback) : Answers arrival f ⟨c, .called arrival f callback⟩
  | performed (c : Codec δ) (op : Codec.Op δ) (reply : op.Reply) :
      Answers arrival f ⟨c, .performed op reply⟩

/-- What a report leads to is the report itself and the operations of the application. -/
theorem answers_of_told {m : Moment δ} (member : m ∈ e.told h arrival f callback) :
    Answers arrival f m := by
  cases callback with
  | none => cases member
  | some callback =>
    rcases List.mem_cons.mp member with rfl | member
    · exact .called _ _
    · obtain ⟨c, occurrence⟩ := m
      obtain ⟨op, reply, rfl⟩ := Script.performed_of_mem member
      exact .performed c op reply

/-- The first moment of a frame is the only one in which a frame comes. -/
theorem exists_watch_eq (consistent : e.codec.Consistent) (h : Handler δ σ) (f : Frame) :
    ∃ calls : List (Moment δ), e.watch h f = ⟨e.codec, .received f⟩ :: calls ∧
      ∀ m ∈ calls, Answers e.codec f m := by
  obtain ⟨c, callback, fault, outcome⟩ := consistent.exists_outcome f
  refine ⟨_, rfl, fun m member => ?_⟩
  by_cases astray : Astray e.codec f
  · rw [dispatch_watched_of_astray outcome astray] at member
    exact (List.mem_append.mp member).elim answers_of_told answers_of_told
  · rw [dispatch_watched_of_outcome outcome astray] at member
    exact answers_of_told member

/-- If the dispatch of a frame ends without a fault, no frame among its moments is one. -/
theorem fine_watch (consistent : e.codec.Consistent) (fine : (e.dispatch h f).fault = none) :
    ∀ m ∈ e.watch h f, m.Fine := by
  obtain ⟨calls, split, others⟩ := exists_watch_eq consistent h f
  intro m member g came c callback fault outcome
  rw [split] at member
  rcases List.mem_cons.mp member with rfl | member
  · obtain rfl := Occurrence.received.inj came
    by_cases astray : Astray e.codec f
    · obtain ⟨owner, opened, -⟩ := astray.opened
      cases fault with
      | none => rfl
      | some fault =>
        rw [outcome.faulty.1] at opened
        cases opened
    · rwa [dispatch_of_outcome outcome astray] at fine
  · cases others m member with
    | called | performed => cases came

/-- If a call ends without a fault, none of the frames that it dispatched was one. -/
theorem fine_moments (consistent : e.codec.Consistent) {input : Bytes}
    (fine : (e.process h input).fault = none) : ∀ m ∈ e.moments h input, m.Fine := by
  induction e, input using process.induct h with
  | case1 e input a taken =>
    rw [moments_of_hungry taken]
    intro m member
    cases member
  | case2 e input a fault rest taken =>
    rw [moments_of_fault taken]
    intro m member
    cases member
  | case3 e input a f rest taken endpoint handled ih =>
    have reassembled : (e.withAssembler a).codec.Consistent := consistent.reassemble a
    have first := leads_watch reassembled h f
    have watched := fine_watch reassembled (h := h) (f := f) (by rw [handled])
    rw [process_of_frame taken] at fine
    rw [moments_of_frame taken]
    rw [handled] at first fine ⊢
    intro m member
    rcases List.mem_append.mp member with member | member
    · exact watched m member
    · exact ih (first.consistent reassembled) fine m member
  | case4 e input a f rest taken faulty =>
    rw [process_of_frame taken] at fine
    cases handled : (e.withAssembler a).dispatch h f with
    | mk endpoint fault =>
      cases fault with
      | none => exact absurd handled (faulty endpoint)
      | some fault =>
        rw [handled, Received.andThen_of_some rfl] at fine
        cases fine

/-- In a run without a fault, no frame is one. -/
theorem fine_history (consistent : e.codec.Consistent) {deeds : List (Deed δ σ)}
    (fine : e.faults h deeds = []) : ∀ m ∈ e.history h deeds, m.Fine := by
  induction deeds generalizing e with
  | nil =>
    intro m member
    cases member
  | cons deed deeds ih =>
    have later := (leads_momentsOf consistent h deed).consistent consistent
    intro m member
    rw [history] at member
    cases deed with
    | receive input =>
      rw [faults] at fine
      obtain ⟨here, rest⟩ := List.append_eq_nil_iff.mp fine
      rcases List.mem_append.mp member with member | member
      · exact fine_moments consistent (Option.toList_eq_nil_iff.mp here) m member
      · exact ih later rest m member
    | act script =>
      rw [faults] at fine
      rcases List.mem_append.mp member with member | member
      · obtain ⟨op, reply, happened⟩ := Script.performed_of_mem member
        intro g came
        rw [happened] at came
        cases came
      · exact ih later fine m member

end Endpoint

/-- Every reachable codec is consistent. -/
theorem Codec.Reachable.consistent {c : Codec δ} (reachable : c.Reachable) : c.Consistent := by
  induction reachable with
  | create role maxFrameSize => exact consistent_create role maxFrameSize
  | perform _ op ih => exact consistent_perform ih op
  | @process σ c _ h app input ih =>
    have leads := Endpoint.leads_moments (e := ⟨c, app⟩) ih h input
    exact leads.consistent ih

/-- At every moment of every run, what is stored of header blocks is consistent, and one stream at most
waits for CONTINUATION. Whatever frame comes then, it leaves a consistent codec; completing a block is
never a fault, because no frame is one while a block is open, and a frame that is one is wrong by
itself. -/
theorem header_blocks_stay_consistent {c : Codec δ} (reachable : c.Reachable) (h : Handler δ σ)
    (app : σ) (deeds : List (Deed δ σ)) :
    ∀ c' ∈ (⟨c, app⟩ : Endpoint δ σ).codecs h deeds,
      (c'.Consistent ∧ ∀ id other, c'.Awaits id → c'.Awaits other → id = other) ∧
        ∀ app f,
          let dispatched := (⟨c', app⟩ : Endpoint δ σ).dispatch h f
          dispatched.endpoint.codec.Consistent ∧
            ∀ fault, dispatched.fault = some fault → c'.openBlock? = none ∧ f.Faulty fault := by
  intro c' member
  have leads := Endpoint.leads_history (e := ⟨c, app⟩) reachable.consistent h deeds
  have consistent : c'.Consistent := by
    rcases List.mem_append.mp member with member | member
    · obtain ⟨m, happened, rfl⟩ := List.mem_map.mp member
      obtain ⟨before, after, split⟩ := List.append_of_mem happened
      exact (leads.upto split).consistent reachable.consistent
    · rw [List.mem_singleton.mp member]
      exact leads.consistent reachable.consistent
  refine ⟨⟨consistent, fun id other => consistent.eq_of_awaits⟩, fun app f => ⟨?_, ?_⟩⟩
  · exact (Endpoint.leads_watch (e := ⟨c', app⟩) consistent h f).consistent consistent
  · exact fun fault failed => Endpoint.faulty_of_dispatch (e := ⟨c', app⟩) consistent failed

/-- A server that has received the first half of a header block. -/
theorem header_blocks_stay_consistent_on_half_block :
    let opening := Frame.ofParts .headers 0 1 [97, 61]
    let server : Endpoint Unit (List Callback) := ⟨.create .server 16384, []⟩
    let last := (server.live .recorder [.receive opening.toBytes]).codec
    last.Consistent ∧ last.openBlock? = some 1 := by
  intro opening server last
  have holds := header_blocks_stay_consistent (.create .server 16384) .recorder []
    [.receive opening.toBytes] last (List.mem_append_right _ List.mem_cons_self)
  exact ⟨holds.1.1, by decide +kernel⟩

end Http2
