import Http2.Proofs.Codec.Closing

/-!
# Eviction and received frames

A codec that evicts closed streams follows one that does not, as `Forgets` says: each stream is the same
on both, or the first codec keeps it closed while the other one has forgotten it or keeps it closed as
well. Frames keep it so (`echoes_dispatch`), except for one that opens a header block on a forgotten
stream, and eviction keeps it so unless it takes away an open header block. Up to that, both tell the
application of the same headers and bodies.
-/

namespace Http2

variable {δ σ : Type}

/-- Whether headers or body are delivered. -/
def Callback.delivers : Callback → Bool
  | .error .. => false
  | _ => true

namespace Codec

variable {c c' d : Codec δ} {dropped : UInt32 → Prop} {f : Frame} {callback : Option Callback}
  {fault : Option FrameError} {id : UInt32}

/-- `c'` is `c` but for closed streams that it may have forgotten. -/
structure Forgets (dropped : UInt32 → Prop) (c c' : Codec δ) : Prop where
  assembler : c'.assembler = c.assembler
  lastFrame : c'.lastFrame = c.lastFrame
  streams : ∀ id, c'.streams.inbound id = c.streams.inbound id ∨
    c.Ended id ∧ (c'.Ended id ∨ c'.streams.get? id = none ∧ dropped id)

/-- The frame opens a header block on a stream that the codec does not know. -/
structure Founds (c : Codec δ) (f : Frame) : Prop where
  closed : c.openBlock? = none
  opens : f.kind = .headers ∨ f.kind = .pushPromise
  unknown : c.streams.contains f.stream = false

instance (c : Codec δ) (f : Frame) : Decidable (c.Founds f) :=
  decidable_of_iff (c.openBlock? = none ∧ (f.kind = .headers ∨ f.kind = .pushPromise) ∧
    c.streams.contains f.stream = false)
    ⟨fun ⟨closed, opens, unknown⟩ => ⟨closed, opens, unknown⟩,
      fun ⟨closed, opens, unknown⟩ => ⟨closed, opens, unknown⟩⟩

/-- The open block in terms of the streams that frames refer to. -/
theorem openBlock?_eq_inbound (c : Codec δ) : c.openBlock? =
    c.lastFrame.bind fun (kind, id) =>
      if kind.carriesHeaderBlock && (c.streams.inbound id).awaiting then some id else none := by
  cases noted : c.lastFrame with
  | none => simp [openBlock?, noted]
  | some last =>
    have same : (c.streams.get? last.2).any (·.awaiting) =
        (c.streams.inbound last.2).awaiting := by
      rw [Registry.inbound]
      cases c.streams.get? last.2 <;> rfl
    simp [openBlock?, noted, same]

namespace Forgets

protected theorem refl (c : Codec δ) : Forgets dropped c c := ⟨rfl, rfl, fun _ => .inl rfl⟩

theorem mono {dropped' : UInt32 → Prop} (forgets : Forgets dropped c c')
    (more : ∀ id, dropped id → dropped' id) : Forgets dropped' c c' where
  assembler := forgets.assembler
  lastFrame := forgets.lastFrame
  streams id := (forgets.streams id).imp_right fun ⟨ended, gone⟩ =>
    ⟨ended, gone.imp_right fun ⟨unknown, gone⟩ => ⟨unknown, more id gone⟩⟩

/-- A header block is in progress on the same streams. -/
theorem awaiting (forgets : Forgets dropped c c') (id : UInt32) :
    (c'.streams.inbound id).awaiting = (c.streams.inbound id).awaiting := by
  rcases forgets.streams id with same | ⟨ended, still | ⟨unknown, -⟩⟩
  · rw [same]
  · rw [ended.settled, still.settled]
  · rw [ended.settled, Registry.inbound, unknown]
    rfl

/-- A forgotten stream had no open block, so the open block is the same one. -/
theorem openBlock? (forgets : Forgets dropped c c') : c'.openBlock? = c.openBlock? := by
  simp only [openBlock?_eq_inbound, forgets.lastFrame, forgets.awaiting]

/-- A stream with an open block is the same on both. -/
theorem inbound_of_openBlock? (forgets : Forgets dropped c c') (opened : c.openBlock? = some id) :
    c'.streams.inbound id = c.streams.inbound id :=
  (forgets.streams id).resolve_right fun ⟨ended, _⟩ =>
    Bool.eq_false_iff.mp ended.settled (awaits_of_openBlock? opened)

/-- A frame is judged with forgotten streams as without. -/
theorem judges (forgets : Forgets dropped c c') (judged : c.Judges f) : c'.Judges f :=
  ⟨forgets.openBlock?.trans judged.closed, judged.heeded, judged.stream, judged.kind⟩

theorem noted (forgets : Forgets dropped c c') (f : Frame) :
    Forgets dropped (c.noted f) (c'.noted f) :=
  ⟨forgets.assembler, rfl, forgets.streams⟩

theorem withAssembler (forgets : Forgets dropped c c') (a : Assembler) :
    Forgets dropped { c with assembler := a } { c' with assembler := a } :=
  ⟨rfl, forgets.lastFrame, forgets.streams⟩

/-- Both store a stream, the same one or one that is spent on both. -/
theorem put (forgets : Forgets dropped c c') {s s' : Stream δ} (owner : s'.id = s.id)
    (agree : s' = s ∨ s.Spent ∧ s'.Spent) :
    Forgets dropped (c.putStream s) (c'.putStream s') where
  assembler := forgets.assembler
  lastFrame := forgets.lastFrame
  streams id := by
    simp only [Ended, putStream, Registry.inbound_put, Registry.get?_put, owner]
    by_cases here : s.id = id
    · simp only [if_pos here]
      rcases agree with same | ⟨spent, spent'⟩
      · exact .inl same
      · exact .inr ⟨spent, .inl spent'⟩
    · simp only [if_neg here]
      exact forgets.streams id

/-- Both close a stream for a fault. -/
theorem failed (forgets : Forgets dropped c c') (id : UInt32) :
    Forgets dropped (c.failed id) (c'.failed id) :=
  forgets.put (by simp [Stream.failed]) (.inr ⟨Stream.spent_failed _, Stream.spent_failed _⟩)

/-- The second codec evicts its closed streams, on none of which a header block is open. -/
theorem evictClosed (forgets : Forgets dropped c c')
    (sparing : ∀ id, c'.Closed id → ¬c.Awaits id) :
    Forgets (fun id => dropped id ∨ c'.Closed id) c c'.evictClosed.2 where
  assembler := forgets.assembler
  lastFrame := forgets.lastFrame
  streams id := by
    have kept : c'.evictClosed.2.streams.get? id = (c'.streams.get? id).filter fun s => !s.isClosed :=
      Registry.get?_retain _ _ id
    by_cases closed : c'.Closed id
    · obtain ⟨s, found, state⟩ := Registry.get?_of_active closed nofun
      have gone : c'.evictClosed.2.streams.get? id = none := by
        simp [kept, found, Option.filter, Stream.isClosed, state]
      refine .inr ⟨?_, .inr ⟨gone, .inr closed⟩⟩
      rcases forgets.streams id with same | ⟨ended, -⟩
      · exact ⟨same ▸ closed, Bool.eq_false_iff.mpr (sparing id closed)⟩
      · exact ended
    · have still : (c'.streams.inbound id).isClosed = false := by
        simpa [Stream.isClosed, Closed] using closed
      rw [Ended, Ended, inbound_evictClosed, still, if_neg Bool.false_ne_true]
      rcases forgets.streams id with same | ⟨ended, still | ⟨unknown, gone⟩⟩
      · exact .inl same
      · exact .inr ⟨ended, .inl still⟩
      · exact .inr ⟨ended, .inr ⟨by rw [kept, unknown]; rfl, .inl gone⟩⟩

/-- A frame that does not meet a forgotten stream has the same outcome for both. -/
theorem transfer (forgets : Forgets dropped c c') (outcome : Outcome c f d callback fault)
    (same : c.Judges f → c'.streams.inbound f.stream = c.streams.inbound f.stream) :
    ∃ d', Outcome c' f d' callback fault ∧ Forgets dropped d d' := by
  have noted := forgets.noted f
  have open' : c'.openBlock? = c.openBlock? := forgets.openBlock?
  have judges (judged : c.Judges f) : c'.Judges f := forgets.judges judged
  have verdict (judged : c.Judges f) : c'.verdict f = c.verdict f := by
    rw [Codec.verdict, same judged, Codec.verdict]
  have failed (id : UInt32) : Forgets dropped
      ((c.noted f).putStream (c.streams.inbound id).failed)
      ((c'.noted f).putStream (c'.streams.inbound id).failed) := noted.failed id
  cases outcome with
  | ignored closed ignored => exact ⟨_, .ignored (open'.trans closed) ignored, noted⟩
  | streamZero closed heeded zero =>
    exact ⟨_, .streamZero (open'.trans closed) heeded zero, noted⟩
  | unmoved judged ignored =>
    exact ⟨_, .unmoved (judges judged) ((verdict judged).trans ignored),
      noted.put (by simp) (.inl (same judged))⟩
  | malformed judged accepted wrong =>
    exact ⟨_, .malformed (judges judged) ((verdict judged).trans accepted) wrong,
      noted.put (by simp) (.inl (same judged))⟩
  | rejected judged rejected =>
    exact ⟨_, .rejected (judges judged) ((verdict judged).trans rejected), failed f.stream⟩
  | moved judged accepted kind =>
    exact ⟨_, .moved (judges judged) ((verdict judged).trans accepted) kind,
      noted.put (by simp) (.inl (by rw [same judged]))⟩
  | body judged accepted kind unpadded =>
    exact ⟨_, .body (judges judged) ((verdict judged).trans accepted) kind unpadded,
      noted.put (by simp) (.inl (by rw [same judged]))⟩
  | opening judged accepted opens wellFormed collects =>
    rw [← same judged] at collects
    exact ⟨_, .opening (judges judged) ((verdict judged).trans accepted) opens wellFormed collects,
      noted.put rfl (.inl rfl)⟩
  | continuing opened kind stream collects =>
    rw [← forgets.inbound_of_openBlock? opened] at collects
    exact ⟨_, .continuing (open'.trans opened) kind stream collects, noted.put rfl (.inl rfl)⟩
  | stray closed kind stream => exact ⟨_, .stray (open'.trans closed) kind stream, failed f.stream⟩
  | interrupting opened other =>
    exact ⟨_, .interrupting (open'.trans opened) other, failed _⟩

end Forgets

/-- A frame of a spent stream delivers nothing. -/
theorem exists_outcome_of_ended (judged : c.Judges f) (ended : c.Ended f.stream) :
    ∃ s callback, Outcome c f ((c.noted f).putStream s) callback none ∧ s.id = f.stream ∧ s.Spent ∧
      callback.toList.filter Callback.delivers = [] := by
  have table := StreamState.transition_closed_inbound f.kind f.flags
  rw [← ended.closed] at table
  rcases table with ⟨ignored, -⟩ | ⟨rejected, -⟩
  · exact ⟨_, _, .unmoved judged ignored, Registry.id_inbound _ _, ended, rfl⟩
  · exact ⟨_, _, .rejected judged rejected, Registry.id_inbound _ _, Stream.spent_failed _, rfl⟩

/-- Nor does a frame of an unknown stream, unless it opens a header block. -/
theorem exists_outcome_of_unknown (judged : c.Judges f) (unknown : c.streams.get? f.stream = none)
    (kind : ¬(f.kind = .headers ∨ f.kind = .pushPromise)) :
    ∃ s callback, Outcome c f ((c.noted f).putStream s) callback none ∧ s.id = f.stream ∧ s.Spent ∧
      callback.toList.filter Callback.delivers = [] := by
  have rejected : c.verdict f = .reject .protocolError := by
    rw [not_or] at kind
    rw [verdict, Registry.inbound, unknown]
    simp only [Option.getD_none, StreamState.transition, StreamState.receive]
    split
    · exact absurd ‹_› kind.1
    · exact absurd ‹_› kind.2
    · rfl
  exact ⟨_, _, .rejected judged rejected, Registry.id_inbound _ _, Stream.spent_failed _, rfl⟩

/-- A frame that opens no header block on a forgotten stream delivers the same for both. -/
theorem Forgets.exists_outcomes (forgets : Forgets dropped c c') (consistent : c.Consistent)
    (known : c'.Founds f → ¬dropped f.stream) :
    ∃ d callback d' callback' fault, Outcome c f d callback fault ∧
      Outcome c' f d' callback' fault ∧ Forgets dropped d d' ∧
      callback'.toList.filter Callback.delivers = callback.toList.filter Callback.delivers := by
  have meets : (c.Judges f → c'.streams.inbound f.stream = c.streams.inbound f.stream) ∨
      c.Judges f ∧ c.Ended f.stream ∧
        (c'.Ended f.stream ∨ c'.streams.get? f.stream = none ∧ dropped f.stream) := by
    rcases forgets.streams f.stream with same | gone
    · exact .inl fun _ => same
    · by_cases judged : c.Judges f
      · exact .inr ⟨judged, gone⟩
      · exact .inl fun here => absurd here judged
  rcases meets with same | ⟨judged, ended, gone⟩
  · obtain ⟨d, callback, fault, outcome⟩ := consistent.exists_outcome f
    obtain ⟨d', outcome', forgets'⟩ := forgets.transfer outcome same
    exact ⟨d, callback, d', callback, fault, outcome, outcome', forgets', rfl⟩
  · have judged' := forgets.judges judged
    obtain ⟨s, callback, outcome, owner, spent, silent⟩ := exists_outcome_of_ended judged ended
    obtain ⟨s', callback', outcome', owner', spent', silent'⟩ :
        ∃ s callback, Outcome c' f ((c'.noted f).putStream s) callback none ∧ s.id = f.stream ∧
          s.Spent ∧ callback.toList.filter Callback.delivers = [] := by
      rcases gone with still | ⟨unknown, gone⟩
      · exact exists_outcome_of_ended judged' still
      · exact exists_outcome_of_unknown judged' unknown fun opens =>
          known ⟨judged'.closed, opens, by rw [Registry.contains, unknown]; rfl⟩ gone
    exact ⟨_, _, _, _, none, outcome, outcome',
      (forgets.noted f).put (owner'.trans owner.symm) (.inr ⟨spent, spent'⟩),
      silent'.trans silent.symm⟩

end Codec

/-! ## Two endpoints that record -/

namespace Endpoint

open Codec (Forgets Astray)

variable {dropped : UInt32 → Prop} {e e' : Endpoint δ (List Callback)} {f : Frame}

/-- An endpoint that has forgotten closed streams of another one, with the same deliveries on record. -/
structure Echoes (dropped : UInt32 → Prop) (e e' : Endpoint δ (List Callback)) : Prop where
  forgets : Forgets dropped e.codec e'.codec
  delivered : e'.app.filter Callback.delivers = e.app.filter Callback.delivers

/-- Answers that deliver the same keep the records of deliveries equal. -/
theorem Echoes.answer {c c' : Codec δ} (echoes : Echoes dropped e e') (forgets : Forgets dropped c c')
    {callback callback' : Option Callback}
    (same : callback'.toList.filter Callback.delivers = callback.toList.filter Callback.delivers) :
    Echoes dropped ((⟨c, e.app⟩ : Endpoint δ (List Callback)).answer .recorder callback)
      ((⟨c', e'.app⟩ : Endpoint δ (List Callback)).answer .recorder callback') := by
  rw [answer_recorder, answer_recorder]
  refine ⟨forgets, ?_⟩
  simp only [List.filter_append, echoes.delivered, same]

/-- Failing a stream delivers nothing, so what is forgotten shows no difference. -/
theorem Echoes.failStream (echoes : Echoes dropped e e') (id : UInt32) (fault : StreamError) :
    Echoes dropped (e.failStream .recorder id fault) (e'.failStream .recorder id fault) := by
  have same : (some (Callback.error id fault)).toList.filter Callback.delivers =
      (some (Callback.error id fault)).toList.filter Callback.delivers := rfl
  exact echoes.answer (echoes.forgets.failed id) same

/-- One frame. -/
theorem echoes_dispatch (consistent : e.codec.Consistent) (echoes : Echoes dropped e e')
    (known : e'.codec.Founds f → ¬dropped f.stream) :
    (e'.dispatch .recorder f).fault = (e.dispatch .recorder f).fault ∧
      Echoes dropped (e.dispatch .recorder f).endpoint (e'.dispatch .recorder f).endpoint := by
  obtain ⟨d, callback, d', callback', fault, outcome, outcome', forgets, same⟩ :=
    echoes.forgets.exists_outcomes consistent known
  have answered := echoes.answer forgets same
  have open' := echoes.forgets.openBlock?
  have iff : Astray e'.codec f ↔ Astray e.codec f := by
    constructor
    · exact fun ⟨kind, stream, opened⟩ => ⟨kind, stream, open' ▸ opened⟩
    · exact fun ⟨kind, stream, opened⟩ => ⟨kind, stream, open' ▸ opened⟩
  by_cases astray : Astray e.codec f
  · rw [dispatch_of_astray outcome astray, dispatch_of_astray outcome' (iff.mpr astray)]
    exact ⟨rfl, answered.failStream f.stream .protocolError⟩
  · rw [dispatch_of_outcome outcome astray, dispatch_of_outcome outcome' (mt iff.mp astray)]
    exact ⟨rfl, answered⟩

theorem Echoes.withAssembler (echoes : Echoes dropped e e') (a : Assembler) :
    Echoes dropped (e.withAssembler a) (e'.withAssembler a) :=
  ⟨echoes.forgets.withAssembler a, echoes.delivered⟩

/-- A chunk of bytes. -/
theorem echoes_process (consistent : e.codec.Consistent) (echoes : Echoes dropped e e')
    (input : Bytes) (known : ∀ m ∈ e'.moments .recorder input, ∀ f,
      m.occurrence = .received f → m.codec.Founds f → ¬dropped f.stream) :
    Echoes dropped (e.process .recorder input).endpoint
      (e'.process .recorder input).endpoint := by
  induction e', input using process.induct .recorder generalizing e with
  | case1 e' input a taken =>
    rw [process_of_hungry taken, process_of_hungry (echoes.forgets.assembler ▸ taken)]
    exact echoes.withAssembler a
  | case2 e' input a fault rest taken =>
    rw [process_of_fault taken, process_of_fault (echoes.forgets.assembler ▸ taken)]
    exact echoes.withAssembler a
  | case3 e' input a f rest taken endpoint handled ih =>
    have taken' := taken
    rw [echoes.forgets.assembler] at taken'
    rw [moments_of_frame taken, handled] at known
    have consistentHere := consistent.reassemble a
    obtain ⟨fine, echoesHere⟩ := echoes_dispatch consistentHere (echoes.withAssembler a)
      (known _ (List.mem_append_left _ List.mem_cons_self) f rfl)
    rw [handled] at fine echoesHere
    rw [process_of_frame taken, process_of_frame taken', handled, Received.andThen_of_none fine.symm]
    exact ih ((leads_watch (e := e.withAssembler a) consistentHere .recorder f).consistent
      consistentHere) echoesHere fun m member => known m (List.mem_append_right _ member)
  | case4 e' input a f rest taken faulty =>
    have taken' := taken
    rw [echoes.forgets.assembler] at taken'
    rw [moments_of_frame taken] at known
    obtain ⟨same, echoesHere⟩ := echoes_dispatch (consistent.reassemble a) (echoes.withAssembler a)
      (known _ (List.mem_append_left _ List.mem_cons_self) f rfl)
    rw [process_of_frame taken, process_of_frame taken']
    cases failed : ((e'.withAssembler a).dispatch .recorder f).fault with
    | none =>
      exact absurd (by rw [← failed]) (faulty ((e'.withAssembler a).dispatch .recorder f).endpoint)
    | some fault =>
      rw [Received.andThen_of_some failed, Received.andThen_of_some (same.symm.trans failed)]
      exact echoesHere

end Endpoint

/-! ## Visits -/

/-- What is done to an endpoint that only records: bytes are received, or closed streams are evicted. -/
inductive Visit where
  | receive (input : Bytes)
  | evict

namespace Visit

/-- A visit as a deed of the endpoint's owner. -/
def deed : Visit → Deed δ σ
  | receive input => .receive input
  | evict => .act fun app => .call .evictClosed fun _ => .done app

/-- Whether bytes are received. -/
def receives : Visit → Bool
  | receive _ => true
  | evict => false

end Visit

/-- The headers and bodies that are delivered, in order, in the course of visits. -/
def Codec.deliveries (c : Codec δ) (visits : List Visit) : List Callback :=
  let start : Endpoint δ (List Callback) := ⟨c, []⟩
  (start.live .recorder (visits.map Visit.deed)).app.filter Callback.delivers

namespace Moment

/-- The stream on which a received frame opens a header block, if the codec does not know it. -/
def founds? (m : Moment δ) : Option UInt32 :=
  match m.occurrence with
  | .received f => if m.codec.Founds f then some f.stream else none
  | _ => none

/-- A moment in which a frame opens a block on an unknown stream is one that founds it. -/
theorem founds?_of_received {m : Moment δ} {f : Frame} (happened : m.occurrence = .received f)
    (founds : m.codec.Founds f) : m.founds? = some f.stream := by
  simp only [founds?, happened, if_pos founds]

/-- The streams that were closed when closed streams were evicted. -/
def Dropped (log : List (Moment δ)) (id : UInt32) : Prop :=
  ∃ m ∈ log, m.evicts = true ∧ m.codec.Closed id

theorem Dropped.append {log : List (Moment δ)} {id : UInt32} (dropped : Dropped log id)
    (more : List (Moment δ)) : Dropped (log ++ more) id := by
  obtain ⟨m, member, evicts, closed⟩ := dropped
  exact ⟨m, List.mem_append_left more member, evicts, closed⟩

end Moment

namespace Endpoint

variable {dropped dropped' : UInt32 → Prop} {e e' : Endpoint δ (List Callback)}

theorem Echoes.mono (echoes : Echoes dropped e e') (more : ∀ id, dropped id → dropped' id) :
    Echoes dropped' e e' :=
  ⟨echoes.forgets.mono more, echoes.delivered⟩

/-- Visits of an endpoint, and the same visits of another one without evictions. `past` are the moments
before them. -/
theorem echoes_visits (consistent : e.codec.Consistent) {past : List (Moment δ)}
    (echoes : Echoes (Moment.Dropped past) e e') (visits : List Visit)
    (sparing : ∀ m ∈ e'.history .recorder (visits.map Visit.deed), m.evicts = true →
      ∀ id, m.codec.openBlock? = some id → ¬m.codec.Closed id)
    (known : ∀ before m after id,
      past ++ e'.history .recorder (visits.map Visit.deed) = before ++ m :: after →
      m.founds? = some id → ¬Moment.Dropped before id) :
    ∃ dropped, Echoes dropped (e.live .recorder ((visits.filter Visit.receives).map Visit.deed))
      (e'.live .recorder (visits.map Visit.deed)) := by
  induction visits generalizing e e' past with
  | nil => exact ⟨_, echoes⟩
  | cons visit visits ih =>
    rw [List.map_cons, history] at sparing known
    have sparingLater := fun m member => sparing m (List.mem_append_right _ member)
    cases visit with
    | receive input =>
      have processed : Echoes (Moment.Dropped past) (e.process .recorder input).endpoint
          (e'.process .recorder input).endpoint := by
        refine echoes_process consistent echoes input fun m member f happened founds dropped => ?_
        obtain ⟨front, back, split⟩ := List.append_of_mem member
        have moments : e'.momentsOf .recorder (Visit.receive input).deed = front ++ m :: back := split
        let later := (e'.after .recorder (Visit.receive input).deed).history .recorder
          (visits.map Visit.deed)
        refine known (past ++ front) m (back ++ later) f.stream ?_
          (Moment.founds?_of_received happened founds) (dropped.append front)
        rw [moments, List.append_assoc, List.append_assoc, List.cons_append]
      rw [← List.append_assoc] at known
      exact ih ((leads_moments consistent .recorder input).consistent consistent)
        (processed.mono fun id dropped => dropped.append _) sparingLater known
    | evict =>
      let moment : Moment δ := ⟨e'.codec, .performed .evictClosed e'.codec.evictClosed.1⟩
      have spared (id) (closed : e'.codec.Closed id) : ¬e.codec.Awaits id := fun awaits => by
        have opened := echoes.forgets.openBlock?.trans (consistent.openBlock?_eq awaits)
        exact sparing moment List.mem_cons_self rfl id opened closed
      have evicted : Echoes (Moment.Dropped (past ++ [moment])) e
          ⟨e'.codec.evictClosed.2, e'.app⟩ := by
        refine ⟨(echoes.forgets.evictClosed spared).mono fun id dropped => ?_, echoes.delivered⟩
        rcases dropped with before | closed
        · exact before.append _
        · exact ⟨moment, by simp, rfl, closed⟩
      rw [← List.append_assoc] at known
      exact ih consistent evicted sparingLater known

end Endpoint

/-- Eviction is invisible to what is received, as long as it takes away no open header block and no
header block is opened on a stream that it has taken away: the same headers and bodies are delivered in
the same order. -/
theorem eviction_is_invisible {c : Codec δ} (reachable : c.Reachable) (visits : List Visit) :
    let start : Endpoint δ (List Callback) := ⟨c, []⟩
    let history := start.history .recorder (visits.map Visit.deed)
    (∀ m ∈ history, m.evicts = true → ∀ id, m.codec.openBlock? = some id → ¬m.codec.Closed id) →
      (∀ before m after id, history = before ++ m :: after → m.founds? = some id →
        ¬Moment.Dropped before id) →
      c.deliveries visits = c.deliveries (visits.filter Visit.receives) := by
  intro start history sparing known
  have same : start.Echoes (Moment.Dropped ([] : List (Moment δ))) start := ⟨.refl c, rfl⟩
  obtain ⟨_, echoes⟩ := Endpoint.echoes_visits reachable.consistent same visits sparing known
  exact echoes.delivered

/-- A server evicts a stream that its client has reset; a body segment on it comes late, and the next
request comes after it. -/
theorem eviction_is_invisible_to_late_body :
    let request (id : UInt32) := Frame.ofParts .headers Flag.endHeaders id [97, 61, 98, 13, 10]
    let reset := Frame.ofParts .rstStream 0 1 [0, 0, 0, 8]
    let late := Frame.ofParts .data 0 1 [120]
    let server : Endpoint Unit (List Callback) := Endpoint.process .recorder
      ⟨.create .server 16384, []⟩ ((request 1).toBytes ++ reset.toBytes) |>.endpoint
    let visits := [.evict, .receive (late.toBytes ++ (request 3).toBytes)]
    server.codec.Closed 1 ∧ server.codec.deliveries visits = [.headers 3 [⟨"a", "b"⟩] false] ∧
      server.codec.deliveries (visits.filter Visit.receives) = [.headers 3 [⟨"a", "b"⟩] false] := by
  intro request reset late server visits
  have reachable : server.codec.Reachable := .process (.create .server 16384) .recorder [] _
  let start : Endpoint Unit (List Callback) := ⟨server.codec, []⟩
  have quiet : ∀ m ∈ start.history .recorder (visits.map Visit.deed), m.evicts = true →
      m.codec.openBlock? = none ∧ ¬m.codec.Closed 3 := by decide +kernel
  have founded : ∀ m ∈ start.history .recorder (visits.map Visit.deed),
      m.founds? = none ∨ m.founds? = some 3 := by decide +kernel
  have same := eviction_is_invisible reachable visits
    (fun m member evicts id opened => by simp [(quiet m member evicts).1] at opened)
    (fun front m after id split founds dropped => by
      obtain ⟨earlier, member, evicts, closed⟩ := dropped
      rcases founded m (split ▸ by simp) with none | three
      · rw [none] at founds
        cases founds
      · rw [three] at founds
        cases founds
        exact (quiet earlier (split ▸ List.mem_append_left _ member) evicts).2 closed)
  have delivered : server.codec.deliveries visits = [.headers 3 [⟨"a", "b"⟩] false] := by
    decide +kernel
  exact ⟨by decide +kernel, delivered, same.symm.trans delivered⟩

/-- A client that evicts while the header block of a response is open, which ends its stream, loses the
response. A server that evicts a stream that its client has reset delivers a second request on it. -/
theorem eviction_loses_and_repeats_headers :
    let opening := Frame.ofParts .headers Flag.endStream 1 [97, 61]
    let ending := Frame.ofParts .continuation Flag.endHeaders 1 [98, 13, 10]
    let opened : Codec Unit := ((Codec.create .client 16384).perform .openStream).2
    let client := (opened.perform (.pushHeaders 1 [] true)).2
    let response := [.receive opening.toBytes, .evict, .receive ending.toBytes]
    let request := Frame.ofParts .headers Flag.endHeaders 1 [97, 61, 98, 13, 10]
    let reset := Frame.ofParts .rstStream 0 1 [0, 0, 0, 8]
    let server : Codec Unit := .create .server 16384
    let requests :=
      [.receive (request.toBytes ++ reset.toBytes), .evict, .receive request.toBytes]
    client.Reachable ∧ client.deliveries response = [] ∧
      client.deliveries (response.filter Visit.receives) = [.headers 1 [⟨"a", "b"⟩] true] ∧
      server.deliveries requests =
        [.headers 1 [⟨"a", "b"⟩] false, .headers 1 [⟨"a", "b"⟩] false] ∧
      server.deliveries (requests.filter Visit.receives) = [.headers 1 [⟨"a", "b"⟩] false] := by
  intro opening ending opened client response request reset server requests
  have reachable : client.Reachable :=
    .perform (.perform (.create .client 16384) .openStream) (.pushHeaders 1 [] true)
  exact ⟨reachable, by decide +kernel⟩

end Http2
