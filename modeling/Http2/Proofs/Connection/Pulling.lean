import Http2.Proofs.Connection.Requesting
import Http2.Proofs.Connection.Writing

/-!
# Pulling bodies

A pull asks the application once for each body in progress, in turn order. `Connection.asks` lists these
calls: an `Asked` is what the application was handed, what it replied, and whether its piece could be
queued. Everything that a pull does is said in terms of them: which bodies go on (`inProgress_pullBodies`),
and which frames are queued if the callbacks themselves queue none (`queued_turn`). That the calls are
really made, and no others, shows in the state of an application that keeps a list of them
(`Handler.Notes`).
-/

namespace Http2

variable {δ σ α β : Type}

/-! ## What scripts queue -/

namespace Script

/-- The moments of scripts in sequence are those of the first and then those of the second. -/
theorem moments_bind (s : Script δ α) (f : α → Script δ β) (c : Codec δ) :
    (s.bind f).moments c = s.moments c ++ (f (s.run c).1).moments (s.run c).2 := by
  induction s generalizing c with
  | done value => rfl
  | call op next ih => exact congrArg (_ :: ·) (ih _ _)

/-- A script that takes nothing off the queue adds what it queues at the end. -/
theorem outbound_run (s : Script δ α) (c : Codec δ)
    (kept : ∀ m ∈ s.moments c, m.Within (· ≠ .popOutbound)) :
    (s.run c).2.outbound = c.outbound ++ (s.moments c).flatMap Moment.queued := by
  induction s generalizing c with
  | done value => exact (List.append_nil _).symm
  | call op next ih =>
    obtain ⟨here, later⟩ := List.forall_mem_cons.mp kept
    have grown := c.outbound_perform (here op _ rfl)
    rw [run_call, ih _ _ later, grown, List.append_assoc]
    rfl

end Script

namespace Codec

/-- The frames of a push depend on nothing but the size that frames are cut to. -/
theorem framesOf_congr {c c' : Codec δ} (same : c'.maxFrameSize = c.maxFrameSize) :
    c'.framesOf = c.framesOf := by
  funext id p
  cases p <;> simp only [framesOf, same]

/-- A push that succeeds queues exactly the frames of the push. -/
theorem queues_of_push {c c' : Codec δ} {id : UInt32} {p : Push} (pushed : c.push id p = (.ok (), c')) :
    c.Queues id p (c.framesOf id p) c' := by
  rcases c.denies_or_accepted id p with ⟨fault, denies⟩ | ⟨s, next, fits, found, accepted⟩
  · rw [push_of_denies denies] at pushed
    cases pushed
  · rw [push_of_accepted fits found accepted] at pushed
    cases pushed
    exact queues_of_accepted found accepted _

/-- Headers that are pushed with success are queued as one block. -/
theorem queues_of_pushHeaders {c c' : Codec δ} {id : UInt32} {fields : List Field} {last : Bool}
    (pushed : c.pushHeaders id fields last = (.ok (), c')) :
    c.Queues id (.headers fields last) (c.framesOf id (.headers fields last)) c' :=
  queues_of_push pushed

/-- A push queues its frames, or none if it is refused. -/
theorem outbound_push (c : Codec δ) (id : UInt32) (p : Push) :
    (c.push id p).2.outbound =
      c.outbound ++ if (c.push id p).1.isOk then c.framesOf id p else [] := by
  rcases c.denies_or_accepted id p with ⟨fault, denies⟩ | ⟨s, next, fits, found, accepted⟩
  · rw [push_of_denies denies]
    exact (List.append_nil _).symm
  · rw [push_of_accepted fits found accepted]
    rfl

/-- A body segment is queued if it is not refused, and otherwise nothing is. -/
theorem queued_pushData (c : Codec δ) (id : UInt32) (bytes : Bytes) (last : Bool) :
    Moment.queued ⟨c, .performed (.pushData id bytes last) (c.perform (.pushData id bytes last)).1⟩ =
      if (c.push id (.data bytes last)).1.isOk then c.framesOf id (.data bytes last) else [] := by
  have kept : (.pushData id bytes last : Op δ) ≠ .popOutbound := nofun
  have pushed := c.outbound_push id (.data bytes last)
  exact List.append_cancel_left ((c.outbound_perform kept).symm.trans pushed)

end Codec

/-! ## Calls for body bytes -/

/-- One call for body bytes. -/
structure Asked (σ : Type) where
  /-- The stream of the body. -/
  id : UInt32
  /-- The buffer that the application was handed. -/
  buffer : Bytes
  reply : BodyReply σ
  /-- The answer when the piece was pushed. -/
  pushed : Except SendError Unit

namespace Asked

/-- The application reported that no more body follows. -/
def finished (a : Asked σ) : Bool :=
  a.reply.chunk.finished

/-- The piece was not refused. -/
def accepted (a : Asked σ) : Bool :=
  a.pushed.isOk

/-- The body stays in progress. -/
def goesOn (a : Asked σ) : Bool :=
  a.accepted && !a.finished

/-- The bytes that count: at the front of the buffer as the application left it, as many as it reported to
have written, but no more than the buffer has. -/
def piece (a : Asked σ) : Bytes :=
  let filled := overlay a.buffer a.reply.stored
  filled.take (min a.reply.chunk.written filled.length)

/-- What is sent of the body. -/
def push (a : Asked σ) : Push :=
  .data a.piece a.finished

/-- The piece with its stream. -/
def sent (a : Asked σ) : UInt32 × Push :=
  (a.id, a.push)

/-- The frames that are queued, if the codec cuts frames to the size of this one. -/
def frames (c : Codec δ) (a : Asked σ) : List Frame :=
  if a.accepted then c.framesOf a.id a.push else []

/-- No more of a piece counts than the buffer holds. -/
theorem length_piece (a : Asked σ) : a.piece.length = min a.reply.chunk.written a.buffer.length := by
  rw [piece, List.length_take, Connection.length_overlay, Nat.min_assoc, Nat.min_self]

/-- A body does not go on if it is finished, or if its piece is refused. -/
theorem not_goesOn (a : Asked σ) : ¬a.goesOn ↔ a.finished ∨ ∃ fault, a.pushed = .error fault := by
  rw [goesOn, accepted]
  cases a.pushed with
  | error fault => simp [Except.isOk, Except.toBool]
  | ok => simp [Except.isOk, Except.toBool]

end Asked

namespace Connection

variable {c : Connection δ σ}

/-- The call that pulling one body makes. -/
def asked (c : Connection δ σ) (buffer : Bytes) (id : UInt32) : Asked σ :=
  let pulled := (c.pullScript buffer id).run c.codec
  { id, buffer, reply := pulled.1.1, pushed := pulled.1.2 }

/-- The calls that pulling some bodies makes, one after the other. -/
def asks (c : Connection δ σ) (buffer : Bytes) : List UInt32 → List (Asked σ)
  | [] => []
  | id :: ids => c.asked buffer id :: asks (c.pullBody buffer id).1 (c.pullBody buffer id).2 ids

/-- The calls that a turn makes. -/
def asksIn (c : Connection δ σ) : Turn δ σ → List (Asked σ)
  | .pull buffer => ({ c with inProgress := [] } : Connection δ σ).asks buffer c.inProgress
  | .read _ | .write | .start _ | .abandon | .deed _ | .meet _ _ => []

/-- There is one call for each of the bodies, in order. -/
theorem map_id_asks (c : Connection δ σ) (buffer : Bytes) (ids : List UInt32) :
    (c.asks buffer ids).map Asked.id = ids := by
  induction ids generalizing c buffer with
  | nil => rfl
  | cons id ids ih => exact congrArg (id :: ·) (ih _ _)

/-- A pull calls for each body in progress once, in turn order. -/
theorem map_id_asksIn_pull (c : Connection δ σ) (buffer : Bytes) :
    (c.asksIn (.pull buffer)).map Asked.id = c.inProgress :=
  map_id_asks _ _ _

/-- A body goes to the end of the list exactly if its piece was accepted and more is to come. -/
theorem pullingOn_eq (c : Connection δ σ) (id : UInt32) (reply : BodyReply σ)
    (pushed : Except SendError Unit) :
    c.pullingOn id reply pushed =
      c.inProgress ++ if pushed.isOk && !reply.chunk.finished then [id] else [] := by
  cases pushed with
  | error fault => exact (List.append_nil _).symm
  | ok _ =>
    simp only [pullingOn, Except.isOk, Except.toBool, Bool.true_and]
    cases reply.chunk.finished <;> simp

/-- A body that was asked for stays at the end of the list of those in progress if it goes on. -/
theorem inProgress_pullBody (c : Connection δ σ) (buffer : Bytes) (id : UInt32) :
    (c.pullBody buffer id).1.inProgress =
      c.inProgress ++ if (c.asked buffer id).goesOn then [id] else [] := by
  rw [pullBody_eq]
  exact c.pullingOn_eq id _ _

/-- After a pull, the bodies in progress are those of which more is to come, in the order of the calls. -/
theorem inProgress_pulls (c : Connection δ σ) (buffer : Bytes) (ids : List UInt32) :
    (ids.foldl (fun (c, buffer) id => c.pullBody buffer id) (c, buffer)).1.inProgress =
      c.inProgress ++ ((c.asks buffer ids).filter Asked.goesOn).map Asked.id := by
  induction ids generalizing c buffer with
  | nil => exact (List.append_nil _).symm
  | cons id ids ih =>
    rw [List.foldl_cons, ih, inProgress_pullBody, asks, List.filter_cons, List.append_assoc]
    split <;> rfl

/-- After a pull, those bodies are in progress whose calls go on, in the same order. -/
theorem inProgress_pullBodies (c : Connection δ σ) (buffer : Bytes) :
    (c.pullBodies buffer).1.inProgress =
      ((c.asksIn (.pull buffer)).filter Asked.goesOn).map Asked.id :=
  inProgress_pulls { c with inProgress := [] } buffer c.inProgress

/-- Every call hands over a buffer of the same length. -/
theorem length_buffer_asks {buffer : Bytes} {ids : List UInt32} :
    ∀ a ∈ c.asks buffer ids, a.buffer.length = buffer.length := by
  induction ids generalizing c buffer with
  | nil => nofun
  | cons id ids ih =>
    refine List.forall_mem_cons.mpr ⟨rfl, fun a member => ?_⟩
    have same : (c.pullBody buffer id).2.length = buffer.length := by
      rw [pullBody_eq]
      exact length_overlay _ _
    exact (ih a member).trans same

/-! ## What the application does in a turn -/

/-- The instants inside the calls for body bytes. -/
def callInstants (c : Connection δ σ) (buffer : Bytes) : List UInt32 → List (Instant δ)
  | [] => []
  | id :: ids =>
    c.during ((c.handler.onDataNeeded c.endpoint.app id buffer).moments c.codec) ++
      callInstants (c.pullBody buffer id).1 (c.pullBody buffer id).2 ids

/-- The instants of a turn in which the application is at work. -/
def applicationInstants (c : Connection δ σ) : Turn δ σ → List (Instant δ)
  | .read buffer => c.readInstants buffer
  | .pull buffer => ({ c with inProgress := [] } : Connection δ σ).callInstants buffer c.inProgress
  | .deed deed => c.instants (.deed deed)
  | .write | .start _ | .abandon | .meet _ _ => []

/-- The application queues nothing itself in a turn. -/
def QuietIn (c : Connection δ σ) (t : Turn δ σ) : Prop :=
  ∀ i ∈ c.applicationInstants t, i.queued = []

/-- The frames of a script's instants are those of its moments. -/
theorem queued_during (c : Connection δ σ) (moments : List (Moment δ)) :
    (c.during moments).flatMap Instant.queued = moments.flatMap Moment.queued := by
  rw [during, List.flatMap_map]
  rfl

/-- What is asked of the codec for one body: first what the callback asks for, then the push of the
piece. -/
theorem moments_pullScript (c : Connection δ σ) (buffer : Bytes) (id : UInt32) :
    let answered := (c.handler.onDataNeeded c.endpoint.app id buffer).run c.codec
    let a := c.asked buffer id
    a.reply = answered.1 ∧ a.pushed = (answered.2.push id a.push).1 ∧
      (c.pullBody buffer id).1.codec = (answered.2.push id a.push).2 ∧
      (c.pullScript buffer id).moments c.codec =
        (c.handler.onDataNeeded c.endpoint.app id buffer).moments c.codec ++
          [⟨answered.2, .performed (.pushData id a.piece a.finished)
            (answered.2.perform (.pushData id a.piece a.finished)).1⟩] := by
  have ran : ((c.pullScript buffer id).run c.codec).1.1 =
      ((c.handler.onDataNeeded c.endpoint.app id buffer).run c.codec).1 := by
    rw [pullScript, Script.run_bind]
    rfl
  rw [codec_pullBody]
  simp only [asked, Asked.push, Asked.piece, Asked.finished, ran, true_and]
  rw [pullScript, Script.run_bind, Script.moments_bind]
  exact ⟨rfl, rfl, rfl⟩

/-- The frames of one call, if the callback itself queues none. -/
theorem queued_pullScript {buffer : Bytes} {id : UInt32}
    (quiet : ∀ i ∈ c.during ((c.handler.onDataNeeded c.endpoint.app id buffer).moments c.codec),
      i.queued = []) :
    (c.during ((c.pullScript buffer id).moments c.codec)).flatMap Instant.queued =
      (c.asked buffer id).frames c.codec := by
  obtain ⟨-, pushed, -, moments⟩ := c.moments_pullScript buffer id
  have silent := List.flatMap_eq_nil_iff.mpr quiet
  have same := Script.sameReceiver_run (c.handler.onDataNeeded c.endpoint.app id buffer) c.codec
  rw [queued_during] at silent ⊢
  rw [moments, List.flatMap_append, silent, List.nil_append, List.flatMap_singleton,
    Codec.queued_pushData, Codec.framesOf_congr same.maxFrameSize, Asked.frames, Asked.accepted, pushed]
  rfl

/-- The frames of a pull are those of its calls, if the callbacks themselves queue none. -/
theorem queued_pullInstants {buffer : Bytes} {ids : List UInt32}
    (quiet : ∀ i ∈ c.callInstants buffer ids, i.queued = []) :
    (c.pullInstants buffer ids).flatMap Instant.queued =
      (c.asks buffer ids).flatMap (Asked.frames c.codec) := by
  induction ids generalizing c buffer with
  | nil => rfl
  | cons id ids ih =>
    rw [callInstants] at quiet
    have same : (c.pullBody buffer id).1.codec.maxFrameSize = c.codec.maxFrameSize :=
      c.codec_pullBody buffer id ▸
        (Script.sameReceiver_run (c.pullScript buffer id) c.codec).maxFrameSize
    have frames : Asked.frames (σ := σ) (c.pullBody buffer id).1.codec = Asked.frames c.codec := by
      funext a
      rw [Asked.frames, Asked.frames, Codec.framesOf_congr same]
    rw [pullInstants, List.flatMap_append, asks, List.flatMap_cons,
      queued_pullScript fun i member => quiet i (List.mem_append_left _ member),
      ih fun i member => quiet i (List.mem_append_right _ member), frames]

/-! ## What a turn sends -/

/-- The header block that a turn sends, if it starts a request. -/
def opens (c : Connection δ σ) : Turn δ σ → List (UInt32 × Push)
  | .start request =>
    match (c.startRequest request).1 with
    | .ok id => [(id, .headers request.fields (!request.hasBody))]
    | .error _ => []
  | .read _ | .write | .pull _ | .abandon | .deed _ | .meet _ _ => []

/-- What a turn sends on streams, in order: the header block of a request that is started, or the pieces of
bodies that are not refused. -/
def sends (c : Connection δ σ) (t : Turn δ σ) : List (UInt32 × Push) :=
  c.opens t ++ ((c.asksIn t).filter Asked.accepted).map Asked.sent

/-- Loading a frame, and giving its bytes to the socket, queues nothing. -/
theorem queued_offer {current loaded : Outflow δ} {idle : Bool} {bytes : Bytes}
    {later : List (Instant δ)} (silent : ∀ i ∈ later, i.queued = []) :
    ∀ i ∈ (if idle then [{ current with happening := .load }] else []) ++
      { loaded with happening := .offer bytes } :: later, i.queued = [] := by
  have offers : ∀ i ∈ ({ loaded with happening := .offer bytes } : Instant δ) :: later, i.queued = [] :=
    List.forall_mem_cons.mpr ⟨rfl, silent⟩
  cases idle with
  | false => exact offers
  | true => exact List.forall_mem_cons.mpr ⟨rfl, offers⟩

/-- Writing queues nothing. -/
theorem queued_writeInstants (c : Connection δ σ) : ∀ i ∈ c.writeInstants, i.queued = [] := by
  induction c using writeLoop.induct_unfolding with
  | case1 c next =>
    rw [writeInstants_of_idle next]
    exact List.forall_mem_nil _
  | case3 c frame cursor loaded next count socket written some ih =>
    rw [writeInstants_of_next next written]
    obtain ⟨fewer, rfl⟩ := Nat.exists_eq_succ_of_ne_zero some
    exact queued_offer ih
  | case2 c frame cursor loaded next socket written
  | case4 c frame cursor loaded next socket written
  | case5 c frame cursor loaded next socket written
  | case6 c frame cursor loaded next name socket written =>
    rw [writeInstants_of_next next written]
    exact queued_offer (List.forall_mem_nil _)

/-- What a request that is started leaves behind. -/
structure Starts (c : Connection δ σ) (request : Request δ) (id : UInt32) (c' : Connection δ σ) :
    Prop where
  next : id = c.codec.nextStreamId
  left : ¬maxStreamId < c.codec.nextStreamId
  counter : c'.codec.nextStreamId = c.codec.nextStreamId + 2
  queue : c'.codec.outbound =
    c.codec.outbound ++ c.codec.framesOf id (.headers request.fields (!request.hasBody))
  bodies : c'.inProgress = c.inProgress ++ if request.hasBody then [id] else []

/-- A request that is started takes the next identifier, queues its headers, and joins the bodies if it
has one. -/
theorem starts_of_ok {request : Request δ} {id : UInt32} {c' : Connection δ σ}
    (answer : c.startRequest request = (.ok id, c')) : c.Starts request id c' := by
  have started {fault : SendError} {c'' : Connection δ σ} (rejects : c.Rejects request fault c'') :
      False := by
    rw [startRequest_of_rejects rejects] at answer
    cases answer
  have left : ¬maxStreamId < c.codec.nextStreamId := fun spent => started (.exhausted spent)
  have free : c.codec.streams.contains c.codec.nextStreamId = false :=
    Bool.eq_false_iff.mpr fun taken => started (.duplicate left taken)
  rw [startRequest_of_free left free] at answer
  rcases written : (c.codec.reserved request.userData).pushHeaders c.codec.nextStreamId
    request.fields (!request.hasBody) with ⟨fault | ⟨⟩, queued⟩
  · simp [written] at answer
  · have queues := Codec.queues_of_pushHeaders written
    simp only [written, Prod.mk.injEq, Except.ok.injEq] at answer
    obtain ⟨rfl, rfl⟩ := answer
    refine ⟨rfl, left, ?_, ?_, ?_⟩
    · split <;> exact queues.counter
    · split <;> exact queues.queue
    · split
      · rfl
      · exact (List.append_nil _).symm

/-- A request takes no frame off the queue. -/
theorem kept_script (request : Request δ) (codec : Codec δ) :
    ∀ m ∈ request.script.moments codec, m.Within (· ≠ .popOutbound) := by
  have keeps (codec : Codec δ) {op : Codec.Op δ} (reply : op.Reply) (other : op ≠ .popOutbound) :
      (⟨codec, .performed op reply⟩ : Moment δ).Within (· ≠ .popOutbound) := by
    rintro _ _ ⟨⟩
    exact other
  have pushes (codec : Codec δ) (id : UInt32) :
      ∀ m ∈ (request.pushScript id).moments codec, m.Within (· ≠ .popOutbound) :=
    List.forall_mem_singleton.mpr (keeps codec _ fun same => by cases same)
  have attaches (codec : Codec δ) (id : UInt32) (attached : Except SendError Unit) :
      ∀ m ∈ (request.attached id attached).moments codec, m.Within (· ≠ .popOutbound) := by
    cases attached with
    | error => exact List.forall_mem_nil _
    | ok => exact pushes codec id
  have opens (codec : Codec δ) (opened : Except SendError UInt32) :
      ∀ m ∈ (request.opened opened).moments codec, m.Within (· ≠ .popOutbound) := by
    cases opened with
    | error => exact List.forall_mem_nil _
    | ok id =>
      rw [Request.opened]
      split
      · exact pushes codec id
      · exact List.forall_mem_cons.mpr ⟨keeps codec _ (fun same => by cases same), attaches _ id _⟩
  exact List.forall_mem_cons.mpr ⟨keeps codec _ (fun same => by cases same), opens _ _⟩

/-- A request queues its header block if it is started, and nothing otherwise. -/
theorem queued_start (c : Connection δ σ) (request : Request δ) :
    (c.instants (.start request)).flatMap Instant.queued =
      (c.sends (.start request)).flatMap fun x => c.codec.framesOf x.1 x.2 := by
  have grown := request.script.outbound_run c.codec (kept_script request c.codec)
  have left : (request.script.run c.codec).2 = (c.startRequest request).2.codec := by
    rw [startRequest_eq]
    rfl
  rw [instants, queued_during, sends, opens, asksIn, List.filter_nil, List.map_nil, List.append_nil]
  refine List.append_cancel_left (grown.symm.trans ?_)
  rw [left]
  rcases answer : c.startRequest request with ⟨fault | id, c'⟩
  · cases startRequest_eq_error.mp answer with
    | exhausted | duplicate | badField => exact (List.append_nil _).symm
  · rw [List.flatMap_singleton]
    exact (starts_of_ok answer).queue

/-- A turn queues the frames of what it sends, if the application queues nothing itself. -/
theorem queued_turn {t : Turn δ σ} (quiet : c.QuietIn t) :
    (c.instants t).flatMap Instant.queued =
      (c.sends t).flatMap fun x => c.codec.framesOf x.1 x.2 := by
  cases t with
  | read | deed => exact List.flatMap_eq_nil_iff.mpr quiet
  | write => exact List.flatMap_eq_nil_iff.mpr (queued_writeInstants _)
  | abandon | meet => rfl
  | start request => exact c.queued_start request
  | pull buffer =>
    have pulled := queued_pullInstants (c := { c with inProgress := [] }) quiet
    rw [instants, pulled, sends, opens, List.nil_append, List.flatMap_map, asksIn]
    induction ({ c with inProgress := [] } : Connection δ σ).asks buffer c.inProgress with
    | nil => rfl
    | cons a asked ih =>
      rw [List.flatMap_cons, ih, Asked.frames, List.filter_cons]
      split <;> rfl

end Connection

/-! ## Applications that note the calls -/

/-- The application keeps a list of the streams that it is asked for bytes of, and does so in no other
call. -/
structure Handler.Notes (h : Handler δ σ) (noted : σ → List UInt32) : Prop where
  asked : ∀ app id buffer codec,
    noted ((h.onDataNeeded app id buffer).run codec).1.app = noted app ++ [id]
  told : ∀ callback app codec, noted ((h.on callback app).run codec).1 = noted app

section Noting

variable {noted : σ → List UInt32} {h : Handler δ σ}

/-- No callback about a received frame asks for body bytes. -/
theorem Handler.Notes.keeps (notes : h.Notes noted) (calls : List UInt32) :
    h.Keeps fun e => noted e.app = calls where
  stored _ _ _ same := same
  headers e id fields last same := (notes.told (.headers id fields last) e.app e.codec).trans same
  body e id data last same := (notes.told (.body id data last) e.app e.codec).trans same
  error e id fault same := (notes.told (.error id fault) e.app e.codec).trans same

/-- Received bytes ask for no body bytes. -/
theorem Endpoint.noted_process (notes : h.Notes noted) (e : Endpoint δ σ) (input : Bytes) :
    noted (e.process h input).endpoint.app = noted e.app := by
  induction e, input using process.induct h with
  | case1 e input a taken => rw [process_of_hungry taken]; rfl
  | case2 e input a fault rest taken => rw [process_of_fault taken]; rfl
  | case3 e input a frame rest taken endpoint handled ih =>
    have dispatched := (notes.keeps _).dispatch (e := e.withAssembler a) rfl frame
    rw [handled] at dispatched
    rw [process_of_frame taken, handled]
    exact ih.trans dispatched
  | case4 e input a frame rest taken faulty =>
    have dispatched := (notes.keeps _).dispatch (e := e.withAssembler a) rfl frame
    rw [process_of_frame taken]
    cases failed : ((e.withAssembler a).dispatch h frame).fault with
    | none =>
      exact absurd (by rw [← failed]) (faulty ((e.withAssembler a).dispatch h frame).endpoint)
    | some fault =>
      rw [Received.andThen_of_some failed]
      exact dispatched

namespace Connection

variable {c : Connection δ σ}

/-- Reading a connection asks for no body bytes. -/
theorem noted_read (notes : c.handler.Notes noted) (buffer : Bytes) :
    noted (c.readAvailable buffer).connection.endpoint.app = noted c.endpoint.app := by
  induction c, buffer using readAvailable.induct_unfolding with
  | case2 c buffer bytes socket found c' some connection fed ih =>
    have taken : noted (c'.takeIn bytes).1.endpoint.app = noted c'.endpoint.app :=
      Endpoint.noted_process notes _ _
    have same : (c'.takeIn bytes).1.handler = c.handler := rfl
    rw [fed] at taken same
    exact (ih (same ▸ notes)).trans taken
  | case3 c buffer bytes socket found c' some connection fault fed =>
    have taken : noted (c'.takeIn bytes).1.endpoint.app = noted c'.endpoint.app :=
      Endpoint.noted_process notes _ _
    rwa [fed] at taken
  | case1 | case4 | case5 | case6 => rfl

/-- Pulling asks the application for bytes of each body, once and in order. -/
theorem noted_pulls (notes : c.handler.Notes noted) (buffer : Bytes) (ids : List UInt32) :
    noted (ids.foldl (fun (c, buffer) id => c.pullBody buffer id) (c, buffer)).1.endpoint.app =
      noted c.endpoint.app ++ ids := by
  induction ids generalizing c buffer with
  | nil => exact (List.append_nil _).symm
  | cons id ids ih =>
    have one : noted (c.pullBody buffer id).1.endpoint.app = noted c.endpoint.app ++ [id] := by
      rw [pullBody_eq]
      exact (congrArg (noted ·.app) (c.moments_pullScript buffer id).1).trans
        (notes.asked c.endpoint.app id buffer c.codec)
    have onward := ih (c := (c.pullBody buffer id).1) (c.handler_pullBody buffer id ▸ notes)
      (c.pullBody buffer id).2
    rw [one, List.append_assoc] at onward
    exact onward

/-- In every turn of its own, a connection makes the calls listed and no others. -/
theorem noted_turn (notes : c.handler.Notes noted) {t : Turn δ σ} (own : ∀ deed, t ≠ .deed deed) :
    noted (c.turn t).endpoint.app = noted c.endpoint.app ++ (c.asksIn t).map Asked.id := by
  cases t with
  | read buffer => exact (noted_read notes buffer).trans (List.append_nil _).symm
  | write =>
    obtain ⟨outbound, sending, socket, health, wrote⟩ := c.takeWriteSignal.2.exists_writeLoop
    rw [turn, writePending, wrote]
    exact (List.append_nil _).symm
  | start request =>
    rw [turn, startRequest_eq]
    exact (List.append_nil _).symm
  | pull buffer =>
    rw [map_id_asksIn_pull]
    exact noted_pulls (c := { c with inProgress := [] }) notes buffer c.inProgress
  | deed deed => exact absurd rfl (own deed)
  | abandon | meet => exact (List.append_nil _).symm

end Connection

end Noting

end Http2
