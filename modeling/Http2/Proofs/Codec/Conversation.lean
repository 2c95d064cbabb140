import Http2.Proofs.Codec.Operations
import Http2.Proofs.Codec.Process

/-!
# One end of a conversation

An endpoint that keeps a history, sends by local operations and by the operations of its callbacks,
and receives what the other end sends. `Converses` is its invariant. `speaks_act` is the step for a
local script, `speaks_dispatch` the step for a received frame, and `hears_process` goes through a chunk
of bytes: whatever arrives, in whatever pieces, causes no fault.
-/

namespace Http2

variable {δ σ α : Type}

/-- Operations that leave queued frames to the channel, keep every stream, and queue no header block
that is larger than a receiver accepts. -/
def Event.Allowed (event : Event δ) : Prop :=
  event.Modest ∧ event.popped = []

/-- A history in which only allowed operations are performed. -/
def Orderly (log : List (Event δ)) : Prop :=
  ∀ event ∈ log, event.Allowed

/-- Every error that a history tells of concerns a stream that this side had reset before. -/
def Excused (log : List (Event δ)) : Prop :=
  ∀ before id fault after, log = before ++ .called (.error id fault) :: after →
    ∃ code, .performed (.pushReset id code) (.ok ()) ∈ before

namespace Excused

variable {log events : List (Event δ)} {event : Event δ}

theorem nil : Excused ([] : List (Event δ)) := by
  intro before id fault after split
  simp at split

/-- An error may be added to an excused history if the reset of its stream is in it. -/
theorem snoc (excused : Excused log)
    (reset : ∀ id fault, event = .called (.error id fault) →
      ∃ code, .performed (.pushReset id code) (.ok ()) ∈ log) : Excused (log ++ [event]) := by
  intro before id fault after split
  rcases List.eq_nil_or_concat after with rfl | ⟨after, last, rfl⟩
  · obtain ⟨rfl, same⟩ := List.append_inj' split rfl
    exact reset id fault (List.singleton_inj.mp same)
  · rw [List.concat_eq_append, ← List.cons_append, ← List.append_assoc] at split
    exact excused before id fault after (List.append_inj' split rfl).1

/-- What adds no error keeps a history excused. -/
theorem append (excused : Excused log)
    (fine : ∀ event ∈ events, ∀ id fault, event ≠ .called (.error id fault)) :
    Excused (log ++ events) := by
  induction events generalizing log with
  | nil => rwa [List.append_nil]
  | cons event events ih =>
    rw [List.append_cons]
    apply ih
    · apply excused.snoc
      intro id fault same
      exact absurd same (fine event List.mem_cons_self id fault)
    · intro later member
      exact fine later (List.mem_cons_of_mem event member)

end Excused

/-- A script only performs operations. -/
theorem Script.ne_called_of_mem_steps {s : Script δ α} {c : Codec δ} {event : Event δ}
    (member : event ∈ s.steps c) (callback : Callback) : event ≠ .called callback := by
  induction s generalizing c with
  | done value => simp [steps] at member
  | call op next ih =>
    rcases List.mem_cons.mp member with rfl | member
    · simp
    · exact ih _ member

/-- Callbacks that frames call for by themselves are never errors. -/
theorem View.firing_ne_error (gathered : List Frame) (f : Frame) (id : UInt32)
    (fault : StreamError) : View.firing gathered f ≠ some (.error id fault) := by
  unfold View.firing
  split
  · split <;> simp
  · split <;> simp
  · simp
  · simp

namespace Endpoint

variable {e e' : Endpoint δ (σ × List (Event δ))} {sent sent' received received' : View} {f : Frame}

/-- An endpoint that is what the frames sent and received make it. Its history tells which streams it
has opened and reset. -/
structure Converses (e : Endpoint δ (σ × List (Event δ))) (sent received : View) : Prop where
  side : e.codec.Side sent received
  resets : ∀ id, sent.phase id = .reset →
    ∃ code, .performed (.pushReset id code) (.ok ()) ∈ e.app.2
  opened : ∀ id, some id ∈ e.app.2.map Event.opened → e.codec.streams.contains id
  excused : Excused e.app.2

/-- A fresh end has sent and received nothing. -/
theorem converses_create (role : Role) (maxFrameSize : Nat) (app : σ) :
    ({ codec := .create role maxFrameSize, app := (app, []) } :
      Endpoint δ (σ × List (Event δ))).Converses {} {} where
  side := Codec.side_create role maxFrameSize
  resets id reset := by cases reset
  opened id member := by cases member
  excused := .nil

/-- The codec may be exchanged for one that agrees with the frames and still knows the streams. -/
theorem Converses.withCodec (converses : e.Converses sent received) {c : Codec δ}
    (side : c.Side sent received')
    (known : ∀ id, e.codec.streams.contains id → c.streams.contains id) :
    ({ e with codec := c } : Endpoint δ (σ × List (Event δ))).Converses sent received' where
  side := side
  resets := converses.resets
  opened id member := known id (converses.opened id member)
  excused := converses.excused

/-- The history goes on with a callback. -/
def logging (e : Endpoint δ (σ × List (Event δ))) (callback : Callback) :
    Endpoint δ (σ × List (Event δ)) :=
  { e with app := (e.app.1, e.app.2 ++ [.called callback]) }

/-- A callback may be recorded if it is no error, or one of a stream that was reset. -/
theorem Converses.logging (converses : e.Converses sent received) {callback : Callback}
    (reset : ∀ id fault, callback = .error id fault → sent.phase id = .reset) :
    (e.logging callback).Converses sent received where
  side := converses.side
  resets id past := by
    obtain ⟨code, member⟩ := converses.resets id past
    exact ⟨code, List.mem_append_left _ member⟩
  opened id member := by
    apply converses.opened id
    simpa [Endpoint.logging, Event.opened] using member
  excused := by
    apply converses.excused.snoc
    intro id fault same
    exact converses.resets id (reset id fault (Event.called.inj same))

/-- What an endpoint has put on its queue between two of its states. -/
structure Speaks (received : View) (e : Endpoint δ (σ × List (Event δ))) (sent : View)
    (e' : Endpoint δ (σ × List (Event δ))) (sent' : View) (frames : List Frame) : Prop where
  converses : e'.Converses sent' received
  queued : e'.codec.outbound = e.codec.outbound ++ frames
  runs : View.Runs received.begun sent frames sent'
  fits : ∀ f ∈ frames, f.length ≤ max 4 e.codec.maxFrameSize

/-- Plays a script and keeps a history of it. -/
def act (e : Endpoint δ (σ × List (Event δ))) (s : σ → Script δ σ) :
    Endpoint δ (σ × List (Event δ)) :=
  e.play fun (app, log) => (s app).traced log

/-- Playing a script with a history is running it and recording its steps. -/
theorem act_eq (e : Endpoint δ (σ × List (Event δ))) (s : σ → Script δ σ) :
    e.act s = { codec := ((s e.app.1).run e.codec).2,
                app := (((s e.app.1).run e.codec).1, e.app.2 ++ (s e.app.1).steps e.codec) } := by
  simp only [act, play, Script.run_traced]

/-- To report to a tracing handler is to record the callback and then to play its script. -/
theorem report_traced (h : Handler δ σ) (e : Endpoint δ (σ × List (Event δ)))
    (callback : Callback) : e.report h.traced callback = (e.logging callback).act (h.on callback) := by
  obtain ⟨codec, app, log⟩ := e
  simp only [report, act, play, logging, Handler.on_traced]

/-! ## Histories only grow -/

/-- What the application does is added to the history, which keeps what it has. -/
theorem grows_act (e : Endpoint δ (σ × List (Event δ))) (s : σ → Script δ σ) :
    e.app.2 <+: (e.act s).app.2 := by
  rw [act_eq]
  exact List.prefix_append _ _

/-- A report is added to the history, which keeps what it has. -/
theorem grows_report (h : Handler δ σ) (e : Endpoint δ (σ × List (Event δ)))
    (callback : Callback) : e.app.2 <+: (e.report h.traced callback).app.2 := by
  rw [report_traced]
  exact (List.prefix_append _ _).trans (grows_act (e.logging callback) _)

/-- A received frame only adds to the history. -/
theorem grows_dispatch (h : Handler δ σ) (e : Endpoint δ (σ × List (Event δ))) (f : Frame) :
    e.app.2 <+: (e.dispatch h.traced f).endpoint.app.2 := by
  have keeps : h.traced.Keeps fun e' => e.app.2 <+: e'.app.2 :=
    { stored := fun _ _ _ before => before
      headers := fun e' id fields last before =>
        before.trans (grows_report h e' (.headers id fields last))
      body := fun e' id data last before => before.trans (grows_report h e' (.body id data last))
      error := fun e' id fault before => before.trans (grows_report h e' (.error id fault)) }
  exact keeps.dispatch List.prefix_rfl f

/-! ## One step -/

/-- A local script. -/
theorem speaks_act {s : σ → Script δ σ} (converses : e.Converses sent received)
    (positive : 1 ≤ e.codec.maxFrameSize) (orderly : Orderly (e.act s).app.2) :
    ∃ sent' frames, Speaks received e sent (e.act s) sent' frames := by
  rw [act_eq] at orderly ⊢
  have allowed : Orderly ((s e.app.1).steps e.codec) :=
    fun event member => orderly event (List.mem_append_right _ member)
  obtain ⟨sent', frames, sends⟩ := Codec.sends_run converses.side positive (s e.app.1)
    fun event member => (allowed event member).1
  refine ⟨sent', frames, ⟨sends.side, ?resets, ?opened, ?excused⟩, ?queued, sends.runs, sends.fits⟩
  case resets =>
    intro id past
    rcases sends.resets id past with before | ⟨code, member⟩
    · obtain ⟨code, member⟩ := converses.resets id before
      exact ⟨code, List.mem_append_left _ member⟩
    · exact ⟨code, List.mem_append_right _ member⟩
  case opened =>
    intro id member
    rw [List.map_append, List.mem_append] at member
    exact sends.known id (member.imp_left (converses.opened id))
  case excused =>
    apply converses.excused.append
    intro event member id fault
    exact Script.ne_called_of_mem_steps member (.error id fault)
  case queued =>
    have queued := sends.queued
    rwa [List.flatMap_eq_nil_iff.mpr fun event member => (allowed event member).2] at queued

/-- A received frame. -/
theorem speaks_dispatch {h : Handler δ σ} (converses : e.Converses sent received)
    (positive : 1 ≤ e.codec.maxFrameSize) (takes : View.Takes sent.begun received f received')
    (orderly : Orderly (e.dispatch h.traced f).endpoint.app.2) :
    (e.dispatch h.traced f).fault = none ∧
      ∃ sent' frames, Speaks received' e sent (e.dispatch h.traced f).endpoint sent' frames := by
  obtain ⟨s, callback, receives⟩ := receives_of_takes h.traced converses.side takes
  rw [receives.dispatched] at orderly ⊢
  refine ⟨rfl, ?_⟩
  have stored : ((e.note f).putStream s).Converses sent received' :=
    converses.withCodec receives.side fun id => Codec.contains_putStream (e.note f).codec s
  cases callback with
  | none => exact ⟨sent, [], stored, (List.append_nil _).symm, .nil sent, by simp⟩
  | some callback =>
    have logged : (((e.note f).putStream s).logging callback).Converses sent received' := by
      apply stored.logging
      rintro id fault rfl
      rcases receives.reported with reported | ⟨reset, fault', same⟩
      · exact absurd reported.symm (View.firing_ne_error _ _ id fault)
      · cases same
        exact reset
    simp only [answer, report_traced] at orderly ⊢
    obtain ⟨sent', frames, speaks⟩ := speaks_act logged positive orderly
    exact ⟨sent', frames, speaks.converses, speaks.queued, speaks.runs, speaks.fits⟩

/-! ## Received bytes -/

/-- How far an endpoint has come since it was in state `e₀`. The other end has sent what makes `theirs`,
of which the frames `rest` and then those in `queue` are still to come; this end has said `said`. -/
structure Hears (e₀ : Endpoint δ (σ × List (Event δ))) (sent₀ theirs : View) (queue : List Frame)
    (e : Endpoint δ (σ × List (Event δ))) (rest : List Frame) (sent received : View)
    (said : List Frame) : Prop where
  converses : e.Converses sent received
  coming : View.Runs sent.begun received (rest ++ queue) theirs
  queued : e.codec.outbound = e₀.codec.outbound ++ said
  runs : View.Runs theirs.begun sent₀ said sent
  fits : ∀ f ∈ said, f.length ≤ max 4 e₀.codec.maxFrameSize
  role : e.codec.role = e₀.codec.role
  size : e.codec.maxFrameSize = e₀.codec.maxFrameSize

variable {e₀ : Endpoint δ (σ × List (Event δ))} {sent₀ theirs : View} {queue rest said : List Frame}

/-- How far an endpoint has come does not depend on what its assembler holds. -/
theorem Hears.withAssembler (hears : Hears e₀ sent₀ theirs queue e rest sent received said)
    (a : Assembler) : Hears e₀ sent₀ theirs queue (e.withAssembler a) rest sent received said where
  converses :=
    hears.converses.withCodec (hears.converses.side.of_same rfl rfl rfl rfl) fun _ known => known
  coming := hears.coming
  queued := hears.queued
  runs := hears.runs
  fits := hears.fits
  role := hears.role
  size := hears.size

/-- One more frame. -/
theorem hears_dispatch {h : Handler δ σ} (positive : 1 ≤ e₀.codec.maxFrameSize)
    (hears : Hears e₀ sent₀ theirs queue e (f :: rest) sent received said)
    (orderly : Orderly (e.dispatch h.traced f).endpoint.app.2) :
    (e.dispatch h.traced f).fault = none ∧ ∃ sent' received' said',
      Hears e₀ sent₀ theirs queue (e.dispatch h.traced f).endpoint rest sent' received' said' := by
  have framing := sameFraming_dispatch h.traced e f
  have coming := hears.coming
  cases coming with
  | @cons _ received' _ _ _ takes later =>
    obtain ⟨fine, sent', frames, speaks⟩ :=
      speaks_dispatch hears.converses (by rwa [hears.size]) takes orderly
    -- The answers to this frame may refer to streams that later frames open.
    have answers := speaks.runs.mono fun id => later.begun_mono
    refine ⟨fine, sent', received', said ++ frames, speaks.converses, ?_, ?_, ?_, ?_, ?_, ?_⟩
    · exact later.mono fun id => speaks.runs.begun_mono
    · rw [speaks.queued, hears.queued, List.append_assoc]
    · exact hears.runs.append answers
    · intro g member
      rcases List.mem_append.mp member with member | member
      · exact hears.fits g member
      · rw [← hears.size]
        exact speaks.fits g member
    · rw [framing.role, hears.role]
    · rw [framing.maxFrameSize, hears.size]

/-- A local script, between received frames. -/
theorem hears_act {s : σ → Script δ σ} (converses : e.Converses sent received)
    (positive : 1 ≤ e.codec.maxFrameSize)
    (coming : View.Runs sent.begun received (rest ++ queue) theirs)
    (orderly : Orderly (e.act s).app.2) :
    ∃ sent' said, Hears e sent theirs queue (e.act s) rest sent' received said := by
  have framing := sameFraming_play e fun (app, log) => (s app).traced log
  obtain ⟨sent', said, speaks⟩ := speaks_act converses positive orderly
  exact ⟨sent', said, speaks.converses, coming.mono fun id => speaks.runs.begun_mono, speaks.queued,
    speaks.runs.mono fun id => coming.begun_mono, speaks.fits, framing.role, framing.maxFrameSize⟩

/-- A chunk of bytes, of frames that are still to come. -/
theorem hears_process {h : Handler δ σ} {pending : List Frame} {chunk more : Bytes}
    (framed : e.codec.Framed) (converses : e.Converses sent received)
    (coming : View.Runs sent.begun received (pending ++ queue) theirs)
    (fits : ∀ f ∈ pending, f.length ≤ e.codec.maxFrameSize)
    (spelled : e.codec.assembler.progress.buffer ++ chunk ++ more = pending.flatMap Frame.toBytes)
    (orderly : Orderly (e.process h.traced chunk).endpoint.app.2) :
    (e.process h.traced chunk).fault = none ∧ ∃ rest sent' received' said, rest <:+ pending ∧
      Hears e sent theirs queue (e.process h.traced chunk).endpoint rest sent' received' said ∧
      (e.process h.traced chunk).endpoint.codec.assembler.progress.buffer ++ more =
        rest.flatMap Frame.toBytes := by
  have start : ∃ sent' received' said, Hears e sent theirs queue e pending sent' received' said :=
    ⟨sent, received, [], converses, coming, (List.append_nil _).symm, .nil sent, by simp, rfl, rfl⟩
  obtain ⟨fine, rest, left, ⟨sent', received', said, hears⟩, held⟩ := process_frames h.traced
    (P := fun e' rest => ∃ sent' received' said,
      Hears e sent theirs queue e' rest sent' received' said)
    (Q := fun app => Orderly app.2)
    (fun _ _ _ ⟨_, _, _, hears⟩ orderly => hears_dispatch framed.positive hears orderly)
    (fun _ a _ ⟨_, _, _, hears⟩ => ⟨_, _, _, hears.withAssembler a⟩)
    (fun e f orderly event member => orderly event ((grows_dispatch h e f).subset member))
    framed start fits spelled orderly
  exact ⟨fine, rest, sent', received', said, left, hears, held⟩

end Endpoint

end Http2
