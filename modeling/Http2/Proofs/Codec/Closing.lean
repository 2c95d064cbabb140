import Http2.Proofs.Codec.History

/-!
# Closed streams

Neither table accepts anything on a closed stream, so only eviction opens its identifier again. What is
left on such a stream is the header block that was open when it closed: its frames are still taken, and
the last one delivers it. `outcome_of_closed` says what a received frame makes of a closed stream; the
rule of histories gives what follows in every run.
-/

namespace Http2

variable {δ σ : Type}

namespace StreamState

/-- On a closed stream, PRIORITY, RST_STREAM and WINDOW_UPDATE are ignored, and all other frames are
rejected as `streamClosed`. -/
theorem transition_closed_inbound (kind : FrameKind) (flags : UInt8) :
    (closed.transition .inbound kind flags = .ignore ∧
      (kind = .priority ∨ kind = .rstStream ∨ kind = .windowUpdate)) ∨
    (closed.transition .inbound kind flags = .reject .streamClosed ∧
      ¬(kind = .priority ∨ kind = .rstStream ∨ kind = .windowUpdate)) := by
  simp only [transition, receive]
  split <;> simp_all

/-- Nothing that is sent moves a closed stream. -/
theorem transition_closed_outbound (kind : FrameKind) (flags : UInt8) (next : StreamState) :
    closed.transition .outbound kind flags ≠ .accept next := by
  simp only [transition, send]
  split <;> simp

/-- No transition leads out of the closed state, in either direction. -/
theorem lasting_closed : Lasting (· = closed) where
  seen := nofun
  closes := rfl
  receives := by
    rintro _ next kind flags rfl accepted
    rcases transition_closed_inbound kind flags with ⟨decided, -⟩ | ⟨decided, -⟩ <;>
      simp [decided] at accepted
  sends := by
    rintro _ next kind flags rfl accepted
    exact absurd accepted (transition_closed_outbound kind flags next)

end StreamState

/-- The stream is closed, and no header block is in progress on it. -/
structure Stream.Spent (s : Stream δ) : Prop where
  closed : s.state = .closed
  settled : s.awaiting = false

theorem Stream.spent_failed (s : Stream δ) : s.failed.Spent := ⟨rfl, rfl⟩

namespace Codec

variable {c c' arrival : Codec δ} {f : Frame} {callback : Option Callback}
  {fault : Option FrameError} {id : UInt32}

/-- The stream is closed. -/
def Closed (c : Codec δ) (id : UInt32) : Prop :=
  (c.streams.inbound id).state = .closed

instance (c : Codec δ) (id : UInt32) : Decidable (c.Closed id) :=
  inferInstanceAs (Decidable (_ = _))

/-- The stream is closed, and no header block is in progress on it. -/
def Ended (c : Codec δ) (id : UInt32) : Prop :=
  (c.streams.inbound id).Spent

/-! ## Received frames -/

/-- The receive table accepts no frame on a closed stream. -/
theorem Closed.not_accepted (closed : c.Closed f.stream) (next : StreamState) :
    c.verdict f ≠ .accept next := by
  rw [verdict, closed]
  rcases StreamState.transition_closed_inbound f.kind f.flags with ⟨decided, -⟩ | ⟨decided, -⟩ <;>
    simp [decided]

/-- A received frame leaves a closed stream as it was or fails it, unless it continues the header block
that is open on it. -/
theorem outcome_of_closed (closed : c.Closed id) (outcome : Outcome c f c' callback fault) :
    c'.streams.inbound id = c.streams.inbound id ∨
    c'.streams.inbound id = (c.streams.inbound id).failed ∨
    (c.Awaits id ∧ c'.Closed id) := by
  have turns := outcome.turns id
  rw [Closed]
  generalize c'.streams.inbound id = s' at turns ⊢
  cases turns with
  | kept => exact .inl rfl
  | failed => exact .inr (.inl rfl)
  | moved _ here accepted =>
    subst here
    exact absurd accepted (closed.not_accepted _)
  | opened _ here accepted =>
    subst here
    exact absurd accepted (closed.not_accepted _)
  | continued opened collects =>
    refine .inr (.inr ⟨awaits_of_openBlock? opened, ?_⟩)
    cases collects with
    | kept => exact closed
    | delivered => exact closed
    | overflowed => rfl

/-! ## What stays -/

/-- A received frame brings no stream back that is closed and has no block in progress. -/
theorem ended_outcome (ended : c.Ended id) (outcome : Outcome c f c' callback fault) :
    c'.Ended id := by
  rcases outcome_of_closed ended.closed outcome with same | failed | ⟨awaits, -⟩
  · rwa [Ended, same]
  · rw [Ended, failed]
    exact Stream.spent_failed _
  · exact absurd awaits (Bool.eq_false_iff.mp ended.settled)

/-- An operation other than eviction opens or ends no received header block. -/
theorem awaits_perform {op : Op δ} (kept : op ≠ .evictClosed) :
    (c.perform op).2.Awaits id ↔ c.Awaits id := by
  rw [Awaits, Awaits, (block_of_edits (edits_perform c kept) id).1]

namespace Leads.Keeps

/-- A closed stream stays closed unless it is evicted. -/
protected theorem closed (id : UInt32) :
    Keeps (· ≠ .evictClosed) fun c : Codec δ => c.Closed id :=
  .state StreamState.lasting_closed id

/-- No header block is opened on a closed stream. -/
protected theorem ended (id : UInt32) :
    Keeps (· ≠ .evictClosed) fun c : Codec δ => c.Ended id where
  perform op kept ended :=
    ⟨(Leads.Keeps.closed id).perform op kept ended.closed,
      (block_of_edits (edits_perform _ kept) id).1.trans ended.settled⟩
  receive outcome ended := ended_outcome ended outcome
  fail _ ended := by
    rw [Ended, failed, putStream, Registry.inbound_put]
    split
    · exact Stream.spent_failed _
    · exact ended
  reassemble _ ended := ended

end Leads.Keeps

/-! ## What is sent -/

/-- Nothing can be sent on the stream: every push is an error that leaves the codec as it is. -/
structure Refuses (c : Codec δ) (id : UInt32) : Prop where
  headers : ∀ fields last, c.perform (.pushHeaders id fields last) =
    (Except.error (match HeaderBlock.encode? fields with
      | .error fault => .badField fault
      | .ok _ => .illegalTransition id .closed .headers), c)
  data : ∀ data last,
    c.perform (.pushData id data last) = (Except.error (.illegalTransition id .closed .data), c)
  reset : ∀ code,
    c.perform (.pushReset id code) = (Except.error (.illegalTransition id .closed .rstStream), c)

/-- The send table lets only PRIORITY pass on a closed stream. -/
theorem applySend_of_closed (closed : c.Closed id) {kind : FrameKind} (heeded : kind ≠ .priority)
    (flags : UInt8) :
    c.applySend id kind flags = (.error (.illegalTransition id .closed kind), c) := by
  obtain ⟨s, found, state⟩ := Registry.get?_of_active closed (by decide)
  rw [← state]
  apply applySend_refused found
  simp only [state, StreamState.send]

/-- Nothing is queued on a closed stream. -/
theorem send_of_closed (closed : c.Closed id) {kind : FrameKind} (heeded : kind ≠ .priority)
    (flags : UInt8) (frames : List Frame) :
    c.send id kind flags frames = (.error (.illegalTransition id .closed kind), c) := by
  rw [send, applySend_of_closed closed heeded]

/-- Whatever is pushed on a closed stream is refused. -/
theorem refuses_of_closed (closed : c.Closed id) : c.Refuses id where
  headers fields last := by
    rw [perform, pushHeaders]
    cases HeaderBlock.encode? fields with
    | error fault => rfl
    | ok block => exact send_of_closed closed (by decide) _ _
  data data last := by
    rw [perform, pushData]
    split
    · exact applySend_of_closed closed (by decide) 0
    · exact send_of_closed closed (by decide) _ _
  reset code := send_of_closed closed (by decide) _ _

end Codec

/-! ## What is reported -/

/-- The frame is the last one of a header block of the stream, but not the first. -/
structure Frame.Completes (f : Frame) (id : UInt32) : Prop where
  kind : f.kind = .continuation
  stream : f.stream = id
  last : f.hasFlag Flag.endHeaders = true

namespace Codec

variable {c arrival : Codec δ} {f : Frame} {callback : Callback} {fault : Option FrameError}
  {id : UInt32}

/-- Of a closed stream, only the end of a header block that is open on it is reported as more than an
error, and frames that may still cross its closing are not reported at all. -/
structure Hushes (arrival : Codec δ) (f : Frame) (id : UInt32) (callback : Callback) : Prop where
  body : ∀ data last, callback ≠ .body id data last
  headers : ∀ fields last, callback = .headers id fields last →
    f.Completes id ∧ arrival.openBlock? = some id
  crossing : f.kind = .priority ∨ f.kind = .rstStream ∨ f.kind = .windowUpdate → f.stream = id →
    arrival.openBlock? ≠ none

/-- An error is reported for no frame that may still cross the closing of its stream, unless that frame
interrupts a header block. -/
theorem hushes_of_error {owner : UInt32} {fault : StreamError}
    (crossing : f.kind = .priority ∨ f.kind = .rstStream ∨ f.kind = .windowUpdate → f.stream = id →
      arrival.openBlock? ≠ none) : arrival.Hushes f id (.error owner fault) where
  body _ _ := nofun
  headers _ _ := nofun
  crossing := crossing

/-- About a closed stream, a received frame reports no body, and headers only at the end of a block in
progress. -/
theorem hushes_of_closed (closed : arrival.Closed id)
    (outcome : Outcome arrival f c (some callback) fault) : arrival.Hushes f id callback := by
  have notAccepted {next : StreamState} (accepted : arrival.verdict f = .accept next) :
      f.stream ≠ id := by
    rintro rfl
    exact closed.not_accepted next accepted
  cases outcome with
  | rejected judged rejected =>
    refine hushes_of_error fun crossing here => ?_
    subst here
    rw [verdict, closed] at rejected
    rcases StreamState.transition_closed_inbound f.kind f.flags with ⟨decided, -⟩ | ⟨-, other⟩
    · rw [decided] at rejected
      cases rejected
    · exact absurd crossing other
  | body judged accepted kind unpadded =>
    constructor
    · rintro data last ⟨⟩
      exact notAccepted accepted rfl
    · simp
    · simp [kind]
  | opening judged accepted opens wellFormed collects =>
    have kinds : ¬(f.kind = .priority ∨ f.kind = .rstStream ∨ f.kind = .windowUpdate) := by
      rcases opens with kind | kind <;> simp [kind]
    cases collects with
    | delivered small last joined =>
      constructor
      · simp
      · intro fields last told
        rw [Stream.id_opening, Registry.id_inbound] at told
        cases told
        exact absurd rfl (notAccepted accepted)
      · exact fun crossing => absurd crossing kinds
    | overflowed => exact hushes_of_error fun crossing => absurd crossing kinds
  | continuing opened kind stream collects =>
    cases collects with
    | delivered small last joined =>
      constructor
      · simp
      · intro fields last told
        rw [Stream.id_continuing, Registry.id_inbound] at told
        cases told
        exact ⟨⟨kind, rfl, last⟩, opened⟩
      · simp [kind]
    | overflowed => exact hushes_of_error (by simp [kind])
  | stray _ kind => exact hushes_of_error (by simp [kind])
  | interrupting opened => exact hushes_of_error fun _ _ => by simp [opened]

end Codec

/-! ## Runs without eviction -/

namespace Moment

/-- Whether closed streams are evicted. -/
def evicts (m : Moment δ) : Bool :=
  match m.occurrence with
  | .performed .evictClosed _ => true
  | _ => false

/-- Whether a reset of a stream is queued. -/
def resets (id : UInt32) (m : Moment δ) : Bool :=
  match m.occurrence with
  | .performed (.pushReset owner _) (.ok _) => owner = id
  | _ => false

/-- A reset counts from the push that is answered by success. -/
theorem resets_performed {c : Codec δ} {owner code id : UInt32} {reply : Except SendError Unit} :
    (⟨c, .performed (.pushReset owner code) reply⟩ : Moment δ).resets id = true ↔
      reply = .ok () ∧ owner = id := by
  cases reply <;> simp [resets]

theorem within_of_evicts {m : Moment δ} (kept : m.evicts = false) :
    m.Within (· ≠ .evictClosed) := by
  rintro op reply happened rfl
  simp [evicts, happened] at kept

/-- What can be said of a stream at a moment that comes after the moments `before`. -/
structure Terminal (id : UInt32) (before : List (Moment δ)) (m : Moment δ) : Prop where
  /-- A stream that was closed is closed. -/
  stays : (∃ earlier ∈ before, earlier.codec.Closed id) → m.codec.Closed id
  /-- Nothing can be sent on a closed stream. -/
  refuses : m.codec.Closed id → m.codec.Refuses id
  /-- A frame that came to a closed stream is reported only if it ends a header block. -/
  hushes : ∀ arrival f callback, m.occurrence = .called arrival f callback → arrival.Closed id →
    arrival.Hushes f id callback
  /-- That block was open at every moment since the stream closed. -/
  lasted : ∀ arrival f fields last,
    m.occurrence = .called arrival f (.headers id fields last) → arrival.Closed id →
      ∀ earlier ∈ before, earlier.codec.Closed id → earlier.codec.openBlock? = some id

end Moment

namespace Codec.Leads

variable {c c' arrival : Codec δ} {log before after : List (Moment δ)} {m : Moment δ}
  {due : Option (Moment δ)} {f : Frame} {callback : Callback} {id : UInt32}

/-- Whenever a callback is given in a history, what it says of a stream that was closed is bounded. -/
theorem hushes (leads : Leads c log due c') (split : log = before ++ m :: after)
    (told : m.occurrence = .called arrival f callback) (closed : arrival.Closed id) :
    arrival.Hushes f id callback := by
  obtain ⟨codec, occurrence⟩ := m
  cases told
  cases leads.follows split with
  | called last outcome => exact hushes_of_closed closed outcome
  | stray _ astray => exact hushes_of_error (by simp [astray.kind])

/-- A report other than an error follows right after its frame, so what lasts from a moment before the
report held when the frame came. -/
theorem keeps_arrival {allowed : Op δ → Prop} {P : Codec δ → Prop} (leads : Leads c log due c')
    (rule : Keeps allowed P) (within : ∀ m ∈ log, m.Within allowed)
    (split : log = before ++ m :: after) (told : m.occurrence = .called arrival f callback)
    (report : ∀ id fault, callback ≠ .error id fault)
    (shown : ∃ earlier ∈ before, earlier.Shows P) : P arrival := by
  obtain ⟨codec, occurrence⟩ := m
  cases told
  cases leads.follows split with
  | stray => exact absurd rfl (report _ _)
  | @called front _ _ _ _ _ last outcome =>
    subst last
    have splitFront : log = front ++ ⟨arrival, .received f⟩ ::
        (⟨codec, .called arrival f callback⟩ :: after) := by simp [split]
    obtain ⟨earlier, member, shows⟩ := shown
    rcases List.mem_append.mp member with member | member
    · exact leads.keeps_at rule within splitFront (.inr ⟨earlier, member, shows⟩)
    · rw [List.mem_singleton.mp member] at shows
      rcases shows with holds | holds <;> exact holds

/-- The end of a header block is reported of a closed stream only if no moment before the report shows
the stream closed without an open block. -/
theorem not_ended (leads : Leads c log due c') (kept : ∀ m ∈ log, m.evicts = false)
    (split : log = before ++ m :: after) {fields : List Field} {last : Bool}
    (told : m.occurrence = .called arrival f (.headers id fields last))
    (closed : arrival.Closed id) : ∀ earlier ∈ before, ¬earlier.Shows (·.Ended id) := by
  intro earlier member shows
  have opened := ((leads.hushes split told closed).headers fields last rfl).2
  have ended := leads.keeps_arrival (.ended id) (fun m member => m.within_of_evicts (kept m member))
    split told (fun _ _ => nofun) ⟨earlier, member, shows⟩
  exact Bool.eq_false_iff.mp ended.settled (awaits_of_openBlock? opened)

/-- Every moment of a run without eviction respects closed streams. -/
theorem terminal (leads : Leads c log due c') (consistent : c.Consistent)
    (kept : ∀ m ∈ log, m.evicts = false) (split : log = before ++ m :: after) (id : UInt32) :
    m.Terminal id before where
  stays := by
    rintro ⟨earlier, member, closed⟩
    exact leads.keeps_at (.closed id) (fun m member => m.within_of_evicts (kept m member)) split
      (.inr ⟨earlier, member, .inl closed⟩)
  refuses := refuses_of_closed
  hushes _ _ _ told closed := leads.hushes split told closed
  lasted arrival f fields last told closed earlier member closedBefore := by
    obtain ⟨front, back, rfl⟩ := List.append_of_mem member
    have consistentBefore : earlier.codec.Consistent :=
      (leads.upto (by rw [split, List.append_assoc, List.cons_append])).consistent consistent
    by_cases awaits : earlier.codec.Awaits id
    · exact consistentBefore.openBlock?_eq awaits
    · exact absurd (.inl ⟨closedBefore, Bool.eq_false_iff.mpr awaits⟩)
        (leads.not_ended kept split told closed earlier member)

end Codec.Leads

/-- In a run without eviction, a stream that was closed stays closed to the end. From then on every push
on it is an error that queues nothing; no frame that comes is reported as a body, nor as headers unless
it ends a header block that has been open ever since the stream closed; and PRIORITY, RST_STREAM and
WINDOW_UPDATE are not reported at all while no block is open. -/
theorem closed_is_terminal {c : Codec δ} (reachable : c.Reachable) (h : Handler δ σ) (app : σ)
    (deeds : List (Deed δ σ)) (id : UInt32)
    (kept : ∀ m ∈ (⟨c, app⟩ : Endpoint δ σ).history h deeds, m.evicts = false) :
    let start : Endpoint δ σ := ⟨c, app⟩
    let last := (start.live h deeds).codec
    (∀ before m after, start.history h deeds = before ++ m :: after → m.Terminal id before) ∧
      ((∃ m ∈ start.history h deeds, m.codec.Closed id) → last.Closed id ∧ last.Refuses id) := by
  intro start last
  have leads := Endpoint.leads_history (e := start) reachable.consistent h deeds
  refine ⟨fun before m after split => leads.terminal reachable.consistent kept split id, ?_⟩
  rintro ⟨m, member, closed⟩
  have closedLast : last.Closed id :=
    leads.keeps (.closed id) (fun m member => m.within_of_evicts (kept m member))
      (.inr ⟨m, member, .inl closed⟩)
  exact ⟨closedLast, Codec.refuses_of_closed closedLast⟩

/-- A body segment that comes after a server has reset its stream. -/
theorem closed_is_terminal_after_reset :
    let opening := Frame.ofParts .headers Flag.endHeaders 1 [97, 61, 98, 13, 10]
    let late := Frame.ofParts .data 0 1 [120]
    let server : Endpoint Unit (List Callback) := ⟨.create .server 16384, []⟩
    let deeds : List (Deed Unit (List Callback)) :=
      [.receive opening.toBytes, .act fun log => .call (.pushReset 1 8) fun _ => .done log,
        .receive late.toBytes]
    let last := (server.live .recorder deeds).codec
    (∀ m ∈ server.history .recorder deeds, m.evicts = false) ∧ last.Closed 1 ∧ last.Refuses 1 := by
  intro opening late server deeds last
  have kept : ∀ m ∈ server.history .recorder deeds, m.evicts = false := by decide +kernel
  have closed : ∃ m ∈ server.history .recorder deeds, m.codec.Closed 1 := by decide +kernel
  exact ⟨kept, (closed_is_terminal (.create .server 16384) .recorder [] deeds 1 kept).2 closed⟩

/-! ## Resets -/

namespace Codec

variable {c c' : Codec δ} {id code : UInt32}

/-- A reset that succeeds closes the stream. -/
theorem closed_of_pushReset (pushed : c.pushReset id code = (.ok (), c')) : c'.Closed id := by
  have table (state : StreamState) :
      state.transition .outbound .rstStream 0 = .accept .closed ∨
        state.transition .outbound .rstStream 0 = .refuse := by
    cases state <;> decide
  unfold pushReset send applySend at pushed
  cases found : c.streams.get? id with
  | none => simp [found] at pushed
  | some s =>
    rcases table s.state with decided | decided <;> simp only [found, decided] at pushed
    · cases pushed
      obtain rfl := Registry.id_of_get? found
      exact congrArg Stream.state (Registry.inbound_put_of_id _ rfl)
    · cases pushed

/-- A reset closes its stream and leaves the header block that is open on it. -/
theorem Leads.resets {log before after : List (Moment δ)} {m : Moment δ} {due : Option (Moment δ)}
    (leads : Leads c log due c') (split : log = before ++ m :: after) (resets : m.resets id = true) :
    m.next.Closed id ∧ (m.next.Awaits id ↔ m.codec.Awaits id) := by
  cases leads.follows split with
  | received => cases resets
  | called => cases resets
  | stray => cases resets
  | performed c op =>
    cases op with
    | pushReset owner code =>
      obtain ⟨accepted, rfl⟩ := Moment.resets_performed.mp resets
      refine ⟨?_, awaits_perform nofun⟩
      exact closed_of_pushReset (Prod.ext accepted rfl)
    | _ => cases resets

end Codec

/-- In a run without eviction, a reset that was queued is final: no frame that comes later is reported as
a body of the stream, nor as headers, unless a header block was open on the stream when it was reset and
the frame is the one that ends it. -/
theorem reset_is_final {c : Codec δ} (reachable : c.Reachable) (h : Handler δ σ) (app : σ)
    (deeds : List (Deed δ σ)) (id : UInt32)
    (kept : ∀ m ∈ (⟨c, app⟩ : Endpoint δ σ).history h deeds, m.evicts = false)
    {before after : List (Moment δ)} {reset : Moment δ}
    (split : (⟨c, app⟩ : Endpoint δ σ).history h deeds = before ++ reset :: after)
    (resets : reset.resets id = true) :
    ∀ m ∈ after, ∀ arrival f callback, m.occurrence = .called arrival f callback →
      (∀ data last, callback ≠ .body id data last) ∧
        ∀ fields last, callback = .headers id fields last →
          f.Completes id ∧ reset.codec.openBlock? = some id := by
  have leads := Endpoint.leads_history (e := ⟨c, app⟩) reachable.consistent h deeds
  obtain ⟨closed, awaits⟩ := leads.resets split resets
  have consistent : reset.codec.Consistent := (leads.upto split).consistent reachable.consistent
  intro m member arrival f callback told
  obtain ⟨between, rest, rfl⟩ := List.append_of_mem member
  rw [← List.cons_append, ← List.append_assoc] at split
  have arrivalClosed (report : ∀ id fault, callback ≠ .error id fault) : arrival.Closed id :=
    leads.keeps_arrival (.closed id) (fun m member => m.within_of_evicts (kept m member)) split told
      report ⟨reset, by simp, .inr closed⟩
  constructor
  · rintro data last rfl
    have hushes := leads.hushes split told (arrivalClosed fun _ _ => nofun)
    exact hushes.body data last rfl
  · rintro fields last rfl
    have here := arrivalClosed fun _ _ => nofun
    refine ⟨((leads.hushes split told here).headers fields last rfl).1, ?_⟩
    by_cases opened : reset.codec.Awaits id
    · exact consistent.openBlock?_eq opened
    · exact absurd (.inr ⟨closed, Bool.eq_false_iff.mpr (mt awaits.mp opened)⟩)
        (leads.not_ended kept split told here reset (by simp))

/-- Headers and body that come after a server has reset their stream. -/
theorem reset_is_final_for_late_frames :
    let opening := Frame.ofParts .headers Flag.endHeaders 1 [97, 61, 98, 13, 10]
    let late := Frame.ofParts .data 0 1 [120]
    let server : Endpoint Unit (List Callback) := ⟨.create .server 16384, []⟩
    let deeds : List (Deed Unit (List Callback)) :=
      [.receive opening.toBytes, .act fun log => .call (.pushReset 1 8) fun _ => .done log,
        .receive (opening.toBytes ++ late.toBytes)]
    ∃ before reset after, server.history .recorder deeds = before ++ reset :: after ∧
      reset.resets 1 = true ∧ reset.codec.openBlock? = none ∧
      ∀ m ∈ after, ∀ arrival f callback, m.occurrence = .called arrival f callback →
        ∀ fields last, callback ≠ .headers 1 fields last := by
  intro opening late server deeds
  have kept : ∀ m ∈ server.history .recorder deeds, m.evicts = false := by decide +kernel
  have reset : ∃ m ∈ server.history .recorder deeds,
      m.resets 1 = true ∧ m.codec.openBlock? = none := by decide +kernel
  obtain ⟨m, member, resets, closed⟩ := reset
  obtain ⟨before, after, split⟩ := List.append_of_mem member
  refine ⟨before, m, after, split, resets, closed, ?_⟩
  intro later member arrival f callback told fields last same
  have final := reset_is_final (.create .server 16384) .recorder [] deeds 1 kept split resets later
    member arrival f callback told
  have opened := (final.2 fields last same).2
  rw [closed] at opened
  cases opened

/-- The end of a header block that a server had reset halfway is reported all the same. -/
theorem reset_inside_block_is_not_final :
    let opening := Frame.ofParts .headers 0 1 [97, 61]
    let ending := Frame.ofParts .continuation Flag.endHeaders 1 [98, 13, 10]
    let server : Endpoint Unit (List Callback) := ⟨.create .server 16384, []⟩
    let reset : List (Deed Unit (List Callback)) :=
      [.receive opening.toBytes, .act fun log => .call (.pushReset 1 8) fun _ => .done log]
    (∃ m ∈ server.history .recorder reset, m.resets 1 = true) ∧
      (server.live .recorder reset).codec.Closed 1 ∧ (server.live .recorder reset).app = [] ∧
      (server.live .recorder (reset ++ [.receive ending.toBytes])).app =
        [.headers 1 [⟨"a", "b"⟩] false] := by
  decide +kernel

end Http2
