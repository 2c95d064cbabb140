import Http2.Proofs.Codec.Closing

/-!
# The order of reports

What the application is told about one stream follows a protocol: after the peer's end or an error
nothing more is delivered, and on a stream that the peer opened no body comes before headers. The
state of a stream says whether the peer's side has ended, but the end is reported only when its header
block is complete; `Anticipated` says that the state knows it by then, and `Over` is what lasts
afterwards. `Introduced` is the invariant of the second part.
-/

namespace Http2

variable {δ σ : Type}

namespace Callback

/-- The report delivers headers or body of the stream. -/
def deliversOn (id : UInt32) : Callback → Bool
  | headers owner _ _ => owner = id
  | body owner _ _ => owner = id
  | error .. => false

/-- The report says that nothing more comes on the stream. -/
def concludesOn (id : UInt32) : Callback → Bool
  | headers owner _ last => owner = id && last
  | body owner _ last => owner = id && last
  | error owner _ => owner = id

end Callback

/-- What the application is told. -/
def Moment.told? (m : Moment δ) : Option Callback :=
  match m.occurrence with
  | .called _ _ callback => some callback
  | _ => none

/-! ## The end of the peer's side -/

namespace StreamState

/-- The peer's side has ended. -/
def Over (state : StreamState) : Prop :=
  state = .halfClosedRemote ∨ state = .closed

/-- A frame that is accepted after the end carries nothing for the application. -/
theorem over_of_inbound {state next : StreamState} {kind : FrameKind} {flags : UInt8}
    (spent : state.Over) (accepted : state.transition .inbound kind flags = .accept next) :
    next.Over ∧ kind ≠ .headers ∧ kind ≠ .pushPromise ∧ kind ≠ .data := by
  rcases spent with rfl | rfl <;> cases kind <;> simp_all [transition, receive, Over]

/-- Neither table lets the peer go on after its end. -/
theorem lasting_over : Lasting Over where
  seen := by simp [Over]
  closes := .inr rfl
  receives spent accepted := (over_of_inbound spent accepted).1
  sends := by
    rintro _ next kind flags (rfl | rfl) accepted <;> cases kind <;>
      simp_all [transition, send, Over] <;> split at accepted <;> simp_all

/-- HEADERS or DATA with END_STREAM ends the peer's side. -/
theorem over_of_last {state next : StreamState} {kind : FrameKind} {flags : UInt8}
    (ends : kind.endsStream flags)
    (accepted : state.transition .inbound kind flags = .accept next) : next.Over := by
  rw [transition, ends] at accepted
  cases state <;> cases kind <;> simp [receive, FrameKind.endsStream] at accepted ends <;>
    subst accepted <;> simp [Over]

/-- Only a frame that opens a header block is accepted on a stream that was never seen. -/
theorem transition_idle_inbound {kind : FrameKind} (other : kind ≠ .headers ∧ kind ≠ .pushPromise)
    (flags : UInt8) (next : StreamState) : idle.transition .inbound kind flags ≠ .accept next := by
  cases kind <;> simp_all [transition, receive]

/-- Only frames that may still cross its closing have no effect on a stream. -/
theorem closed_of_ignore {state : StreamState} {kind : FrameKind} {flags : UInt8}
    (ignored : state.transition .inbound kind flags = .ignore) : state = .closed := by
  cases state <;> cases kind <;> simp_all [transition, receive]

end StreamState

/-- The peer's side has ended, and no header block is in progress. -/
structure Stream.Over (s : Stream δ) : Prop where
  state : s.state.Over
  settled : s.awaiting = false

theorem Stream.over_failed (s : Stream δ) : s.failed.Over := ⟨.inr rfl, rfl⟩

namespace Codec

open StreamState

variable {c c' arrival : Codec δ} {f : Frame} {callback : Callback} {fault : Option FrameError}
  {id : UInt32}

/-- The peer's side of the stream has ended, and its end is not still to be reported. -/
def Over (c : Codec δ) (id : UInt32) : Prop :=
  (c.streams.inbound id).Over

/-- A header block in progress that will report the end has ended the peer's side already. -/
def Anticipated (c : Codec δ) : Prop :=
  ∀ id, Endpoint.blockEndsStream (c.streams.inbound id).fragments →
    (c.streams.inbound id).state.Over

/-- A fault ends the peer's side and discards its block. -/
theorem over_failed (c : Codec δ) (id : UInt32) : (c.failed id).Over id := by
  have owner : (c.streams.inbound id).failed.id = id := Registry.id_inbound _ _
  rw [Over, failed, putStream, Registry.inbound_put_of_id _ owner]
  exact Stream.over_failed _

theorem anticipated_create (role : Role) (maxFrameSize : Nat) :
    (create role maxFrameSize : Codec δ).Anticipated := by
  intro id ends
  simp [create, Registry.inbound, Endpoint.blockEndsStream] at ends

/-- The frames of an open block say whether it ends the stream, whatever frames come after them. -/
theorem blockEndsStream_continuing (consistent : c.Consistent) (opened : c.openBlock? = some id) :
    Endpoint.blockEndsStream ((c.streams.inbound id).continuing f).fragments =
      Endpoint.blockEndsStream (c.streams.inbound id).fragments := by
  obtain ⟨opening, continuations, fragments, -⟩ := consistent.partialBlock opened
  simp [Stream.continuing, fragments, Endpoint.blockEndsStream]

/-- The table ends the peer's side when the frame that opens a block does, not when the block is complete.
-/
theorem over_of_opening {next : StreamState} (accepted : c.verdict f = .accept next)
    (ends : Endpoint.blockEndsStream [f]) : next.Over := by
  simp only [Endpoint.blockEndsStream, List.head?_cons, Option.any_some, Bool.and_eq_true,
    decide_eq_true_eq] at ends
  refine over_of_last ?_ accepted
  rw [FrameKind.endsStream, ends.1]
  exact ends.2

/-- A block keeps its opening frame while it is continued, so its end stays anticipated. -/
theorem anticipated_outcome {callback : Option Callback} (consistent : c.Consistent)
    (anticipated : c.Anticipated) (outcome : Outcome c f c' callback fault) : c'.Anticipated := by
  intro id
  have turns := outcome.turns id
  generalize c'.streams.inbound id = s' at turns ⊢
  intro ends
  cases turns with
  | kept => exact anticipated id ends
  | failed => exact .inr rfl
  | moved judged here =>
    have rests := consistent.rests_of_closed judged.closed id
    simp [rests.emptied, Endpoint.blockEndsStream] at ends
  | opened judged here accepted opens collects =>
    cases collects with
    | kept => exact over_of_opening accepted ends
    | delivered => cases ends
    | overflowed => cases ends
  | continued opened collects =>
    cases collects with
    | kept =>
      rw [blockEndsStream_continuing consistent opened] at ends
      exact anticipated id ends
    | delivered => cases ends
    | overflowed => cases ends

/-- Nothing that is received reopens the peer's side. -/
theorem over_outcome {callback : Option Callback} (spent : c.Over id)
    (outcome : Outcome c f c' callback fault) : c'.Over id := by
  have turns := outcome.turns id
  rw [Over]
  generalize c'.streams.inbound id = s' at turns ⊢
  cases turns with
  | kept => exact spent
  | failed => exact Stream.over_failed _
  | moved judged here accepted =>
    subst here
    exact ⟨(over_of_inbound spent.state accepted).1, spent.settled⟩
  | opened judged here accepted opens =>
    subst here
    obtain ⟨-, headers, promise, -⟩ := over_of_inbound spent.state accepted
    exact absurd opens (not_or.mpr ⟨headers, promise⟩)
  | continued opened => exact absurd (awaits_of_openBlock? opened) (Bool.eq_false_iff.mp spent.settled)

namespace Leads.Keeps

/-- Once the end is reported, it stays. -/
theorem keeps_over (id : UInt32) :
    Keeps (· ≠ .evictClosed) fun c : Codec δ => c.Over id where
  perform op kept spent :=
    ⟨state_of_edits lasting_over (edits_perform _ kept) spent.state,
      (block_of_edits (edits_perform _ kept) id).1.trans spent.settled⟩
  receive outcome spent := over_outcome spent outcome
  fail _ spent := by
    rw [Over, failed, putStream, Registry.inbound_put]
    split
    · exact Stream.over_failed _
    · exact spent
  reassemble _ spent := spent

/-- All but eviction keep the end of a block anticipated. -/
protected theorem anticipated :
    Keeps (· ≠ .evictClosed) fun c : Codec δ => c.Consistent ∧ c.Anticipated where
  perform {c} op kept holds := by
    refine ⟨consistent_perform holds.1 op, fun id ends => ?_⟩
    have edits := edits_perform c kept
    rw [(block_of_edits edits id).2] at ends
    exact state_of_edits lasting_over edits (holds.2 id ends)
  receive outcome holds :=
    ⟨consistent_outcome holds.1 outcome, anticipated_outcome holds.1 holds.2 outcome⟩
  fail _ holds := by
    refine ⟨consistent_failed holds.1 _, fun id ends => ?_⟩
    rw [failed, putStream, Registry.inbound_put] at ends ⊢
    split at ends
    · cases ends
    · rw [if_neg ‹_›]
      exact holds.2 id ends
  reassemble a holds := ⟨holds.1.reassemble a, holds.2⟩

end Leads.Keeps

/-! ## What is reported before and after the end -/

/-- After a report that nothing more comes, nothing more can. -/
theorem over_of_concludes (consistent : c.Consistent) (anticipated : c.Anticipated)
    (outcome : Outcome c f c' (some callback) fault) (concludes : callback.concludesOn id) :
    c'.Over id := by
  -- The report is about the stream that is stored.
  have stored {s : Stream δ} (owner : s.id = id) (spent : s.Over) :
      ((c.noted f).putStream s).Over id := by
    rw [Over, putStream, Registry.inbound_put_of_id _ owner]
    exact spent
  have settled (judged : c.Judges f) : (c.streams.inbound f.stream).awaiting = false :=
    (consistent.rests_of_closed judged.closed _).settled
  cases outcome with
  | rejected judged rejected =>
    exact stored ((Registry.id_inbound _ _).trans (of_decide_eq_true concludes)) (Stream.over_failed _)
  | stray =>
    exact stored ((Registry.id_inbound _ _).trans (of_decide_eq_true concludes)) (Stream.over_failed _)
  | interrupting =>
    exact stored ((Registry.id_inbound _ _).trans (of_decide_eq_true concludes)) (Stream.over_failed _)
  | body judged accepted kind unpadded =>
    simp only [Callback.concludesOn, Bool.and_eq_true, decide_eq_true_eq] at concludes
    refine stored ((Registry.id_inbound _ _).trans concludes.1) ⟨over_of_last ?_ accepted, settled judged⟩
    rw [FrameKind.endsStream, kind]
    exact concludes.2
  | opening judged accepted opens wellFormed collects =>
    cases collects with
    | overflowed => exact stored (of_decide_eq_true concludes) (Stream.over_failed _)
    | delivered =>
      simp only [Callback.concludesOn, Bool.and_eq_true, decide_eq_true_eq] at concludes
      exact stored concludes.1 ⟨over_of_opening accepted concludes.2, rfl⟩
  | continuing opened kind stream collects =>
    cases collects with
    | overflowed => exact stored (of_decide_eq_true concludes) (Stream.over_failed _)
    | delivered =>
      simp only [Callback.concludesOn, Bool.and_eq_true, decide_eq_true_eq] at concludes
      rw [blockEndsStream_continuing consistent opened] at concludes
      exact stored concludes.1 ⟨anticipated f.stream concludes.2, rfl⟩

/-- What is delivered comes with a frame that its stream accepts, or ends a header block. -/
theorem outcome_of_delivers (outcome : Outcome c f c' (some callback) fault)
    (delivers : callback.deliversOn id) : c.Awaits id ∨ (f.stream = id ∧
      (f.kind = .headers ∨ f.kind = .pushPromise ∨ f.kind = .data) ∧
        ∃ next, c.verdict f = .accept next) := by
  cases outcome with
  | rejected | stray | interrupting => cases delivers
  | body judged accepted kind unpadded =>
    exact .inr ⟨of_decide_eq_true delivers, .inr (.inr kind), _, accepted⟩
  | opening judged accepted opens wellFormed collects =>
    cases collects with
    | overflowed => cases delivers
    | delivered =>
      have here := of_decide_eq_true delivers
      rw [Stream.id_opening, Registry.id_inbound] at here
      exact .inr ⟨here, opens.imp_right .inl, _, accepted⟩
  | continuing opened kind stream collects =>
    cases collects with
    | overflowed => cases delivers
    | delivered =>
      have here := of_decide_eq_true delivers
      rw [Stream.id_continuing, Registry.id_inbound] at here
      rw [here] at opened
      exact .inl (awaits_of_openBlock? opened)

/-- After the peer's end, a frame can only cause an error to be reported. -/
theorem not_delivers_of_over (spent : c.Over id) (outcome : Outcome c f c' (some callback) fault) :
    callback.deliversOn id = false := by
  refine Bool.eq_false_iff.mpr fun delivers => ?_
  rcases outcome_of_delivers outcome delivers with awaits | ⟨here, kind, next, accepted⟩
  · exact Bool.eq_false_iff.mp spent.settled awaits
  · subst here
    obtain ⟨-, headers, promise, data⟩ := over_of_inbound spent.state accepted
    rcases kind with kind | kind | kind
    · exact headers kind
    · exact promise kind
    · exact data kind

namespace Leads

variable {log before after : List (Moment δ)} {due : Option (Moment δ)} {m : Moment δ}

/-- After the application was told that nothing more comes, nothing more can. -/
theorem over_of_told (leads : Leads c log due c') (start : c.Consistent ∧ c.Anticipated)
    (kept : ∀ m ∈ log, m.evicts = false) (split : log = before ++ m :: after)
    (told : m.told? = some callback) (concludes : callback.concludesOn id) : m.codec.Over id := by
  cases leads.follows split with
  | performed | received => cases told
  | @called earlier arrival c'' f _ _ last outcome =>
    cases told
    subst last
    have splitFrame : log = earlier ++ ⟨arrival, .received f⟩ ::
        (⟨c'', .called arrival f callback⟩ :: after) := by simp [split]
    have within : ∀ m ∈ earlier, m.Within (· ≠ .evictClosed) := fun m member =>
      m.within_of_evicts (kept m (splitFrame ▸ List.mem_append_left _ member))
    obtain ⟨consistent, anticipated⟩ :=
      (leads.upto_received splitFrame).keeps .anticipated within (.inl start)
    exact over_of_concludes consistent anticipated outcome concludes
  | stray c'' astray =>
    cases told
    have owner := of_decide_eq_true concludes
    subst owner
    exact over_failed c'' _

/-- Nothing is delivered of a stream of which the end was reported. -/
theorem not_concluded (leads : Leads c log due c') (start : c.Consistent ∧ c.Anticipated)
    (kept : ∀ m ∈ log, m.evicts = false) (split : log = before ++ m :: after)
    (told : m.told? = some callback) (delivers : callback.deliversOn id) {earlier : Moment δ}
    (member : earlier ∈ before) {report : Callback} (reported : earlier.told? = some report) :
    report.concludesOn id = false := by
  refine Bool.eq_false_iff.mpr fun concludes => ?_
  obtain ⟨front, between, rfl⟩ := List.append_of_mem member
  have spent : earlier.codec.Over id :=
    leads.over_of_told start kept (by rw [split, List.append_assoc, List.cons_append]) reported
      concludes
  cases leads.follows split with
  | performed | received => cases told
  | called last outcome =>
    cases told
    have overArrival := leads.keeps_arrival (.keeps_over id)
      (fun m member => m.within_of_evicts (kept m member)) split rfl
      (by rintro owner fault rfl; cases delivers) ⟨earlier, member, .inl spent⟩
    rw [not_delivers_of_over overArrival outcome] at delivers
    cases delivers
  | stray =>
    cases told
    cases delivers

end Leads

end Codec

/-! ## Streams that the peer opened -/

/-- The application is told about headers of the stream. -/
def Moment.Introduces (id : UInt32) (m : Moment δ) : Prop :=
  ∃ fields last, m.told? = some (.headers id fields last)

namespace Codec

variable {c c' : Codec δ} {f : Frame} {log log' : List (Moment δ)} {id : UInt32}

/-- A stream that the peer opened is closed, unless its first headers are in progress or among what the
application is told. -/
def Introduced (c : Codec δ) (log : List (Moment δ)) : Prop :=
  ∀ id s, c.streams.get? id = some s → s.origin = .inbound →
    s.state = .closed ∨ s.awaiting = true ∨ ∃ m ∈ log, m.Introduces id

namespace Introduced

theorem mono (introduced : c.Introduced log) (grows : ∀ m ∈ log, m ∈ log') : c.Introduced log' :=
  fun id s found origin => (introduced id s found origin).imp_right <| .imp_right
    fun ⟨m, member, introduces⟩ => ⟨m, grows m member, introduces⟩

theorem extend (introduced : c.Introduced log) (later : List (Moment δ)) :
    c.Introduced (log ++ later) :=
  introduced.mono fun _ member => List.mem_append_left _ member

/-- A stream may be stored if it is closed, in the middle of its headers, introduced, or this side's own.
-/
theorem put (introduced : c.Introduced log) {s : Stream δ}
    (here : s.origin = .inbound →
      s.state = .closed ∨ s.awaiting = true ∨ ∃ m ∈ log, m.Introduces s.id) :
    (c.putStream s).Introduced log := by
  intro id s' found origin
  rw [putStream, Registry.get?_put] at found
  split at found
  · rename_i owner
    cases found
    rw [← owner]
    exact here origin
  · exact introduced id s' found origin

/-- No operation but eviction makes a stream of the peer that has not been introduced. -/
theorem perform (introduced : c.Introduced log) {op : Op δ} (kept : op ≠ .evictClosed) :
    (c.perform op).2.Introduced log := by
  have edits := edits_perform c kept
  generalize (c.perform op).2 = c' at edits
  have stored {s : Stream δ} (streams : c'.streams = c.streams.put s)
      (here : s.origin = .inbound →
        s.state = .closed ∨ s.awaiting = true ∨ ∃ m ∈ log, m.Introduces s.id) :
      c'.Introduced log := by
    rw [Introduced, streams]
    exact introduced.put here
  generalize streams : c'.streams = r at edits
  cases edits with
  | kept => rwa [Introduced, streams]
  | opened unknown => exact stored streams nofun
  | @moved owner s kind flags next found accepted =>
    obtain rfl := Registry.id_of_get? found
    refine stored streams fun origin => (introduced _ s found origin).imp_left fun closed => ?_
    rw [closed] at accepted
    exact absurd accepted (StreamState.transition_closed_outbound kind flags next)
  | @marked owner s found userData =>
    obtain rfl := Registry.id_of_get? found
    exact stored streams (introduced _ s found)

/-- On a stream that the peer opened, a frame that opens no header block is accepted only after headers
were reported. -/
theorem of_accepted (introduced : c.Introduced log) (consistent : c.Consistent)
    (judged : c.Judges f) {next : StreamState} (accepted : c.verdict f = .accept next)
    (kind : f.kind ≠ .headers ∧ f.kind ≠ .pushPromise)
    (origin : (c.streams.inbound f.stream).origin = .inbound) :
    ∃ m ∈ log, m.Introduces f.stream := by
  cases found : c.streams.get? f.stream with
  | none =>
    rw [verdict, Registry.inbound, found] at accepted
    exact absurd accepted (StreamState.transition_idle_inbound kind _ _)
  | some s =>
    rw [Registry.inbound_of_get? found] at origin
    rcases introduced _ s found origin with closed | awaiting | introduces
    · have here : c.Closed f.stream := by rwa [Closed, Registry.inbound_of_get? found]
      exact absurd accepted (here.not_accepted next)
    · have settled := (consistent.rests_of_closed judged.closed f.stream).settled
      rw [Registry.inbound_of_get? found, awaiting] at settled
      cases settled
    · exact introduces

/-- What a received frame that is no fault makes of the streams that the peer opened. -/
theorem outcome {callback : Option Callback} (introduced : c.Introduced log)
    (consistent : c.Consistent) (outcome : Outcome c f c' callback none) :
    c'.Introduced (log ++ (callback.map fun told => ⟨c', .called c f told⟩).toList) := by
  have here : (c.streams.inbound f.stream).id = f.stream := Registry.id_inbound _ _
  cases outcome with
  | ignored => exact introduced.extend _
  | unmoved judged ignored =>
    exact (introduced.extend _).put fun _ => .inl (StreamState.closed_of_ignore ignored)
  | rejected | stray | interrupting => exact (introduced.extend _).put fun _ => .inl rfl
  | moved judged accepted kind =>
    refine (introduced.extend _).put fun origin => .inr (.inr ?_)
    rw [here]
    exact (introduced.extend _).of_accepted consistent judged accepted ⟨kind.1, kind.2.1⟩ origin
  | body judged accepted kind =>
    refine (introduced.extend _).put fun origin => .inr (.inr ?_)
    rw [here]
    exact (introduced.extend _).of_accepted consistent judged accepted (by simp [kind]) origin
  | opening judged accepted opens wellFormed collects =>
    refine (introduced.extend _).put fun _ => ?_
    cases collects with
    | kept => exact .inr (.inl rfl)
    | delivered => exact .inr (.inr ⟨_, List.mem_append_right _ List.mem_cons_self, _, _, rfl⟩)
    | overflowed => exact .inl rfl
  | continuing opened kind stream collects =>
    refine (introduced.extend _).put fun _ => ?_
    cases collects with
    | kept => exact .inr (.inl (awaits_of_openBlock? opened))
    | delivered => exact .inr (.inr ⟨_, List.mem_append_right _ List.mem_cons_self, _, _, rfl⟩)
    | overflowed => exact .inl rfl

end Introduced

/-- What lasts in a run without eviction and without a fault. -/
theorem Leads.introduced {due : Option (Moment δ)} (leads : Leads c log due c')
    (consistent : c.Consistent) (start : c.Introduced []) (kept : ∀ m ∈ log, m.evicts = false)
    (fine : ∀ m ∈ log, m.Fine) : c'.Introduced (log ++ due.toList) := by
  induction leads with
  | nil => exact start
  | perform before op ih =>
    have evicts := kept _ (List.mem_append_right _ List.mem_cons_self)
    have earlier := ih (fun m member => kept m (List.mem_append_left _ member))
      fun m member => fine m (List.mem_append_left _ member)
    refine (earlier.perform ?_).mono (by simp +contextual)
    exact Moment.within_of_evicts evicts op _ rfl
  | @receive log c' c'' f callback fault before outcome ih =>
    have earlier := ih (fun m member => kept m (List.mem_append_left _ member))
      fun m member => fine m (List.mem_append_left _ member)
    obtain rfl := fine ⟨c', .received f⟩ (by simp) f rfl _ _ _ outcome
    refine (earlier.outcome (before.consistent consistent) outcome).mono fun m member => ?_
    rcases List.mem_append.mp member with member | member
    · exact List.mem_append_left _ (List.mem_append_left _ (by simpa using member))
    · exact List.mem_append_right _ member
  | fail before astray ih => exact Introduced.put ((ih kept fine).mono (by simp +contextual)) fun _ => .inl rfl
  | call before ih =>
    exact (ih (fun m member => kept m (List.mem_append_left _ member))
      fun m member => fine m (List.mem_append_left _ member)).mono (by simp)
  | reassemble before a ih => exact ih kept fine

/-- The body of a stream that the peer opened is reported after headers of it. -/
theorem Leads.body_introduced {due : Option (Moment δ)} {before after : List (Moment δ)}
    {m : Moment δ} (leads : Leads c log due c') (consistent : c.Consistent)
    (start : c.Introduced []) (kept : ∀ m ∈ log, m.evicts = false) (fine : ∀ m ∈ log, m.Fine)
    (split : log = before ++ m :: after) {data : Bytes} {last : Bool}
    (told : m.told? = some (.body id data last))
    {s : Stream δ} (found : m.codec.stream? id = some s) (origin : s.origin = .inbound) :
    ∃ earlier ∈ before, earlier.Introduces id := by
  cases leads.follows split with
  | performed | received | stray => cases told
  | @called earlier arrival c'' f _ _ last outcome =>
    cases told
    subst last
    have splitFrame : log = earlier ++ ⟨arrival, .received f⟩ ::
        (⟨c'', .called arrival f (.body id data last)⟩ :: after) := by simp [split]
    have part : ∀ m ∈ earlier, m ∈ log := fun m member =>
      splitFrame ▸ List.mem_append_left _ member
    have leading := leads.upto_received splitFrame
    have introduced := leading.introduced consistent start (fun m member => kept m (part m member))
      fun m member => fine m (part m member)
    cases outcome with
    | @body next _ judged accepted kind =>
      let moved := { arrival.streams.inbound f.stream with state := next }
      have owner : moved.id = f.stream := Registry.id_inbound _ _
      have stored := Registry.get?_put_of_id arrival.streams owner
      obtain rfl : moved = s := Option.some.inj (stored.symm.trans found)
      obtain ⟨m, member, introduces⟩ :=
        introduced.of_accepted (leading.consistent consistent) judged accepted (by simp [kind]) origin
      exact ⟨m, List.mem_append_left _ (by simpa using member), introduces⟩
    | opening judged accepted opens wellFormed collects => cases collects
    | continuing opened kind stream collects => cases collects

end Codec

/-- In a run without eviction, nothing is delivered of a stream after its end or an error was reported.
If moreover nothing that was received is a fault, headers were reported before any body of a stream that
the peer opened. -/
theorem reports_are_orderly (role : Role) (maxFrameSize : Nat) (h : Handler δ σ) (app : σ)
    (deeds : List (Deed δ σ)) (id : UInt32) :
    let start : Endpoint δ σ := ⟨.create role maxFrameSize, app⟩
    (∀ m ∈ start.history h deeds, m.evicts = false) →
      ∀ before m after, start.history h deeds = before ++ m :: after →
        (∀ callback, m.told? = some callback → callback.deliversOn id →
          ∀ earlier ∈ before, ∀ report, earlier.told? = some report → report.concludesOn id = false) ∧
        (start.faults h deeds = [] → ∀ data last s, m.told? = some (.body id data last) →
          m.codec.stream? id = some s → s.origin = .inbound →
            ∃ earlier ∈ before, earlier.Introduces id) := by
  intro start kept before m after split
  have consistent : start.codec.Consistent := Codec.consistent_create role maxFrameSize
  have anticipated : start.codec.Anticipated := Codec.anticipated_create role maxFrameSize
  have leads := Endpoint.leads_history (e := start) consistent h deeds
  constructor
  · intro callback told delivers earlier member report reported
    exact leads.not_concluded ⟨consistent, anticipated⟩ kept split told delivers member reported
  · intro fine data last s told found origin
    exact leads.body_introduced consistent (by simp [start, Codec.Introduced, Codec.create]) kept
      (Endpoint.fine_history consistent fine) split told found origin

/-- A server that receives a request with a body, and more of it after its end. -/
theorem reports_are_orderly_after_end :
    let opening := Frame.ofParts .headers Flag.endHeaders 1 [97, 61, 98, 13, 10]
    let ending := Frame.ofParts .data Flag.endStream 1 [120]
    let server : Endpoint Unit (List Callback) := ⟨.create .server 16384, []⟩
    let deeds : List (Deed Unit (List Callback)) :=
      [.receive opening.toBytes, .receive (ending.toBytes ++ ending.toBytes)]
    ∃ before m after, server.history .recorder deeds = before ++ m :: after ∧
      m.told? = some (.body 1 [120] true) ∧ (∃ earlier ∈ before, earlier.Introduces 1) ∧
      ∀ later ∈ after, ∀ callback, later.told? = some callback → callback.deliversOn 1 = false := by
  intro opening ending server deeds
  have kept : ∀ m ∈ server.history .recorder deeds, m.evicts = false := by decide +kernel
  have fine : server.faults .recorder deeds = [] := by decide +kernel
  have reported : ∃ m ∈ server.history .recorder deeds,
      m.told? = some (.body 1 [120] true) ∧
        (m.codec.stream? 1).map Stream.origin = some .inbound := by
    decide +kernel
  obtain ⟨m, member, told, opened⟩ := reported
  obtain ⟨s, found, origin⟩ := Option.map_eq_some_iff.mp opened
  obtain ⟨before, after, split⟩ := List.append_of_mem member
  have orderly := reports_are_orderly .server 16384 .recorder [] deeds 1 kept
  refine ⟨before, m, after, split, told, (orderly _ _ _ split).2 fine _ _ s told found origin, ?_⟩
  intro later member callback toldLater
  obtain ⟨between, rest, rfl⟩ := List.append_of_mem member
  rw [← List.cons_append, ← List.append_assoc] at split
  refine Bool.eq_false_iff.mpr fun delivers => ?_
  have silent := (orderly _ _ _ split).1 callback toldLater delivers m (by simp) _ told
  simp [Callback.concludesOn] at silent

end Http2
