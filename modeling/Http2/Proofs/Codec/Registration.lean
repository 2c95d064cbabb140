import Http2.Proofs.Codec.History
import Http2.Proofs.Codec.Numbering

/-!
# Who registered which stream

The registry tells the streams of the two sides apart. Over a whole run, those registered as outbound are
exactly the ones that this side opened and that have been registered ever since (`Opened`), and any other
was named by a frame that came before.
-/

namespace Http2

variable {δ σ : Type}

namespace Codec

variable {c c' : Codec δ} {id : UInt32} {log before after : List (Moment δ)}
  {due : Option (Moment δ)} {m : Moment δ}

/-! ## Streams of this side -/

/-- The stream was opened by this side and has been registered ever since. -/
def Opened (id : UInt32) (log : List (Moment δ)) : Prop :=
  ∃ earlier c between, log = earlier ++ ⟨c, .performed .openStream (.ok id)⟩ :: between ∧
    c.streams.contains id = false ∧ ∀ m ∈ between, Moment.Holds id m

/-- While a stream is registered, nothing changes about who opened it. -/
theorem opened_concat (opens : m.opened? ≠ some id) :
    Opened id (log ++ [m]) ↔ Opened id log ∧ m.Holds id := by
  constructor
  · rintro ⟨earlier, c, between, split, free, held⟩
    rcases split_concat split with ⟨rfl, rfl⟩ | ⟨front, split'⟩
    · exact absurd rfl opens
    · subst split'
      simp only [List.append_assoc, List.cons_append, List.append_cancel_left_eq, List.cons.injEq,
        true_and] at split
      subst split
      rw [List.forall_mem_append, List.forall_mem_singleton] at held
      exact ⟨⟨earlier, c, front, rfl, free, held.1⟩, held.2⟩
  · rintro ⟨⟨earlier, c, between, rfl, free, held⟩, here⟩
    refine ⟨earlier, c, between ++ [m], by simp, free, ?_⟩
    exact List.forall_mem_append.mpr ⟨held, List.forall_mem_singleton.mpr here⟩

/-- A stream that was opened by this side is among those given out. -/
theorem mem_of_opened (opened : Opened id log) : id ∈ log.filterMap Moment.opened? := by
  obtain ⟨earlier, c, between, rfl, -, -⟩ := opened
  exact List.mem_filterMap.mpr ⟨_, List.mem_append_right _ List.mem_cons_self, rfl⟩

/-- Moments in which the stream is registered before and after change nothing either. -/
theorem opened_append (held : ∀ m ∈ after, m.Holds id ∧ m.opened? ≠ some id) :
    Opened id (log ++ after) ↔ Opened id log := by
  induction after generalizing log with
  | nil => rw [List.append_nil]
  | cons m after ih =>
    obtain ⟨⟨here, opens⟩, held⟩ := List.forall_mem_cons.mp held
    rw [List.append_cons, ih held, opened_concat opens, and_iff_left here]

/-- A stream that was just opened. -/
theorem registered_of_opened? {op : Op δ} (log : List (Moment δ))
    (opens : Moment.opened? ⟨c, .performed op (c.perform op).1⟩ = some id) :
    c.streams.contains id = false ∧ Opened id (log ++ [⟨c, .performed op (c.perform op).1⟩]) ∧
      (c.perform op).2.streams.origin? id = some .outbound := by
  obtain rfl : op = .openStream := by
    by_cases same : op = .openStream
    · exact same
    · rw [Moment.opened?_of_ne same] at opens
      cases opens
  have spent : ¬maxStreamId < c.nextStreamId := by
    intro spent
    rw [perform, openStream_spent spent] at opens
    cases opens
  cases known : c.streams.contains c.nextStreamId with
  | true =>
    rw [perform, openStream_taken spent known] at opens
    cases opens
  | false =>
    rw [perform, openStream_free spent known] at opens ⊢
    obtain rfl : c.nextStreamId = id := Option.some.inj opens
    refine ⟨known, ⟨log, c, [], rfl, known, by simp⟩, ?_⟩
    rw [Registry.origin?_put]
    exact if_pos rfl

/-- The streams that this side opened are those registered as outbound. -/
theorem Leads.opened_iff (leads : Leads c log due c') (empty : ∀ id, c.streams.origin? id = none)
    (id : UInt32) : Opened id log ↔ c'.streams.origin? id = some .outbound := by
  -- A moment that is no operation leaves the codec as it is.
  have passes {m : Moment δ} {log : List (Moment δ)} (same : m.next = m.codec) (silent : m.opened? = none)
      (ih : Opened id log ↔ m.codec.streams.origin? id = some .outbound) :
      Opened id (log ++ [m]) ↔ m.codec.streams.origin? id = some .outbound := by
    rw [opened_concat (by rw [silent]; nofun), ih, Moment.Holds, same, and_self,
      Registry.contains_iff_origin?]
    exact and_iff_left_of_imp fun known => known ▸ nofun
  induction leads with
  | nil => simp [Opened, empty]
  | @perform log c' before op ih =>
    by_cases opens : Moment.opened? ⟨c', .performed op (c'.perform op).1⟩ = some id
    · obtain ⟨-, opened, outbound⟩ := registered_of_opened? log opens
      exact iff_of_true opened outbound
    · have earlier : Opened id log ↔ c'.streams.origin? id = some .outbound := ih
      rw [opened_concat opens, earlier, (Fate.perform c' op id).outbound_iff opens, Moment.Holds,
        Registry.contains_iff_origin?, Registry.contains_iff_origin?, ← and_assoc]
      exact and_congr_left' (and_iff_left_of_imp fun known => known ▸ nofun)
  | @receive log c' c'' f callback fault before outcome ih =>
    rw [(Fate.outcome outcome id).outbound_iff_of_kept not_false not_false]
    exact passes rfl rfl ih
  | @fail log arrival c' f before astray ih =>
    rw [(Fate.failed c' f.stream id).outbound_iff_of_kept not_false not_false]
    exact ih
  | call before ih =>
    obtain ⟨-, _, _, _, rfl⟩ := follows_of_due before
    exact passes rfl rfl ih
  | reassemble before a ih => exact ih

/-- A moment in which a stream is registered before does not give its identifier out. -/
theorem Leads.Follows.opened?_ne (follows : Follows before m) (held : m.Holds id) :
    m.opened? ≠ some id := by
  intro opens
  cases follows with
  | performed c op =>
    have free := (registered_of_opened? [] opens).1
    rw [Moment.Holds, free] at held
    exact Bool.false_ne_true held.1
  | received | called | stray => cases opens

/-- While a stream stays registered, its origin stays. -/
theorem Leads.origin_of_holds (leads : Leads c log due c') (empty : ∀ id, c.streams.origin? id = none)
    (split : log = before ++ m :: after) (held : ∀ m' ∈ m :: after, m'.Holds id)
    (known : c'.streams.origin? id ≠ none) :
    m.codec.streams.origin? id = c'.streams.origin? id := by
  obtain ⟨_, earlier⟩ := leads.upto split
  have there := Registry.contains_iff_origin?.mp (held m List.mem_cons_self).1
  have same : Opened id log ↔ Opened id before := by
    rw [split]
    refine opened_append fun m' member => ⟨held m' member, ?_⟩
    obtain ⟨front, back, here⟩ := List.append_of_mem member
    have place : log = (before ++ front) ++ m' :: back := by rw [split, here, List.append_assoc]
    exact (leads.follows place).opened?_ne (held m' member)
  rw [leads.opened_iff empty, earlier.opened_iff empty] at same
  cases origin : m.codec.streams.origin? id with
  | none => exact absurd origin there
  | some d =>
    rw [origin] at same
    cases origin' : c'.streams.origin? id with
    | none => exact absurd origin' known
    | some d' =>
      rw [origin'] at same
      cases d <;> cases d' <;> simp_all

/-! ## Streams of the peer -/

/-- A stream of the peer was named by a frame. -/
theorem Leads.named_of_inbound (leads : Leads c log due c') (empty : ∀ id, c.streams.origin? id = none)
    (inbound : c'.streams.origin? id = some .inbound) :
    ∃ m ∈ log ++ due.toList, ∃ f, m.frame? = some f ∧ f.stream = id := by
  induction leads with
  | nil =>
    rw [empty] at inbound
    cases inbound
  | @perform log c' before op ih =>
    obtain ⟨m, member, named⟩ := ih (((Fate.perform c' op id).inbound_of inbound).resolve_right not_false)
    rw [Option.toList_none, List.append_nil] at member ⊢
    exact ⟨m, List.mem_append_left _ member, named⟩
  | @receive log c' c'' f callback fault before outcome ih =>
    rcases (Fate.outcome outcome id).inbound_of inbound with inbound | here
    · obtain ⟨m, member, named⟩ := ih inbound
      rw [Option.toList_none, List.append_nil] at member
      exact ⟨m, by simp [member], named⟩
    · exact ⟨⟨c', .received f⟩, by simp, f, rfl, here⟩
  | @fail log arrival c' f before astray ih =>
    rcases (Fate.failed c' f.stream id).inbound_of inbound with inbound | here
    · obtain ⟨m, member, named⟩ := ih inbound
      rw [Option.toList_none, List.append_nil] at member
      exact ⟨m, List.mem_append_left _ member, named⟩
    · exact ⟨_, List.mem_append_right _ List.mem_cons_self, f, rfl, here⟩
  | call before ih => simpa using ih inbound
  | reassemble before a ih => exact ih inbound

end Codec

namespace Endpoint

variable {h : Handler δ σ} {e : Endpoint δ σ} {log log' : List (Moment δ)}

/-- The application is only told about frames that have come. -/
def Reported (log : List (Moment δ)) : Prop :=
  ∀ before c arrival f callback after, log = before ++ ⟨c, .called arrival f callback⟩ :: after →
    ⟨arrival, .received f⟩ ∈ before

/-- Histories that report frames of their own can follow each other. -/
theorem Reported.append (first : Reported log) (second : Reported log') :
    Reported (log ++ log') := by
  intro before c arrival f callback after split
  rcases List.append_eq_append_iff.mp split with ⟨front, rfl, rest⟩ | ⟨back, here, rest⟩
  · exact List.mem_append_right _ (second _ _ _ _ _ _ rest)
  · cases back with
    | nil => cases second [] _ _ _ _ _ rest.symm
    | cons m back =>
      obtain ⟨rfl, rfl⟩ := List.cons.inj rest
      exact first _ _ _ _ _ _ here

/-- What is reported about a frame is reported after it came. -/
theorem reported_watch (consistent : e.codec.Consistent) (h : Handler δ σ) (f : Frame) :
    Reported (e.watch h f) := by
  obtain ⟨calls, watched, answers⟩ := exists_watch_eq consistent h f
  intro before c arrival g callback after split
  rw [watched] at split
  cases before with
  | nil => cases (List.cons.inj split).1
  | cons m before =>
    obtain ⟨rfl, rfl⟩ := List.cons.inj split
    cases answers _ (List.mem_append_right _ List.mem_cons_self) with
    | called => exact List.mem_cons_self

/-- What is reported about bytes is reported after the frame in question came. -/
theorem reported_moments (consistent : e.codec.Consistent) (h : Handler δ σ) (input : Bytes) :
    Reported (e.moments h input) := by
  have none : Reported ([] : List (Moment δ)) := fun before _ _ _ _ _ split => by simp at split
  induction e, input using process.induct h with
  | case1 e input a taken => rwa [moments_of_hungry taken]
  | case2 e input a fault rest taken => rwa [moments_of_fault taken]
  | case3 e input a f rest taken endpoint handled ih =>
    have reassembled : (e.withAssembler a).codec.Consistent := consistent.reassemble a
    have first := leads_watch reassembled h f
    rw [moments_of_frame taken]
    rw [handled] at first ⊢
    exact (reported_watch reassembled h f).append (ih (first.consistent reassembled))
  | case4 e input a f rest taken faulty =>
    have reassembled : (e.withAssembler a).codec.Consistent := consistent.reassemble a
    rw [moments_of_frame taken]
    cases handled : (e.withAssembler a).dispatch h f with
    | mk endpoint fault =>
      cases fault with
      | none => exact absurd handled (faulty endpoint)
      | some fault => exact (reported_watch reassembled h f).append none

/-- Throughout a run, the application is told of no frame that has not come. -/
theorem reported_history (consistent : e.codec.Consistent) (h : Handler δ σ)
    (deeds : List (Deed δ σ)) : Reported (e.history h deeds) := by
  induction deeds generalizing e with
  | nil => exact fun before _ _ _ _ _ split => by simp [history] at split
  | cons deed deeds ih =>
    have later := (leads_momentsOf consistent h deed).consistent consistent
    refine .append ?_ (ih later)
    cases deed with
    | receive input => exact reported_moments consistent h input
    | act script =>
      intro before c arrival f callback after split
      have told : ⟨c, .called arrival f callback⟩ ∈ (script e.app).moments e.codec := by
        rw [momentsOf] at split
        simp [split]
      obtain ⟨op, reply, performed⟩ := Script.performed_of_mem told
      cases performed

/-- A codec of a run, and the moments before it. -/
inductive Meets (h : Handler δ σ) (e : Endpoint δ σ) (deeds : List (Deed δ σ)) :
    List (Moment δ) → Codec δ → Prop
  | moment {before after : List (Moment δ)} {m : Moment δ}
      (split : e.history h deeds = before ++ m :: after) : Meets h e deeds before m.codec
  | last : Meets h e deeds (e.history h deeds) (e.live h deeds).codec

variable {deeds : List (Deed δ σ)} {before : List (Moment δ)} {c : Codec δ} {id : UInt32}

/-- A codec of a run is one that the moments before it lead to. -/
theorem Meets.leads (meets : Meets h e deeds before c) (consistent : e.codec.Consistent) :
    Codec.LeadsTo e.codec before c := by
  have leads := leads_history consistent h deeds
  cases meets with
  | moment split => exact leads.upto split
  | last => exact ⟨none, leads⟩

/-- A moment that is about a frame comes with it or behind it. -/
theorem Reported.arrived (reported : Reported log) {m : Moment δ} {after : List (Moment δ)}
    {f : Frame} (split : log = before ++ m :: after) (named : m.frame? = some f) :
    m.occurrence = .received f ∨ ∃ arrival, ⟨arrival, .received f⟩ ∈ before := by
  obtain ⟨codec, occurrence⟩ := m
  cases occurrence with
  | received f' =>
    cases named
    exact .inl rfl
  | called arrival f' callback =>
    cases named
    exact .inr ⟨arrival, reported _ _ _ _ _ _ split⟩
  | performed => cases named

/-- The same, for a moment in the log. -/
theorem Reported.arrived_of_mem (reported : Reported log) {m : Moment δ} {after : List (Moment δ)}
    {f : Frame} (split : log = before ++ after) (member : m ∈ before) (named : m.frame? = some f) :
    ∃ arrival, ⟨arrival, .received f⟩ ∈ before := by
  obtain ⟨front, back, rfl⟩ := List.append_of_mem member
  rw [List.append_assoc, List.cons_append] at split
  rcases reported.arrived split named with came | ⟨arrival, came⟩
  · exact ⟨m.codec, came ▸ member⟩
  · exact ⟨arrival, List.mem_append_left _ came⟩

/-- A stream of the peer was named by a frame that came before. -/
theorem Meets.came (meets : Meets h e deeds before c) (consistent : e.codec.Consistent)
    (empty : ∀ id, e.codec.streams.origin? id = none) (inbound : c.streams.origin? id = some .inbound) :
    ∃ arrival f, ⟨arrival, .received f⟩ ∈ before ∧ f.stream = id := by
  have leads := leads_history consistent h deeds
  have reported := reported_history consistent h deeds
  cases meets with
  | @moment _ after m split =>
    obtain ⟨⟨due, alone, earlier⟩, -⟩ := leads.reaches split
    obtain ⟨m', member, f, named, here⟩ := earlier.named_of_inbound empty inbound
    rcases List.mem_append.mp member with member | pending
    · obtain ⟨arrival, came⟩ := reported.arrived_of_mem split member named
      exact ⟨arrival, f, came, here⟩
    · obtain rfl := alone m' (Option.mem_toList.mp pending)
      obtain rfl := Option.mem_toList.mp pending
      rcases reported.arrived split named with came | ⟨arrival, came⟩
      · obtain ⟨-, _, _, _, told⟩ := Codec.Leads.follows_of_due earlier
        rw [told] at came
        cases came
      · exact ⟨arrival, f, came, here⟩
  | last =>
    obtain ⟨m, member, f, named, here⟩ := leads.named_of_inbound empty inbound
    rw [Option.toList_none, List.append_nil] at member
    obtain ⟨arrival, came⟩ := reported.arrived_of_mem (List.append_nil _).symm member named
    exact ⟨arrival, f, came, here⟩

end Endpoint

/-- An identifier that a frame can carry has 31 bits and is not zero. -/
theorem IsStreamId.range {id : UInt32} (valid : IsStreamId id) :
    1 ≤ id.toNat ∧ id.toNat ≤ 0x7FFFFFFF := by
  constructor
  · have nonzero : id.toNat ≠ 0 := fun zero => valid.1 (UInt32.toNat_inj.mp zero)
    omega
  · exact UInt32.le_iff_toNat_le.mp (and_maxStreamId_eq_iff.mp valid.2)

/-- In every run, evictions included, the identifiers that `openStream` gives out rise, keep the parity of
their side and have 31 bits. Each of its answers says what it did: it registers a free identifier, skips
one that a frame has registered before, or changes nothing when none is left. Every stream is registered
under its own identifier. It is outbound exactly if this side opened it and it has been registered ever
since, and that stays so while it is registered. -/
theorem stream_ids_are_allocated (role : Role) (maxFrameSize : Nat) (h : Handler δ σ) (app : σ)
    (deeds : List (Deed δ σ)) :
    let start : Endpoint δ σ := ⟨.create role maxFrameSize, app⟩
    let history := start.history h deeds
    let ids := history.filterMap Moment.opened?
    (ids.Pairwise (· < ·) ∧ ∀ id ∈ ids, 1 ≤ id.toNat ∧ id.toNat ≤ 0x7FFFFFFF ∧
      id.toNat % 2 = role.firstStreamId.toNat % 2) ∧
    (∀ before c reply after, history = before ++ ⟨c, .performed .openStream reply⟩ :: after →
      Codec.Allocates c reply (c.perform .openStream).2 ∧
      ∀ id, reply = .error (.duplicateStream id) → c.streams.origin? id = some .inbound ∧
        ∃ arrival f, ⟨arrival, .received f⟩ ∈ before ∧ f.stream = id) ∧
    ∀ before c, start.Meets h deeds before c →
      c.nextStreamId.toNat ≤ 0x80000001 ∧
      ∀ id s, c.stream? id = some s →
        s.id = id ∧ 1 ≤ id.toNat ∧ id.toNat ≤ 0x7FFFFFFF ∧
        (s.origin = .outbound ↔ Codec.Opened id before) ∧
        (s.origin = .inbound → ∃ arrival f, ⟨arrival, .received f⟩ ∈ before ∧ f.stream = id) ∧
        ∀ earlier m between, before = earlier ++ m :: between →
          (∀ m' ∈ m :: between, m'.Holds id) → m.codec.streams.origin? id = some s.origin := by
  intro start history ids
  have consistent : start.codec.Consistent := Codec.consistent_create role maxFrameSize
  have numbered : start.codec.Numbered := Codec.numbered_create role maxFrameSize
  have empty (id : UInt32) : start.codec.streams.origin? id = none := rfl
  have counted : Codec.Counted role start.codec.nextStreamId := Codec.counted_firstStreamId role
  have leads := Endpoint.leads_history (e := start) consistent h deeds
  have given := (leads.givenOut counted).2
  refine ⟨⟨given.rising, given.valid⟩, fun before c reply after split => ?_,
    fun before c meets => ?_⟩
  · have meets : start.Meets h deeds before c := .moment split
    obtain ⟨_, earlier⟩ := meets.leads consistent
    have allocates := Codec.allocates_openStream c
    cases leads.follows split
    refine ⟨allocates, fun id duplicate => ?_⟩
    obtain ⟨rfl, -, known⟩ := (allocates.duplicate id).mp duplicate
    have inbound : c.streams.origin? c.nextStreamId = some .inbound := by
      cases origin : c.streams.origin? c.nextStreamId with
      | none => exact absurd origin (Registry.contains_iff_origin?.mp known)
      | some side =>
        cases side with
        | inbound => rfl
        | outbound =>
          -- This side has not given out the identifier that comes next.
          have opened := (earlier.opened_iff empty _).mpr origin
          have below := (earlier.givenOut counted).2.below _ (Codec.mem_of_opened opened)
          exact absurd below (Nat.lt_irrefl _)
    exact ⟨inbound, meets.came consistent empty inbound⟩
  · obtain ⟨_, earlier⟩ := meets.leads consistent
    refine ⟨(earlier.givenOut counted).1.bounded, fun id s found => ?_⟩
    have origin := Registry.origin?_of_get? found
    have keeps : Codec.Leads.Keeps (fun _ : Codec.Op δ => True) Codec.Numbered := .numbered
    have here := earlier.keeps keeps (fun _ _ _ _ _ => trivial) (.inl numbered)
    have range := (here.valid id (Registry.contains_of_get? found)).range
    have known : c.streams.origin? id ≠ none := origin ▸ nofun
    refine ⟨Registry.id_of_get? found, range.1, range.2, ?_, fun inbound => ?_,
      fun front m between split held => ?_⟩
    · rw [earlier.opened_iff empty, origin, Option.some.injEq]
    · exact meets.came consistent empty (inbound ▸ origin)
    · rw [← origin]
      exact earlier.origin_of_holds empty split held known

/-- A client that opens three streams after the peer has taken its second identifier. -/
example :
    let taken := Frame.ofParts .headers Flag.endHeaders 3 []
    let opens : List Callback → Script Unit (List Callback) := fun log =>
      .call .openStream fun _ => .call .openStream fun _ => .call .openStream fun _ => .done log
    let client : Endpoint Unit (List Callback) := ⟨.create .client 16384, []⟩
    (client.history .recorder [.receive taken.toBytes, .act opens]).filterMap Moment.opened? =
      [1, 5] := by
  decide +kernel

end Http2
