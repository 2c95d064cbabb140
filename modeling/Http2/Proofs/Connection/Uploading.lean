import Http2.Proofs.Codec.Numbering
import Http2.Proofs.Connection.Pulling
import Mathlib.Data.List.Nodup

/-!
# Bodies arrive whole

The bodies in progress are identifiers that were given out in rising order, and the counter is past them
(`Connection.Ready`). So a body that was finished or refused never comes back, neither in a pull nor as a
new request: of all calls for one body only the last may not go on (`pairwise_asksOver`). What is queued
on the stream of a request is then its header block and the accepted pieces of its body, in order.
-/

namespace Http2

variable {δ σ : Type}

namespace Codec

variable {role : Role} {ids ids' : List UInt32} {counter next : UInt32} {opened : Option UInt32}

/-- The counter never goes back. -/
theorem Counts.le (counts : Counts counter opened next) : counter.toNat ≤ next.toNat := by
  cases counts with
  | still => exact Nat.le_refl _
  | skipped left | given left =>
    rw [toNat_next left]
    exact Nat.le_add_right _ _

/-- Fewer identifiers are given out too, whatever the counter comes to. -/
theorem GivenOut.mono (given : GivenOut role ids counter) (fewer : ids'.Sublist ids)
    (onward : counter.toNat ≤ next.toNat) : GivenOut role ids' next where
  rising := given.rising.sublist fewer
  below id member := Nat.lt_of_lt_of_le (given.below id (fewer.subset member)) onward
  valid id member := given.valid id (fewer.subset member)

/-- No identifier is given out twice. -/
theorem GivenOut.nodup (given : GivenOut role ids counter) : ids.Nodup :=
  given.rising.imp UInt32.ne_of_lt

/-- An identifier that was given out is one that frames can carry. -/
theorem GivenOut.isStreamId (given : GivenOut role ids counter) {id : UInt32} (member : id ∈ ids) :
    IsStreamId id := by
  obtain ⟨positive, bound, -⟩ := given.valid id member
  refine ⟨?_, and_maxStreamId_eq_iff.mpr (UInt32.le_iff_toNat_le.mpr bound)⟩
  rintro rfl
  exact absurd positive (by decide)

/-- A counter of one side that is past a number, and the size that frames are cut to. -/
structure Past (role : Role) (floor size : Nat) (c : Codec δ) : Prop where
  counted : Counted role c.nextStreamId
  floor : floor ≤ c.nextStreamId.toNat
  size : c.maxFrameSize = size

/-- The counter never goes back, and the size of frames stays, whatever happens. -/
theorem Leads.Keeps.past (role : Role) (floor size : Nat) :
    Leads.Keeps (fun _ : Op δ => True) (Past role floor size) where
  perform op _ past :=
    have counts := counts_perform _ op
    ⟨counts.counted past.counted, Nat.le_trans past.floor counts.le,
      (sameReceiver_perform _ op).maxFrameSize.trans past.size⟩
  receive outcome past := by
    refine ⟨?_, ?_, ?_⟩
    · exact outcome.nextStreamId_eq ▸ past.counted
    · exact outcome.nextStreamId_eq ▸ past.floor
    · cases outcome <;> exact past.size
  fail _ past := ⟨past.counted, past.floor, past.size⟩
  reassemble _ past := ⟨past.counted, past.floor, past.size⟩

end Codec

namespace Connection

variable {c : Connection δ σ}

/-! ## What every turn keeps of the codec -/

section Keeping

variable {P : Codec δ → Prop}

/-- What callbacks and operations keep, reading a connection keeps. -/
theorem keeps_read (rule : Codec.Leads.Keeps (fun _ => True) P) (sound : c.Sound) (holds : P c.codec)
    (buffer : Bytes) : P (c.readAvailable buffer).connection.codec := by
  have taken {c : Connection δ σ} (sound : c.Sound) (holds : P c.codec) (bytes : Bytes) :
      P (c.takeIn bytes).1.codec :=
    (Endpoint.leads_moments sound.reachable.consistent c.handler bytes).keeps rule
      (fun _ _ _ _ _ => trivial) (.inl holds)
  induction c, buffer using readAvailable.induct_unfolding with
  | case2 c buffer bytes socket found c' some connection fed ih =>
    have arrived : c'.Sound := sound.meet socket c.health
    have kept := taken arrived holds bytes
    have onward := arrived.takeIn bytes
    rw [fed] at kept onward
    exact ih onward kept
  | case3 c buffer bytes socket found c' some connection fault fed =>
    have arrived : c'.Sound := sound.meet socket c.health
    have kept := taken arrived holds bytes
    rwa [fed] at kept
  | case1 | case4 | case5 | case6 => exact holds

/-- What callbacks and operations keep, pulling bodies keeps. -/
theorem keeps_pulls (rule : Codec.Leads.Keeps (fun _ => True) P) (holds : P c.codec) (buffer : Bytes)
    (ids : List UInt32) :
    P (ids.foldl (fun (c, buffer) id => c.pullBody buffer id) (c, buffer)).1.codec := by
  induction ids generalizing c buffer with
  | nil => exact holds
  | cons id ids ih =>
    refine ih ?_ _
    exact c.codec_pullBody buffer id ▸ ((c.pullScript buffer id).leads c.codec).keeps rule
      (fun _ _ _ _ _ => trivial) (.inl holds)

/-- What everything that happens at a codec keeps, every turn keeps. -/
theorem keeps_turn (rule : Codec.Leads.Keeps (fun _ => True) P)
    (blind : ∀ codec outbound, P codec → P { codec with outbound }) (sound : c.Sound)
    (holds : P c.codec) (t : Turn δ σ) : P (c.turn t).codec := by
  cases t with
  | read buffer => exact keeps_read rule sound holds buffer
  | write =>
    obtain ⟨outbound, sending, socket, health, wrote⟩ := c.takeWriteSignal.2.exists_writeLoop
    rw [turn, writePending, wrote]
    exact blind _ outbound (rule.perform .takeWriteSignal trivial holds)
  | start request =>
    rw [turn, startRequest_eq]
    exact (request.script.leads c.codec).keeps rule (fun _ _ _ _ _ => trivial) (.inl holds)
  | pull buffer => exact keeps_pulls (c := { c with inProgress := [] }) rule holds buffer c.inProgress
  | deed deed =>
    exact (Endpoint.leads_momentsOf sound.reachable.consistent c.handler deed).keeps rule
      (fun _ _ _ _ _ => trivial) (.inl holds)
  | abandon | meet => exact holds

end Keeping

/-! ## Bodies in progress -/

/-- The bodies in progress after a turn. -/
def bodiesAfter (c : Connection δ σ) : Turn δ σ → List UInt32
  | .start request => c.pullingAfter request (c.startRequest request).1
  | .pull buffer => ((c.asksIn (.pull buffer)).filter Asked.goesOn).map Asked.id
  | .abandon => []
  | .read _ | .write | .deed _ | .meet _ _ => c.inProgress

/-- Each kind of turn leaves its own list of bodies in progress. -/
theorem inProgress_turn (c : Connection δ σ) (t : Turn δ σ) :
    (c.turn t).inProgress = c.bodiesAfter t := by
  cases t with
  | read buffer =>
    obtain ⟨endpoint, socket, health, read⟩ := c.exists_readAvailable buffer
    rw [turn, read]
    rfl
  | write =>
    obtain ⟨outbound, sending, socket, health, wrote⟩ := c.takeWriteSignal.2.exists_writeLoop
    rw [turn, writePending, wrote]
    rfl
  | start request =>
    rw [turn, bodiesAfter, startRequest_eq]
    rfl
  | pull buffer => exact c.inProgress_pullBodies buffer
  | abandon | deed | meet => rfl

/-- The bodies that go on are some of those that were in progress, in the same order. -/
theorem sublist_goesOn (c : Connection δ σ) (buffer : Bytes) :
    (c.bodiesAfter (.pull buffer)).Sublist c.inProgress :=
  c.map_id_asksIn_pull buffer ▸ List.filter_sublist.map Asked.id

/-- What every turn keeps: the bodies in progress have identifiers that this side gave out in rising order,
and the counter is past them. -/
structure Ready (role : Role) (size : Nat) (c : Connection δ σ) : Prop where
  sound : c.Sound
  counted : Codec.Counted role c.codec.nextStreamId
  size : c.codec.maxFrameSize = size
  given : Codec.GivenOut role c.inProgress c.codec.nextStreamId

namespace Ready

variable {role : Role} {size : Nat}

/-- The counter after a turn. -/
theorem past (ready : c.Ready role size) (t : Turn δ σ) :
    (c.turn t).codec.Past role c.codec.nextStreamId.toNat size :=
  keeps_turn (.past role _ size) (fun _ _ past => ⟨past.counted, past.floor, past.size⟩) ready.sound
    ⟨ready.counted, Nat.le_refl _, ready.size⟩ t

/-- Every turn leaves the identifiers of the bodies rising, and the counter past them. -/
theorem turn (ready : c.Ready role size) (t : Turn δ σ) : (c.turn t).Ready role size := by
  have past := ready.past t
  refine ⟨ready.sound.turn t, past.counted, past.size, ?_⟩
  rw [inProgress_turn]
  cases t with
  | read | write | deed | meet => exact ready.given.mono (.refl _) past.floor
  | abandon => exact ready.given.mono (List.nil_sublist _) past.floor
  | pull buffer => exact ready.given.mono (c.sublist_goesOn buffer) past.floor
  | start request =>
    rcases answer : c.startRequest request with ⟨fault | id, c'⟩
    · rw [bodiesAfter, answer]
      exact ready.given.mono (.refl _) past.floor
    · have starts := starts_of_ok answer
      have given := ready.given.counts (.given starts.left) ready.counted
      have after : c.turn (.start request) = c' := congrArg Prod.snd answer
      rw [bodiesAfter, answer, after, starts.counter, starts.next]
      refine given.mono ?_ (Nat.le_refl _)
      rw [pullingAfter]
      split
      · exact .refl _
      · exact List.sublist_append_left _ _

theorem serve (ready : c.Ready role size) (turns : List (Turn δ σ)) : (c.serve turns).Ready role size := by
  induction turns generalizing c with
  | nil => exact ready
  | cons t turns ih => exact ih (ready.turn t)

/-- A fresh connection has no bodies in progress. -/
theorem fresh {id : ConnectionId} {socket : Socket} {handler : Handler δ σ} {app : σ} :
    ({ id, socket, handler, endpoint := ⟨.create role size, app⟩ } : Connection δ σ).Ready role
      (Codec.create role size : Codec δ).maxFrameSize where
  sound := .fresh (.create role size)
  counted := Codec.counted_firstStreamId role
  size := rfl
  given := ⟨.nil, List.forall_mem_nil _, List.forall_mem_nil _⟩

/-- A body that joins in a turn is past the counter. -/
theorem mem_inProgress_turn (t : Turn δ σ) {id : UInt32} (member : id ∈ (c.turn t).inProgress) :
    id ∈ c.inProgress ∨ c.codec.nextStreamId.toNat ≤ id.toNat := by
  rw [inProgress_turn] at member
  cases t with
  | read | write | deed | meet => exact .inl member
  | abandon => cases member
  | pull buffer => exact .inl ((c.sublist_goesOn buffer).subset member)
  | start request =>
    rcases answer : c.startRequest request with ⟨fault | new, c'⟩
    · rw [bodiesAfter, answer] at member
      exact .inl member
    · rw [bodiesAfter, answer, pullingAfter] at member
      split at member
      · rcases List.mem_append.mp member with old | here
        · exact .inl old
        · rw [List.mem_singleton.mp here, (starts_of_ok answer).next]
          exact .inr (Nat.le_refl _)
      · exact .inl member

/-- Over any run the counter does not go back. -/
theorem le_serve (ready : c.Ready role size) (turns : List (Turn δ σ)) :
    c.codec.nextStreamId.toNat ≤ (c.serve turns).codec.nextStreamId.toNat := by
  induction turns generalizing c with
  | nil => exact Nat.le_refl _
  | cons t turns ih => exact Nat.le_trans (ready.past t).floor (ih (ready.turn t))

end Ready

/-! ## Runs -/

/-- The calls for body bytes in a run, in order. -/
def asksOver (c : Connection δ σ) : List (Turn δ σ) → List (Asked σ)
  | [] => []
  | t :: turns => c.asksIn t ++ (c.turn t).asksOver turns

/-- What a run sends on streams, in order. -/
def sendsOver (c : Connection δ σ) : List (Turn δ σ) → List (UInt32 × Push)
  | [] => []
  | t :: turns => c.sends t ++ (c.turn t).sendsOver turns

/-- The application queues nothing itself in a run. -/
def Quiet (c : Connection δ σ) : List (Turn δ σ) → Prop
  | [] => True
  | t :: turns => c.QuietIn t ∧ (c.turn t).Quiet turns

instance (c : Connection δ σ) (t : Turn δ σ) : Decidable (c.QuietIn t) :=
  inferInstanceAs (Decidable (∀ i ∈ c.applicationInstants t, i.queued = []))

instance decidableQuiet : (c : Connection δ σ) → (turns : List (Turn δ σ)) → Decidable (c.Quiet turns)
  | _, [] => .isTrue trivial
  | c, t :: turns =>
    have := decidableQuiet (c.turn t) turns
    inferInstanceAs (Decidable (c.QuietIn t ∧ (c.turn t).Quiet turns))

theorem asksOver_append (c : Connection δ σ) (first second : List (Turn δ σ)) :
    c.asksOver (first ++ second) = c.asksOver first ++ (c.serve first).asksOver second := by
  induction first generalizing c with
  | nil => rfl
  | cons t turns ih => rw [List.cons_append, asksOver, asksOver, ih, List.append_assoc]; rfl

theorem sendsOver_append (c : Connection δ σ) (first second : List (Turn δ σ)) :
    c.sendsOver (first ++ second) = c.sendsOver first ++ (c.serve first).sendsOver second := by
  induction first generalizing c with
  | nil => rfl
  | cons t turns ih => rw [List.cons_append, sendsOver, sendsOver, ih, List.append_assoc]; rfl

/-- Only bodies in progress are called for. -/
theorem mem_asksIn {t : Turn δ σ} {a : Asked σ} (member : a ∈ c.asksIn t) : a.id ∈ c.inProgress := by
  cases t with
  | pull buffer => exact c.map_id_asksIn_pull buffer ▸ List.mem_map_of_mem member
  | read | write | start | abandon | deed | meet => cases member

/-- A turn calls for each body once at most. -/
theorem nodup_asksIn (distinct : c.inProgress.Nodup) (t : Turn δ σ) :
    ((c.asksIn t).map Asked.id).Nodup := by
  cases t with
  | pull buffer => rwa [map_id_asksIn_pull]
  | read | write | start | abandon | deed | meet => exact List.nodup_nil

/-- A body goes on if its call says so, and not otherwise. -/
theorem goesOn_iff (distinct : c.inProgress.Nodup) {t : Turn δ σ} {a : Asked σ}
    (member : a ∈ c.asksIn t) : a.id ∈ (c.turn t).inProgress ↔ a.goesOn := by
  have single := nodup_asksIn distinct t
  cases t with
  | pull buffer =>
    rw [inProgress_turn, bodiesAfter, List.mem_map]
    constructor
    · rintro ⟨other, going, same⟩
      obtain ⟨there, goes⟩ := List.mem_filter.mp going
      rwa [← List.inj_on_of_nodup_map single there member same]
    · exact fun goes => ⟨a, List.mem_filter.mpr ⟨member, goes⟩, rfl⟩
  | read | write | start | abandon | deed | meet => cases member

/-- A header block goes out on the next identifier, and the counter moves past it. -/
theorem mem_opens {t : Turn δ σ} {x : UInt32 × Push} (member : x ∈ c.opens t) :
    x.1 = c.codec.nextStreamId ∧ ¬maxStreamId < c.codec.nextStreamId ∧
      (c.turn t).codec.nextStreamId = c.codec.nextStreamId + 2 := by
  cases t with
  | start request =>
    rcases answer : c.startRequest request with ⟨fault | id, c'⟩
    · rw [opens, answer] at member
      cases member
    · have starts := starts_of_ok answer
      rw [opens, answer, List.mem_singleton] at member
      rw [turn, answer, member]
      exact ⟨starts.next, starts.left, starts.counter⟩
  | read | write | pull | abandon | deed | meet => cases member

section Streams

variable {role : Role} {size : Nat}

/-- Every body that is called for was in progress at the start or got its identifier since. -/
theorem mem_asksOver (ready : c.Ready role size) {turns : List (Turn δ σ)} {a : Asked σ}
    (member : a ∈ c.asksOver turns) : a.id ∈ c.inProgress ∨ c.codec.nextStreamId.toNat ≤ a.id.toNat := by
  induction turns generalizing c with
  | nil => cases member
  | cons t turns ih =>
    rcases List.mem_append.mp member with now | later
    · exact .inl (mem_asksIn now)
    · rcases ih (ready.turn t) later with going | past
      · exact Ready.mem_inProgress_turn t going
      · exact .inr (Nat.le_trans (ready.past t).floor past)

/-- Of all calls for one body, only the last may not go on. -/
theorem pairwise_asksOver (ready : c.Ready role size) (turns : List (Turn δ σ)) :
    (c.asksOver turns).Pairwise fun a later => a.id = later.id → a.goesOn := by
  induction turns generalizing c with
  | nil => exact .nil
  | cons t turns ih =>
    have distinct := ready.given.nodup
    refine List.pairwise_append.mpr ⟨?_, ih (ready.turn t), fun a now b later same => ?_⟩
    · exact (List.pairwise_map.mp (nodup_asksIn distinct t)).imp fun other same => absurd same other
    · refine (goesOn_iff distinct now).mp ?_
      rcases mem_asksOver (ready.turn t) later with going | past
      · exact same ▸ going
      · -- The identifier was given out before this turn, so it is not one of the later ones.
        have below := Nat.lt_of_lt_of_le (ready.given.below a.id (mem_asksIn now)) (ready.past t).floor
        rw [same] at below
        omega

/-- Everything is sent on identifiers that the counter is past. -/
theorem below_sends (ready : c.Ready role size) {t : Turn δ σ} {x : UInt32 × Push}
    (member : x ∈ c.sends t) :
    IsStreamId x.1 ∧ x.1.toNat < (c.turn t).codec.nextStreamId.toNat := by
  rcases List.mem_append.mp member with head | piece
  · obtain ⟨next, left, counter⟩ := mem_opens head
    rw [next, counter, Codec.toNat_next left]
    exact ⟨Codec.isStreamId_next left ready.counted.positive, by omega⟩
  · obtain ⟨a, asked, rfl⟩ := List.mem_map.mp piece
    have going := mem_asksIn (List.mem_filter.mp asked).1
    exact ⟨ready.given.isStreamId going,
      Nat.lt_of_lt_of_le (ready.given.below _ going) (ready.past t).floor⟩

/-- What a run sends is on streams that the counter has passed by its end. -/
theorem below_sendsOver (ready : c.Ready role size) {turns : List (Turn δ σ)} {x : UInt32 × Push}
    (member : x ∈ c.sendsOver turns) :
    IsStreamId x.1 ∧ x.1.toNat < (c.serve turns).codec.nextStreamId.toNat := by
  induction turns generalizing c with
  | nil => cases member
  | cons t turns ih =>
    rcases List.mem_append.mp member with now | later
    · obtain ⟨valid, below⟩ := below_sends ready now
      exact ⟨valid, Nat.lt_of_lt_of_le below ((ready.turn t).le_serve turns)⟩
    · exact ih (ready.turn t) later

/-- On an identifier that the counter is past, nothing is sent but pieces of its body. -/
theorem filter_sends {stream : UInt32} (past : stream.toNat < c.codec.nextStreamId.toNat)
    (t : Turn δ σ) :
    (c.sends t).filter (·.1 = stream) =
      (((c.asksIn t).filter (·.id = stream)).filter Asked.accepted).map Asked.sent := by
  have opened : (c.opens t).filter (·.1 = stream) = [] := by
    refine List.filter_eq_nil_iff.mpr fun x head same => ?_
    rw [← of_decide_eq_true same, (mem_opens head).1] at past
    exact Nat.lt_irrefl _ past
  rw [sends, List.filter_append, opened, List.nil_append, List.filter_map, List.filter_filter,
    List.filter_filter]
  exact congrArg _ (List.filter_congr fun a _ => Bool.and_comm _ _)

/-- On a stream that is in use already, a run sends the pieces that are accepted, and no headers. -/
theorem filter_sendsOver (ready : c.Ready role size) {stream : UInt32}
    (past : stream.toNat < c.codec.nextStreamId.toNat) (turns : List (Turn δ σ)) :
    (c.sendsOver turns).filter (·.1 = stream) =
      (((c.asksOver turns).filter (·.id = stream)).filter Asked.accepted).map Asked.sent := by
  induction turns generalizing c with
  | nil => rfl
  | cons t turns ih =>
    rw [sendsOver, asksOver, List.filter_append, List.filter_append, List.filter_append, List.map_append,
      filter_sends past t, ih (ready.turn t) (Nat.lt_of_lt_of_le past (ready.past t).floor)]

/-- What a run queues, if the application queues nothing itself. -/
theorem queued_history (ready : c.Ready role size) {codec : Codec δ} (sized : codec.maxFrameSize = size)
    {turns : List (Turn δ σ)} (quiet : c.Quiet turns) :
    (c.history turns).flatMap Instant.queued =
      (c.sendsOver turns).flatMap fun x => codec.framesOf x.1 x.2 := by
  induction turns generalizing c with
  | nil => rfl
  | cons t turns ih =>
    rw [history, sendsOver, List.flatMap_append, List.flatMap_append, queued_turn quiet.1,
      ih (ready.turn t) quiet.2, Codec.framesOf_congr (sized.trans ready.size.symm)]

end Streams

end Connection

/-! ## The frames of a body -/

namespace Push.Spells

variable {p : Push} {id : UInt32} {size : Nat} {frames : List Frame} {bytes : Bytes} {last : Bool}

/-- All frames of a push are of its stream. -/
theorem stream (spells : p.Spells id size frames) {f : Frame} (member : f ∈ frames) : f.stream = id := by
  cases spells with
  | headers cuts each | data content cuts each =>
    obtain ⟨i, here⟩ := List.mem_iff_getElem?.mp member
    exact (each i f here).1
  | noData => cases member
  | reset stream => exact List.mem_singleton.mp member ▸ stream

/-- The frames of a body segment carry it whole and in order. -/
theorem payload (spells : (Push.data bytes last).Spells id size frames) :
    frames.flatMap Frame.payload = bytes := by
  cases spells with
  | data content cuts => exact cuts.whole
  | noData => rfl

/-- A body segment travels in DATA frames. -/
theorem kind (spells : (Push.data bytes last).Spells id size frames) {f : Frame} (member : f ∈ frames) :
    f.kind = .data := by
  cases spells with
  | data content cuts each =>
    obtain ⟨i, here⟩ := List.mem_iff_getElem?.mp member
    exact (each i f here).2.1
  | noData => cases member

/-- The end of a body is always sent, in an empty frame if nothing is left. -/
theorem ne_nil (spells : (Push.data bytes true).Spells id size frames) : frames ≠ [] := by
  cases spells with
  | data content cuts =>
    rintro rfl
    have count := cuts.count
    rw [List.length_nil] at count
    omega

/-- The last frame of the last piece ends the stream, and no other does. -/
theorem ends (spells : (Push.data bytes last).Spells id size frames) {front back : List Frame}
    {f : Frame} (split : frames = front ++ f :: back) :
    f.hasFlag Flag.endStream ↔ back = [] ∧ last := by
  cases spells with
  | data content cuts each =>
    have here : frames[front.length]? = some f := by simp [split]
    have final : front.length + 1 = frames.length ↔ back = [] := by
      rw [split, List.length_append, List.length_cons, ← List.length_eq_zero_iff]
      omega
    exact (each _ f here).2.2.1.trans (and_congr_left fun _ => final)
  | noData => simp at split

end Push.Spells

/-- Frames that carry a body, given all calls for it. -/
structure Asked.Carried (stream : UInt32) (size : Nat) (calls : List (Asked σ)) (frames : List Frame) :
    Prop where
  /-- Only the last call may be finished or refused. -/
  ongoing : calls.Pairwise fun a _ => a.goesOn
  /-- Each accepted piece is cut on its own. -/
  cut : ∃ cut : Asked σ → List Frame,
    (∀ a ∈ calls, (Push.data a.piece a.finished).Spells stream size (cut a)) ∧
      frames = (calls.filter Asked.accepted).flatMap cut
  kind : ∀ f ∈ frames, f.kind = .data
  payload : frames.flatMap Frame.payload = (calls.filter Asked.accepted).flatMap Asked.piece
  /-- END_STREAM is on the last frame of a piece that was accepted and finished, and on no other. -/
  ends : ∀ front f back, frames = front ++ f :: back →
    (f.hasFlag Flag.endStream ↔ back = [] ∧ ∃ a ∈ calls, a.accepted ∧ a.finished)
  /-- There is such a frame if there is such a piece. -/
  ended : (∃ a ∈ calls, a.accepted ∧ a.finished) → frames ≠ []

namespace Asked

variable {stream : UInt32} {size : Nat} {calls : List (Asked σ)} {cut : Asked σ → List Frame}

/-- A piece that was accepted and finished is the last one. -/
theorem finished_iff (ongoing : calls.Pairwise fun a _ => a.goesOn) {front : List (Asked σ)}
    {z : Asked σ} (split : calls.filter Asked.accepted = front ++ [z]) :
    (∀ a ∈ front, a.finished = false) ∧
      ((∃ a ∈ calls, a.accepted ∧ a.finished) ↔ z.finished) := by
  have ongoing := ongoing.filter Asked.accepted
  rw [split] at ongoing
  have unfinished : ∀ a ∈ front, a.finished = false := fun a member => by
    have goes := (List.pairwise_append.mp ongoing).2.2 a member z (List.mem_singleton_self z)
    rw [goesOn, Bool.and_eq_true, Bool.not_eq_true'] at goes
    exact goes.2
  have pieces (a : Asked σ) : a ∈ calls ∧ a.accepted ↔ a ∈ front ∨ a = z := by
    rw [← List.mem_filter, split, List.mem_append, List.mem_singleton]
  refine ⟨unfinished, ⟨?_, fun ends => ?_⟩⟩
  · rintro ⟨a, called, accepted, ends⟩
    rcases (pieces a).mp ⟨called, accepted⟩ with early | rfl
    · rw [unfinished a early] at ends
      cases ends
    · exact ends
  · obtain ⟨called, accepted⟩ := (pieces z).mpr (.inr rfl)
    exact ⟨z, called, accepted, ends⟩

/-- The end flag is on the last frame of a body, if its last piece was accepted, and on no other. -/
theorem ends_of_spells (ongoing : calls.Pairwise fun a _ => a.goesOn)
    (spells : ∀ a ∈ calls, (Push.data a.piece a.finished).Spells stream size (cut a))
    {front back : List Frame} {f : Frame}
    (split : (calls.filter Asked.accepted).flatMap cut = front ++ f :: back) :
    f.hasFlag Flag.endStream ↔ back = [] ∧ ∃ a ∈ calls, a.accepted ∧ a.finished := by
  have spells (a : Asked σ) (member : a ∈ calls.filter Asked.accepted) :=
    spells a (List.mem_of_mem_filter member)
  rcases List.eq_nil_or_concat (calls.filter Asked.accepted) with none | ⟨pieces, z, final⟩
  · simp [none] at split
  · rw [List.concat_eq_append] at final
    obtain ⟨unfinished, finished⟩ := finished_iff ongoing final
    rw [final] at spells
    have last := spells z (List.mem_append_right _ (List.mem_singleton_self z))
    rw [finished]
    rw [final, List.flatMap_append, List.flatMap_singleton] at split
    -- The frame is one of the last piece, or one of the pieces before it.
    rcases List.append_eq_append_iff.mp split with ⟨before, rfl, here⟩ | ⟨_ | ⟨g, after⟩, early, rest⟩
    · exact last.ends here
    · have whole : cut z = [] ++ f :: back := rest.symm
      exact last.ends whole
    · obtain ⟨rfl, rfl⟩ := List.cons.inj rest
      have member : f ∈ pieces.flatMap cut := early ▸ List.mem_append_right _ List.mem_cons_self
      obtain ⟨a, called, inside⟩ := List.mem_flatMap.mp member
      obtain ⟨_, _, place⟩ := List.append_of_mem inside
      have silent := (spells a (List.mem_append_left _ called)).ends place
      rw [unfinished a called] at silent
      refine ⟨fun flagged => absurd (silent.mp flagged).2 Bool.false_ne_true, ?_⟩
      rintro ⟨alone, ends⟩
      rw [ends] at last
      exact absurd (List.append_eq_nil_iff.mp alone).2 last.ne_nil

/-- The pieces carry the body, each cut as a push on the stream is. -/
theorem carried_of_spells (ongoing : calls.Pairwise fun a _ => a.goesOn)
    (spells : ∀ a ∈ calls, (Push.data a.piece a.finished).Spells stream size (cut a)) :
    Carried stream size calls ((calls.filter Asked.accepted).flatMap cut) where
  ongoing := ongoing
  cut := ⟨cut, spells, rfl⟩
  kind f member := by
    obtain ⟨a, called, here⟩ := List.mem_flatMap.mp member
    exact (spells a (List.mem_of_mem_filter called)).kind here
  payload := by
    rw [List.flatMap_assoc]
    exact List.flatMap_congr fun a member => (spells a (List.mem_of_mem_filter member)).payload
  ends front f back split := ends_of_spells ongoing spells split
  ended := by
    rintro ⟨a, called, accepted, ends⟩ none
    have piece := spells a called
    rw [ends] at piece
    exact piece.ne_nil (List.flatMap_eq_nil_iff.mp none a (List.mem_filter.mpr ⟨called, accepted⟩))

end Asked

/-- The frames of one stream are those that were sent on it. -/
theorem Codec.filter_framesOf (c : Codec δ) (positive : 1 ≤ c.maxFrameSize)
    {sent : List (UInt32 × Push)} (valid : ∀ x ∈ sent, IsStreamId x.1) (stream : UInt32) :
    (sent.flatMap fun x => c.framesOf x.1 x.2).filter (·.stream = stream) =
      (sent.filter (·.1 = stream)).flatMap fun x => c.framesOf x.1 x.2 := by
  induction sent with
  | nil => rfl
  | cons x sent ih =>
    obtain ⟨here, valid⟩ := List.forall_mem_cons.mp valid
    have spells : x.2.Spells x.1 c.maxFrameSize (c.framesOf x.1 x.2) := spells_framesOf here positive
    rw [List.flatMap_cons, List.filter_append, ih valid, List.filter_cons]
    split
    · rename_i same
      rw [List.flatMap_cons, List.filter_eq_self.mpr]
      intro f member
      rw [spells.stream member]
      exact same
    · rename_i other
      rw [List.filter_eq_nil_iff.mpr, List.nil_append]
      intro f member
      rw [spells.stream member]
      exact other

namespace Connection

variable {c : Connection δ σ}

/-- What one turn does to the bodies in progress. -/
structure Rotates (c : Connection δ σ) (t : Turn δ σ) : Prop where
  distinct : c.inProgress.Nodup
  after : (c.turn t).inProgress = c.bodiesAfter t
  /-- A pull calls for every body in progress once, in order, and those that stay keep their order. -/
  calls : ∀ buffer, t = .pull buffer →
    (c.asksIn t).map Asked.id = c.inProgress ∧ (c.turn t).inProgress.Sublist c.inProgress
  /-- A piece is what the application reports, cut to the buffer. -/
  sizes : ∀ buffer, t = .pull buffer →
    ∀ a ∈ c.asksIn t, a.piece.length = min a.reply.chunk.written buffer.length
  /-- A body leaves when it is finished or refused, and only then, unless all are given up. -/
  leaves : t ≠ .abandon → ∀ stream ∈ c.inProgress,
    (stream ∉ (c.turn t).inProgress ↔
      ∃ a ∈ c.asksIn t, a.id = stream ∧ (a.finished ∨ ∃ fault, a.pushed = .error fault))
  /-- An application that notes the calls has noted these and no others. -/
  noted : (∀ deed, t ≠ .deed deed) → ∀ noted, c.handler.Notes noted →
    noted (c.turn t).endpoint.app = noted c.endpoint.app ++ (c.asksIn t).map Asked.id

/-- A body leaves the list in the turn in which it is finished or refused, and in no other. -/
theorem leaves_of_distinct (distinct : c.inProgress.Nodup) {t : Turn δ σ} (kept : t ≠ .abandon)
    {stream : UInt32} (member : stream ∈ c.inProgress) :
    stream ∉ (c.turn t).inProgress ↔
      ∃ a ∈ c.asksIn t, a.id = stream ∧ (a.finished ∨ ∃ fault, a.pushed = .error fault) := by
  have stays (silent : c.asksIn t = []) (still : stream ∈ (c.turn t).inProgress) :
      stream ∉ (c.turn t).inProgress ↔
        ∃ a ∈ c.asksIn t, a.id = stream ∧ (a.finished ∨ ∃ fault, a.pushed = .error fault) := by
    rw [silent]
    exact iff_of_false (absurd still) fun ⟨_, called, _⟩ => List.not_mem_nil called
  cases t with
  | pull buffer =>
    have single := nodup_asksIn distinct (.pull buffer)
    rw [← c.map_id_asksIn_pull buffer] at member
    obtain ⟨a, called, rfl⟩ := List.mem_map.mp member
    rw [goesOn_iff distinct called, a.not_goesOn]
    constructor
    · exact fun stopped => ⟨a, called, rfl, stopped⟩
    · rintro ⟨other, there, same, stopped⟩
      rwa [← List.inj_on_of_nodup_map single there called same]
  | start request =>
    refine stays rfl ?_
    rw [inProgress_turn, bodiesAfter]
    unfold pullingAfter
    split
    · exact member
    · split
      · exact List.mem_append_left _ member
      · exact member
  | read | write | deed | meet => exact stays rfl (c.inProgress_turn _ ▸ member)
  | abandon => exact absurd rfl kept

/-- Every turn rotates the bodies in progress. -/
theorem Ready.rotates {role : Role} {size : Nat} (ready : c.Ready role size) (t : Turn δ σ) :
    c.Rotates t where
  distinct := ready.given.nodup
  after := c.inProgress_turn t
  calls := by
    rintro buffer rfl
    exact ⟨c.map_id_asksIn_pull buffer, c.inProgress_turn _ ▸ c.sublist_goesOn buffer⟩
  sizes := by
    rintro buffer rfl a called
    rw [a.length_piece, length_buffer_asks a called]
  leaves kept _ member := leaves_of_distinct ready.given.nodup kept member
  noted own _ notes := noted_turn notes own

section Requests

variable {role : Role} {size : Nat} {earlier later : List (Turn δ σ)} {request : Request δ}
  {stream : UInt32}

/-- Bodies are asked for on streams that the counter has passed by then. -/
theorem below_asksOver (ready : c.Ready role size) {turns : List (Turn δ σ)} {a : Asked σ}
    (member : a ∈ c.asksOver turns) : a.id.toNat < (c.serve turns).codec.nextStreamId.toNat := by
  induction turns generalizing c with
  | nil => cases member
  | cons t turns ih =>
    rcases List.mem_append.mp member with now | later
    · exact Nat.lt_of_lt_of_le (ready.given.below _ (mem_asksIn now)) (ready.le_serve (t :: turns))
    · exact ih (ready.turn t) later

/-- The turn that starts a request does what starting it does. -/
theorem starts_turn (started : (c.startRequest request).1 = .ok stream) :
    c.Starts request stream (c.turn (.start request)) :=
  starts_of_ok (by rw [← started]; rfl)

/-- The counter is past the identifier of a request that was started. -/
theorem past_of_started (started : (c.startRequest request).1 = .ok stream) :
    stream.toNat < (c.turn (.start request)).codec.nextStreamId.toNat := by
  have starts := starts_turn started
  rw [starts.counter, Codec.toNat_next starts.left, starts.next]
  omega

/-- The calls for the body of a request all come after it was started. -/
theorem calls_of_started (ready : c.Ready role size)
    (started : ((c.serve earlier).startRequest request).1 = .ok stream) :
    (c.asksOver (earlier ++ .start request :: later)).filter (·.id = stream) =
      (((c.serve earlier).turn (.start request)).asksOver later).filter (·.id = stream) := by
  have before : (c.asksOver earlier).filter (·.id = stream) = [] := by
    refine List.filter_eq_nil_iff.mpr fun a member same => ?_
    have below := below_asksOver ready member
    rw [of_decide_eq_true same, (starts_turn started).next] at below
    exact Nat.lt_irrefl _ below
  rw [asksOver_append, List.filter_append, before, List.nil_append]
  rfl

/-- On the stream of a request, its header block is sent, and then the pieces of its body. -/
theorem sends_of_started (ready : c.Ready role size)
    (started : ((c.serve earlier).startRequest request).1 = .ok stream) :
    let turns := earlier ++ .start request :: later
    (c.sendsOver turns).filter (·.1 = stream) =
      (stream, .headers request.fields (!request.hasBody)) ::
        (((c.asksOver turns).filter (·.id = stream)).filter Asked.accepted).map Asked.sent := by
  have onward := (ready.serve earlier).turn (.start request)
  have silent : (c.sendsOver earlier).filter (·.1 = stream) = [] := by
    refine List.filter_eq_nil_iff.mpr fun x member same => ?_
    have below := (below_sendsOver ready member).2
    rw [of_decide_eq_true same, (starts_turn started).next] at below
    exact Nat.lt_irrefl _ below
  have opening : (c.serve earlier).sends (.start request) =
      [(stream, .headers request.fields (!request.hasBody))] := by
    rw [sends, opens, started]
    rfl
  intro turns
  rw [calls_of_started ready started, ← filter_sendsOver onward (past_of_started started) later,
    sendsOver_append, List.filter_append, silent, List.nil_append, sendsOver, opening,
    List.singleton_append]
  exact List.filter_cons_of_pos (decide_eq_true rfl)

/-- What is queued on the stream of a request: its header block, and then its body. -/
theorem exists_carried (ready : c.Ready role size) (positive : 1 ≤ size)
    (quiet : c.Quiet (earlier ++ .start request :: later))
    (started : ((c.serve earlier).startRequest request).1 = .ok stream) :
    let turns := earlier ++ .start request :: later
    ∃ header body,
      ((c.history turns).flatMap Instant.queued).filter (·.stream = stream) = header ++ body ∧
        (Push.headers request.fields (!request.hasBody)).Spells stream size header ∧
        Asked.Carried stream size ((c.asksOver turns).filter (·.id = stream)) body := by
  intro turns
  have starts := starts_turn started
  have positive' : 1 ≤ c.codec.maxFrameSize := ready.size ▸ positive
  have valid : IsStreamId stream :=
    starts.next ▸ Codec.isStreamId_next starts.left (ready.serve earlier).counted.positive
  have spells (p : Push) : p.Spells stream size (c.codec.framesOf stream p) :=
    ready.size ▸ Codec.spells_framesOf valid positive'
  have ongoing := (pairwise_asksOver ready turns).filter (·.id = stream)
  have single : ((c.asksOver turns).filter (·.id = stream)).Pairwise fun a _ => a.goesOn :=
    ongoing.imp_of_mem fun first second goes => goes <|
      (of_decide_eq_true (List.mem_filter.mp first).2).trans
        (of_decide_eq_true (List.mem_filter.mp second).2).symm
  refine ⟨c.codec.framesOf stream (.headers request.fields (!request.hasBody)), _, ?_, spells _,
    Asked.carried_of_spells single fun a _ => spells a.push⟩
  have each : ∀ x ∈ c.sendsOver turns, IsStreamId x.1 := fun x member =>
    (below_sendsOver ready member).1
  rw [queued_history ready ready.size quiet, c.codec.filter_framesOf positive' each,
    sends_of_started ready started, List.flatMap_cons, List.flatMap_map]
  refine congrArg _ (List.flatMap_congr fun a member => ?_)
  have here := of_decide_eq_true (List.mem_filter.mp (List.mem_of_mem_filter member)).2
  rw [Asked.sent, here]

/-- A request without a body is never asked for one. -/
theorem calls_of_bodiless (ready : c.Ready role size) (bodiless : request.hasBody = false)
    (started : ((c.serve earlier).startRequest request).1 = .ok stream) :
    (c.asksOver (earlier ++ .start request :: later)).filter (·.id = stream) = [] := by
  have current := ready.serve earlier
  have starts := starts_turn started
  rw [calls_of_started ready started]
  refine List.filter_eq_nil_iff.mpr fun a member same => ?_
  have here := of_decide_eq_true same
  rcases mem_asksOver (current.turn _) member with going | past
  · rw [starts.bodies, bodiless, here, starts.next] at going
    have below := current.given.below _ (List.append_nil _ ▸ going)
    exact Nat.lt_irrefl _ below
  · rw [here] at past
    exact absurd (past_of_started started) (Nat.not_lt.mpr past)

end Requests

/-- However a fresh connection is used, as long as its application queues nothing itself: no body is twice
in progress; a pull asks for each of them once, in order; those that stay keep their order, and a body
leaves exactly when it is finished or refused. What is queued on the stream of a request is its header block
and then the accepted pieces of its body, in order and each cut to the buffer, with END_STREAM on the last
frame of a piece that is finished and accepted and on no other, and nothing after that. -/
theorem request_bodies_are_sent_whole (role : Role) (size : Nat) (id : ConnectionId) (socket : Socket)
    (h : Handler δ σ) (app : σ) (turns : List (Turn δ σ)) :
    let c : Connection δ σ := { id, socket, handler := h, endpoint := ⟨.create role size, app⟩ }
    let limit := c.codec.maxFrameSize
    c.Quiet turns →
      (∀ earlier later, turns = earlier ++ later → (c.serve earlier).inProgress.Nodup) ∧
        (∀ earlier t later, turns = earlier ++ t :: later → (c.serve earlier).Rotates t) ∧
          ∀ earlier request later stream, turns = earlier ++ .start request :: later →
            ((c.serve earlier).startRequest request).1 = .ok stream →
              let calls := (c.asksOver turns).filter (·.id = stream)
              (request.hasBody = false → calls = []) ∧
                ∃ header body,
                  ((c.history turns).flatMap Instant.queued).filter (·.stream = stream) =
                      header ++ body ∧
                    (Push.headers request.fields (!request.hasBody)).Spells stream limit header ∧
                    Asked.Carried stream limit calls body := by
  intro c limit quiet
  have ready : c.Ready role limit := .fresh
  have positive : 1 ≤ limit := ready.sound.reachable.bounded.positive
  refine ⟨fun earlier _ _ => (ready.serve earlier).given.nodup,
    fun earlier t _ _ => (ready.serve earlier).rotates t, ?_⟩
  rintro earlier request later stream rfl started
  exact ⟨fun bodiless => calls_of_bodiless ready bodiless started,
    exists_carried ready positive quiet started⟩

/-- Two bodies that take turns, with an application that counts more bytes than the buffer has: the first
ends with an empty piece, and the second is refused once the peer has reset its stream. -/
theorem request_bodies_are_sent_whole_of_two :
    let h : Handler Unit Nat :=
      { onHeaders := fun app _ _ _ => .done app
        onBody := fun app _ _ _ => .done app
        onDataNeeded := fun app id _ => .done
          { app := app + 1, stored := [1, 2, 3, 4, 5]
            chunk :=
              if id = 1 ∧ 4 ≤ app then { written := 0, finished := true }
              else { written := 9, finished := false } } }
    let reset : Bytes := (Frame.ofParts .rstStream 0 3 (Bytes.ofUInt32 8)).toBytes
    let c : Connection Unit Nat :=
      { id := ⟨0, 0⟩, socket := { incoming := [.data reset] }, handler := h
        endpoint := ⟨.create .client 4, 0⟩ }
    let large : Bytes := List.replicate 8 0
    let small : Bytes := [0, 0]
    let turns := [.start {}, .start {}, .pull large, .write, .pull small, .read large, .pull large]
    c.Quiet turns ∧ (c.serve turns).inProgress = [] ∧
      (c.asksOver turns).map Asked.id = [1, 3, 1, 3, 1, 3] ∧
        ∃ header body,
          ((c.history turns).flatMap Instant.queued).filter (·.stream = 1) = header ++ body ∧
            body.flatMap Frame.payload = [1, 2, 3, 4, 5, 0, 0, 0, 1, 2] := by
  intro h reset c large small turns
  have quiet : c.Quiet turns := by decide +kernel
  have holds := request_bodies_are_sent_whole .client 4 ⟨0, 0⟩ c.socket h 0 turns quiet
  obtain ⟨-, header, body, queued, -, carried⟩ := holds.2.2 [] {} _ 1 rfl rfl
  refine ⟨quiet, by decide +kernel, by decide +kernel, header, body, queued, ?_⟩
  rw [carried.payload]
  decide +kernel

end Connection

end Http2
