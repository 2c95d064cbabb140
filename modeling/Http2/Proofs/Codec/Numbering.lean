import Http2.Proofs.Codec.Outbound

/-!
# Identifiers of streams

Identifiers enter the registry from two sides: `openStream` counts its own, and a received frame may
name any. `Registry.origin?` is what the registry says of an identifier, and `Fate` is what one step can
make of that. The counter only goes up (`Counts`), so no identifier is given out twice, not even after
its stream was evicted (`GivenOut`).
-/

namespace Http2

variable {δ σ : Type}

/-- Which side registered an identifier, if it is registered. -/
def Registry.origin? (r : Registry δ) (id : UInt32) : Option Direction :=
  (r.get? id).map Stream.origin

namespace Registry

variable {r : Registry δ} {s : Stream δ} {id : UInt32}

/-- The origin of a stored stream is found under its identifier only. -/
theorem origin?_put (r : Registry δ) (s : Stream δ) (id : UInt32) :
    (r.put s).origin? id = if s.id = id then some s.origin else r.origin? id := by
  rw [origin?, get?_put]
  split <;> rfl

theorem origin?_of_get? (found : r.get? id = some s) : r.origin? id = some s.origin := by
  rw [origin?, found, Option.map_some]

/-- A stream that is stored again keeps its origin. -/
theorem origin?_put_of_get? {s' : Stream δ} (found : r.get? s'.id = some s)
    (same : s'.origin = s.origin) (id : UInt32) : (r.put s').origin? id = r.origin? id := by
  rw [origin?_put]
  split
  · rename_i here
    rw [← here, origin?_of_get? found, same]
  · rfl

/-- Exactly the registered streams have an origin. -/
theorem origin?_eq_none : r.origin? id = none ↔ r.contains id = false := by
  simp [contains, origin?]

theorem contains_iff_origin? : r.contains id ↔ r.origin? id ≠ none := by
  simp [contains, origin?, Option.isSome_iff_ne_none]

/-- Of what is kept of a registry, each stream has the origin it had. -/
theorem origin?_retain (r : Registry δ) (keep : Stream δ → Bool) (id : UInt32) :
    (r.retain keep).origin? id = r.origin? id ∨ (r.retain keep).origin? id = none := by
  rw [origin?, origin?, get?_retain]
  cases r.get? id with
  | none => exact .inl rfl
  | some s =>
    rw [Option.filter_some]
    split
    · exact .inl rfl
    · exact .inr rfl

end Registry

/-- Collecting fragments does not change which side registered the stream. -/
theorem Stream.Collects.origin_eq {s s' : Stream δ} {f : Frame} {callback : Option Callback}
    (collects : s.Collects f s' callback) : s'.origin = s.origin := by
  cases collects <;> rfl

namespace Moment

/-- The identifier that is given out. -/
def opened? (m : Moment δ) : Option UInt32 :=
  match m.occurrence with
  | .performed .openStream (.ok id) => some id
  | _ => none

/-- Only `openStream` gives out an identifier. -/
theorem opened?_of_ne {c : Codec δ} {op : Codec.Op δ} (opens : op ≠ .openStream) (reply : op.Reply) :
    Moment.opened? ⟨c, .performed op reply⟩ = none := by
  cases op <;> first | rfl | exact absurd rfl opens

/-- The frame that came, or that the application is told about. -/
def frame? (m : Moment δ) : Option Frame :=
  match m.occurrence with
  | .received f => some f
  | .called _ f _ => some f
  | .performed .. => none

/-- The stream is registered before and after. -/
def Holds (id : UInt32) (m : Moment δ) : Prop :=
  m.codec.streams.contains id ∧ m.next.streams.contains id

end Moment

namespace Codec

variable {c c' : Codec δ} {f : Frame} {id other : UInt32} {callback : Option Callback}
  {fault : Option FrameError}

/-! ## What becomes of a registration -/

/-- What one step makes of the registration of an identifier: `opens` says that the step gives the
identifier out, `evicts` that it evicts streams, `names` that a frame with the identifier came. -/
inductive Fate (opens evicts names : Prop) : Option Direction → Option Direction → Prop
  | stays (origin : Option Direction) : Fate opens evicts names origin origin
  | opened (given : opens) : Fate opens evicts names none (some .outbound)
  | evicted (gone : evicts) (origin : Option Direction) : Fate opens evicts names origin none
  | introduced (named : names) : Fate opens evicts names none (some .inbound)

namespace Fate

variable {opens evicts names : Prop} {origin origin' : Option Direction}

/-- Only what gives an identifier out makes a stream one of this side. -/
theorem outbound_iff (fate : Fate opens evicts names origin origin') (other : ¬opens) :
    origin' = some .outbound ↔ origin = some .outbound ∧ origin' ≠ none := by
  cases fate with
  | opened given => exact absurd given other
  | stays => exact (and_iff_left_of_imp fun known => known ▸ nofun).symm
  | evicted | introduced => simp

/-- Only eviction ends a registration. -/
theorem ne_none (fate : Fate opens evicts names origin origin') (kept : ¬evicts)
    (known : origin ≠ none) : origin' ≠ none := by
  cases fate with
  | stays => exact known
  | evicted gone => exact absurd gone kept
  | opened | introduced => exact absurd rfl known

/-- Without opening and evicting, no stream becomes this side's or ceases to be. -/
theorem outbound_iff_of_kept (fate : Fate opens evicts names origin origin') (other : ¬opens)
    (kept : ¬evicts) : origin' = some .outbound ↔ origin = some .outbound := by
  rw [fate.outbound_iff other]
  exact and_iff_left_of_imp fun known => fate.ne_none kept (known ▸ nofun)

/-- Only a frame makes a stream one of the peer. -/
theorem inbound_of (fate : Fate opens evicts names origin origin') (inbound : origin' = some .inbound) :
    origin = some .inbound ∨ names := by
  cases fate with
  | stays => exact .inl inbound
  | introduced named => exact .inr named
  | opened | evicted => cases inbound

/-- A stream that is stored as what a frame refers to. -/
theorem put {s : Stream δ} (same : s.origin = (c.streams.inbound s.id).origin)
    (named : s.id = id → names) :
    Fate opens evicts names (c.streams.origin? id) ((c.streams.put s).origin? id) := by
  rw [Registry.origin?_put]
  split
  · rename_i here
    rw [same, here, Registry.inbound, Registry.origin?]
    cases c.streams.get? id with
    | none => exact .introduced (named here)
    | some s => exact .stays _
  · exact .stays _

/-- A stream that is stored again keeps its origin. -/
theorem again {s s' : Stream δ} (found : c.streams.get? id = some s) (same : s'.id = s.id)
    (origin : s'.origin = s.origin) :
    Fate opens evicts names (c.streams.origin? other) ((c.streams.put s').origin? other) := by
  obtain rfl := Registry.id_of_get? found
  rw [Registry.origin?_put_of_get? (same ▸ found) origin]
  exact .stays _

/-- A received frame registers its own stream as the peer's, or nothing. -/
theorem outcome (outcome : Outcome c f c' callback fault) (id : UInt32) :
    Fate False False (f.stream = id) (c.streams.origin? id) (c'.streams.origin? id) := by
  have here {s : Stream δ} (same : s.id = f.stream)
      (origin : s.origin = (c.streams.inbound f.stream).origin) :
      Fate False False (f.stream = id) (c.streams.origin? id) ((c.streams.put s).origin? id) :=
    .put (same ▸ origin) fun named => same ▸ named
  cases outcome with
  | ignored | streamZero => exact .stays _
  | unmoved | malformed | rejected | moved | body | stray => exact here (Registry.id_inbound _ _) rfl
  | opening judged accepted opens wellFormed collects =>
    exact here (collects.id_eq.trans (Registry.id_inbound _ _)) collects.origin_eq
  | continuing opened kind stream collects =>
    exact here (collects.id_eq.trans (Registry.id_inbound _ _)) collects.origin_eq
  | @interrupting owner opened =>
    have known := contains_of_awaits (awaits_of_openBlock? opened)
    obtain ⟨s, found⟩ := Option.isSome_iff_exists.mp known
    rw [Registry.inbound_of_get? found]
    exact .again found rfl rfl

/-- A fault registers its stream as the peer's if it is unknown. -/
theorem failed (c : Codec δ) (id other : UInt32) :
    Fate False False (id = other) (c.streams.origin? other) ((c.failed id).streams.origin? other) :=
  have same : (c.streams.inbound id).failed.id = id := Registry.id_inbound _ _
  .put (s := (c.streams.inbound id).failed) (by rw [same]; rfl) fun named => same ▸ named

/-- An operation registers only what it gives out, and drops streams only if it evicts. -/
theorem effect {op : Op δ} (effect : Effect c op c') (id : UInt32) :
    Fate (Moment.opened? ⟨c, .performed op (c.perform op).1⟩ = some id) (op = .evictClosed) False
      (c.streams.origin? id) (c'.streams.origin? id) := by
  cases effect with
  | still | skipped | popped | heard => exact .stays _
  | opened left free =>
    rw [Registry.origin?_put]
    split
    · rename_i here
      obtain rfl : c.nextStreamId = id := here
      rw [Registry.origin?_eq_none.mpr free]
      exact .opened (by rw [perform, openStream_free left free]; rfl)
    · exact .stays _
  | pushed emits found => exact .again found rfl rfl
  | marked found => exact .again found rfl rfl
  | evicted =>
    rcases Registry.origin?_retain c.streams (fun s => !s.isClosed) id with same | gone
    · exact same ▸ .stays _
    · exact gone ▸ .evicted rfl _

/-- What an operation registers and drops is told by its name and its answer. -/
theorem perform (c : Codec δ) (op : Op δ) (id : UInt32) :
    Fate (Moment.opened? ⟨c, .performed op (c.perform op).1⟩ = some id) (op = .evictClosed) False
      (c.streams.origin? id) ((c.perform op).2.streams.origin? id) :=
  .effect (effect_perform c op) id

end Fate

/-! ## The counter -/

/-- What an operation makes of the counter, with the identifier that it gives out. -/
inductive Counts (counter : UInt32) : Option UInt32 → UInt32 → Prop
  | still : Counts counter none counter
  /-- The peer has taken the identifier. -/
  | skipped (left : ¬maxStreamId < counter) : Counts counter none (counter + 2)
  | given (left : ¬maxStreamId < counter) : Counts counter (some counter) (counter + 2)

/-- The counter moves by two when an identifier is given out or skipped, and no other operation moves it.
-/
theorem counts_perform (c : Codec δ) (op : Op δ) :
    Counts c.nextStreamId (Moment.opened? ⟨c, .performed op (c.perform op).1⟩)
      (c.perform op).2.nextStreamId := by
  by_cases opens : op = .openStream
  · subst opens
    by_cases spent : maxStreamId < c.nextStreamId
    · rw [perform, openStream_spent spent]
      exact .still
    · cases known : c.streams.contains c.nextStreamId with
      | true =>
        rw [perform, openStream_taken spent known]
        exact .skipped spent
      | false =>
        rw [perform, openStream_free spent known]
        exact .given spent
  · rw [Moment.opened?_of_ne opens]
    have effect := effect_perform c op
    generalize (c.perform op).2 = c' at effect ⊢
    cases effect with
    | skipped | opened => exact absurd rfl opens
    | still | pushed | popped | heard | marked | evicted => exact .still

/-- A counter keeps the parity of its side and stops two behind the last identifier at most. -/
structure Counted (role : Role) (counter : UInt32) : Prop where
  positive : 0 < counter.toNat
  parity : counter.toNat % 2 = role.firstStreamId.toNat % 2
  bounded : counter.toNat ≤ 0x80000001

/-- Each side starts to count at its own first identifier. -/
theorem counted_firstStreamId (role : Role) : Counted role role.firstStreamId := by
  constructor <;> cases role <;> decide

variable {role : Role} {counter next : UInt32} {opened : Option UInt32} {ids : List UInt32}

/-- Steps of two keep the parity, and past the last identifier there is no step. -/
theorem Counts.counted (counts : Counts counter opened next) (counted : Counted role counter) :
    Counted role next := by
  obtain ⟨positive, parity, bounded⟩ := counted
  have onward (left : ¬maxStreamId < counter) : Counted role (counter + 2) := by
    have limit := toNat_le_of_left left
    constructor <;> rw [toNat_next left] <;> omega
  cases counts with
  | still => exact ⟨positive, parity, bounded⟩
  | skipped left => exact onward left
  | given left => exact onward left

/-- The identifiers that were given out so far rise, and the counter is past them. -/
structure GivenOut (role : Role) (ids : List UInt32) (counter : UInt32) : Prop where
  rising : ids.Pairwise (· < ·)
  below : ∀ id ∈ ids, id.toNat < counter.toNat
  valid : ∀ id ∈ ids, 1 ≤ id.toNat ∧ id.toNat ≤ 0x7FFFFFFF ∧
    id.toNat % 2 = role.firstStreamId.toNat % 2

/-- An identifier that is given out is past all earlier ones, and the counter is past it. -/
theorem GivenOut.counts (given : GivenOut role ids counter) (counts : Counts counter opened next)
    (counted : Counted role counter) : GivenOut role (ids ++ opened.toList) next := by
  obtain ⟨rising, below, valid⟩ := given
  cases counts with
  | still => simpa using ⟨rising, below, valid⟩
  | skipped left =>
    rw [Option.toList_none, List.append_nil]
    refine ⟨rising, fun id member => ?_, valid⟩
    rw [toNat_next left]
    exact Nat.lt_add_right 2 (below id member)
  | given left =>
    have extend {P : UInt32 → Prop} (old : ∀ id ∈ ids, P id) (new : P counter) :
        ∀ id ∈ ids ++ [counter], P id :=
      List.forall_mem_append.mpr ⟨old, List.forall_mem_singleton.mpr new⟩
    refine ⟨List.pairwise_append.mpr ⟨rising, List.pairwise_singleton _ _, ?_⟩,
      extend (fun id member => ?_) ?_, extend valid ?_⟩
    · intro id member other here
      rw [List.mem_singleton.mp here]
      exact UInt32.lt_iff_toNat_lt.mpr (below id member)
    · rw [toNat_next left]
      exact Nat.lt_add_right 2 (below id member)
    · rw [toNat_next left]
      omega
    · exact ⟨counted.positive, toNat_le_of_left left, counted.parity⟩

/-- Received frames do not move the counter. -/
theorem Outcome.nextStreamId_eq (outcome : Outcome c f c' callback fault) :
    c'.nextStreamId = c.nextStreamId := by
  cases outcome <;> rfl

variable {log before after : List (Moment δ)} {due : Option (Moment δ)} {m : Moment δ}

/-- The identifiers given out in a run. -/
theorem Leads.givenOut (leads : Leads c log due c') (counted : Counted role c.nextStreamId) :
    Counted role c'.nextStreamId ∧
      GivenOut role (log.filterMap Moment.opened?) c'.nextStreamId := by
  -- A moment that is no operation gives nothing out.
  have silent {m : Moment δ} (none : m.opened? = none) (ids : List (Moment δ)) :
      (ids ++ [m]).filterMap Moment.opened? = ids.filterMap Moment.opened? := by
    simp [none]
  induction leads with
  | nil => exact ⟨counted, .nil, by simp, by simp⟩
  | @perform log c' before op ih =>
    have counts := counts_perform c' op
    have given := ih.2.counts counts ih.1
    refine ⟨counts.counted ih.1, ?_⟩
    cases opened : Moment.opened? ⟨c', .performed op (c'.perform op).1⟩ <;>
      simpa [opened] using given
  | receive before outcome ih =>
    rw [outcome.nextStreamId_eq, silent rfl]
    exact ih
  | fail before astray ih => exact ih
  | call before ih =>
    obtain ⟨-, _, _, _, rfl⟩ := follows_of_due before
    rw [silent rfl]
    exact ih
  | reassemble before a ih => exact ih

/-- What one call of `openStream` does, as its answer tells. -/
structure Allocates (c : Codec δ) (reply : Except SendError UInt32) (c' : Codec δ) : Prop where
  given : ∀ id, reply = .ok id ↔
    id = c.nextStreamId ∧ id ≤ maxStreamId ∧ c.streams.contains id = false
  duplicate : ∀ id, reply = .error (.duplicateStream id) ↔
    id = c.nextStreamId ∧ id ≤ maxStreamId ∧ c.streams.contains id = true
  spent : reply = .error .idsExhausted ↔ maxStreamId < c.nextStreamId
  faults : ∀ fault, reply = .error fault →
    fault = .duplicateStream c.nextStreamId ∨ fault = .idsExhausted
  registers : ∀ id, reply = .ok id → c' =
    { c with
      nextStreamId := c.nextStreamId + 2
      streams := c.streams.put { id, origin := .outbound } }
  skips : ∀ id, reply = .error (.duplicateStream id) →
    c' = { c with nextStreamId := c.nextStreamId + 2 }
  still : reply = .error .idsExhausted → c' = c
  counts : reply ≠ .error .idsExhausted → c'.nextStreamId.toNat = c.nextStreamId.toNat + 2

/-- Each answer of `openStream` is given for one reason: the state of the counter and of the stream it
names. -/
theorem allocates_openStream (c : Codec δ) : Allocates c c.openStream.1 c.openStream.2 := by
  by_cases spent : maxStreamId < c.nextStreamId
  · have past : ¬c.nextStreamId ≤ maxStreamId := UInt32.not_le.mpr spent
    rw [openStream_spent spent]
    constructor <;> simp +contextual [past, spent]
  · have left := UInt32.not_lt.mp spent
    have counts := toNat_next spent
    have here {held : Bool} (known : c.streams.contains c.nextStreamId = held) (id : UInt32) :
        c.nextStreamId = id ↔ id = c.nextStreamId ∧ id ≤ maxStreamId ∧ c.streams.contains id = held :=
      ⟨fun same => same ▸ ⟨rfl, left, known⟩, fun ⟨same, _⟩ => same.symm⟩
    cases known : c.streams.contains c.nextStreamId with
    | true =>
      rw [openStream_taken spent known]
      constructor
      case duplicate => simpa using here known
      all_goals simp +contextual [spent, known, counts]
    | false =>
      rw [openStream_free spent known]
      constructor
      case given => simpa using here known
      all_goals simp +contextual [spent, known, counts]

end Codec

end Http2
