import Http2.Frame.Basic
import Http2.Stream.State
import Http2.Text.Quoted
import Std.Data.ExtTreeMap

/-!
# The streams of one connection

A stream record holds the state, the frames of a header block in progress and the application's data
for it. The registry holds at most one stream per identifier and lists them in ascending order. A
stream is always stored under its own identifier.
-/

namespace Http2

/-- One exchange on a connection. `δ` is the type of the application's data. -/
structure Stream (δ : Type) where
  id : UInt32
  /-- Which side opened it. -/
  origin : Direction
  state : StreamState := .idle
  /-- The frames of the header block in progress, in order. -/
  fragments : List Frame := []
  /-- Whether a header block is open and waits for CONTINUATION. -/
  awaiting : Bool := false
  userData : Option δ := none

namespace Stream

variable {δ : Type}

/-- Whether the stream is closed. -/
def isClosed (s : Stream δ) : Bool :=
  s.state = .closed

/-- The stream after a fault: closed, with no header block in progress. -/
def failed (s : Stream δ) : Stream δ :=
  { s with state := .closed, fragments := [], awaiting := false }

/-- A stream shown by its fields. -/
def describe (s : Stream δ) : String :=
  Text.describe "Stream" [
    ("id", toString s.id.toNat),
    ("direction", s.origin.name),
    ("state", s.state.name),
    ("header_fragments", toString s.fragments.length),
    ("end_header_sent", Text.word !s.awaiting),
    ("user_data", Text.word s.userData.isSome)]

end Stream

/-- The empty map has every stream under its own id, for want of streams. -/
theorem Stream.keyed_empty {δ : Type} (id : UInt32) (s : Stream δ)
    (found : (∅ : Std.ExtTreeMap UInt32 (Stream δ))[id]? = some s) : s.id = id := by
  simp at found

/-- The streams of one connection by identifier. -/
structure Registry (δ : Type) where
  entries : Std.ExtTreeMap UInt32 (Stream δ) := ∅
  /-- A stream is stored under its own identifier. -/
  keyed : ∀ (id : UInt32) (s : Stream δ), entries[id]? = some s → s.id = id := by
    exact Stream.keyed_empty

namespace Registry

variable {δ : Type}

/-- The stream with an identifier. -/
def get? (r : Registry δ) (id : UInt32) : Option (Stream δ) :=
  r.entries[id]?

/-- Whether an identifier is taken. -/
def contains (r : Registry δ) (id : UInt32) : Bool :=
  (r.get? id).isSome

/-- The number of streams. -/
def size (r : Registry δ) : Nat :=
  r.entries.size

/-- All streams in ascending order of their identifiers. -/
def toList (r : Registry δ) : List (Stream δ) :=
  r.entries.toList.map (·.2)

/-- Stores a stream under its identifier, in place of the one stored there. -/
def put (r : Registry δ) (s : Stream δ) : Registry δ where
  entries := r.entries.insert s.id s
  keyed := by
    intro id found stored
    rw [Std.ExtTreeMap.getElem?_insert] at stored
    split at stored
    · cases stored
      simp_all
    · exact r.keyed id found stored

/-- Stores a new stream, or hands it back if its identifier is taken. -/
def add? (r : Registry δ) (s : Stream δ) : Except (Stream δ) (Registry δ) :=
  if r.contains s.id then .error s else .ok (r.put s)

/-- The stream that a received frame refers to: an unseen identifier stands for an idle stream of
the peer. -/
def inbound (r : Registry δ) (id : UInt32) : Stream δ :=
  (r.get? id).getD { id, origin := .inbound }

/-- Keeps the streams that satisfy a test. -/
def retain (r : Registry δ) (keep : Stream δ → Bool) : Registry δ where
  entries := r.entries.filter fun _ s => keep s
  keyed := by
    intro id found stored
    rw [Std.ExtTreeMap.getElem?_filter'] at stored
    simp only [Option.filter_eq_some_iff] at stored
    exact r.keyed id found stored.1

/-- Two registries are equal when they hold the same streams. -/
@[ext] theorem ext {r r' : Registry δ} (h : ∀ id, r.get? id = r'.get? id) : r = r' := by
  obtain ⟨entries, keyed⟩ := r
  obtain ⟨entries', keyed'⟩ := r'
  congr 1
  exact Std.ExtTreeMap.ext_getElem? h

@[simp] theorem get?_empty (id : UInt32) : ({} : Registry δ).get? id = none := by
  simp [get?]

/-- A registered stream is found under its own id only. -/
theorem id_of_get? {r : Registry δ} {id : UInt32} {s : Stream δ} (found : r.get? id = some s) :
    s.id = id :=
  r.keyed id s found

@[simp] theorem id_inbound (r : Registry δ) (id : UInt32) : (r.inbound id).id = id := by
  unfold inbound
  cases found : r.get? id with
  | none => rfl
  | some s => exact id_of_get? found

/-- Storing a stream changes what is found under its id and nothing else. -/
theorem get?_put (r : Registry δ) (s : Stream δ) (id : UInt32) :
    (r.put s).get? id = if s.id = id then some s else r.get? id := by
  simp [get?, put, Std.ExtTreeMap.getElem?_insert]

/-- Only the last stream stored under an identifier counts. -/
theorem put_put (r : Registry δ) {s s' : Stream δ} (same : s.id = s'.id) :
    (r.put s).put s' = r.put s' := by
  ext id
  simp only [get?_put, same]
  split <;> rfl

/-- What is kept of a registry is each stream that passes the test. -/
theorem get?_retain (r : Registry δ) (keep : Stream δ → Bool) (id : UInt32) :
    (r.retain keep).get? id = (r.get? id).filter keep := by
  simp [get?, retain]

@[simp] theorem get?_put_self (r : Registry δ) (s : Stream δ) : (r.put s).get? s.id = some s := by
  simp [get?_put]

theorem get?_put_of_id (r : Registry δ) {s : Stream δ} {id : UInt32} (same : s.id = id) :
    (r.put s).get? id = some s := by
  rw [get?_put, if_pos same]

theorem get?_put_of_ne (r : Registry δ) {s : Stream δ} {id : UInt32} (other : s.id ≠ id) :
    (r.put s).get? id = r.get? id := by
  rw [get?_put, if_neg other]

/-- A stored stream is what a frame of its id meets, and frames of other ids meet what they met before. -/
theorem inbound_put (r : Registry δ) (s : Stream δ) (id : UInt32) :
    (r.put s).inbound id = if s.id = id then s else r.inbound id := by
  simp only [inbound, get?_put]
  split <;> rfl

/-- Storing a stream registers its id and removes none. -/
theorem contains_put (r : Registry δ) (s : Stream δ) (id : UInt32) :
    (r.put s).contains id ↔ s.id = id ∨ r.contains id := by
  simp only [contains, get?_put]
  split <;> simp_all

/-- A frame meets the registered stream of its id. -/
theorem inbound_of_get? {r : Registry δ} {id : UInt32} {s : Stream δ} (found : r.get? id = some s) :
    r.inbound id = s := by
  rw [inbound, found, Option.getD_some]

theorem contains_of_get? {r : Registry δ} {id : UInt32} {s : Stream δ}
    (found : r.get? id = some s) : r.contains id := by
  rw [contains, found, Option.isSome_some]

/-- A stream that is not idle has been stored. -/
theorem get?_of_active {r : Registry δ} {id : UInt32} {state : StreamState}
    (here : (r.inbound id).state = state) (active : state ≠ .idle) :
    ∃ s, r.get? id = some s ∧ s.state = state := by
  cases found : r.get? id with
  | none =>
    rw [inbound, found] at here
    exact absurd here.symm active
  | some s =>
    rw [inbound_of_get? found] at here
    exact ⟨s, rfl, here⟩

theorem inbound_put_of_id (r : Registry δ) {s : Stream δ} {id : UInt32} (same : s.id = id) :
    (r.put s).inbound id = s := by
  rw [inbound, get?_put_of_id r same, Option.getD_some]

end Registry

end Http2
