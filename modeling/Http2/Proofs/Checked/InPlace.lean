import Http2.Proofs.Checked.Region

/-!
# Regions that are changed in place

A frame owns its region, and its setters write there, one slice after the other. `InPlace` is a computation
that does so: what it has written when it is cut short stays written. `InPlace.outcome` forgets what is left
behind then, and of the setters it leaves the checked ones. On the region of a frame each setter gives the
region of the changed frame, or it is refused before anything is written.
-/

namespace Http2

namespace Frame

variable {f : Frame}

/-- An overwritten payload has as many bytes as before. -/
theorem length_overwrite (f : Frame) (front : Bytes) : (f.overwrite front).length = f.length := by
  simp only [overwrite, length, List.length_append, List.length_take, List.length_drop]
  omega

/-- Overwriting the front with itself and more overwrites what follows it. -/
theorem payload_overwrite {start : Nat} {bytes : Bytes} (inside : start + bytes.length ≤ f.length) :
    (f.overwrite (f.payload.take start ++ bytes)).payload =
      f.payload.take start ++ bytes ++ f.payload.drop (start + bytes.length) := by
  have size : (f.payload.take start ++ bytes).length = start + bytes.length := by
    rw [List.length_append, List.length_take_of_le]
    exact Nat.le_trans (Nat.le_add_right _ _) inside
  rw [overwrite, List.take_of_length_le (size ▸ inside), size]

end Frame

/-- A computation that changes a region in place. What it has written before a trap stays written. -/
abbrev InPlace : Type → Type := EStateM Trap Bytes

namespace InPlace

variable {α β : Type} {raw raw' : Bytes} {trap : Trap} {f : Frame}

/-- Reads the region and leaves it as it is. -/
def read (look : Bytes → Checked α) : InPlace α := fun raw =>
  match look raw with
  | .ok value => .ok value raw
  | .error trap => .error trap raw

/-- One write, which is done as a whole or not at all. -/
def write (put : Bytes → Checked Bytes) : InPlace Unit := fun raw =>
  match put raw with
  | .ok raw' => .ok () raw'
  | .error trap => .error trap raw

/-- The region that a computation leads to, if it is not cut short. -/
def outcome (x : InPlace Unit) (raw : Bytes) : Checked Bytes :=
  match x raw with
  | .ok _ raw' => .ok raw'
  | .error trap _ => .error trap

/-- What is looked at first decides a computation as it decides the checked one. -/
theorem outcome_read_bind (look : Bytes → Checked α) (next : α → InPlace Unit) (raw : Bytes) :
    (read look >>= next).outcome raw = look raw >>= fun value => (next value).outcome raw := by
  cases seen : look raw <;> simp [bind, EStateM.bind, Except.bind, outcome, read, seen]

/-- A computation that only writes comes out as the checked write. -/
theorem outcome_write (put : Bytes → Checked Bytes) (raw : Bytes) :
    (write put).outcome raw = put raw := by
  cases written : put raw <;> simp [outcome, write, written]

/-- Computations in sequence come out as their checked counterparts in sequence. -/
theorem outcome_bind (x : InPlace Unit) (next : Unit → InPlace Unit) (raw : Bytes) :
    (x >>= next).outcome raw = x.outcome raw >>= fun raw' => (next ()).outcome raw' := by
  cases ended : x raw <;> simp [bind, EStateM.bind, Except.bind, outcome, ended]

/-- A computation that is not cut short has done all of its writes. -/
theorem eq_ok_of_outcome {x : InPlace Unit} (gives : x.outcome raw = pure raw') :
    x raw = .ok () raw' := by
  unfold outcome at gives
  split at gives
  · rename_i ends
    cases gives
    exact ends
  · cases gives

/-- A look that sees a value goes on with it, and the region is as it was. -/
theorem read_bind {look : Bytes → Checked α} {value : α} (seen : look raw = pure value)
    (next : α → InPlace β) : (read look >>= next) raw = next value raw := by
  simp only [bind, EStateM.bind, read, seen]
  rfl

/-- A look that traps ends the computation with the region as it was. -/
theorem read_bind_of_trap {look : Bytes → Checked α} (trapped : look raw = throw trap)
    (next : α → InPlace β) : (read look >>= next) raw = .error trap raw := by
  simp only [bind, EStateM.bind, read, trapped]
  rfl

/-- A write that succeeds leaves what was written. -/
theorem write_eq {put : Bytes → Checked Bytes} (written : put raw = pure raw') :
    write put raw = .ok () raw' :=
  eq_ok_of_outcome ((outcome_write put raw).trans written)

/-- A write that traps leaves the region as it was. -/
theorem write_of_trap {put : Bytes → Checked Bytes} (trapped : put raw = throw trap) :
    write put raw = .error trap raw := by
  simp only [write, trapped]
  rfl

/-- What had been written before a trap stays written. -/
theorem bind_of_error {x : InPlace α} (failed : x raw = .error trap raw') (next : α → InPlace β) :
    (x >>= next) raw = .error trap raw' := by
  simp only [bind, EStateM.bind, failed]

/-! ## Setters -/

open Checked (checkRegion ensure add sub store byteAt copyInto sliceFrom)

/-- Sets the kind. -/
def setKind (kind : FrameKind) : InPlace Unit := do
  read checkRegion
  write fun raw => store raw 3 kind.code

/-- Sets the flags. -/
def setFlags (flags : UInt8) : InPlace Unit := do
  read checkRegion
  write fun raw => store raw 4 flags

/-- Writes the stream identifier, and then clears the reserved bit. -/
def setStream (id : UInt32) : InPlace Unit := do
  read checkRegion
  write fun raw => copyInto raw 5 9 (Bytes.ofUInt32 id)
  write fun raw => do store raw 5 ((← byteAt raw 5) &&& 0x7F)

/-- Writes a length that is not larger, and then cuts the region down to it. -/
def setLength (length : UInt32) : InPlace Unit := do
  read checkRegion
  let capacity ← read fun raw => sub raw.length frameHeaderSize
  let refusal := Frame.Misuse.beyondCapacity length.toNat capacity
  read fun _ => ensure (length.toNat ≤ capacity) refusal.message
  write fun raw => Checked.writeLength raw length
  let whole ← read fun _ => add wordLimit frameHeaderSize length.toNat
  write fun raw => return raw.take whole

/-- Cuts the region down to a payload that is not longer, and then copies it in. -/
def setPayload (payload : Bytes) : InPlace Unit := do
  setLength (UInt32.ofNat payload.length)
  write fun raw => copyInto raw frameHeaderSize raw.length payload

/-- Setting the kind of a frame in place is the setter on frames. -/
theorem setKind_toBytes (f : Frame) (kind : FrameKind) :
    setKind kind f.toBytes = .ok () (f.withKind kind).toBytes := by
  apply eq_ok_of_outcome
  rw [← Checked.setKind_toBytes]
  simp only [setKind, outcome_read_bind, outcome_write, Checked.setKind]

/-- Setting the flags of a frame in place is the setter on frames. -/
theorem setFlags_toBytes (f : Frame) (flags : UInt8) :
    setFlags flags f.toBytes = .ok () (f.withFlags flags).toBytes := by
  apply eq_ok_of_outcome
  rw [← Checked.setFlags_toBytes]
  simp only [setFlags, outcome_read_bind, outcome_write, Checked.setFlags]

/-- Setting the stream of a frame in place is the setter on frames. -/
theorem setStream_toBytes (f : Frame) (id : UInt32) :
    setStream id f.toBytes = .ok () (f.withStream id).toBytes := by
  apply eq_ok_of_outcome
  rw [← Checked.setStream_toBytes]
  simp only [setStream, outcome_read_bind, outcome_bind, outcome_write, Checked.setStream]

/-- What there is to compare a new length with. -/
theorem capacity_toBytes (f : Frame) : sub f.toBytes.length frameHeaderSize = pure f.length := by
  rw [Checked.sub_eq (by simp), Frame.length_toBytes, Nat.add_sub_cancel_left]

/-- A shrinking length comes out as the checked setter. -/
theorem outcome_setLength {length : UInt32} (shrinks : length.toNat ≤ f.length) :
    (setLength length).outcome f.toBytes = Checked.setLength f.toBytes length := by
  simp only [setLength, outcome_read_bind, outcome_bind, outcome_write, Checked.setLength,
    capacity_toBytes, pure_bind, Checked.ensure_eq shrinks]

/-- A shrinking length cuts the payload to it, in place. -/
theorem setLength_toBytes {length : UInt32} (shrinks : length.toNat ≤ f.length)
    (fits : f.length ≤ maxFrameLength) :
    setLength length f.toBytes =
      .ok () (Frame.toBytes { f with payload := f.payload.take length.toNat }) := by
  have checked := Checked.setLength_toBytes shrinks fits
  rw [UInt32.ofNat_toNat] at checked
  apply eq_ok_of_outcome
  rw [outcome_setLength shrinks, checked]

/-- A length beyond the payload is refused before anything is written. -/
theorem setLength_toBytes_of_lt {length : UInt32} (beyond : f.length < length.toNat) :
    setLength length f.toBytes =
      .error (.assertion (Frame.Misuse.beyondCapacity length.toNat f.length).message) f.toBytes := by
  rw [setLength, read_bind (Checked.checkRegion_toBytes f), read_bind (capacity_toBytes f)]
  apply read_bind_of_trap
  exact if_neg (Nat.not_le_of_lt beyond)

/-- A payload that is copied in has the length that the region was cut down to. -/
theorem setPayload_toBytes {payload : Bytes} (shrinks : payload.length ≤ f.length)
    (fits : f.length ≤ maxFrameLength) :
    setPayload payload f.toBytes = .ok () (Frame.toBytes { f with payload }) := by
  have same := Checked.toNat_ofNat_of_fits (Nat.le_trans shrinks fits)
  apply eq_ok_of_outcome
  rw [← Checked.setPayload_toBytes shrinks fits]
  simp only [setPayload, outcome_bind, outcome_write, Checked.setPayload,
    outcome_setLength (same.symm ▸ shrinks)]

/-- The length of a payload that is too long is not mistaken for a smaller one. -/
theorem setPayload_toBytes_of_lt {payload : Bytes} (countable : payload.length < wordLimit)
    (beyond : f.length < payload.length) :
    setPayload payload f.toBytes =
      .error (.assertion (Frame.Misuse.beyondCapacity payload.length f.length).message) f.toBytes := by
  have same := UInt32.toNat_ofNat_of_lt' countable
  have refused : setLength (UInt32.ofNat payload.length) f.toBytes = _ :=
    setLength_toBytes_of_lt (same.symm ▸ beyond)
  rw [same] at refused
  exact bind_of_error refused _

/-! ## Writes through the payload -/

/-- Writes over a part of the payload. -/
def patch (start : Nat) (bytes : Bytes) : InPlace Unit := do
  read checkRegion
  write fun raw => do
    let payload ← sliceFrom raw frameHeaderSize
    return raw.take frameHeaderSize ++ (← copyInto payload start (start + bytes.length) bytes)

theorem sliceFrom_toBytes (f : Frame) : sliceFrom f.toBytes frameHeaderSize = pure f.payload := by
  rw [Checked.sliceFrom_eq (by simp)]
  rfl

/-- A write within the payload overwrites that part of it. -/
theorem patch_toBytes {start : Nat} {bytes : Bytes} (inside : start + bytes.length ≤ f.length) :
    patch start bytes f.toBytes =
      .ok () (f.overwrite (f.payload.take start ++ bytes)).toBytes := by
  let patched := f.overwrite (f.payload.take start ++ bytes)
  have copied : copyInto f.payload start (start + bytes.length) bytes = pure patched.payload := by
    rw [Checked.copyInto_eq (Nat.le_add_right _ _) inside (by omega), Frame.payload_overwrite inside]
  have head : f.headBytes = patched.headBytes := by
    rw [Frame.headBytes, ← Frame.length_overwrite f (f.payload.take start ++ bytes)]
    rfl
  rw [patch, read_bind (Checked.checkRegion_toBytes f)]
  apply write_eq
  rw [sliceFrom_toBytes, pure_bind, copied, pure_bind, Frame.toBytes, List.take_left' (Frame.length_headBytes f),
    head]
  rfl

/-- A write that reaches beyond the payload is refused. -/
theorem patch_toBytes_of_lt {start : Nat} {bytes : Bytes} (beyond : f.length < start + bytes.length) :
    patch start bytes f.toBytes =
      .error (.slice start (start + bytes.length) f.length) f.toBytes := by
  have outside : ¬(start ≤ start + bytes.length ∧ start + bytes.length ≤ f.payload.length) :=
    fun within => Nat.not_le_of_lt beyond within.2
  rw [patch, read_bind (Checked.checkRegion_toBytes f)]
  apply write_of_trap
  rw [sliceFrom_toBytes, pure_bind, copyInto, Checked.slice, if_neg outside]
  rfl

end InPlace

end Http2
