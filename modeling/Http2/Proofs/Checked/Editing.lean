import Http2.Proofs.Assembler.Looping
import Http2.Proofs.Checked.Assembler
import Http2.Proofs.Checked.InPlace
import Http2.Proofs.Frame.RoundTrip

/-!
# Regions stay whole

A region is whole (`Whole`) if it is as long as its header declares, and then it is the region of a frame.
`Edit` is what the owner of a frame may do to it. Every edit does to the region what it does to the frame and
changes one of the readings, or it is refused (`Edit.accepted`, `Edit.refused`). So a region stays whole
however it came about and whatever is done to it afterwards.
-/

namespace Http2

namespace Checked

/-! ## Readings -/

/-- The reserved bit, 0 or 1. -/
def reserved (raw : Bytes) : Checked UInt8 := do
  checkRegion raw
  return ((← byteAt raw 5) &&& 0x80) >>> 7

/-- What the accessors read off a region. -/
structure Readings where
  length : Nat
  kind : FrameKind
  flags : UInt8
  stream : UInt32
  reserved : UInt8
  payload : Bytes
  deriving DecidableEq

/-- Reads all that the accessors read. -/
def readings (raw : Bytes) : Checked Readings :=
  return {
    length := ← length raw
    kind := ← kind raw
    flags := ← flags raw
    stream := ← stream raw
    reserved := ← reserved raw
    payload := ← payload raw }

/-- The high bit of a word stands in its first byte. -/
theorem reserved_toBytes (f : Frame) : reserved f.toBytes = pure f.reserved.toUInt8 := by
  have high : (UInt8.ofNat (f.word.toNat / 16777216) &&& 0x80) >>> 7 = (f.word >>> 31).toUInt8 := by
    have bounded := f.word.toNat_lt
    apply UInt8.toNat.inj
    rw [UInt8.toNat_shiftRight, UInt8.toNat_and, UInt8.toNat_ofNat', UInt32.toNat_toUInt8,
      UInt32.toNat_shiftRight, Nat.shiftRight_and_distrib]
    simp [Nat.shiftRight_eq_div_pow]
    omega
  rw [reserved, checkRegion_toBytes, pure_bind, byteAt_toBytes f (by decide), pure_bind]
  exact congrArg pure high

/-- A stream that is set leaves the reserved bit clear. -/
theorem reserved_withStream (f : Frame) (id : UInt32) : (f.withStream id).reserved = 0 := by
  apply UInt32.toNat.inj
  rw [Frame.reserved, Frame.withStream, UInt32.toNat_shiftRight, toNat_and_maxStreamId]
  simp [Nat.shiftRight_eq_div_pow]

end Checked

/-- What the accessors of a frame give. -/
def Frame.readings (f : Frame) : Checked.Readings where
  length := f.length
  kind := f.kind
  flags := f.flags
  stream := f.stream
  reserved := f.reserved.toUInt8
  payload := f.payload

/-- The accessors read off the region of a frame what those of the frame give. -/
theorem Checked.readings_toBytes {f : Frame} (fits : f.length ≤ maxFrameLength) :
    readings f.toBytes = pure f.readings := by
  simp only [readings, length_toBytes fits, kind_toBytes, flags_toBytes, stream_toBytes,
    reserved_toBytes, payload_toBytes, pure_bind]
  rfl

/-! ## Edits -/

/-- What the owner of a frame may do to it. A payload is counted in a word. -/
inductive Edit where
  | length (length : UInt32)
  | payload (payload : Bytes) (countable : payload.length < wordLimit)
  | stream (id : UInt32)
  | flags (flags : UInt8)
  | kind (kind : FrameKind)
  /-- A write through the payload. -/
  | patch (start : Nat) (bytes : Bytes)

namespace Edit

open Checked (Readings)

/-- The edit of a region. -/
def perform : Edit → InPlace Unit
  | length n => .setLength n
  | payload bytes _ => .setPayload bytes
  | stream id => .setStream id
  | flags bits => .setFlags bits
  | kind k => .setKind k
  | patch start bytes => .patch start bytes

/-- The region after an edit, whether it was refused or not. -/
def after (raw : Bytes) (edit : Edit) : Bytes :=
  match edit.perform raw with
  | .ok _ raw' => raw'
  | .error _ raw' => raw'

/-- Why an edit of a frame with a payload of `size` bytes is refused. -/
def refusal? (size : Nat) : Edit → Option Trap
  | length n =>
    if size < n.toNat then some (.assertion (Frame.Misuse.beyondCapacity n.toNat size).message)
    else none
  | payload bytes _ =>
    if size < bytes.length then
      some (.assertion (Frame.Misuse.beyondCapacity bytes.length size).message)
    else none
  | patch start bytes =>
    if size < start + bytes.length then some (.slice start (start + bytes.length) size) else none
  | stream _ | flags _ | kind _ => none

/-- What an edit that is not refused makes of the readings. Each changes its own; a new length also cuts the
payload, and a new payload sets the length. -/
def change (r : Readings) : Edit → Readings
  | length n => { r with length := n.toNat, payload := r.payload.take n.toNat }
  | payload bytes _ => { r with length := bytes.length, payload := bytes }
  | stream id => { r with stream := id &&& maxStreamId, reserved := 0 }
  | flags bits => { r with flags := bits }
  | kind k => { r with kind := FrameKind.ofCode k.code }
  | patch start bytes =>
    { r with payload := r.payload.take start ++ bytes ++ r.payload.drop (start + bytes.length) }

/-- The edit of a frame. -/
def revise (f : Frame) : Edit → Except Trap Frame
  | length n => (f.shrink? n.toNat).mapError fun misuse => .assertion misuse.message
  | payload bytes _ => (f.replace? bytes).mapError fun misuse => .assertion misuse.message
  | stream id => .ok (f.withStream id)
  | flags bits => .ok (f.withFlags bits)
  | kind k => .ok (f.withKind k)
  | patch start bytes =>
    if start + bytes.length ≤ f.length then .ok (f.overwrite (f.payload.take start ++ bytes))
    else .error (.slice start (start + bytes.length) f.length)

variable {f : Frame} {edit : Edit} {trap : Trap}

/-- An edit is refused for one reason, by the frame and by its region, which then stays as it is. -/
theorem refused (refuses : edit.refusal? f.length = some trap) :
    edit.revise f = .error trap ∧ edit.perform f.toBytes = .error trap f.toBytes := by
  cases edit with
  | length n =>
    obtain ⟨beyond, ⟨⟩⟩ := Option.ite_none_right_eq_some.mp refuses
    refine ⟨?_, InPlace.setLength_toBytes_of_lt beyond⟩
    rw [revise, Frame.shrink?, if_neg (Nat.not_le_of_lt beyond)]
    rfl
  | payload bytes countable =>
    obtain ⟨beyond, ⟨⟩⟩ := Option.ite_none_right_eq_some.mp refuses
    refine ⟨?_, InPlace.setPayload_toBytes_of_lt countable beyond⟩
    rw [revise, Frame.replace?, if_neg (Nat.not_le_of_lt beyond)]
    rfl
  | patch start bytes =>
    obtain ⟨beyond, ⟨⟩⟩ := Option.ite_none_right_eq_some.mp refuses
    exact ⟨if_neg (Nat.not_le_of_lt beyond), InPlace.patch_toBytes_of_lt beyond⟩
  | stream | flags | kind => cases refuses

/-- An edit that is not refused does to the region what it does to the frame, and changes the readings
accordingly. -/
theorem accepted (fits : f.length ≤ maxFrameLength) (accepts : edit.refusal? f.length = none) :
    ∃ g, edit.revise f = .ok g ∧ edit.perform f.toBytes = .ok () g.toBytes ∧ g.length ≤ f.length ∧
      g.readings = edit.change f.readings := by
  cases edit with
  | length n =>
    have within : n.toNat ≤ f.length := by simpa [refusal?] using accepts
    have size : (f.payload.take n.toNat).length = n.toNat := List.length_take_of_le within
    refine ⟨{ f with payload := f.payload.take n.toNat }, ?_,
      InPlace.setLength_toBytes within fits, Nat.le_trans (Nat.le_of_eq size) within, ?_⟩
    · rw [revise, Frame.shrink?, if_pos within]
      rfl
    · rw [Frame.readings, Frame.length, size]
      rfl
  | payload bytes countable =>
    have within : bytes.length ≤ f.length := by simpa [refusal?] using accepts
    refine ⟨{ f with payload := bytes }, ?_, InPlace.setPayload_toBytes within fits, within, rfl⟩
    rw [revise, Frame.replace?, if_pos within]
    rfl
  | stream id =>
    refine ⟨f.withStream id, rfl, InPlace.setStream_toBytes f id, Nat.le_refl _, ?_⟩
    rw [Frame.readings, Checked.reserved_withStream, Frame.stream, Frame.withStream,
      and_maxStreamId_twice]
    rfl
  | flags bits => exact ⟨f.withFlags bits, rfl, InPlace.setFlags_toBytes f bits, Nat.le_refl _, rfl⟩
  | kind k => exact ⟨f.withKind k, rfl, InPlace.setKind_toBytes f k, Nat.le_refl _, rfl⟩
  | patch start bytes =>
    have within : start + bytes.length ≤ f.length := by simpa [refusal?] using accepts
    have same := f.length_overwrite (f.payload.take start ++ bytes)
    refine ⟨_, if_pos within, InPlace.patch_toBytes within, Nat.le_of_eq same, ?_⟩
    rw [Frame.readings, same, Frame.payload_overwrite within]
    rfl

end Edit

/-! ## Whole regions -/

/-- A region that is as long as its header declares. -/
structure Whole (raw : Bytes) : Prop where
  long : frameHeaderSize ≤ raw.length
  declared : Frame.declaredLength raw = raw.length - frameHeaderSize

/-- Whole regions are the regions of frames. -/
theorem whole_iff {raw : Bytes} :
    Whole raw ↔ ∃ f : Frame, f.length ≤ maxFrameLength ∧ f.toBytes = raw := by
  constructor
  · rintro ⟨long, declared⟩
    have adopted := Frame.ofBytes?_eq_ok.mpr ⟨⟨long, declared⟩, rfl⟩
    exact ⟨_, Frame.length_of_ofBytes? adopted, Frame.toBytes_of_ofBytes? adopted⟩
  · rintro ⟨f, fits, rfl⟩
    obtain ⟨⟨long, declared⟩, -⟩ := Frame.ofBytes?_eq_ok.mp (Frame.ofBytes?_toBytes fits)
    exact ⟨long, declared⟩

/-- No edit leaves a region that is not whole. -/
theorem Whole.after {raw : Bytes} (whole : Whole raw) (edit : Edit) : Whole (edit.after raw) := by
  obtain ⟨f, fits, rfl⟩ := whole_iff.mp whole
  cases decided : edit.refusal? f.length with
  | some trap =>
    rw [Edit.after, (Edit.refused decided).2]
    exact whole
  | none =>
    obtain ⟨g, -, performed, shrinks, -⟩ := Edit.accepted fits decided
    rw [Edit.after, performed]
    exact whole_iff.mpr ⟨g, Nat.le_trans shrinks fits, rfl⟩

/-- No sequence of edits, panics included, makes a region other than header and declared payload. -/
theorem Whole.edited {raw : Bytes} (whole : Whole raw) (edits : List Edit) :
    Whole (edits.foldl Edit.after raw) := by
  induction edits generalizing raw with
  | nil => exact whole
  | cons edit edits ih => exact ih (whole.after edit)

namespace Checked

/-- Adopts a region as that of a frame, if it is whole. -/
def adopt (raw : Bytes) : Checked (Except FrameError Bytes) := do
  if raw.length < frameHeaderSize then
    return .error (.tooShort raw.length)
  else
    let declared ← length raw
    let actual ← sub raw.length frameHeaderSize
    if declared = actual then return .ok raw
    else return .error (.lengthMismatch declared actual)

/-- The declared length is read without a trap wherever a whole header is. -/
theorem length_eq {raw : Bytes} (long : frameHeaderSize ≤ raw.length) :
    length raw = pure (Frame.declaredLength raw) := by
  have byte (i : Nat) (early : i < 9) : byteAt raw i = pure (raw.getD i 0) := by
    apply byteAt_eq
    exact Nat.lt_of_lt_of_le early long
  rw [length, checkRegion, ensure_eq long, pure_bind, byte 0 (by decide), byte 1 (by decide),
    byte 2 (by decide)]
  rfl

/-- Regions are adopted as their bytes are read as a frame. -/
theorem adopt_eq (raw : Bytes) :
    adopt raw = pure ((Frame.ofBytes? raw).map Frame.toBytes) := by
  rw [adopt, Frame.ofBytes?_eq]
  by_cases short : raw.length < frameHeaderSize
  · rw [if_pos short, if_pos short]
    rfl
  · have long := Nat.le_of_not_lt short
    rw [if_neg short, if_neg short, length_eq long, pure_bind, sub_eq long, pure_bind]
    by_cases same : Frame.declaredLength raw = raw.length - frameHeaderSize
    · have whole : raw.length = frameHeaderSize + Frame.declaredLength raw := by omega
      rw [if_pos same, if_pos same, Except.map, Frame.toBytes_ofRegion whole]
    · rw [if_neg same, if_neg same]
      rfl

end Checked

/-! ## Where regions come from -/

/-- A region that is handed out as that of a frame: built, all zeros, adopted, or assembled. -/
inductive Obtained : Bytes → Prop where
  | created {kind : FrameKind} {flags : UInt8} {id : UInt32} {payload raw : Bytes}
      (built : Checked.create kind flags id payload = pure raw) : Obtained raw
  | zeroed {size : Nat} {raw : Bytes} (built : Checked.withCapacity size = pure raw) : Obtained raw
  | adopted {raw : Bytes} (accepted : Checked.adopt raw = pure (.ok raw)) : Obtained raw
  | assembled {limit : Nat} {uses : List Assembler.Use} {input raw rest : Bytes} {a : Assembler}
      (found : Checked.next (Assembler.afterUses { limit } uses) input = pure (a, .region raw rest)) :
      Obtained raw

/-- A capacity above 24 bits is refused by the assertion, before anything is allocated. -/
theorem Checked.withCapacity_of_lt {size : Nat} (large : maxFrameLength < size) :
    withCapacity size = throw (.assertion "payload does not fit a 24-bit length") := by
  rw [withCapacity, ensure, if_neg (Nat.not_le_of_lt large)]
  rfl

/-- A zeroed frame of a given capacity is whole. -/
theorem Whole.zeroed {size : Nat} {raw : Bytes} (built : Checked.withCapacity size = pure raw) :
    Whole raw := by
  by_cases fits : size ≤ maxFrameLength
  · rw [Checked.withCapacity_eq fits] at built
    have zeros : (List.replicate size (0 : UInt8)).length ≤ maxFrameLength := by
      rwa [List.length_replicate]
    refine whole_iff.mpr ⟨_, ?_, Except.ok.inj built⟩
    exact zeros
  · rw [Checked.withCapacity_of_lt (Nat.lt_of_not_le fits)] at built
    cases built

/-- A frame that is built from its parts is whole. -/
theorem Whole.created {kind : FrameKind} {flags : UInt8} {id : UInt32} {payload raw : Bytes}
    (built : Checked.create kind flags id payload = pure raw) : Whole raw := by
  by_cases fits : payload.length ≤ maxFrameLength
  · rw [Checked.create_eq kind flags id fits] at built
    refine whole_iff.mpr ⟨_, ?_, Except.ok.inj built⟩
    exact fits
  · rw [Checked.create, Checked.withCapacity_of_lt (Nat.lt_of_not_le fits)] at built
    cases built

/-- A whole region is adopted as it stands. -/
theorem Whole.adopt_eq {raw : Bytes} (whole : Whole raw) : Checked.adopt raw = pure (.ok raw) := by
  obtain ⟨f, fits, rfl⟩ := whole_iff.mp whole
  rw [Checked.adopt_eq, Frame.ofBytes?_toBytes fits]
  rfl

/-- Only whole regions are adopted. -/
theorem Whole.adopted {raw : Bytes} (accepted : Checked.adopt raw = pure (.ok raw)) :
    Whole raw := by
  rw [Checked.adopt_eq] at accepted
  cases read : Frame.ofBytes? raw with
  | error fault =>
    rw [read] at accepted
    cases accepted
  | ok f =>
    obtain ⟨⟨long, declared⟩, -⟩ := Frame.ofBytes?_eq_ok.mp read
    exact ⟨long, declared⟩

/-- What an assembler gathers is as long as the header in it declares. -/
theorem Whole.assembled {a a' : Assembler} {input raw rest : Bytes} (settled : a.Settled)
    (found : Checked.next a input = pure (a', .region raw rest)) : Whole raw := by
  have reads := Assembler.next_reads settled input
  rw [Checked.next_eq settled] at found
  have spelled := Except.ok.inj found
  generalize a.progress.buffer ++ input = all at reads
  generalize a.next input = made at reads spelled
  cases reads with
  | hungry => cases spelled
  | refused => cases spelled
  | complete fits whole =>
    have region := Frame.toBytes_ofRegion_take whole
    simp only [Checked.Taken.spelled, Prod.mk.injEq, Checked.Taken.region.injEq, region] at spelled
    obtain ⟨-, rfl, -⟩ := spelled
    have size := List.length_take_of_le whole
    constructor
    · exact Nat.le_trans (Nat.le_add_right _ _) (Nat.le_of_eq size.symm)
    · rw [size, Frame.declaredLength_take (Nat.le_add_right _ _), Nat.add_sub_cancel_left]

/-- Whichever way a frame was obtained, and whatever edits came after, its region is whole. -/
theorem Obtained.whole {raw : Bytes} (obtained : Obtained raw) : Whole raw := by
  cases obtained with
  | created built => exact .created built
  | zeroed built => exact .zeroed built
  | adopted accepted => exact .adopted accepted
  | @assembled limit uses _ _ _ _ found =>
    have fresh : Assembler.Settled { limit } := rfl
    exact .assembled (Assembler.settled_afterUses fresh uses).1 found

/-- However a region came about and whatever was done to it since, it is as long as its length reads, and it is
adopted again as it is, as the region of a frame. Each further edit is either refused, and then the region
stays as it is, or it changes its own reading of the region and no other; and it does to the region what it
does to the frame. -/
theorem regions_stay_whole {region : Bytes} (obtained : Obtained region) (edits : List Edit) :
    let raw := edits.foldl Edit.after region
    frameHeaderSize ≤ raw.length ∧ Checked.length raw = pure (raw.length - frameHeaderSize) ∧
      Checked.adopt raw = pure (.ok raw) ∧
      ∃ f : Frame, Frame.ofBytes? raw = .ok f ∧ f.toBytes = raw ∧
        Checked.readings raw = pure f.readings ∧
        ∀ edit : Edit,
          match edit.refusal? f.length with
          | some trap => edit.revise f = .error trap ∧ edit.perform raw = .error trap raw
          | none => ∃ g, edit.revise f = .ok g ∧ edit.perform raw = .ok () g.toBytes ∧
              Checked.readings g.toBytes = pure (edit.change f.readings) := by
  intro raw
  have whole : Whole raw := obtained.whole.edited edits
  have length : Checked.length raw = pure (raw.length - frameHeaderSize) := by
    rw [Checked.length_eq whole.long, whole.declared]
  obtain ⟨f, fits, spelled⟩ := whole_iff.mp whole
  refine ⟨whole.long, length, whole.adopt_eq, f, ?_, spelled, ?_, fun edit => ?_⟩
  · rw [← spelled, Frame.ofBytes?_toBytes fits]
  · rw [← spelled, Checked.readings_toBytes fits]
  · rw [← spelled]
    cases decided : edit.refusal? f.length with
    | some trap => exact Edit.refused decided
    | none =>
      obtain ⟨g, revised, performed, shrinks, changed⟩ := Edit.accepted fits decided
      refine ⟨g, revised, performed, ?_⟩
      rw [Checked.readings_toBytes (Nat.le_trans shrinks fits), changed]

/-- A region that is adopted with its reserved bit set, and shortened. A payload that is too long is refused,
and a new stream identifier clears the bit. -/
theorem regions_stay_whole_after_shrinking :
    let region : Bytes := [0, 0, 3, 0, 0, 0x80, 0, 0, 5, 1, 2, 3]
    let edits : List Edit := [.flags 9, .length 2, .length 7, .patch 1 [8]]
    let raw : Bytes := [0, 0, 2, 0, 9, 0x80, 0, 0, 5, 1, 8]
    Obtained region ∧ edits.foldl Edit.after region = raw ∧ Checked.adopt raw = pure (.ok raw) ∧
      Edit.perform (.payload [1, 2, 3] (by decide)) raw =
        .error (.assertion "length 3 exceeds payload capacity 2") raw ∧
      ∃ g : Frame, Edit.perform (.stream 0xFFFFFFFF) raw = .ok () g.toBytes ∧
        Checked.readings g.toBytes = pure ⟨2, .data, 9, 0x7FFFFFFF, 0, [1, 8]⟩ := by
  intro region edits raw
  have whole : Whole region := ⟨by decide, by decide⟩
  have obtained : Obtained region := .adopted whole.adopt_eq
  have edited : edits.foldl Edit.after region = raw := by decide +kernel
  obtain ⟨-, -, adopted, f, read, -, -, each⟩ := regions_stay_whole obtained edits
  rw [edited] at adopted read each
  obtain ⟨-, rfl⟩ := Frame.ofBytes?_eq_ok.mp read
  have refused := (each (.payload [1, 2, 3] (by decide))).2
  have text : (Frame.Misuse.beyondCapacity 3 2).message = "length 3 exceeds payload capacity 2" := by
    decide
  obtain ⟨g, -, performed, changed⟩ := each (.stream 0xFFFFFFFF)
  have shown : Edit.change (Frame.ofRegion raw).readings (.stream 0xFFFFFFFF) =
      ⟨2, .data, 9, 0x7FFFFFFF, 0, [1, 8]⟩ := by decide
  rw [shown] at changed
  exact ⟨obtained, edited, adopted, text ▸ refused, g, performed, changed⟩

end Http2
