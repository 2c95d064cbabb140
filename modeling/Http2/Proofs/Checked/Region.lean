import Http2.Frame.Payload
import Http2.Proofs.Checked.Basic
import Http2.Proofs.Frame.Region

/-!
# Frames as byte regions, with every access checked

A frame is held as one region of bytes, header first. Here it is read and written as such, and every
byte and slice that is touched is checked to be there. The region of a frame is `Frame.toBytes`: on it
each accessor gives the field of the frame, each setter the region of the changed frame, and `create`
builds it from nothing.
-/

namespace Http2.Checked

variable {f : Frame}

/-! ## Reading -/

/-- Every accessor first makes sure that the header is there. -/
def checkRegion (raw : Bytes) : Checked Unit :=
  ensure (frameHeaderSize ≤ raw.length) "frame region is shorter than the frame header"

/-- The payload length that the header declares. -/
def length (raw : Bytes) : Checked Nat := do
  checkRegion raw
  return Bytes.toNat24 (← byteAt raw 0) (← byteAt raw 1) (← byteAt raw 2)

/-- The kind. -/
def kind (raw : Bytes) : Checked FrameKind := do
  checkRegion raw
  return FrameKind.ofCode (← byteAt raw 3)

/-- The flags. -/
def flags (raw : Bytes) : Checked UInt8 := do
  checkRegion raw
  byteAt raw 4

/-- Whether the frame has one of the flags of a mask. -/
def hasFlag (raw : Bytes) (mask : UInt8) : Checked Bool :=
  return Flag.has (← flags raw) mask

/-- The stream identifier, without the reserved bit. -/
def stream (raw : Bytes) : Checked UInt32 := do
  checkRegion raw
  return Bytes.toUInt32 (← byteAt raw 5) (← byteAt raw 6) (← byteAt raw 7) (← byteAt raw 8) &&&
    maxStreamId

/-- All fields of the header. -/
def header (raw : Bytes) : Checked FrameHeader :=
  return {
    length := ← length raw
    kind := ← kind raw
    flags := ← flags raw
    stream := ← stream raw }

/-- The payload. -/
def payload (raw : Bytes) : Checked Bytes := do
  checkRegion raw
  sliceFrom raw frameHeaderSize

/-- The payload without pad length and padding. -/
def unpadded (raw : Bytes) : Checked (Except FrameError Bytes) := do
  let content ← payload raw
  let kind ← kind raw
  if kind.isPaddable && (← hasFlag raw Flag.padded) then
    match content with
    | [] => return .error (.invalidPadding kind)
    | pad :: rest =>
      if rest.length < pad.toNat then return .error (.invalidPadding kind)
      else return .ok (← slice rest 0 (← sub rest.length pad.toNat))
  else
    return .ok content

/-- The piece of a header block that the frame carries. -/
def fragment (raw : Bytes) : Checked (Except FrameError Bytes) := do
  match ← unpadded raw with
  | .error fault => return .error fault
  | .ok content =>
    let kind ← kind raw
    if kind = .headers && (← hasFlag raw Flag.priority) then
      if content.length < Frame.prioritySize then return .error (.invalidPriority kind)
      else return .ok (← sliceFrom content Frame.prioritySize)
    else
      return .ok content

theorem toBytes_eq (f : Frame) : f.toBytes =
    UInt8.ofNat (f.length / 65536) :: UInt8.ofNat (f.length / 256) :: UInt8.ofNat f.length ::
      f.code :: f.flags :: (Bytes.ofUInt32 f.word ++ f.payload) := rfl

/-- The bytes of a frame pass for a region: they start with a whole header. -/
theorem checkRegion_toBytes (f : Frame) : checkRegion f.toBytes = pure () :=
  ensure_eq (by simp) _

/-- The bytes of the header are there. -/
theorem byteAt_toBytes (f : Frame) {position : Nat} (early : position < 9) :
    byteAt f.toBytes position = pure (f.toBytes.getD position 0) := by
  refine byteAt_eq ?_
  rw [Frame.length_toBytes, frameHeaderSize]
  omega

/-- The declared length is read from the three bytes of its field, without a trap. -/
theorem length_toBytes (fits : f.length ≤ maxFrameLength) : length f.toBytes = pure f.length := by
  have declared : Frame.declaredLength f.toBytes = f.length := by
    simpa using Frame.declaredLength_toBytes fits []
  simp only [length, checkRegion_toBytes, byteAt_toBytes, Nat.reduceLT, pure_bind]
  rw [← declared]
  rfl

@[simp] theorem kind_toBytes (f : Frame) : kind f.toBytes = pure f.kind := by
  simp only [kind, checkRegion_toBytes, byteAt_toBytes, Nat.reduceLT, pure_bind]
  rfl

@[simp] theorem flags_toBytes (f : Frame) : flags f.toBytes = pure f.flags := by
  simp only [flags, checkRegion_toBytes, byteAt_toBytes, Nat.reduceLT, pure_bind]
  rfl

@[simp] theorem hasFlag_toBytes (f : Frame) (mask : UInt8) :
    hasFlag f.toBytes mask = pure (f.hasFlag mask) := by
  simp only [hasFlag, flags_toBytes, pure_bind, Frame.hasFlag]

@[simp] theorem stream_toBytes (f : Frame) : stream f.toBytes = pure f.stream := by
  have word : (Frame.ofRegion f.toBytes).word = f.word := by rw [Frame.ofRegion_toBytes]
  simp only [stream, checkRegion_toBytes, byteAt_toBytes, Nat.reduceLT, pure_bind]
  rw [Frame.stream, ← word]
  rfl

/-- All fields of a header are read without a trap. -/
theorem header_toBytes (fits : f.length ≤ maxFrameLength) : header f.toBytes = pure f.header := by
  simp only [header, length_toBytes fits, kind_toBytes, flags_toBytes, stream_toBytes, pure_bind]
  rfl

@[simp] theorem payload_toBytes (f : Frame) : payload f.toBytes = pure f.payload := by
  rw [payload, checkRegion_toBytes, pure_bind, sliceFrom_eq (by simp)]
  rfl

/-- Padding is taken off only if it is there. -/
@[simp] theorem unpadded_toBytes (f : Frame) : unpadded f.toBytes = pure f.unpadded := by
  simp only [unpadded, payload_toBytes, kind_toBytes, hasFlag_toBytes, pure_bind, Frame.unpadded]
  by_cases padded : (f.kind.isPaddable && f.hasFlag Flag.padded) = true
  · rw [if_pos padded, if_pos padded]
    cases f.payload with
    | nil => rfl
    | cons pad rest =>
      by_cases room : pad.toNat ≤ rest.length
      · simp only [Nat.not_lt.mpr room, room, if_true, if_false]
        rw [sub_eq room, pure_bind, slice_eq (Nat.zero_le _) (Nat.sub_le _ _)]
        rfl
      · simp only [Nat.lt_of_not_le room, room, if_true, if_false]
  · rw [if_neg padded, if_neg padded]

/-- Priority data is taken off only if it is there. -/
@[simp] theorem fragment_toBytes (f : Frame) : fragment f.toBytes = pure f.fragment := by
  simp only [fragment, unpadded_toBytes, kind_toBytes, hasFlag_toBytes, pure_bind, Frame.fragment]
  cases f.unpadded with
  | error fault => rfl
  | ok content =>
    by_cases prioritized : (decide (f.kind = .headers) && f.hasFlag Flag.priority) = true
    · simp only [prioritized, if_true]
      by_cases room : Frame.prioritySize ≤ content.length
      · simp only [Nat.not_lt.mpr room, room, if_true, if_false]
        rw [sliceFrom_eq room]
        rfl
      · simp only [Nat.lt_of_not_le room, room, if_true, if_false]
    · simp only [prioritized]
      rfl

/-! ## Writing -/

/-- Writes the length over the first three bytes. -/
def writeLength (raw : Bytes) (length : UInt32) : Checked Bytes := do
  copyInto raw 0 3 (← sliceFrom (Bytes.ofUInt32 length) 1)

/-- A frame of all zeros with `size` payload bytes. -/
def withCapacity (size : Nat) : Checked Bytes := do
  ensure (size ≤ maxFrameLength) "payload does not fit a 24-bit length"
  let whole ← add wordLimit frameHeaderSize size
  writeLength (List.replicate whole 0) (UInt32.ofNat size)

/-- Sets the kind. -/
def setKind (raw : Bytes) (kind : FrameKind) : Checked Bytes := do
  checkRegion raw
  store raw 3 kind.code

/-- Sets the flags. -/
def setFlags (raw : Bytes) (flags : UInt8) : Checked Bytes := do
  checkRegion raw
  store raw 4 flags

/-- Sets the stream identifier and clears the reserved bit. -/
def setStream (raw : Bytes) (id : UInt32) : Checked Bytes := do
  checkRegion raw
  let raw ← copyInto raw 5 9 (Bytes.ofUInt32 id)
  store raw 5 ((← byteAt raw 5) &&& 0x7F)

/-- Cuts the payload down to `length` bytes. -/
def setLength (raw : Bytes) (length : UInt32) : Checked Bytes := do
  checkRegion raw
  let capacity ← sub raw.length frameHeaderSize
  ensure (length.toNat ≤ capacity) "length exceeds payload capacity"
  let raw ← writeLength raw length
  return raw.take (← add wordLimit frameHeaderSize length.toNat)

/-- Replaces the payload by one that is not longer. -/
def setPayload (raw : Bytes) (payload : Bytes) : Checked Bytes := do
  let raw ← setLength raw (UInt32.ofNat payload.length)
  copyInto raw frameHeaderSize raw.length payload

/-- Builds the region of a frame. -/
def create (kind : FrameKind) (flags : UInt8) (id : UInt32) (payload : Bytes) : Checked Bytes := do
  let raw ← withCapacity payload.length
  let raw ← setKind raw kind
  let raw ← setFlags raw flags
  let raw ← setStream raw id
  setPayload raw payload

/-- A length of 24 bits survives the word. -/
theorem toNat_ofNat_of_fits {size : Nat} (fits : size ≤ maxFrameLength) :
    (UInt32.ofNat size).toNat = size := by
  simp only [maxFrameLength] at fits
  rw [UInt32.toNat_ofNat']
  omega

/-- The size of a frame with its header does not overflow the word. -/
theorem add_header_eq {size : Nat} (fits : size ≤ maxFrameLength) :
    add wordLimit frameHeaderSize size = pure (frameHeaderSize + size) := by
  refine add_eq ?_
  simp only [maxFrameLength] at fits
  simp only [frameHeaderSize, wordLimit]
  omega

/-- The low bytes of a word spell a length that fits them. -/
theorem writeLength_eq {size : Nat} (fits : size ≤ maxFrameLength) (a b c : UInt8) (rest : Bytes) :
    writeLength (a :: b :: c :: rest) (UInt32.ofNat size) = pure (Bytes.ofNat24 size ++ rest) := by
  have low : sliceFrom (Bytes.ofUInt32 (UInt32.ofNat size)) 1 = pure (Bytes.ofNat24 size) := by
    rw [sliceFrom_eq (by simp), Bytes.ofUInt32, toNat_ofNat_of_fits fits]
    rfl
  rw [writeLength, low, pure_bind, copyInto_eq (Nat.zero_le _) (by simp) (by simp)]
  rfl

/-- A capacity within 24 bits is granted, as a zeroed frame. -/
theorem withCapacity_eq {size : Nat} (fits : size ≤ maxFrameLength) :
    withCapacity size =
      pure (Frame.toBytes { code := 0, flags := 0, word := 0, payload := List.replicate size 0 }) := by
  have zeros : List.replicate (frameHeaderSize + size) (0 : UInt8) =
      0 :: 0 :: 0 :: (List.replicate 6 0 ++ List.replicate size 0) := by
    rw [← List.replicate_append_replicate]
    rfl
  rw [withCapacity, ensure_eq fits, pure_bind, add_header_eq fits, pure_bind, zeros,
    writeLength_eq fits]
  simp [Frame.toBytes, Frame.headBytes, Frame.length, Bytes.ofUInt32]

/-- The kind of a frame is set without a trap, in its own byte. -/
theorem setKind_toBytes (f : Frame) (kind : FrameKind) :
    setKind f.toBytes kind = pure (f.withKind kind).toBytes := by
  rw [setKind, checkRegion_toBytes, pure_bind, store_eq (by simp [frameHeaderSize]; omega)]
  rfl

/-- The flags of a frame are set without a trap, in their own byte. -/
theorem setFlags_toBytes (f : Frame) (flags : UInt8) :
    setFlags f.toBytes flags = pure (f.withFlags flags).toBytes := by
  rw [setFlags, checkRegion_toBytes, pure_bind, store_eq (by simp [frameHeaderSize]; omega)]
  rfl

/-- Clearing the high bit of the first byte clears the reserved bit of the word. -/
theorem ofUInt32_masked (id : UInt32) :
    Bytes.ofUInt32 (id &&& maxStreamId) = (Bytes.ofUInt32 id).modifyHead (· &&& 0x7F) := by
  have first (n : Nat) : UInt8.ofNat n &&& 0x7F = UInt8.ofNat (n % 128) := by
    apply UInt8.toNat.inj
    rw [UInt8.toNat_and, show (0x7F : UInt8).toNat = 2 ^ 7 - 1 from rfl,
      Nat.and_two_pow_sub_one_eq_mod, UInt8.toNat_ofNat', UInt8.toNat_ofNat']
    omega
  have low (m n : Nat) (same : m % 256 = n % 256) : UInt8.ofNat m = UInt8.ofNat n := by
    apply UInt8.toNat.inj
    rw [UInt8.toNat_ofNat', UInt8.toNat_ofNat']
    exact same
  simp only [Bytes.ofUInt32, List.modifyHead_cons, first, toNat_and_maxStreamId]
  rw [low (id.toNat % 2147483648 / 16777216) (id.toNat / 16777216 % 128) (by omega),
    low (id.toNat % 2147483648 / 65536) (id.toNat / 65536) (by omega),
    low (id.toNat % 2147483648 / 256) (id.toNat / 256) (by omega),
    low (id.toNat % 2147483648) id.toNat (by omega)]

/-- The stream of a frame is set without a trap, in its own four bytes. -/
theorem setStream_toBytes (f : Frame) (id : UInt32) :
    setStream f.toBytes id = pure (f.withStream id).toBytes := by
  let named : Frame := { f with word := id }
  have copied : copyInto f.toBytes 5 9 (Bytes.ofUInt32 id) = pure named.toBytes := by
    rw [copyInto_eq (by decide) (by simp [frameHeaderSize]) (by simp)]
    rfl
  rw [setStream, checkRegion_toBytes, pure_bind, copied, pure_bind, byteAt_toBytes named (by decide),
    pure_bind, store_eq (by simp [frameHeaderSize]; omega), toBytes_eq (f.withStream id)]
  simp only [Frame.withStream, ofUInt32_masked]
  rfl

/-- A length that shrinks is set without a trap, and the payload is cut to it. -/
theorem setLength_toBytes {size : Nat} (shrinks : size ≤ f.length) (fits : f.length ≤ maxFrameLength) :
    setLength f.toBytes (UInt32.ofNat size) =
      pure (Frame.toBytes { f with payload := f.payload.take size }) := by
  have small : size ≤ maxFrameLength := Nat.le_trans shrinks fits
  let head := Bytes.ofNat24 size ++ f.code :: f.flags :: Bytes.ofUInt32 f.word
  have sized : head.length = frameHeaderSize := by simp [head, frameHeaderSize]
  have cut : (head ++ f.payload).take (frameHeaderSize + size) = head ++ f.payload.take size := by
    rw [← sized, List.take_length_add_append]
  have whole : Frame.toBytes { f with payload := f.payload.take size } =
      head ++ f.payload.take size := by
    simp [Frame.toBytes, Frame.headBytes, Frame.length, List.length_take_of_le shrinks, head]
  rw [setLength, checkRegion_toBytes, pure_bind, sub_eq (by simp), pure_bind,
    toNat_ofNat_of_fits small, ensure_eq (by simpa using shrinks), pure_bind, toBytes_eq,
    writeLength_eq small, pure_bind, add_header_eq small, pure_bind, whole, ← cut]
  simp [head]

/-- A payload that is not longer takes the place of the old one. -/
theorem setPayload_toBytes {payload : Bytes} (shrinks : payload.length ≤ f.length)
    (fits : f.length ≤ maxFrameLength) :
    setPayload f.toBytes payload = pure (Frame.toBytes { f with payload }) := by
  let cut : Frame := { f with payload := f.payload.take payload.length }
  have same : cut.length = payload.length := List.length_take_of_le shrinks
  have head : cut.headBytes = Frame.headBytes { f with payload } := by
    rw [Frame.headBytes, same]
    rfl
  rw [setPayload, setLength_toBytes shrinks fits, pure_bind]
  rw [copyInto_eq (by simp) (Nat.le_refl _) (by simpa using same.symm), List.drop_length,
    List.append_nil]
  rw [Frame.toBytes, List.take_left' (Frame.length_headBytes cut), head]
  rfl

/-- A frame is built as the region of the frame with these fields. -/
theorem create_eq (kind : FrameKind) (flags : UInt8) (id : UInt32) {payload : Bytes}
    (fits : payload.length ≤ maxFrameLength) :
    create kind flags id payload = pure (Frame.ofParts kind flags id payload).toBytes := by
  let named : Frame := Frame.ofParts kind flags id (List.replicate payload.length 0)
  have same : payload.length = named.length := List.length_replicate.symm
  have filled : setPayload named.toBytes payload = pure (Frame.ofParts kind flags id payload).toBytes :=
    setPayload_toBytes (Nat.le_of_eq same) (same ▸ fits)
  rw [create, withCapacity_eq fits, pure_bind, setKind_toBytes, pure_bind, setFlags_toBytes, pure_bind,
    setStream_toBytes, pure_bind]
  exact filled

end Http2.Checked
