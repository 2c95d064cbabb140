import Http2.Frame.Basic

/-!
# Frames as byte regions

`Frame.ofRegion` reads back what `Frame.toBytes` wrote, whatever follows the header. A length of at
most 24 bits is read back from the first three bytes, and only these decide it. A stream
identifier is read back if it has at most 31 bits.
-/

namespace Http2

namespace Bytes

/-- Three bytes spell the number that they were written from. -/
theorem toNat24_ofNat24 {n : Nat} (fits : n ≤ maxFrameLength) :
    toNat24 (UInt8.ofNat (n / 65536)) (UInt8.ofNat (n / 256)) (UInt8.ofNat n) = n := by
  simp only [maxFrameLength] at fits
  simp only [toNat24, UInt8.toNat_ofNat']
  omega

/-- Four bytes spell the word that they were written from. -/
theorem toUInt32_ofUInt32 (w : UInt32) :
    toUInt32 (UInt8.ofNat (w.toNat / 16777216)) (UInt8.ofNat (w.toNat / 65536))
      (UInt8.ofNat (w.toNat / 256)) (UInt8.ofNat w.toNat) = w := by
  have bounded := w.toNat_lt
  apply UInt32.toNat_inj.mp
  simp only [toUInt32, UInt8.toNat_ofNat', UInt32.toNat_ofNat']
  omega

/-- Three bytes are read off the number that they spell. -/
theorem ofNat24_toNat24 (a b c : UInt8) : ofNat24 (toNat24 a b c) = [a, b, c] := by
  have first := a.toNat_lt
  have second := b.toNat_lt
  have third := c.toNat_lt
  simp only [ofNat24, toNat24, List.cons.injEq, and_true, ← UInt8.toNat_inj, UInt8.toNat_ofNat']
  omega

/-- Four bytes are read off the word that they spell. -/
theorem ofUInt32_toUInt32 (a b c d : UInt8) : ofUInt32 (toUInt32 a b c d) = [a, b, c, d] := by
  have first := a.toNat_lt
  have second := b.toNat_lt
  have third := c.toNat_lt
  have fourth := d.toNat_lt
  simp only [ofUInt32, toUInt32, List.cons.injEq, and_true, ← UInt8.toNat_inj, UInt8.toNat_ofNat',
    UInt32.toNat_ofNat']
  omega

/-- Bytes that are enough for a frame header begin with its nine bytes. -/
theorem exists_header {bytes : Bytes} (whole : frameHeaderSize ≤ bytes.length) :
    ∃ l₀ l₁ l₂ code flags s₀ s₁ s₂ s₃ rest,
      bytes = l₀ :: l₁ :: l₂ :: code :: flags :: s₀ :: s₁ :: s₂ :: s₃ :: rest := by
  match bytes with
  | l₀ :: l₁ :: l₂ :: code :: flags :: s₀ :: s₁ :: s₂ :: s₃ :: rest =>
    exact ⟨l₀, l₁, l₂, code, flags, s₀, s₁, s₂, s₃, rest, rfl⟩
  | [] | [_] | [_, _] | [_, _, _] | [_, _, _, _] | [_, _, _, _, _] | [_, _, _, _, _, _]
  | [_, _, _, _, _, _, _] | [_, _, _, _, _, _, _, _] =>
    simp only [List.length_cons, List.length_nil, frameHeaderSize] at whole
    omega

end Bytes

/-! ## Stream identifiers -/

/-- The mask keeps the 31 low bits. -/
theorem toNat_and_maxStreamId (id : UInt32) : (id &&& maxStreamId).toNat = id.toNat % 2147483648 :=
  (UInt32.toNat_and id maxStreamId).trans (Nat.and_two_pow_sub_one_eq_mod id.toNat 31)

/-- The mask keeps exactly the stream identifiers of 31 bits. -/
theorem and_maxStreamId_eq_iff {id : UInt32} : id &&& maxStreamId = id ↔ id ≤ maxStreamId := by
  have largest : maxStreamId.toNat = 2147483647 := rfl
  rw [← UInt32.toNat_inj, toNat_and_maxStreamId, UInt32.le_iff_toNat_le, largest]
  omega

@[simp] theorem and_maxStreamId_twice (id : UInt32) :
    id &&& maxStreamId &&& maxStreamId = id &&& maxStreamId := by
  rw [UInt32.and_assoc, UInt32.and_self]

/-! ## Regions -/

namespace Frame

/-- A region that begins with the wire form of a frame declares the length of that frame. -/
theorem declaredLength_toBytes {f : Frame} (fits : f.length ≤ maxFrameLength) (rest : Bytes) :
    declaredLength (f.toBytes ++ rest) = f.length :=
  Bytes.toNat24_ofNat24 fits

/-- The wire form of a frame is read back as that frame. -/
@[simp] theorem ofRegion_toBytes (f : Frame) : ofRegion f.toBytes = f := by
  have word := Bytes.toUInt32_ofUInt32 f.word
  cases f
  simpa [ofRegion, toBytes, headBytes, Bytes.ofNat24, Bytes.ofUInt32, frameHeaderSize] using word

/-- A region of the declared length is the wire form of the frame that it is read as. -/
theorem toBytes_ofRegion {region : Bytes}
    (whole : region.length = frameHeaderSize + declaredLength region) :
    (ofRegion region).toBytes = region := by
  have header : frameHeaderSize ≤ region.length := whole ▸ Nat.le_add_right _ _
  obtain ⟨l₀, l₁, l₂, code, flags, s₀, s₁, s₂, s₃, payload, rfl⟩ := Bytes.exists_header header
  have size : payload.length = Bytes.toNat24 l₀ l₁ l₂ := by
    simp [frameHeaderSize, declaredLength] at whole
    omega
  simp [toBytes, headBytes, ofRegion, length, frameHeaderSize, size, Bytes.ofNat24_toNat24,
    Bytes.ofUInt32_toUInt32]

/-- Bytes behind the header do not change the declared length. -/
theorem declaredLength_take {count : Nat} (whole : frameHeaderSize ≤ count) (region : Bytes) :
    declaredLength (region.take count) = declaredLength region := by
  have byte (i : Nat) (early : i < 3) : (region.take count).getD i 0 = region.getD i 0 := by
    simp only [frameHeaderSize] at whole
    rw [List.getD_eq_getElem?_getD, List.getD_eq_getElem?_getD, List.getElem?_take,
      if_pos (by omega)]
  simp only [declaredLength]
  rw [byte 0 (by omega), byte 1 (by omega), byte 2 (by omega)]

/-- The bytes of a whole frame at the front of a byte string are the wire form of what they are read
as. -/
theorem toBytes_ofRegion_take {bytes : Bytes}
    (whole : frameHeaderSize + declaredLength bytes ≤ bytes.length) :
    (ofRegion (bytes.take (frameHeaderSize + declaredLength bytes))).toBytes =
      bytes.take (frameHeaderSize + declaredLength bytes) := by
  apply toBytes_ofRegion
  rw [List.length_take_of_le whole, declaredLength_take (Nat.le_add_right _ _)]

/-- A region that holds what its header declares makes a frame of that length. -/
theorem length_ofRegion_take {bytes : Bytes}
    (whole : frameHeaderSize + declaredLength bytes ≤ bytes.length) :
    (ofRegion (bytes.take (frameHeaderSize + declaredLength bytes))).length = declaredLength bytes := by
  have sizes := congrArg List.length (toBytes_ofRegion_take whole)
  rw [length_toBytes, List.length_take_of_le whole] at sizes
  exact Nat.add_left_cancel sizes

/-- A whole frame header decides the declared length of everything that begins with it. -/
theorem declaredLength_append {region : Bytes} (whole : frameHeaderSize ≤ region.length)
    (more : Bytes) : declaredLength (region ++ more) = declaredLength region := by
  have front := declaredLength_take whole (region ++ more)
  rwa [List.take_left, eq_comm] at front

end Frame

end Http2
