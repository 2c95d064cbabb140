import Http2.Proofs.Checked.Region

/-!
# Wire forms that agree

A frame is written in two ways, by its header and by the setters on its region, and read in two ways, by
`FrameHeader.parse?` and by the accessors. All four agree on what nine bytes say. The wire carries a kind
as its code and a stream identifier in 31 bits (`FrameHeader.carried`); `FrameHeader.Fits` are the headers
that lose nothing by it. The reserved bit is kept where a frame is adopted, and cleared wherever one is
built.
-/

namespace Http2

namespace FrameKind

/-- Codes from ten on have no name. -/
theorem ofCode_eq_unknown {code : UInt8} : ofCode code = .unknown code ↔ 10 ≤ code := by
  constructor
  · intro read
    have named : ∀ n : Fin 10, ofCode (UInt8.ofNat n) ≠ .unknown (UInt8.ofNat n) := by decide
    refine UInt8.not_lt.mp fun low => ?_
    have bounded : code.toNat < 10 := UInt8.lt_iff_toNat_lt.mp low
    refine named ⟨code.toNat, bounded⟩ ?_
    rwa [UInt8.ofNat_toNat]
  · intro unnamed
    have other (n : UInt8) (low : n < 10) : code ≠ n := by
      rintro rfl
      exact UInt8.not_le.mpr low unnamed
    simp only [ofCode, other 0 (by decide), other 1 (by decide), other 2 (by decide),
      other 3 (by decide), other 4 (by decide), other 5 (by decide), other 6 (by decide),
      other 7 (by decide), other 8 (by decide), other 9 (by decide), if_false]

/-- Only an unknown kind with the code of a named one is not read back. -/
theorem ofCode_code_iff {kind : FrameKind} :
    ofCode kind.code = kind ↔ ∀ code < 10, kind ≠ .unknown code := by
  cases kind with
  | unknown code =>
    simp only [FrameKind.code, ofCode_eq_unknown, ne_eq, unknown.injEq]
    constructor
    · rintro high other low rfl
      exact UInt8.not_le.mpr low high
    · intro different
      exact UInt8.not_lt.mp fun low => different code low rfl
  | _ => simp [FrameKind.code, ofCode]

end FrameKind

/-! ## Headers -/

namespace FrameHeader

variable {h : FrameHeader} {head : Bytes}

/-- The header as the wire carries it: the kind that its code stands for, and 31 bits of the stream. -/
def carried (h : FrameHeader) : FrameHeader :=
  { h with kind := FrameKind.ofCode h.kind.code, stream := h.stream &&& maxStreamId }

/-- The wire has room for the header, and no other header looks like it there. -/
structure Fits (h : FrameHeader) : Prop where
  length : h.length ≤ maxFrameLength
  stream : h.stream ≤ maxStreamId
  kind : ∀ code < 10, h.kind ≠ .unknown code

/-- The wire carries a header unchanged if its stream has 31 bits and its kind does not hide a named code.
-/
theorem carried_eq_iff :
    h.carried = h ↔ h.stream ≤ maxStreamId ∧ ∀ code < 10, h.kind ≠ .unknown code := by
  rw [← and_maxStreamId_eq_iff, ← FrameKind.ofCode_code_iff]
  constructor
  · intro same
    exact ⟨congrArg stream same, congrArg kind same⟩
  · rintro ⟨stream, kind⟩
    rw [carried, stream, kind]

/-- Nine bytes that spell a length, a kind, flags and a word are read as these, whatever follows. -/
theorem parse?_spelled {length : Nat} (fits : length ≤ maxFrameLength) (code flags : UInt8)
    (word : UInt32) (rest : Bytes) :
    parse? (Bytes.ofNat24 length ++ code :: flags :: Bytes.ofUInt32 word ++ rest) =
      some ⟨length, FrameKind.ofCode code, flags, word &&& maxStreamId⟩ := by
  have number := Bytes.toNat24_ofNat24 fits
  have same := Bytes.toUInt32_ofUInt32 word
  simp only [Bytes.ofNat24, Bytes.ofUInt32, List.cons_append, List.nil_append, parse?, number, same]

/-- A header whose length fits is written in nine bytes. -/
theorem encode?_eq (fits : h.length ≤ maxFrameLength) :
    h.encode? = .ok (Bytes.ofNat24 h.length ++ h.kind.code :: h.flags ::
      Bytes.ofUInt32 (h.stream &&& maxStreamId)) :=
  if_pos fits

/-- What the wire does not carry is not written. -/
@[simp] theorem encode?_carried (h : FrameHeader) : h.carried.encode? = h.encode? := by
  simp only [encode?, carried, FrameKind.code_ofCode, and_maxStreamId_twice]

/-- Only a length that fits is written. -/
theorem length_of_encode? (written : h.encode? = .ok head) : h.length ≤ maxFrameLength := by
  unfold encode? at written
  split at written
  · assumption
  · cases written

/-- A written header is read back as the wire carries it. -/
theorem parse?_of_encode? (written : h.encode? = .ok head) (rest : Bytes) :
    parse? (head ++ rest) = some h.carried := by
  have fits := length_of_encode? written
  rw [encode?_eq fits, Except.ok.injEq] at written
  rw [← written, parse?_spelled fits, and_maxStreamId_twice]
  rfl

/-- The headers that are read back are those that fit. -/
theorem fits_iff :
    h.Fits ↔ ∃ head, h.encode? = .ok head ∧ head.length = frameHeaderSize ∧
      ∀ rest, parse? (head ++ rest) = some h := by
  constructor
  · rintro ⟨length, stream, kind⟩
    refine ⟨_, encode?_eq length, by simp [frameHeaderSize], fun rest => ?_⟩
    rw [parse?_of_encode? (encode?_eq length), carried_eq_iff.mpr ⟨stream, kind⟩]
  · rintro ⟨head, written, -, readBack⟩
    have same : h.carried = h := Option.some.inj ((parse?_of_encode? written []).symm.trans (readBack []))
    obtain ⟨stream, kind⟩ := carried_eq_iff.mp same
    exact ⟨length_of_encode? written, stream, kind⟩

end FrameHeader

/-! ## The reserved bit -/

/-- The bytes with the reserved bit of their frame header cleared. -/
def clearReserved (bytes : Bytes) : Bytes :=
  bytes.modify 5 (· &&& 0x7F)

/-- A header that is read is written as it stood there, but for the reserved bit. -/
theorem FrameHeader.encode?_of_parse? {bytes : Bytes} (whole : frameHeaderSize ≤ bytes.length) :
    ∃ h, parse? bytes = some h ∧ h.encode? = .ok (clearReserved (bytes.take frameHeaderSize)) := by
  obtain ⟨l₀, l₁, l₂, code, flags, s₀, s₁, s₂, s₃, rest, rfl⟩ := Bytes.exists_header whole
  have fits : Bytes.toNat24 l₀ l₁ l₂ ≤ maxFrameLength := Nat.le_of_lt_succ (Bytes.toNat24_lt l₀ l₁ l₂)
  refine ⟨_, rfl, ?_⟩
  rw [encode?_eq fits, Bytes.ofNat24_toNat24, and_maxStreamId_twice, Checked.ofUInt32_masked,
    Bytes.ofUInt32_toUInt32, FrameKind.code_ofCode]
  rfl

namespace Frame

variable {f : Frame} {bytes : Bytes}

/-- To set the stream that a frame has is to clear its reserved bit. -/
theorem toBytes_withStream (f : Frame) : (f.withStream f.word).toBytes = clearReserved f.toBytes := by
  rw [Checked.toBytes_eq, Checked.toBytes_eq, withStream, Checked.ofUInt32_masked]
  rfl

/-- Building a frame from what the accessors of another give clears the reserved bit. -/
theorem toBytes_rebuilt (f : Frame) :
    (ofParts f.kind f.flags f.stream f.payload).toBytes = clearReserved f.toBytes := by
  rw [← toBytes_withStream, ofParts, stream, and_maxStreamId_twice, kind, FrameKind.code_ofCode]
  rfl

/-! ## Adopted regions -/

/-- A region is adopted if it is long enough for a header and as long as that declares, and each of the two
has its own error. -/
theorem ofBytes?_eq (bytes : Bytes) : ofBytes? bytes =
    if bytes.length < frameHeaderSize then .error (.tooShort bytes.length)
    else if declaredLength bytes = bytes.length - frameHeaderSize then .ok (ofRegion bytes)
    else .error (.lengthMismatch (declaredLength bytes) (bytes.length - frameHeaderSize)) := by
  match bytes with
  | l₀ :: l₁ :: l₂ :: code :: flags :: s₀ :: s₁ :: s₂ :: s₃ :: payload =>
    have long : ¬payload.length + 9 < frameHeaderSize := by
      rw [frameHeaderSize]
      omega
    have size : payload.length + 9 - frameHeaderSize = payload.length := Nat.add_sub_cancel payload.length 9
    simp only [List.length_cons, long, size, if_false]
    rfl
  | [] | [_] | [_, _] | [_, _, _] | [_, _, _, _] | [_, _, _, _, _] | [_, _, _, _, _, _]
  | [_, _, _, _, _, _, _] | [_, _, _, _, _, _, _, _] => rfl

/-- A region is adopted if it is exactly as long as its header says. -/
theorem ofBytes?_eq_ok : ofBytes? bytes = .ok f ↔
    (frameHeaderSize ≤ bytes.length ∧ declaredLength bytes = bytes.length - frameHeaderSize) ∧
      f = ofRegion bytes := by
  rw [ofBytes?_eq]
  split
  · simp only [reduceCtorEq, false_iff]
    omega
  · split
    · simp only [Except.ok.injEq]
      constructor
      · rintro rfl
        exact ⟨⟨by omega, by assumption⟩, rfl⟩
      · rintro ⟨-, rfl⟩
        rfl
    · simp only [reduceCtorEq, false_iff]
      omega

/-- An adopted region is the wire form of its frame. -/
theorem toBytes_of_ofBytes? (adopted : ofBytes? bytes = .ok f) : f.toBytes = bytes := by
  obtain ⟨⟨long, declared⟩, rfl⟩ := ofBytes?_eq_ok.mp adopted
  apply toBytes_ofRegion
  omega

/-- What was written for a frame is adopted as this frame. -/
theorem ofBytes?_toBytes (fits : f.length ≤ maxFrameLength) : ofBytes? f.toBytes = .ok f := by
  have declared := declaredLength_toBytes fits []
  rw [List.append_nil] at declared
  refine ofBytes?_eq_ok.mpr ⟨⟨?_, ?_⟩, (ofRegion_toBytes f).symm⟩
  · rw [length_toBytes]
    exact Nat.le_add_right _ _
  · rw [declared, length_toBytes, Nat.add_sub_cancel_left]

/-- An adopted frame has a length of 24 bits, for its header declares it. -/
theorem length_of_ofBytes? (adopted : ofBytes? bytes = .ok f) : f.length ≤ maxFrameLength := by
  obtain ⟨⟨-, declared⟩, rfl⟩ := ofBytes?_eq_ok.mp adopted
  have size : (ofRegion bytes).length = declaredLength bytes := by
    rw [declared]
    exact List.length_drop
  rw [size]
  exact Nat.le_of_lt_succ (Bytes.toNat24_lt _ _ _)

/-! ## Built frames -/

/-- A built frame is written as its header and its payload. -/
theorem toBytes_ofParts (h : FrameHeader) {payload head : Bytes} (size : h.length = payload.length)
    (written : h.encode? = .ok head) :
    (ofParts h.kind h.flags h.stream payload).toBytes = head ++ payload := by
  rw [FrameHeader.encode?_eq (FrameHeader.length_of_encode? written), Except.ok.injEq, size] at written
  rw [← written]
  rfl

end Frame

/-- Builds a frame from what the accessors read in a region. -/
def Checked.rebuild (raw : Bytes) : Checked Bytes := do
  create (← kind raw) (← flags raw) (← stream raw) (← payload raw)

/-- A frame that is built from what is read in a region differs from it in the reserved bit at most. -/
theorem Checked.rebuild_toBytes {f : Frame} (fits : f.length ≤ maxFrameLength) :
    rebuild f.toBytes = pure (Frame.ofParts f.kind f.flags f.stream f.payload).toBytes := by
  simp only [rebuild, kind_toBytes, flags_toBytes, stream_toBytes, payload_toBytes, pure_bind]
  exact create_eq f.kind f.flags f.stream fits

/-- Headers that fit are read back, whatever follows, and no others are. Every nine bytes are written as
they were read, but for the reserved bit. A frame is built, by the setters on its region, as its header and
its payload, and is adopted and read by the accessors as the wire carries them. A region is adopted exactly
if it is as long as its header declares; it is then the wire form of its frame, and to build a frame from
what the accessors read there only clears the reserved bit. -/
theorem wire_forms_agree :
    (∀ h : FrameHeader, h.Fits ↔ ∃ head, h.encode? = .ok head ∧ head.length = frameHeaderSize ∧
      ∀ rest, FrameHeader.parse? (head ++ rest) = some h) ∧
    (∀ bytes : Bytes, frameHeaderSize ≤ bytes.length → ∃ h, FrameHeader.parse? bytes = some h ∧
      h.encode? = .ok (clearReserved (bytes.take frameHeaderSize))) ∧
    (∀ kind flags stream payload, payload.length ≤ maxFrameLength →
      let h : FrameHeader := { length := payload.length, kind, flags, stream }
      ∃ f head, Frame.create? kind flags stream payload = .ok f ∧ h.encode? = .ok head ∧
        f.toBytes = head ++ payload ∧ Checked.create kind flags stream payload = pure f.toBytes ∧
        Frame.ofBytes? f.toBytes = .ok f ∧ f.header = h.carried ∧ f.header.encode? = .ok head ∧
        f.payload = payload ∧
        Checked.header f.toBytes = pure h.carried ∧ Checked.payload f.toBytes = pure payload) ∧
    ∀ bytes : Bytes,
      ((∃ f, Frame.ofBytes? bytes = .ok f) ↔
        frameHeaderSize ≤ bytes.length ∧
          Frame.declaredLength bytes = bytes.length - frameHeaderSize) ∧
      ∀ f, Frame.ofBytes? bytes = .ok f →
        f.toBytes = bytes ∧
        (∃ g, Frame.create? f.kind f.flags f.stream f.payload = .ok g ∧
          g.toBytes = clearReserved bytes) ∧
        Checked.rebuild bytes = pure (clearReserved bytes) := by
  refine ⟨fun h => FrameHeader.fits_iff, fun bytes whole => FrameHeader.encode?_of_parse? whole,
    ?built, fun bytes => ⟨?adopts, ?rebuilt⟩⟩
  case built =>
    intro kind flags stream payload fits h
    let f := Frame.ofParts kind flags stream payload
    obtain ⟨head, written⟩ : ∃ head, h.encode? = .ok head := ⟨_, FrameHeader.encode?_eq fits⟩
    have small : f.length ≤ maxFrameLength := fits
    have header : f.header = h.carried := by
      simp only [Frame.header, FrameHeader.carried, Frame.stream, f, Frame.ofParts, and_maxStreamId_twice]
      rfl
    refine ⟨f, head, if_pos fits, written, Frame.toBytes_ofParts h rfl written,
      Checked.create_eq kind flags stream fits, Frame.ofBytes?_toBytes small, header, ?_, rfl, ?_,
      Checked.payload_toBytes f⟩
    · rw [header, FrameHeader.encode?_carried, written]
    · rw [Checked.header_toBytes small, header]
  case adopts =>
    simp only [Frame.ofBytes?_eq_ok, exists_and_left, exists_eq, and_true]
  case rebuilt =>
    intro f adopted
    have fits : f.payload.length ≤ maxFrameLength := Frame.length_of_ofBytes? adopted
    obtain rfl := Frame.toBytes_of_ofBytes? adopted
    refine ⟨rfl, ⟨_, if_pos fits, Frame.toBytes_rebuilt f⟩, ?_⟩
    rw [Checked.rebuild_toBytes fits, Frame.toBytes_rebuilt]

/-- A kind that only hides the code of a named one, an identifier of 32 bits, and a region with the reserved
bit set. -/
theorem wire_forms_agree_up_to_reserved_bit :
    let head : Bytes := [0, 0, 2, 3, 8, 0x7F, 0xFF, 0xFF, 0xFF]
    let region : Bytes := [0, 0, 2, 3, 8, 0xFF, 0xFF, 0xFF, 0xFF, 1, 2]
    (∃ f, Frame.create? (.unknown 3) 8 0xFFFFFFFF [1, 2] = .ok f ∧ f.toBytes = head ++ [1, 2] ∧
      f.header = ⟨2, .rstStream, 8, 0x7FFFFFFF⟩) ∧
    (∃ f, Frame.ofBytes? region = .ok f ∧ f.toBytes = region) ∧
    (∃ h, FrameHeader.parse? region = some h ∧ h.encode? = .ok head) ∧
    Checked.rebuild region = pure (head ++ [1, 2]) := by
  intro head region
  obtain ⟨-, reads, builds, adopts⟩ := wire_forms_agree
  have built : ∃ f, Frame.create? (.unknown 3) 8 0xFFFFFFFF [1, 2] = .ok f ∧
      f.toBytes = head ++ [1, 2] ∧ f.header = ⟨2, .rstStream, 8, 0x7FFFFFFF⟩ := by
    obtain ⟨f, written, created, encoded, whole, -, -, header, -⟩ :=
      builds (.unknown 3) 8 0xFFFFFFFF [1, 2] (by decide)
    have same : written = head := Except.ok.inj (encoded.symm.trans rfl)
    exact ⟨f, created, same ▸ whole, header.trans (by decide)⟩
  obtain ⟨f, adopted⟩ := (adopts region).1.mpr (by decide)
  obtain ⟨same, -, rebuilt⟩ := (adopts region).2 f adopted
  exact ⟨built, ⟨f, adopted, same⟩, reads region (by decide), rebuilt⟩

end Http2
