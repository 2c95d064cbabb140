import Http2.Text.Utf8

/-!
# Reading UTF-8 back

A decoder that is between two characters takes the bytes of one more character and adds exactly that
character. The first byte of a sequence sets bounds for the second one; `start_two` to `start_four`
say that a well-formed sequence keeps them. In text that is read from any bytes at all, `mem_decode` finds
the ASCII characters where their bytes were.
-/

namespace Http2.Utf8

namespace Decoder

variable {d : Decoder} {n : Nat}

/-- Between sequences, a byte starts a sequence. -/
theorem push_first (between : d.pending = none) (byte : n < 256) :
    d.push (UInt8.ofNat n) = d.start n := by
  simp [push, between, Nat.mod_eq_of_lt byte]

/-- Inside a sequence, a byte of the range expected adds six bits. -/
theorem push_more (d : Decoder) (p : Pending) (byte : n < 256) (low : p.low ≤ n)
    (high : n ≤ p.high) (missing : 1 < p.missing) :
    (d.await p).push (UInt8.ofNat n) =
      d.await { value := p.value * 64 + (n - 0x80), missing := p.missing - 1 } := by
  simp [push, await, Nat.mod_eq_of_lt byte, low, high, Nat.not_le.mpr missing]

/-- The last byte of a sequence gives out a character. -/
theorem push_last (d : Decoder) (p : Pending) (byte : n < 256) (low : p.low ≤ n)
    (high : n ≤ p.high) (missing : p.missing = 1) :
    (d.await p).push (UInt8.ofNat n) = d.emit (Char.ofNat (p.value * 64 + (n - 0x80))) := by
  simp [push, await, emit, Nat.mod_eq_of_lt byte, low, high, missing]

/-- The bounds of every byte of a sequence after the second. -/
theorem continuation_bounds (v : Nat) : 0x80 ≤ v % 0x40 + 0x80 ∧ v % 0x40 + 0x80 ≤ 0xBF := by
  omega

/-- The first of two bytes leaves one missing. -/
theorem start_two (d : Decoder) {v : Nat} (low : 0x80 ≤ v) (high : v ≤ 0x7ff) :
    d.start (v / 64 % 0x20 + 0xc0) = d.await { value := v / 64, missing := 1 } := by
  have lead : v / 64 % 0x20 = v / 64 := by omega
  rw [lead, start, if_neg (by omega), if_neg (by omega), if_pos (by omega),
    Nat.add_sub_cancel]

/-- The first of three bytes leaves two missing, the next one in a range that the second byte of the
character is in. -/
theorem start_three (d : Decoder) {v : Nat} (low : 0x800 ≤ v) (high : v ≤ 0xffff)
    (valid : v.isValidChar) :
    ∃ lo hi, d.start (v / 4096 % 0x10 + 0xe0) =
        d.await { value := v / 4096, missing := 2, low := lo, high := hi } ∧
      lo ≤ v / 64 % 0x40 + 0x80 ∧ v / 64 % 0x40 + 0x80 ≤ hi := by
  have lead : v / 4096 % 0x10 = v / 4096 := by omega
  rw [lead, start, if_neg (by omega), if_neg (by omega), if_neg (by omega)]
  by_cases first : v / 4096 = 0
  · rw [if_pos (by omega), first]
    exact ⟨0xA0, 0xBF, rfl, by omega, by omega⟩
  · rw [if_neg (by omega)]
    by_cases surrogates : v / 4096 = 13
    · rw [if_pos (by omega), surrogates]
      exact ⟨0x80, 0x9F, rfl, by omega, by omega⟩
    · rw [if_neg (by omega), if_pos (by omega), Nat.add_sub_cancel]
      exact ⟨0x80, 0xBF, rfl, by omega, by omega⟩

/-- The first of four bytes leaves three missing, the next one in a range that the second byte of the
character is in. -/
theorem start_four (d : Decoder) {v : Nat} (low : 0x10000 ≤ v) (valid : v.isValidChar) :
    ∃ lo hi, d.start (v / 262144 % 0x08 + 0xf0) =
        d.await { value := v / 262144, missing := 3, low := lo, high := hi } ∧
      lo ≤ v / 4096 % 0x40 + 0x80 ∧ v / 4096 % 0x40 + 0x80 ≤ hi := by
  have lead : v / 262144 % 0x08 = v / 262144 := by omega
  rw [lead, start, if_neg (by omega), if_neg (by omega), if_neg (by omega), if_neg (by omega),
    if_neg (by omega), if_neg (by omega)]
  by_cases first : v / 262144 = 0
  · rw [if_pos (by omega), first]
    exact ⟨0x90, 0xBF, rfl, by omega, by omega⟩
  · rw [if_neg (by omega)]
    by_cases last : v / 262144 = 4
    · rw [if_neg (by omega), if_pos (by omega), last]
      exact ⟨0x80, 0x8F, rfl, by omega, by omega⟩
    · rw [if_pos (by omega), Nat.add_sub_cancel]
      exact ⟨0x80, 0xBF, rfl, by omega, by omega⟩

/-- The bytes of a character add that character. -/
theorem foldl_push_encodeChar (between : d.pending = none) (c : Char) :
    (String.utf8EncodeChar c).foldl push d = d.emit c := by
  have valid : c.val.toNat.isValidChar := c.valid
  have back : Char.ofNat c.val.toNat = c := Char.ofNat_toNat c
  unfold String.utf8EncodeChar
  generalize c.val.toNat = v at valid back
  simp only
  split
  · rename_i ascii
    rw [List.foldl_cons, List.foldl_nil, push_first between (by omega), start, if_pos (by omega), back]
  · split
    · rename_i wide two
      have bounds := continuation_bounds v
      rw [List.foldl_cons, List.foldl_cons, List.foldl_nil, push_first between (by omega),
        start_two d (by omega) two, push_last d _ (by omega) bounds.1 bounds.2 rfl]
      rw [show v / 64 * 64 + (v % 0x40 + 0x80 - 0x80) = v by omega, back]
    · have bounds := continuation_bounds v
      split
      · rename_i wide wider three
        obtain ⟨lo, hi, started, low, high⟩ := start_three d (by omega) three valid
        let lead : Pending := { value := v / 4096, missing := 2, low := lo, high := hi }
        have second := push_more d lead (n := v / 64 % 0x40 + 0x80) (by omega) low high
          (Nat.lt_succ_self 1)
        rw [List.foldl_cons, List.foldl_cons, List.foldl_cons, List.foldl_nil,
          push_first between (by omega), started, second,
          push_last d _ (by omega) bounds.1 bounds.2 rfl]
        rw [show (v / 4096 * 64 + (v / 64 % 0x40 + 0x80 - 0x80)) * 64 + (v % 0x40 + 0x80 - 0x80) = v
          by omega, back]
      · rename_i wide wider widest
        have inner := continuation_bounds (v / 64)
        obtain ⟨lo, hi, started, low, high⟩ := start_four d (by omega) valid
        let lead : Pending := { value := v / 262144, missing := 3, low := lo, high := hi }
        let next : Pending :=
          { value := v / 262144 * 64 + (v / 4096 % 0x40 + 0x80 - 0x80), missing := 2 }
        have second : (d.await lead).push (UInt8.ofNat (v / 4096 % 0x40 + 0x80)) = d.await next :=
          push_more d lead (by omega) low high (show 1 < 3 by omega)
        have third := push_more d next (n := v / 64 % 0x40 + 0x80) (by omega) inner.1 inner.2
          (Nat.lt_succ_self 1)
        rw [List.foldl_cons, List.foldl_cons, List.foldl_cons, List.foldl_cons, List.foldl_nil,
          push_first between (by omega), started, second, third,
          push_last d _ (by omega) bounds.1 bounds.2 rfl]
        rw [show ((v / 262144 * 64 + (v / 4096 % 0x40 + 0x80 - 0x80)) * 64 +
          (v / 64 % 0x40 + 0x80 - 0x80)) * 64 + (v % 0x40 + 0x80 - 0x80) = v by omega, back]

/-- What was encoded is decoded to the same characters, behind the text so far. -/
theorem foldl_push_encode (chars : List Char) (text : List Char) :
    (chars.flatMap String.utf8EncodeChar).foldl push { text } = { text := chars.reverse ++ text } := by
  induction chars generalizing text with
  | nil => rfl
  | cons c chars ih =>
    rw [List.flatMap_cons, List.foldl_append, foldl_push_encodeChar rfl, emit, ih]
    simp

end Decoder

/-- An encoded text is read back. -/
@[simp] theorem decode_encode (text : String) : decode (encode text) = text := by
  rw [decode, encode, Decoder.foldl_push_encode]
  simp [Decoder.finish]

/-- A byte below 0x80 stands for itself and occurs in no longer sequence. -/
theorem eq_of_mem_encodeChar {byte : UInt8} {c : Char} (member : byte ∈ String.utf8EncodeChar c)
    (ascii : byte.toNat < 0x80) : c = Char.ofNat byte.toNat := by
  have back : Char.ofNat c.val.toNat = c := Char.ofNat_toNat c
  unfold String.utf8EncodeChar at member
  generalize c.val.toNat = v at member back
  simp only at member
  split at member
  · rw [List.mem_singleton.mp member, UInt8.toNat_ofNat', Nat.mod_eq_of_lt (by omega), back]
  · exfalso
    -- every byte of a longer sequence is at least 0x80
    repeat' split at member
    all_goals
      simp only [List.mem_cons, List.not_mem_nil, or_false] at member
      rcases member with rfl | rfl | rfl | rfl <;>
        simp only [UInt8.toNat_ofNat'] at ascii <;> omega

/-- A byte below 0x80 is in an encoding only for the sake of its own character. -/
theorem mem_of_mem_encode {byte : UInt8} {text : String} (member : byte ∈ encode text)
    (ascii : byte.toNat < 0x80) : Char.ofNat byte.toNat ∈ text.toList := by
  obtain ⟨c, here, member⟩ := List.mem_flatMap.mp member
  rwa [← eq_of_mem_encodeChar member ascii]

/-! ## ASCII characters in text that is read -/

/-- A character below 0x80. NUL is left out, which also takes the place of a value that is no character. -/
def IsPlain (c : Char) : Prop :=
  0 < c.toNat ∧ c.toNat < 0x80

instance (c : Char) : Decidable (IsPlain c) :=
  inferInstanceAs (Decidable (0 < c.toNat ∧ c.toNat < 0x80))

namespace IsPlain

variable {c : Char}

/-- A plain character is determined by its number. -/
theorem eq_ofNat_iff (plain : IsPlain c) {n : Nat} : c = Char.ofNat n ↔ c.toNat = n := by
  constructor
  · rintro rfl
    by_cases valid : n.isValidChar
    · rw [Char.ofNat, dif_pos valid]
      rfl
    · have null : (Char.ofNat n).toNat = 0 := by
        rw [Char.ofNat, dif_neg valid]
        rfl
      exact absurd null (Nat.ne_of_gt plain.1)
  · rintro rfl
    exact (Char.ofNat_toNat c).symm

/-- The replacement character is not plain. -/
theorem ne_replacement (plain : IsPlain c) : c ≠ replacement := by
  rintro rfl
  exact absurd plain.2 (by decide)

end IsPlain

/-- The sequence under way does not end in a value below 0x80. -/
def Pending.Wide (p : Pending) : Prop :=
  0x80 ≤ p.low ∧ (2 ≤ p.value ∨ 1 < p.missing ∧ 2 ≤ p.value * 64 + (p.low - 0x80))

namespace Decoder

/-- No sequence under way ends in a value below 0x80. -/
def Wide (d : Decoder) : Prop :=
  ∀ p, d.pending = some p → p.Wide

/-- A character that is given out leaves no sequence under way. -/
theorem wide_emit (d : Decoder) (c : Char) : (d.emit c).Wide :=
  nofun

/-- A decoder that begins to wait for a wide sequence is wide. -/
theorem wide_await (d : Decoder) {p : Pending} (wide : p.Wide) : (d.await p).Wide := by
  rintro _ ⟨⟩
  exact wide

/-- The lead bytes of overlong forms are no lead bytes. -/
theorem wide_start (d : Decoder) (b : Nat) : (d.start b).Wide := by
  unfold start
  repeat' split
  all_goals first
    | exact wide_emit d _
    | exact wide_await d ⟨by simp only; omega, by simp only; omega⟩

/-- No byte makes a sequence that ends below 0x80. -/
theorem wide_push {d : Decoder} (wide : d.Wide) (byte : UInt8) : (d.push byte).Wide := by
  unfold push
  split
  · exact wide_start d _
  · next p pending =>
    obtain ⟨low, value⟩ := wide p pending
    simp only
    split
    · split
      · exact wide_emit d _
      · exact wide_await d ⟨Nat.le_refl _, .inl (by simp only; omega)⟩
    · exact wide_start _ _

variable {c : Char}

/-- A byte that starts a sequence gives out a plain character only if it is the byte of it. -/
theorem mem_start (plain : IsPlain c) (d : Decoder) (b : Nat) :
    c ∈ (d.start b).text ↔ c.toNat = b ∨ c ∈ d.text := by
  have small := plain.2
  have lost : c ∈ (d.emit replacement).text ↔ c ∈ d.text := by
    simp [emit, plain.ne_replacement]
  unfold start
  split
  · rw [emit, List.mem_cons, plain.eq_ofNat_iff]
  · have other : c.toNat ≠ b := by omega
    repeat' split
    all_goals simp [lost, await, other]

/-- A byte below 0x80 gives its character and no other byte does, wherever it comes. -/
theorem mem_push {d : Decoder} (wide : d.Wide) (plain : IsPlain c) (byte : UInt8) :
    c ∈ (d.push byte).text ↔ c.toNat = byte.toNat ∨ c ∈ d.text := by
  have small := plain.2
  unfold push
  split
  · exact mem_start plain d _
  · next p pending =>
    obtain ⟨low, value⟩ := wide p pending
    simp only
    split
    · have other : c.toNat ≠ byte.toNat := by omega
      split
      · have wider : c.toNat ≠ p.value * 64 + (byte.toNat - 0x80) := by omega
        rw [emit, List.mem_cons, plain.eq_ofNat_iff]
        simp [wider, other]
      · simp [await, other]
    · rw [mem_start plain]
      simp [emit, plain.ne_replacement]

/-- A plain character is given out exactly for a byte of its own. -/
theorem mem_foldl_push {d : Decoder} (wide : d.Wide) (plain : IsPlain c) (bytes : Bytes) :
    c ∈ (bytes.foldl push d).text ↔ (∃ byte ∈ bytes, c.toNat = byte.toNat) ∨ c ∈ d.text := by
  induction bytes generalizing d with
  | nil => simp
  | cons byte bytes ih =>
    rw [List.foldl_cons, ih (wide_push wide byte), mem_push wide plain]
    simp only [List.mem_cons, exists_eq_or_imp]
    rw [or_left_comm, or_assoc]

end Decoder

/-- Ill-formed parts neither hide nor make an ASCII character. -/
theorem mem_decode {c : Char} (plain : IsPlain c) (bytes : Bytes) :
    c ∈ (decode bytes).toList ↔ UInt8.ofNat c.toNat ∈ bytes := by
  have fresh : Decoder.Wide {} := nofun
  have byte : (∃ byte ∈ bytes, c.toNat = byte.toNat) ↔ UInt8.ofNat c.toNat ∈ bytes := by
    constructor
    · rintro ⟨byte, member, same⟩
      rwa [same, UInt8.ofNat_toNat]
    · intro member
      have small := plain.2
      refine ⟨_, member, ?_⟩
      rw [UInt8.toNat_ofNat']
      omega
  have text := Decoder.mem_foldl_push fresh plain bytes
  rw [byte, or_iff_left List.not_mem_nil] at text
  rw [decode, Decoder.finish, ← text]
  split
  · simp
  · simp [plain.ne_replacement]

end Http2.Utf8
