/-!
# Byte strings and big-endian fields

The wire carries two fixed-width numbers, a 24-bit length and a 32-bit word, most significant byte
first. Both are written and read by division and remainder on natural numbers.
-/

namespace Http2

/-- A byte string. -/
abbrev Bytes := List UInt8

namespace Bytes

/-- The number that three bytes spell, most significant byte first. -/
def toNat24 (a b c : UInt8) : Nat :=
  a.toNat * 65536 + b.toNat * 256 + c.toNat

/-- The three low bytes of a number, most significant byte first. -/
def ofNat24 (n : Nat) : Bytes :=
  [UInt8.ofNat (n / 65536), UInt8.ofNat (n / 256), UInt8.ofNat n]

/-- The word that four bytes spell, most significant byte first. -/
def toUInt32 (a b c d : UInt8) : UInt32 :=
  UInt32.ofNat (a.toNat * 16777216 + b.toNat * 65536 + c.toNat * 256 + d.toNat)

/-- The four bytes of a word, most significant byte first. -/
def ofUInt32 (w : UInt32) : Bytes :=
  [UInt8.ofNat (w.toNat / 16777216), UInt8.ofNat (w.toNat / 65536),
    UInt8.ofNat (w.toNat / 256), UInt8.ofNat w.toNat]

/-- Cuts a byte string into consecutive pieces of `size` bytes; the last piece may be shorter, and
an empty string has no pieces. A size of zero counts as one. -/
def pieces (size : Nat) (bytes : Bytes) : List Bytes :=
  go (max size 1) bytes.length bytes []
where
  /-- Cuts at most `count` pieces off the front of `rest`; those already cut are newest first. -/
  go (size : Nat) : Nat → Bytes → List Bytes → List Bytes
    | _, [], cut => cut.reverse
    | 0, rest, cut => (rest :: cut).reverse
    | count + 1, rest, cut => go size count (rest.drop size) (rest.take size :: cut)

@[simp] theorem length_ofNat24 (n : Nat) : (ofNat24 n).length = 3 := rfl

@[simp] theorem length_ofUInt32 (w : UInt32) : (ofUInt32 w).length = 4 := rfl

/-- Three bytes hold no more than 24 bits. -/
theorem toNat24_lt (a b c : UInt8) : toNat24 a b c < 16777216 := by
  have ha := a.toNat_lt
  have hb := b.toNat_lt
  have hc := c.toNat_lt
  simp only [toNat24]
  omega

end Bytes

end Http2
