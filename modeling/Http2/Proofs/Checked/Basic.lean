import Http2.Bytes

/-!
# Computations that can be cut short

Indexing, slicing, copying, counting in machine words and cutting into pieces are partial: outside its
domain each of them ends the whole computation with a `Trap`. So does a loop that goes round without
coming nearer to its end. Each operation has one lemma that says when it gives a value, and which.
-/

namespace Http2

/-- Why a computation is cut short. -/
inductive Trap where
  /-- A byte outside a byte string is read or written. -/
  | index (position length : Nat)
  /-- A slice is reversed, or reaches past the end. -/
  | slice (start stop length : Nat)
  /-- Bytes are copied over another number of bytes. -/
  | copy (target source : Nat)
  /-- Pieces of no bytes are asked for. -/
  | emptyPieces
  /-- A sum does not fit its word. -/
  | overflow
  /-- A difference is negative. -/
  | underflow
  /-- A condition that is asserted does not hold. -/
  | assertion (text : String)
  /-- A loop would go round with as much left to do as before. -/
  | standstill
  deriving DecidableEq, Repr

/-- A computation that gives a value or is cut short. -/
abbrev Checked : Type → Type := Except Trap

/-- The number of values of a word. Lengths are counted in words of at least 32 bits. -/
def wordLimit : Nat := 4294967296

namespace Checked

variable {bytes source : Bytes} {limit : Nat}

/-- Goes on if a condition holds. -/
def ensure (condition : Prop) [Decidable condition] (text : String) : Checked Unit :=
  if condition then pure () else throw (.assertion text)

/-- The byte at a position. -/
def byteAt (bytes : Bytes) (position : Nat) : Checked UInt8 :=
  if position < bytes.length then pure (bytes.getD position 0)
  else throw (.index position bytes.length)

/-- Replaces the byte at a position. -/
def store (bytes : Bytes) (position : Nat) (byte : UInt8) : Checked Bytes :=
  if position < bytes.length then pure (bytes.set position byte)
  else throw (.index position bytes.length)

/-- The bytes from a position up to another one. -/
def slice (bytes : Bytes) (start stop : Nat) : Checked Bytes :=
  if start ≤ stop ∧ stop ≤ bytes.length then pure ((bytes.take stop).drop start)
  else throw (.slice start stop bytes.length)

/-- The bytes from a position on. -/
def sliceFrom (bytes : Bytes) (start : Nat) : Checked Bytes :=
  slice bytes start bytes.length

/-- Copies bytes over a slice that is as long. -/
def copyInto (bytes : Bytes) (start stop : Nat) (source : Bytes) : Checked Bytes := do
  let target ← slice bytes start stop
  if target.length = source.length then pure (bytes.take start ++ source ++ bytes.drop stop)
  else throw (.copy target.length source.length)

/-- The sum of two words. -/
def add (limit a b : Nat) : Checked Nat :=
  if a + b < limit then pure (a + b) else throw .overflow

/-- The difference of two words. -/
def sub (a b : Nat) : Checked Nat :=
  if b ≤ a then pure (a - b) else throw .underflow

/-- The sum of any number of words, added up one after the other. -/
def sum (limit : Nat) (words : List Nat) : Checked Nat :=
  words.foldlM (add limit) 0

/-- The sum of any number of words, whether it fits a word or not. -/
def total : List Nat → Nat
  | [] => 0
  | word :: words => word + total words

/-- Cuts a byte string into consecutive pieces of `size` bytes. -/
def pieces (size : Nat) (bytes : Bytes) : Checked (List Bytes) :=
  if size = 0 then throw .emptyPieces else pure (Bytes.pieces size bytes)

/-- Goes round a loop once more, with less left to do than before. -/
def again {α : Type} (left before : Nat) (next : left < before → Checked α) : Checked α :=
  if nearer : left < before then next nearer else throw .standstill

/-- A condition that holds is passed. -/
theorem ensure_eq {condition : Prop} [Decidable condition] (holds : condition) (text : String) :
    ensure condition text = pure () :=
  if_pos holds

/-- Indexing inside the bytes does not trap. -/
theorem byteAt_eq {position : Nat} (inside : position < bytes.length) :
    byteAt bytes position = pure (bytes.getD position 0) :=
  if_pos inside

/-- Storing inside the bytes does not trap. -/
theorem store_eq {position : Nat} (inside : position < bytes.length) (byte : UInt8) :
    store bytes position byte = pure (bytes.set position byte) :=
  if_pos inside

/-- A range inside the bytes, in order, is sliced without a trap. -/
theorem slice_eq {start stop : Nat} (ordered : start ≤ stop) (inside : stop ≤ bytes.length) :
    slice bytes start stop = pure ((bytes.take stop).drop start) :=
  if_pos ⟨ordered, inside⟩

theorem sliceFrom_eq {start : Nat} (inside : start ≤ bytes.length) :
    sliceFrom bytes start = pure (bytes.drop start) := by
  rw [sliceFrom, slice_eq inside (Nat.le_refl _), List.take_length]

/-- Copying does not trap into a range of exactly the length of the source. -/
theorem copyInto_eq {start stop : Nat} (ordered : start ≤ stop) (inside : stop ≤ bytes.length)
    (same : source.length = stop - start) :
    copyInto bytes start stop source = pure (bytes.take start ++ source ++ bytes.drop stop) := by
  have size : ((bytes.take stop).drop start).length = source.length := by
    rw [List.length_drop, List.length_take_of_le inside, same]
  rw [copyInto, slice_eq ordered inside, pure_bind, if_pos size]

/-- A sum below the limit of its type does not overflow. -/
theorem add_eq {a b : Nat} (fits : a + b < limit) : add limit a b = pure (a + b) :=
  if_pos fits

/-- A difference does not underflow if it is not negative. -/
theorem sub_eq {a b : Nat} (ordered : b ≤ a) : sub a b = pure (a - b) :=
  if_pos ordered

/-- A sum over a list does not overflow, on the way or at its end, if the whole is below the limit. -/
theorem foldlM_add_eq {words : List Nat} {counted : Nat} (fits : counted + total words < limit) :
    words.foldlM (add limit) counted = pure (counted + total words) := by
  induction words generalizing counted with
  | nil => rfl
  | cons word words ih =>
    rw [total] at fits
    rw [List.foldlM_cons, add_eq (by omega), pure_bind, ih (by omega), total, Nat.add_assoc]

/-- No partial sum is larger than the whole sum. -/
theorem sum_eq {words : List Nat} (fits : total words < limit) :
    sum limit words = pure (total words) := by
  rw [sum, foldlM_add_eq (by rwa [Nat.zero_add]), Nat.zero_add]

/-- Computations that give values one by one give them all. -/
theorem mapM_eq {α β : Type} {f : α → Checked β} {g : α → β} {xs : List α}
    (each : ∀ x ∈ xs, f x = pure (g x)) : xs.mapM f = pure (xs.map g) := by
  induction xs with
  | nil => rfl
  | cons x xs ih =>
    rw [List.mapM_cons, each x List.mem_cons_self, pure_bind,
      ih fun y member => each y (List.mem_cons_of_mem x member), pure_bind, List.map_cons]

/-- A loop that comes nearer to its end goes on. -/
theorem again_eq {α : Type} {left before : Nat} (nearer : left < before)
    (next : left < before → Checked α) : again left before next = next nearer :=
  dif_pos nearer

/-- Cutting into pieces of at least one byte terminates, and no slice traps. -/
theorem pieces_eq {size : Nat} (positive : 1 ≤ size) (bytes : Bytes) :
    pieces size bytes = pure (Bytes.pieces size bytes) :=
  if_neg (Nat.ne_of_gt positive)

end Checked

end Http2
