import Http2.Proofs.Assembler
import Http2.Proofs.Checked.Basic

/-!
# Assembling frames, with every access checked

`Checked.next` takes its bytes by slices of the input, reads the declared length by position, and hands
a frame out as the region that was gathered. A settled assembler gives it no occasion for a trap, and
the region is the wire form of the frame that `Assembler.next` finds.
-/

namespace Http2.Checked

/-- What became of the bytes of a call. -/
inductive Taken where
  /-- All bytes are taken and no frame is complete. -/
  | hungry
  /-- The region of a frame is complete; the rest of the bytes is not taken. -/
  | region (raw rest : Bytes)
  /-- A frame is refused; the rest of the bytes is not taken. -/
  | fault (fault : FrameError) (rest : Bytes)

/-- A complete frame as its region. -/
def Taken.spelled : Assembler × Assembler.Next → Assembler × Taken
  | (a, .hungry) => (a, .hungry)
  | (a, .frame found rest) => (a, .region found.toBytes rest)
  | (a, .fault error rest) => (a, .fault error rest)

/-- Takes bytes from the front of the input until `target` bytes are held, and leaves the rest. -/
def fill (p : Progress) (target : Nat) (input : Bytes) : Checked (Progress × Bytes) := do
  let take := min (p.wanted target) input.length
  let taken ← slice input 0 take
  return ({ p with buffer := p.buffer ++ taken }, ← sliceFrom input take)

/-- Gathers payload bytes; the frame is complete when it has its total size. -/
def readPayload (a : Assembler) (input : Bytes) : Checked (Assembler × Taken) := do
  let (held, rest) ← fill a.progress a.progress.totalSize input
  if held.buffer.length < held.totalSize then
    return ({ a with progress := held }, .hungry)
  else
    ensure (frameHeaderSize ≤ held.buffer.length) "raw.len() >= FRAME_HEADER_LEN"
    return ({ a with progress := { held with phase := .awaitingFrame, buffer := [] } },
      .region held.buffer rest)

/-- Checks the declared length of a whole header. -/
def checkLength (a : Assembler) (input : Bytes) : Checked (Assembler × Taken) := do
  let buffer := a.progress.buffer
  let length := Bytes.toNat24 (← byteAt buffer 0) (← byteAt buffer 1) (← byteAt buffer 2)
  if a.limit < length then
    return (a.reset, .fault (.tooLarge length a.limit) input)
  else
    let totalSize ← add wordLimit frameHeaderSize length
    readPayload { a with progress := { a.progress with phase := .readingPayload, totalSize } } input

/-- Gathers header bytes. -/
def readHeader (a : Assembler) (input : Bytes) : Checked (Assembler × Taken) := do
  let (held, rest) ← fill a.progress frameHeaderSize input
  if held.buffer.length < frameHeaderSize then
    return ({ a with progress := held }, .hungry)
  else
    checkLength { a with progress := { held with phase := .headerComplete } } rest

/-- Takes bytes until one frame is complete or refused. -/
def next (a : Assembler) (input : Bytes) : Checked (Assembler × Taken) :=
  match a.progress.phase with
  | .awaitingFrame =>
    if input.isEmpty then return (a, .hungry)
    else readHeader { a with progress := { phase := .readingHeader } } input
  | .readingHeader => readHeader a input
  | .headerComplete => checkLength a input
  | .readingPayload => readPayload a input

/-- What is taken is never more than there is. -/
theorem fill_eq (p : Progress) (target : Nat) (input : Bytes) :
    fill p target input = pure (p.fill target input, p.unread target input) := by
  have inside : min (p.wanted target) input.length ≤ input.length := Nat.min_le_right _ _
  have left : input.drop (min (p.wanted target) input.length) = input.drop (p.wanted target) := by
    rcases Nat.le_total (p.wanted target) input.length with some | all
    · rw [Nat.min_eq_left some]
    · rw [Nat.min_eq_right all, List.drop_length, List.drop_eq_nil_of_le all]
  simp only [fill, slice_eq (Nat.zero_le _) inside, sliceFrom_eq inside, pure_bind, List.drop_zero,
    ← List.take_eq_take_min, left]
  rfl

/-- Within a payload, no slice, sum or difference traps, and the checked call is the plain one. -/
theorem readPayload_eq {a : Assembler} (header : frameHeaderSize ≤ a.progress.buffer.length)
    (total : a.progress.totalSize = frameHeaderSize + Frame.declaredLength a.progress.buffer)
    (room : a.progress.buffer.length ≤ a.progress.totalSize) (input : Bytes) :
    readPayload a input = pure (Taken.spelled (a.readPayload input)) := by
  obtain ⟨filled, -⟩ := Progress.fill_eq_take room input
  have size : (a.progress.fill a.progress.totalSize input).totalSize = a.progress.totalSize := rfl
  simp only [readPayload, Assembler.readPayload, fill_eq, pure_bind, size]
  by_cases short : (a.progress.fill a.progress.totalSize input).buffer.length < a.progress.totalSize
  · rw [if_pos short, if_pos short]
    rfl
  · rw [if_neg short, if_neg short, ensure_eq (by omega), pure_bind]
    -- what is held has exactly the size that its header announces
    have whole : (a.progress.fill a.progress.totalSize input).buffer.length =
        frameHeaderSize +
          Frame.declaredLength (a.progress.fill a.progress.totalSize input).buffer := by
      rw [filled, Frame.declaredLength_take (by omega), Frame.declaredLength_append header, ← total]
      rw [filled, List.length_take] at short
      rw [List.length_take]
      omega
    simp only [Taken.spelled, Frame.toBytes_ofRegion whole]

/-- At a complete header, no slice or sum traps, and the checked call is the plain one. -/
theorem checkLength_eq {a : Assembler} (header : a.progress.buffer.length = frameHeaderSize)
    (input : Bytes) : checkLength a input = pure (Taken.spelled (a.checkLength input)) := by
  have early {position : Nat} (early : position < 9) : byteAt a.progress.buffer position =
      pure (a.progress.buffer.getD position 0) :=
    byteAt_eq (by rw [header]; exact early)
  have fits : frameHeaderSize + Frame.declaredLength a.progress.buffer < wordLimit := by
    have bound := Bytes.toNat24_lt (a.progress.buffer.getD 0 0) (a.progress.buffer.getD 1 0)
      (a.progress.buffer.getD 2 0)
    simp only [frameHeaderSize, Frame.declaredLength, wordLimit]
    omega
  simp only [checkLength, Assembler.checkLength, early, Nat.reduceLT, pure_bind]
  rw [← Frame.declaredLength]
  by_cases large : a.limit < Frame.declaredLength a.progress.buffer
  · rw [if_pos large, if_pos large]
    rfl
  · rw [if_neg large, if_neg large, add_eq fits, pure_bind]
    let total := frameHeaderSize + Frame.declaredLength a.progress.buffer
    let accepted : Assembler :=
      { a with progress := { a.progress with phase := .readingPayload, totalSize := total } }
    exact readPayload_eq (a := accepted) (Nat.le_of_eq header.symm) rfl
      (Nat.le_add_right_of_le (Nat.le_of_eq header)) input

/-- Within a header, no slice or difference traps, and the checked call is the plain one. -/
theorem readHeader_eq {a : Assembler} (header : a.progress.buffer.length < frameHeaderSize)
    (input : Bytes) : readHeader a input = pure (Taken.spelled (a.readHeader input)) := by
  obtain ⟨filled, -⟩ := Progress.fill_eq_take (Nat.le_of_lt header) input
  simp only [readHeader, Assembler.readHeader, fill_eq, pure_bind]
  by_cases short : (a.progress.fill frameHeaderSize input).buffer.length < frameHeaderSize
  · rw [if_pos short, if_pos short]
    rfl
  · rw [if_neg short, if_neg short]
    refine checkLength_eq ?_ _
    rw [filled, List.length_take] at short
    simp only [filled, List.length_take]
    omega

/-- A call on a settled assembler is not cut short. -/
theorem next_eq {a : Assembler} (settled : a.Settled) (input : Bytes) :
    next a input = pure (Taken.spelled (a.next input)) := by
  cases phase : a.progress.phase with
  | awaitingFrame =>
    simp only [next, Assembler.next, phase]
    split
    · rfl
    · exact readHeader_eq (by simp [frameHeaderSize]) input
  | readingHeader =>
    simp only [Assembler.Settled, phase] at settled
    rw [Assembler.next_of_readingHeader a phase]
    simp only [next, phase]
    exact readHeader_eq settled.2.1 input
  | headerComplete => simp only [Assembler.Settled, phase] at settled
  | readingPayload =>
    simp only [Assembler.Settled, phase] at settled
    obtain ⟨header, -, total, short⟩ := settled
    rw [Assembler.next_of_readingPayload a phase]
    simp only [next, phase]
    exact readPayload_eq header total (Nat.le_of_lt short) input

end Http2.Checked
