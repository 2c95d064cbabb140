import Http2.Assembler
import Http2.Proofs.Frame.Region

/-!
# Assembling does not see how its input is cut

`Assembler.next_append` says that more input behind the input of a call changes nothing but what is
left unread, and that a hungry call followed by another is one call. `Settled` is what holds of an
assembler between calls. There the outcome depends on the bytes held and the input only through what
they spell together (`next_reads`), so that `next_frame` and `next_hungry` can read a frame of a known
byte stream off a settled assembler.
-/

namespace Http2

namespace Progress

/-- Filling in two goes is filling in one. -/
theorem fill_append {p : Progress} {target : Nat} {input : Bytes}
    (short : (p.fill target input).buffer.length < target) (more : Bytes) :
    (p.fill target input).fill target more = p.fill target (input ++ more) ∧
      (p.fill target input).unread target more = p.unread target (input ++ more) := by
  have all : input.length ≤ p.wanted target := by
    simp only [fill, wanted, List.length_append, List.length_take] at short ⊢
    omega
  have left : target - (p.buffer.length + input.length) = p.wanted target - input.length := by
    simp only [wanted]
    omega
  constructor
  · simp [fill, wanted, List.take_append,
      List.take_of_length_le (show input.length ≤ target - p.buffer.length from all), left]
  · simp [fill, unread, wanted, List.drop_append, List.take_of_length_le
      (show input.length ≤ target - p.buffer.length from all), left,
      List.drop_of_length_le (show input.length ≤ target - p.buffer.length from all)]

/-- Filling up to the target takes nothing of what follows. -/
theorem fill_append_of_full {p : Progress} {target : Nat} {input : Bytes}
    (full : ¬ (p.fill target input).buffer.length < target) (more : Bytes) :
    p.fill target (input ++ more) = p.fill target input ∧
      p.unread target (input ++ more) = p.unread target input ++ more := by
  have enough : p.wanted target ≤ input.length := by
    simp only [fill, wanted, List.length_append, List.length_take] at full ⊢
    omega
  constructor
  · simp only [fill, List.take_append_of_le_length enough]
  · simp only [unread, List.drop_append_of_le_length enough]

/-- What filling makes of the bytes held and the input, seen as one byte string. -/
theorem fill_eq_take {p : Progress} {target : Nat} (room : p.buffer.length ≤ target)
    (input : Bytes) :
    (p.fill target input).buffer = (p.buffer ++ input).take target ∧
      p.unread target input = (p.buffer ++ input).drop target := by
  simp [fill, unread, wanted, List.take_append, List.drop_append, List.take_of_length_le room,
    List.drop_of_length_le room]

end Progress

namespace Assembler

/-! ## More input behind a call -/

/-- Goes on with more input after a call. -/
def resume (more : Bytes) : Assembler × Next → Assembler × Next
  | (a, .hungry) => a.next more
  | (a, .frame frame rest) => (a, .frame frame (rest ++ more))
  | (a, .fault fault rest) => (a, .fault fault (rest ++ more))

theorem next_of_readingHeader (a : Assembler) (phase : a.progress.phase = .readingHeader)
    (input : Bytes) : a.next input = a.readHeader input := by
  simp only [next, phase]

theorem next_of_readingPayload (a : Assembler) (phase : a.progress.phase = .readingPayload)
    (input : Bytes) : a.next input = a.readPayload input := by
  simp only [next, phase]

/-- Within a payload, more input only lengthens what is left over, or is taken in by a hungry assembler.
-/
theorem readPayload_append {a : Assembler} (phase : a.progress.phase = .readingPayload)
    (input more : Bytes) : a.readPayload (input ++ more) = resume more (a.readPayload input) := by
  by_cases short : (a.progress.fill a.progress.totalSize input).buffer.length < a.progress.totalSize
  · obtain ⟨filled, unread⟩ := Progress.fill_append short more
    have hungry : a.readPayload input =
        ({ a with progress := a.progress.fill a.progress.totalSize input }, .hungry) :=
      if_pos short
    have going : Assembler.next { a with progress := a.progress.fill a.progress.totalSize input } more
        = readPayload { a with progress := a.progress.fill a.progress.totalSize input } more :=
      next_of_readingPayload _ (by exact phase) more
    rw [hungry, resume, going]
    simp only [readPayload]
    rw [← filled, ← unread]
    rfl
  · obtain ⟨filled, unread⟩ := Progress.fill_append_of_full short more
    have complete : ¬ (a.progress.fill a.progress.totalSize input).buffer.length
        < (a.progress.fill a.progress.totalSize input).totalSize := short
    simp only [readPayload]
    rw [filled, unread, if_neg complete, if_neg complete]
    rfl

/-- Once a header is complete, more input only lengthens what is left over. -/
theorem checkLength_append (a : Assembler) (input more : Bytes) :
    a.checkLength (input ++ more) = resume more (a.checkLength input) := by
  by_cases large : a.limit < Frame.declaredLength a.progress.buffer
  · simp only [checkLength]
    rw [if_pos large, if_pos large]
    rfl
  · simp only [checkLength]
    rw [if_neg large, if_neg large]
    exact readPayload_append rfl input more

/-- Within a header, more input only lengthens what is left over, or is taken in by a hungry assembler. -/
theorem readHeader_append {a : Assembler} (phase : a.progress.phase = .readingHeader)
    (input more : Bytes) : a.readHeader (input ++ more) = resume more (a.readHeader input) := by
  by_cases short : (a.progress.fill frameHeaderSize input).buffer.length < frameHeaderSize
  · obtain ⟨filled, unread⟩ := Progress.fill_append short more
    have hungry : a.readHeader input =
        ({ a with progress := a.progress.fill frameHeaderSize input }, .hungry) :=
      if_pos short
    have going : Assembler.next { a with progress := a.progress.fill frameHeaderSize input } more
        = readHeader { a with progress := a.progress.fill frameHeaderSize input } more :=
      next_of_readingHeader _ (by exact phase) more
    rw [hungry, resume, going]
    simp only [readHeader]
    rw [← filled, ← unread]
  · obtain ⟨filled, unread⟩ := Progress.fill_append_of_full short more
    simp only [readHeader]
    rw [filled, unread, if_neg short, if_neg short]
    exact checkLength_append _ _ more

/-- More input behind a call changes nothing but what is left unread, and a hungry call followed by
another is one call. -/
theorem next_append (a : Assembler) (input more : Bytes) :
    a.next (input ++ more) = resume more (a.next input) := by
  cases phase : a.progress.phase with
  | awaitingFrame =>
    cases input with
    | nil => simp [next, phase, resume]
    | cons byte rest =>
      simp only [next, phase, List.cons_append, List.isEmpty_cons, Bool.false_eq_true, if_false]
      exact readHeader_append rfl (byte :: rest) more
  | readingHeader =>
    rw [next_of_readingHeader a phase, next_of_readingHeader a phase]
    exact readHeader_append phase input more
  | headerComplete =>
    simp only [next, phase]
    exact checkLength_append a input more
  | readingPayload =>
    rw [next_of_readingPayload a phase, next_of_readingPayload a phase]
    exact readPayload_append phase input more

/-! ## Between calls -/

/-- What holds of an assembler between calls. -/
def Settled (a : Assembler) : Prop :=
  match a.progress.phase with
  | .awaitingFrame => a.progress.buffer = []
  | .readingHeader =>
    a.progress.buffer ≠ [] ∧ a.progress.buffer.length < frameHeaderSize ∧ a.progress.totalSize = 0
  | .headerComplete => False
  | .readingPayload =>
    frameHeaderSize ≤ a.progress.buffer.length ∧
      Frame.declaredLength a.progress.buffer ≤ a.limit ∧
      a.progress.totalSize = frameHeaderSize + Frame.declaredLength a.progress.buffer ∧
      a.progress.buffer.length < a.progress.totalSize

/-- What a call makes of the bytes held before it and its input, which spell `all` together. -/
inductive Reads (limit : Nat) (all : Bytes) : Assembler × Next → Prop where
  /-- All bytes are held. -/
  | hungry {a : Assembler} (same : a.limit = limit) (settled : a.Settled)
      (held : a.progress.buffer = all) : Reads limit all (a, .hungry)
  /-- The header is taken and refused. -/
  | refused (whole : frameHeaderSize ≤ all.length) (large : limit < Frame.declaredLength all) :
      Reads limit all
        ({ limit }, .fault (.tooLarge (Frame.declaredLength all) limit) (all.drop frameHeaderSize))
  /-- One frame is taken. -/
  | complete (fits : Frame.declaredLength all ≤ limit)
      (whole : frameHeaderSize + Frame.declaredLength all ≤ all.length) :
      Reads limit all
        ({ limit, progress := { totalSize := frameHeaderSize + Frame.declaredLength all } },
          .frame (Frame.ofRegion (all.take (frameHeaderSize + Frame.declaredLength all)))
            (all.drop (frameHeaderSize + Frame.declaredLength all)))

/-- From a complete header on, what is read is the payload of the declared length, out of buffer and
input. -/
theorem readPayload_reads {a : Assembler} (phase : a.progress.phase = .readingPayload)
    (header : frameHeaderSize ≤ a.progress.buffer.length)
    (fits : Frame.declaredLength a.progress.buffer ≤ a.limit)
    (total : a.progress.totalSize = frameHeaderSize + Frame.declaredLength a.progress.buffer)
    (room : a.progress.buffer.length ≤ a.progress.totalSize) (input : Bytes) :
    Reads a.limit (a.progress.buffer ++ input) (a.readPayload input) := by
  obtain ⟨filled, unread⟩ := Progress.fill_eq_take room input
  have declared := Frame.declaredLength_append header input
  rw [← declared] at fits total
  have size : (a.progress.fill a.progress.totalSize input).totalSize = a.progress.totalSize := rfl
  simp only [readPayload]
  rw [filled, unread, size, List.length_take]
  by_cases short : (a.progress.buffer ++ input).length < a.progress.totalSize
  · rw [if_pos (by omega)]
    have kept : (a.progress.fill a.progress.totalSize input).buffer = a.progress.buffer ++ input := by
      rw [filled, List.take_of_length_le (by omega)]
    have samePhase : (a.progress.fill a.progress.totalSize input).phase = .readingPayload := phase
    refine .hungry rfl ?_ kept
    simp only [Settled, samePhase, kept, size]
    refine ⟨?_, fits, total, short⟩
    rw [List.length_append]
    omega
  · rw [if_neg (by omega), total]
    exact .complete fits (by omega)

/-- A complete header is read as the reference parser reads it: a length above the limit is a fault. -/
theorem checkLength_reads {a : Assembler} (header : a.progress.buffer.length = frameHeaderSize)
    (input : Bytes) : Reads a.limit (a.progress.buffer ++ input) (a.checkLength input) := by
  have whole : frameHeaderSize ≤ a.progress.buffer.length := Nat.le_of_eq header.symm
  have declared := Frame.declaredLength_append whole input
  simp only [checkLength]
  by_cases large : a.limit < Frame.declaredLength a.progress.buffer
  · rw [if_pos large, ← declared]
    have rest : input = (a.progress.buffer ++ input).drop frameHeaderSize := by
      rw [← header, List.drop_left]
    have long : frameHeaderSize ≤ (a.progress.buffer ++ input).length := by
      rw [List.length_append]
      omega
    have refused := Reads.refused long (by rwa [declared])
    rwa [← rest] at refused
  · rw [if_neg large]
    let total := frameHeaderSize + Frame.declaredLength a.progress.buffer
    let accepted : Assembler :=
      { a with progress := { a.progress with phase := .readingPayload, totalSize := total } }
    exact readPayload_reads (a := accepted) rfl whole (Nat.le_of_not_lt large) rfl
      (Nat.le_add_right_of_le (Nat.le_of_eq header)) input

/-- From within a header, or before it, what is read is what the reference parser reads off buffer and
input. -/
theorem readHeader_reads {a : Assembler} (phase : a.progress.phase = .readingHeader)
    (header : a.progress.buffer.length < frameHeaderSize) (total : a.progress.totalSize = 0)
    (some : a.progress.buffer ++ input ≠ []) :
    Reads a.limit (a.progress.buffer ++ input) (a.readHeader input) := by
  obtain ⟨filled, unread⟩ := Progress.fill_eq_take (Nat.le_of_lt header) input
  simp only [readHeader]
  rw [filled, unread, List.length_take]
  by_cases short : (a.progress.buffer ++ input).length < frameHeaderSize
  · rw [if_pos (by omega)]
    have kept : (a.progress.fill frameHeaderSize input).buffer = a.progress.buffer ++ input := by
      rw [filled, List.take_of_length_le (by omega)]
    have samePhase : (a.progress.fill frameHeaderSize input).phase = .readingHeader := phase
    refine .hungry rfl ?_ kept
    simp only [Settled, samePhase, kept]
    exact ⟨some, short, total⟩
  · rw [if_neg (by omega)]
    have checked := checkLength_reads
      (a := { a with progress :=
        { a.progress.fill frameHeaderSize input with phase := .headerComplete } })
      (by simp only [filled, List.length_take]; omega)
      ((a.progress.buffer ++ input).drop frameHeaderSize)
    simpa only [filled, List.take_append_drop] using checked

/-- A call on a settled assembler depends on the bytes held and its input only through what they
spell together. -/
theorem next_reads {a : Assembler} (settled : a.Settled) (input : Bytes) :
    Reads a.limit (a.progress.buffer ++ input) (a.next input) := by
  cases phase : a.progress.phase with
  | awaitingFrame =>
    have empty : a.progress.buffer = [] := by simpa only [Settled, phase] using settled
    by_cases none : input = []
    · subst none
      simp only [next, phase, List.isEmpty_nil, if_true]
      exact .hungry rfl settled (List.append_nil _).symm
    · simp only [next, phase, List.isEmpty_iff, none, if_false, empty, List.nil_append]
      exact readHeader_reads (a := { a with progress := { phase := .readingHeader } }) rfl
        (by simp [frameHeaderSize]) rfl (by simpa using none)
  | readingHeader =>
    simp only [Settled, phase] at settled
    rw [next_of_readingHeader a phase]
    exact readHeader_reads phase settled.2.1 settled.2.2
      (List.append_ne_nil_of_left_ne_nil settled.1 input)
  | headerComplete => simp only [Settled, phase] at settled
  | readingPayload =>
    simp only [Settled, phase] at settled
    obtain ⟨header, fits, total, short⟩ := settled
    rw [next_of_readingPayload a phase]
    exact readPayload_reads phase header fits total (Nat.le_of_lt short) input

/-- An assembler is settled between calls, whatever the outcome, and its limit stays. -/
theorem settled_next {a : Assembler} (settled : a.Settled) (input : Bytes) :
    (a.next input).1.Settled ∧ (a.next input).1.limit = a.limit := by
  have reads := next_reads settled input
  generalize a.next input = outcome at reads
  cases reads with
  | hungry same settled held => exact ⟨settled, same⟩
  | refused whole large => exact ⟨rfl, rfl⟩
  | complete fits whole => exact ⟨rfl, rfl⟩

/-- A call without input changes nothing. -/
theorem next_nil {a : Assembler} (settled : a.Settled) : a.next [] = (a, .hungry) := by
  have unfilled (target : Nat) : a.progress.fill target [] = a.progress := by
    simp [Progress.fill]
  cases phase : a.progress.phase with
  | awaitingFrame => simp [next, phase]
  | readingHeader =>
    simp only [Settled, phase] at settled
    rw [next_of_readingHeader a phase]
    simp only [readHeader]
    rw [unfilled, if_pos settled.2.1]
  | headerComplete => simp only [Settled, phase] at settled
  | readingPayload =>
    simp only [Settled, phase] at settled
    rw [next_of_readingPayload a phase]
    simp only [readPayload]
    rw [unfilled, if_pos settled.2.2.2]

/-- An assembler that has just completed a frame. -/
def emptied (a : Assembler) (f : Frame) : Assembler :=
  { limit := a.limit, progress := { totalSize := frameHeaderSize + f.length } }

theorem settled_emptied (a : Assembler) (f : Frame) : (a.emptied f).Settled := rfl

/-- An assembler that holds a whole header between calls has accepted it and waits for payload. -/
theorem Settled.waits {a : Assembler} (settled : a.Settled)
    (whole : frameHeaderSize ≤ a.progress.buffer.length) :
    Frame.declaredLength a.progress.buffer ≤ a.limit ∧
      a.progress.buffer.length < frameHeaderSize + Frame.declaredLength a.progress.buffer := by
  unfold Settled at settled
  split at settled
  · simp [settled, frameHeaderSize] at whole
  · omega
  · exact settled.elim
  · obtain ⟨-, fits, total, short⟩ := settled
    exact ⟨fits, by omega⟩

/-- The bytes held between calls are less than a frame, and less than a header if that is refused. -/
theorem Settled.held_lt {a : Assembler} (settled : a.Settled) (input : Bytes) :
    let declared := Frame.declaredLength (a.progress.buffer ++ input)
    a.progress.buffer.length < frameHeaderSize + declared ∧
      (a.limit < declared → a.progress.buffer.length < frameHeaderSize) := by
  by_cases whole : frameHeaderSize ≤ a.progress.buffer.length
  · have waits := settled.waits whole
    rw [Frame.declaredLength_append whole]
    omega
  · omega

/-- A frame that the bytes held and the input spell is taken, and nothing behind it. -/
theorem next_frame {a : Assembler} {f : Frame} {input rest : Bytes} (settled : a.Settled)
    (fits : f.length ≤ a.limit) (small : a.limit ≤ maxFrameLength)
    (spelled : a.progress.buffer ++ input = f.toBytes ++ rest) :
    a.next input = (a.emptied f, .frame f rest) := by
  have reads := next_reads settled input
  have declared := Frame.declaredLength_toBytes (Nat.le_trans fits small) rest
  have size : frameHeaderSize + f.length = f.toBytes.length := (Frame.length_toBytes f).symm
  rw [spelled] at reads
  generalize a.next input = outcome at reads
  cases reads with
  | @hungry a' same settled held =>
    have bytes : a'.progress.buffer.length = f.toBytes.length + rest.length := by
      rw [held, List.length_append]
    have waits := settled.waits (by omega)
    rw [held, declared, ← held] at waits
    omega
  | refused whole large =>
    rw [declared] at large
    exact absurd fits (Nat.not_le_of_lt large)
  | complete _ whole =>
    rw [declared, emptied, size, List.take_left, List.drop_left, Frame.ofRegion_toBytes]

/-- A frame that is taken is spelled by the bytes held and the input, and it fits. -/
theorem spelled_of_next {a a' : Assembler} {f : Frame} {input rest : Bytes} (settled : a.Settled)
    (taken : a.next input = (a', .frame f rest)) :
    a.progress.buffer ++ input = f.toBytes ++ rest ∧ f.length ≤ a.limit ∧ a' = a.emptied f := by
  have reads := next_reads settled input
  rw [taken] at reads
  generalize a.progress.buffer ++ input = all at reads
  cases reads with
  | complete fits whole =>
    have length := Frame.length_ofRegion_take whole
    refine ⟨?_, ?_, ?_⟩
    · rw [Frame.toBytes_ofRegion_take whole, List.take_append_drop]
    · rwa [length]
    · rw [emptied, length]

/-- A declared length above the limit is refused as soon as the header is there. -/
theorem next_tooLarge {a : Assembler} {input : Bytes} (settled : a.Settled)
    (whole : frameHeaderSize ≤ (a.progress.buffer ++ input).length)
    (large : a.limit < Frame.declaredLength (a.progress.buffer ++ input)) :
    a.next input = ({ limit := a.limit },
      .fault (.tooLarge (Frame.declaredLength (a.progress.buffer ++ input)) a.limit)
        ((a.progress.buffer ++ input).drop frameHeaderSize)) := by
  have reads := next_reads settled input
  generalize a.next input = outcome at reads
  cases reads with
  | @hungry a' same settled held =>
    rw [← held] at whole large
    have waits := settled.waits whole
    omega
  | refused => rfl
  | complete fits => omega

/-- Nothing else is refused. -/
theorem tooLarge_of_next {a a' : Assembler} {fault : FrameError} {input rest : Bytes}
    (settled : a.Settled) (taken : a.next input = (a', .fault fault rest)) :
    frameHeaderSize ≤ (a.progress.buffer ++ input).length ∧
      a.limit < Frame.declaredLength (a.progress.buffer ++ input) ∧
      fault = .tooLarge (Frame.declaredLength (a.progress.buffer ++ input)) a.limit := by
  have reads := next_reads settled input
  rw [taken] at reads
  cases reads with
  | refused whole large => exact ⟨whole, large, rfl⟩

/-- A frame that is too large is refused. -/
theorem next_refused {a : Assembler} {f : Frame} {input rest : Bytes} (settled : a.Settled)
    (large : a.limit < f.length) (wire : f.length ≤ maxFrameLength)
    (spelled : a.progress.buffer ++ input = f.toBytes ++ rest) :
    ∃ a' fault rest', a.next input = (a', .fault fault rest') := by
  have declared := Frame.declaredLength_toBytes wire rest
  rw [← spelled] at declared
  refine ⟨_, _, _, next_tooLarge settled ?_ (by rwa [declared])⟩
  rw [spelled, List.length_append, Frame.length_toBytes]
  omega

/-- Too few bytes for a frame leave the assembler hungry, with all of them held. -/
theorem next_hungry {a : Assembler} {f : Frame} {input more rest : Bytes} (settled : a.Settled)
    (fits : f.length ≤ a.limit) (small : a.limit ≤ maxFrameLength)
    (spelled : a.progress.buffer ++ input ++ more = f.toBytes ++ rest)
    (short : (a.progress.buffer ++ input).length < f.toBytes.length) :
    ∃ a', a.next input = (a', .hungry) ∧ a'.limit = a.limit ∧ a'.Settled ∧
      a'.progress.buffer = a.progress.buffer ++ input := by
  have reads := next_reads settled input
  have declared (whole : frameHeaderSize ≤ (a.progress.buffer ++ input).length) :
      Frame.declaredLength (a.progress.buffer ++ input) = f.length := by
    rw [← Frame.declaredLength_append whole more, spelled,
      Frame.declaredLength_toBytes (Nat.le_trans fits small)]
  rw [Frame.length_toBytes] at short
  generalize a.next input = outcome at reads
  cases reads with
  | hungry same settled held => exact ⟨_, rfl, same, settled, held⟩
  | refused whole large =>
    rw [declared whole] at large
    exact absurd fits (Nat.not_le_of_lt large)
  | complete _ whole =>
    rw [declared (by omega)] at whole
    omega

end Assembler

end Http2
