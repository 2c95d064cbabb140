import Http2.Proofs.Assembler

/-!
# The loop of a call

A call of an assembler goes round a loop over the four phases. `Assembler.turn` is one turn of it, and
`Assembler.Loops` the loop, without a bound on its turns and with the input that is left kept in hand. A
turn that goes on comes nearer to the last phase, so the loop ends in every state (`exists_loops`), and it
ends with what `Assembler.next` gives (`Loops.returned_eq`). That a call which gives out a frame or a
fault takes a byte needs more: the bytes held between calls are never enough for either
(`Settled.held_lt`).
-/

namespace Http2

namespace Progress

/-- Filling that falls short of its target has used up the input. -/
theorem unread_of_short {p : Progress} {target : Nat} {input : Bytes}
    (short : (p.fill target input).buffer.length < target) : p.unread target input = [] := by
  apply List.drop_of_length_le
  simp only [fill, wanted, List.length_append, List.length_take] at short ⊢
  omega

/-- How many turns of the loop are left at most. -/
def Phase.ahead : Phase → Nat
  | .awaitingFrame => 4
  | .readingHeader => 3
  | .headerComplete => 2
  | .readingPayload => 1

end Progress

namespace Assembler

/-! ## Turns -/

/-- How a call ends. -/
structure Return where
  after : Assembler
  /-- A frame, nothing, or a fault. -/
  result : Except FrameError (Option Frame)
  /-- The input that is not taken. -/
  rest : Bytes

/-- What a turn of the loop comes to. -/
inductive Turn where
  /-- The loop goes on with the input that is left. -/
  | on (a : Assembler) (rest : Bytes)
  /-- The call ends. -/
  | stop (ended : Return)

/-- One turn of the loop: what there is to do in the present phase. -/
def turn (a : Assembler) (input : Bytes) : Turn :=
  match a.progress.phase with
  | .awaitingFrame =>
    if input.isEmpty then .stop { after := a, result := .ok none, rest := input }
    else .on { a with progress := { phase := .readingHeader } } input
  | .readingHeader =>
    let held := a.progress.fill frameHeaderSize input
    let rest := a.progress.unread frameHeaderSize input
    if held.buffer.length < frameHeaderSize then
      .stop { after := { a with progress := held }, result := .ok none, rest }
    else .on { a with progress := { held with phase := .headerComplete } } rest
  | .headerComplete =>
    let length := Frame.declaredLength a.progress.buffer
    if a.limit < length then
      .stop { after := a.reset, result := .error (.tooLarge length a.limit), rest := input }
    else
      let totalSize := frameHeaderSize + length
      .on { a with progress := { a.progress with phase := .readingPayload, totalSize } } input
  | .readingPayload =>
    let held := a.progress.fill a.progress.totalSize input
    let rest := a.progress.unread a.progress.totalSize input
    if held.buffer.length < held.totalSize then
      .stop { after := { a with progress := held }, result := .ok none, rest }
    else
      .stop {
        after := { a with progress := { held with phase := .awaitingFrame, buffer := [] } }
        result := .ok (some (Frame.ofRegion held.buffer))
        rest }

/-- What a call returns by its outcome; a hungry one leaves nothing. -/
def returned : Assembler × Next → Return
  | (a, .hungry) => { after := a, result := .ok none, rest := [] }
  | (a, .frame frame rest) => { after := a, result := .ok (some frame), rest }
  | (a, .fault fault rest) => { after := a, result := .error fault, rest }

variable {a : Assembler} {input : Bytes} {ended : Return}

/-- What a turn is to a call: it goes on with the same call and nearer to its end, or it ends the call. -/
inductive Turned (a : Assembler) (input : Bytes) : Turn → Prop where
  | on {a' : Assembler} {rest : Bytes} (same : a.next input = a'.next rest)
      (nearer : a'.progress.phase.ahead < a.progress.phase.ahead) : Turned a input (.on a' rest)
  | stop {ended : Return} (same : returned (a.next input) = ended) : Turned a input (.stop ended)

/-- The turn of each phase brings the call nearer to its end and keeps what the call will return. -/
theorem turned (a : Assembler) (input : Bytes) : a.Turned input (a.turn input) := by
  cases phase : a.progress.phase with
  | awaitingFrame =>
    simp only [turn, phase]
    split
    · rename_i empty
      apply Turned.stop
      simp only [next, phase, if_pos empty, returned]
      rw [List.isEmpty_iff.mp empty]
    · rename_i more
      apply Turned.on
      · simp only [next, phase, if_neg more]
      · simp only [Progress.Phase.ahead, phase, Nat.reduceLT]
  | readingHeader =>
    simp only [turn, phase]
    split
    · rename_i short
      apply Turned.stop
      simp only [next, phase, readHeader, if_pos short, returned, Progress.unread_of_short short]
    · rename_i whole
      apply Turned.on
      · simp only [next, phase, readHeader, if_neg whole]
      · simp only [Progress.Phase.ahead, phase, Nat.reduceLT]
  | headerComplete =>
    simp only [turn, phase]
    split
    · rename_i large
      apply Turned.stop
      simp only [next, phase, checkLength, if_pos large, returned]
    · rename_i fits
      apply Turned.on
      · simp only [next, phase, checkLength, if_neg fits]
      · simp only [Progress.Phase.ahead, phase, Nat.reduceLT]
  | readingPayload =>
    simp only [turn, phase]
    split
    · rename_i short
      apply Turned.stop
      simp only [next, phase, readPayload, if_pos short, returned, Progress.unread_of_short short]
    · rename_i whole
      apply Turned.stop
      simp only [next, phase, readPayload, if_neg whole, returned]

/-! ## The loop -/

/-- The loop ends after so many turns. -/
inductive Loops : Assembler → Bytes → Nat → Return → Prop where
  | stop {a : Assembler} {input : Bytes} {ended : Return} (stops : a.turn input = .stop ended) :
      Loops a input 1 ended
  | on {a a' : Assembler} {input rest : Bytes} {turns : Nat} {ended : Return}
      (goes : a.turn input = .on a' rest) (later : Loops a' rest turns ended) :
      Loops a input (turns + 1) ended

/-- However the turns are counted, the loop ends with what the call returns. -/
theorem Loops.returned_eq {turns : Nat} (loops : a.Loops input turns ended) :
    returned (a.next input) = ended := by
  induction loops with
  | @stop a input _ stops =>
    cases stops ▸ a.turned input with
    | stop same => exact same
  | @on a _ input _ _ _ goes _ ih =>
    cases goes ▸ a.turned input with
    | on same _ => rwa [same]

/-- The loop ends in every state, settled or not. -/
theorem exists_loops (a : Assembler) (input : Bytes) :
    ∃ turns ≤ a.progress.phase.ahead, a.Loops input turns (returned (a.next input)) := by
  have turned := a.turned input
  generalize outcome : a.turn input = turn at turned
  cases turned with
  | stop same =>
    have one : 1 ≤ a.progress.phase.ahead := by
      cases a.progress.phase <;> decide
    rw [same]
    exact ⟨1, one, .stop outcome⟩
  | @on a' rest same nearer =>
    obtain ⟨turns, few, later⟩ := exists_loops a' rest
    rw [same]
    exact ⟨turns + 1, by omega, .on outcome later⟩
termination_by a.progress.phase.ahead

/-! ## What a call takes -/

/-- A call that leaves what comes after more bytes than are held has taken some of its input. -/
theorem exists_taken {held all : Bytes} {count : Nat} (spell : held ++ input = all)
    (more : held.length < count) (enough : count ≤ all.length) :
    ∃ taken, taken ≠ [] ∧ taken ++ all.drop count = input := by
  subst spell
  refine ⟨input.take (count - held.length), ?_, ?_⟩
  · rw [List.length_append] at enough
    apply List.ne_nil_of_length_pos
    rw [List.length_take]
    omega
  · rw [List.drop_append, List.drop_of_length_le (Nat.le_of_lt more), List.nil_append,
      List.take_append_drop]

/-- Nothing is left by a call that returns nothing, and a call that returns something takes some of its
input. -/
theorem Settled.takes (settled : a.Settled) (input : Bytes) :
    let ended := returned (a.next input)
    (ended.result = .ok none → ended.rest = []) ∧
      (ended.result ≠ .ok none → ∃ taken, taken ≠ [] ∧ taken ++ ended.rest = input) := by
  have reads := next_reads settled input
  have held := settled.held_lt input
  generalize spell : a.progress.buffer ++ input = all at reads held
  generalize a.next input = outcome at reads
  cases reads with
  | hungry => exact ⟨fun _ => rfl, fun returns => absurd rfl returns⟩
  | refused whole large =>
    refine ⟨fun nothing => ?_, fun _ => exists_taken spell (held.2 large) whole⟩
    cases nothing
  | complete fits whole =>
    refine ⟨fun nothing => ?_, fun _ => exists_taken spell held.1 whole⟩
    cases nothing

/-! ## Between calls -/

/-- What is done with an assembler. -/
inductive Use where
  | next (input : Bytes)
  | reset

/-- The assembler after a use, whatever its outcome. -/
def after (a : Assembler) : Use → Assembler
  | .next input => (a.next input).1
  | .reset => a.reset

/-- The assembler after some uses. -/
def afterUses (a : Assembler) (uses : List Use) : Assembler :=
  uses.foldl after a

/-- Neither a call nor a reset leaves the buffer and the counters apart, and the limit is never touched.
-/
theorem settled_after (settled : a.Settled) (use : Use) :
    (a.after use).Settled ∧ (a.after use).limit = a.limit := by
  cases use with
  | next input => exact settled_next settled input
  | reset => exact ⟨rfl, rfl⟩

/-- The buffer and the counters agree after any calls and resets, in any order. -/
theorem settled_afterUses (settled : a.Settled) (uses : List Use) :
    (a.afterUses uses).Settled ∧ (a.afterUses uses).limit = a.limit := by
  induction uses generalizing a with
  | nil => exact ⟨settled, rfl⟩
  | cons use uses ih =>
    obtain ⟨settled, same⟩ := settled_after settled use
    obtain ⟨later, kept⟩ := ih settled
    exact ⟨later, kept.trans same⟩

/-- What the phase of an assembler between calls says about the bytes that it holds. -/
structure InOrder (a : Assembler) : Prop where
  awaiting : a.progress.phase = .awaitingFrame ↔ a.progress.heldSize = 0
  reading : a.progress.phase = .readingHeader →
    1 ≤ a.progress.heldSize ∧ a.progress.heldSize ≤ 8
  checked : a.progress.phase ≠ .headerComplete
  accepted : a.progress.phase = .readingPayload →
    ∃ h, FrameHeader.parse? a.progress.buffer = some h ∧ h.length ≤ a.limit ∧
      a.progress.totalSize = 9 + h.length ∧ 9 ≤ a.progress.heldSize ∧
      a.progress.heldSize < a.progress.totalSize
  bounded : a.progress.heldSize ≤ 9 + a.limit - 1

/-- A header that is there declares what its first bytes spell. -/
theorem exists_parse? {bytes : Bytes} (whole : frameHeaderSize ≤ bytes.length) :
    ∃ h, FrameHeader.parse? bytes = some h ∧ h.length = Frame.declaredLength bytes := by
  obtain ⟨_, _, _, _, _, _, _, _, _, _, rfl⟩ := Bytes.exists_header whole
  exact ⟨_, rfl, rfl⟩

/-- A settled assembler counts within the frame that it is reading. -/
theorem Settled.inOrder (settled : a.Settled) : a.InOrder := by
  cases phase : a.progress.phase with
  | awaitingFrame =>
    have empty : a.progress.buffer = [] := by simpa only [Settled, phase] using settled
    have none : a.progress.heldSize = 0 := by rw [Progress.heldSize, empty, List.length_nil]
    constructor <;> simp [phase, none]
  | readingHeader =>
    simp only [Settled, phase, frameHeaderSize] at settled
    have some := List.length_pos_iff.mpr settled.1
    have few : a.progress.heldSize < 9 := settled.2.1
    have held : 0 < a.progress.heldSize := some
    constructor <;> simp [phase] <;> omega
  | headerComplete => simp only [Settled, phase] at settled
  | readingPayload =>
    simp only [Settled, phase] at settled
    obtain ⟨whole, fits, total, short⟩ := settled
    obtain ⟨h, parsed, length⟩ := exists_parse? whole
    rw [← length] at fits total
    have held : 9 ≤ a.progress.heldSize := whole
    have below : a.progress.heldSize < a.progress.totalSize := short
    simp only [frameHeaderSize] at total
    constructor
    case accepted => exact fun _ => ⟨h, parsed, fits, total, held, below⟩
    all_goals simp [phase] <;> omega

end Assembler

end Http2
