import Http2.Frame.Basic

/-!
# Assembling frames from a byte stream

Bytes arrive in pieces of any size. `Progress` is what is held of the frame under assembly, and
`Assembler.next` takes bytes until one frame is complete or refused, going on where the last call
stopped. A frame passes through four phases, and a call goes through as many of them as its bytes
allow. The declared length is checked as soon as the ninth header byte is there, before any payload
byte is taken.
-/

namespace Http2

/-- How far the frame under assembly has come. -/
inductive Progress.Phase where
  /-- Nothing held. -/
  | awaitingFrame
  /-- Fewer than nine header bytes held. -/
  | readingHeader
  /-- All header bytes held, the length not yet checked. -/
  | headerComplete
  /-- The length is accepted and payload bytes are gathered. -/
  | readingPayload
  deriving DecidableEq, Repr

/-- What is held of the frame under assembly. -/
structure Progress where
  phase : Progress.Phase := .awaitingFrame
  /-- The bytes of the frame so far, header included. -/
  buffer : Bytes := []
  /-- The size of the whole frame, header included, once its length is accepted. -/
  totalSize : Nat := 0
  deriving DecidableEq, Repr

namespace Progress

/-- The number of bytes held. -/
def heldSize (p : Progress) : Nat :=
  p.buffer.length

/-- The number of bytes that are missing to a target. -/
def wanted (p : Progress) (target : Nat) : Nat :=
  target - p.buffer.length

/-- Takes bytes from the front of the input until `target` bytes are held, and never more. -/
def fill (p : Progress) (target : Nat) (input : Bytes) : Progress :=
  { p with buffer := p.buffer ++ input.take (p.wanted target) }

/-- The input that `fill` leaves. -/
def unread (p : Progress) (target : Nat) (input : Bytes) : Bytes :=
  input.drop (p.wanted target)

end Progress

/-- Assembles the frames of one byte stream. -/
structure Assembler where
  /-- The largest length that a frame may declare. -/
  limit : Nat
  progress : Progress := {}
  deriving DecidableEq, Repr

namespace Assembler

/-- Drops what is held. -/
def reset (a : Assembler) : Assembler :=
  { a with progress := {} }

/-- The outcome of taking bytes until something happens. -/
inductive Next where
  /-- All bytes are taken and no frame is complete. -/
  | hungry
  /-- A frame is complete; the rest of the bytes is not taken. -/
  | frame (frame : Frame) (rest : Bytes)
  /-- A frame is refused; the rest of the bytes is not taken. -/
  | fault (fault : FrameError) (rest : Bytes)
  deriving DecidableEq, Repr

/-- Gathers payload bytes; the frame is complete when it has its total size. -/
def readPayload (a : Assembler) (input : Bytes) : Assembler × Next :=
  let held := a.progress.fill a.progress.totalSize input
  if held.buffer.length < held.totalSize then
    ({ a with progress := held }, .hungry)
  else
    ({ a with progress := { held with phase := .awaitingFrame, buffer := [] } },
      .frame (Frame.ofRegion held.buffer) (a.progress.unread a.progress.totalSize input))

/-- Checks the declared length of a whole header. -/
def checkLength (a : Assembler) (input : Bytes) : Assembler × Next :=
  let length := Frame.declaredLength a.progress.buffer
  if a.limit < length then
    (a.reset, .fault (.tooLarge length a.limit) input)
  else
    readPayload
      { a with progress :=
        { a.progress with phase := .readingPayload, totalSize := frameHeaderSize + length } }
      input

/-- Gathers header bytes. -/
def readHeader (a : Assembler) (input : Bytes) : Assembler × Next :=
  let held := a.progress.fill frameHeaderSize input
  if held.buffer.length < frameHeaderSize then
    ({ a with progress := held }, .hungry)
  else
    checkLength { a with progress := { held with phase := .headerComplete } }
      (a.progress.unread frameHeaderSize input)

/-- Takes bytes until one frame is complete or refused. -/
def next (a : Assembler) (input : Bytes) : Assembler × Next :=
  match a.progress.phase with
  | .awaitingFrame =>
    if input.isEmpty then (a, .hungry)
    else readHeader { a with progress := { phase := .readingHeader } } input
  | .readingHeader => a.readHeader input
  | .headerComplete => a.checkLength input
  | .readingPayload => a.readPayload input

/-! ## Progress of repeated calls -/

/-- How much there is to do before no frame can follow: the bytes, counted twice, and the frame that
may be complete without one more of them. -/
def work (a : Assembler) (input : Bytes) : Nat :=
  2 * input.length + if a.progress.phase = .awaitingFrame then 0 else 1

/-- A frame that a payload completes leaves the assembler between frames and the input no longer. -/
theorem readPayload_frame {a a' : Assembler} {input rest : Bytes} {frame : Frame}
    (found : a.readPayload input = (a', .frame frame rest)) :
    a'.progress.phase = .awaitingFrame ∧ rest.length ≤ input.length := by
  simp only [readPayload] at found
  split at found
  · simp at found
  · simp only [Prod.mk.injEq, Next.frame.injEq] at found
    obtain ⟨rfl, -, rfl⟩ := found
    simp [Progress.unread]

/-- A frame whose header completes it, for its length is zero, leaves the assembler between frames. -/
theorem checkLength_frame {a a' : Assembler} {input rest : Bytes} {frame : Frame}
    (found : a.checkLength input = (a', .frame frame rest)) :
    a'.progress.phase = .awaitingFrame ∧ rest.length ≤ input.length := by
  simp only [checkLength] at found
  split at found
  · simp at found
  · exact readPayload_frame found

/-- A frame that comes out of a header in progress costs at least the bytes its header lacked. -/
theorem readHeader_frame {a a' : Assembler} {input rest : Bytes} {frame : Frame}
    (found : a.readHeader input = (a', .frame frame rest)) :
    a'.progress.phase = .awaitingFrame ∧
      rest.length + (frameHeaderSize - a.progress.buffer.length) ≤ input.length := by
  simp only [readHeader] at found
  split at found
  · simp at found
  · rename_i whole
    have sized := checkLength_frame found
    simp only [Progress.fill, Progress.unread, Progress.wanted, List.length_append,
      List.length_take, List.length_drop] at whole sized
    exact ⟨sized.1, by omega⟩

/-- A completed frame leaves less to do. -/
theorem work_next {a a' : Assembler} {input rest : Bytes} {frame : Frame}
    (found : a.next input = (a', .frame frame rest)) : a'.work rest < a.work input := by
  unfold next at found
  split at found
  · rename_i phase
    split at found
    · simp at found
    · obtain ⟨waiting, shorter⟩ := readHeader_frame found
      simp only [frameHeaderSize, List.length_nil] at shorter
      simp only [work, waiting, phase, if_true]
      omega
  · rename_i phase
    obtain ⟨waiting, shorter⟩ := readHeader_frame found
    simp [work, waiting, phase]
    omega
  · rename_i phase
    obtain ⟨waiting, shorter⟩ := checkLength_frame found
    simp [work, waiting, phase]
    omega
  · rename_i phase
    obtain ⟨waiting, shorter⟩ := readPayload_frame found
    simp [work, waiting, phase]
    omega

/-- What became of a byte string fed to an assembler. -/
structure Fed where
  assembler : Assembler
  /-- The frames completed, in order. -/
  frames : List Frame
  /-- Why feeding stopped early, if it did. -/
  fault : Option FrameError
  /-- The bytes not taken. -/
  rest : Bytes
  deriving DecidableEq, Repr

/-- Takes all bytes, or those up to the first refused frame. -/
def feed (a : Assembler) (input : Bytes) : Fed :=
  match _found : a.next input with
  | (a', .hungry) => { assembler := a', frames := [], fault := none, rest := [] }
  | (a', .fault fault rest) => { assembler := a', frames := [], fault := some fault, rest }
  | (a', .frame frame rest) =>
    let later := feed a' rest
    { later with frames := frame :: later.frames }
termination_by a.work input
decreasing_by exact work_next _found

end Assembler

end Http2
