import Http2.Proofs.Assembler

/-!
# The frames of a byte string

`Frame.parse` reads the frames of a byte string that is there as a whole: nine bytes of header, as many
bytes as the first three of them say, and so on. It keeps nothing between frames. An assembler that is
given the same bytes in any pieces yields these frames, and after each of its calls (`Agrees`) the bytes
taken so far are those of the frames that it gave out and those that it holds.
-/

namespace Http2

namespace Frame

/-! ## A byte string as a whole -/

/-- Why a byte string yields no further frame. -/
inductive Ending where
  /-- What is left is not a whole frame. -/
  | short (left : Bytes)
  /-- The next header declares a length above the limit. -/
  | tooLarge (header : Bytes) (length : Nat) (rest : Bytes)
  deriving DecidableEq, Repr

/-- The length that the header of a byte string declares, the frame without its payload, and the bytes
behind the header. -/
def header? : Bytes → Option (Nat × Frame × Bytes)
  | l₀ :: l₁ :: l₂ :: code :: flags :: s₀ :: s₁ :: s₂ :: s₃ :: rest =>
    some (Bytes.toNat24 l₀ l₁ l₂,
      { code, flags, word := Bytes.toUInt32 s₀ s₁ s₂ s₃, payload := [] }, rest)
  | _ => none

/-- A header takes nine bytes of what it is read from. -/
theorem length_of_header? {bytes rest : Bytes} {length : Nat} {head : Frame}
    (read : header? bytes = some (length, head, rest)) :
    bytes.length = frameHeaderSize + rest.length := by
  unfold header? at read
  split at read
  · cases read
    simp only [List.length_cons, frameHeaderSize]
    omega
  · cases read

/-- The frames of a byte string under a limit on their lengths, and why there are no more. -/
def parse (limit : Nat) (bytes : Bytes) : List Frame × Ending :=
  match _read : header? bytes with
  | none => ([], .short bytes)
  | some (length, head, rest) =>
    if limit < length then
      ([], .tooLarge (bytes.take frameHeaderSize) length rest)
    else if rest.length < length then
      ([], .short bytes)
    else
      let later := parse limit (rest.drop length)
      ({ head with payload := rest.take length } :: later.1, later.2)
termination_by bytes.length
decreasing_by
  rw [length_of_header? _read, List.length_drop, frameHeaderSize]
  omega

variable {limit : Nat} {bytes : Bytes}

/-- Of fewer than nine bytes no header is read. -/
theorem header?_of_short (short : bytes.length < frameHeaderSize) : header? bytes = none := by
  cases read : header? bytes with
  | none => rfl
  | some found =>
    rw [length_of_header? read] at short
    omega

/-- Nine bytes are a header. -/
theorem header?_of_whole (whole : frameHeaderSize ≤ bytes.length) :
    ∃ head, header? bytes = some (declaredLength bytes, head, bytes.drop frameHeaderSize) := by
  obtain ⟨_, _, _, _, _, _, _, _, _, _, rfl⟩ := Bytes.exists_header whole
  exact ⟨_, rfl⟩

/-- What is written for a frame is read as its length, its header, and its payload with what follows. -/
theorem header?_toBytes_append {f : Frame} (wire : f.length ≤ maxFrameLength) (rest : Bytes) :
    header? (f.toBytes ++ rest) = some (f.length, { f with payload := [] }, f.payload ++ rest) := by
  have length := Bytes.toNat24_ofNat24 wire
  have word := Bytes.toUInt32_ofUInt32 f.word
  simp only [toBytes, headBytes, Bytes.ofNat24, Bytes.ofUInt32, List.cons_append, List.nil_append,
    header?, length, word]

/-- Too few bytes for a frame: the header is not there, or not all that it declares. -/
def Incomplete (limit : Nat) (bytes : Bytes) : Prop :=
  bytes.length < frameHeaderSize ∨
    declaredLength bytes ≤ limit ∧ bytes.length < frameHeaderSize + declaredLength bytes

/-- From too few bytes no frame is parsed, and they are all left. -/
theorem parse_of_incomplete (few : Incomplete limit bytes) : parse limit bytes = ([], .short bytes) := by
  rw [parse]
  by_cases whole : frameHeaderSize ≤ bytes.length
  · obtain ⟨fits, short⟩ := few.resolve_left (Nat.not_lt_of_le whole)
    obtain ⟨head, read⟩ := header?_of_whole whole
    rw [read]
    simp only [List.length_drop]
    rw [if_neg (by omega), if_pos (by omega)]
  · rw [header?_of_short (Nat.lt_of_not_le whole)]

/-- A length above the limit ends the parsing, whether the payload is there or not. -/
theorem parse_of_tooLarge (whole : frameHeaderSize ≤ bytes.length)
    (large : limit < declaredLength bytes) :
    parse limit bytes = ([], .tooLarge (bytes.take frameHeaderSize) (declaredLength bytes)
      (bytes.drop frameHeaderSize)) := by
  obtain ⟨head, read⟩ := header?_of_whole whole
  rw [parse, read]
  simp only
  rw [if_pos large]

/-- The bytes of a frame that fits are parsed as that frame. -/
theorem parse_toBytes_append {f : Frame} (fits : f.length ≤ limit) (wire : f.length ≤ maxFrameLength)
    (rest : Bytes) :
    parse limit (f.toBytes ++ rest) = (f :: (parse limit rest).1, (parse limit rest).2) := by
  have enough : f.length ≤ (f.payload ++ rest).length := by
    rw [List.length_append]
    exact Nat.le_add_right _ _
  rw [parse, header?_toBytes_append wire]
  simp only
  rw [if_neg (Nat.not_lt_of_le fits), if_neg (Nat.not_lt_of_le enough), Frame.length,
    List.take_left, List.drop_left]

/-- Three bytes declare no more than 24 bits. -/
theorem declaredLength_le (bytes : Bytes) : declaredLength bytes ≤ maxFrameLength :=
  Nat.le_of_lt_succ (Bytes.toNat24_lt _ _ _)

/-- A byte string that is not incomplete begins with a whole frame, unless its header is refused. -/
theorem exists_frame (whole : ¬Incomplete limit bytes) (fits : declaredLength bytes ≤ limit) :
    ∃ (f : Frame) (rest : Bytes),
      bytes = f.toBytes ++ rest ∧ f.length ≤ limit ∧ f.length ≤ maxFrameLength := by
  have enough : frameHeaderSize + declaredLength bytes ≤ bytes.length := by
    rw [Incomplete] at whole
    omega
  have length := length_ofRegion_take enough
  refine ⟨_, bytes.drop (frameHeaderSize + declaredLength bytes), ?_, length ▸ fits, ?_⟩
  · rw [toBytes_ofRegion_take enough, List.take_append_drop]
  · rw [length]
    exact declaredLength_le bytes

/-- How a byte string is made up of frames that fit, and what comes after them. -/
inductive Parses (limit : Nat) : Bytes → List Frame → Ending → Prop
  | short {bytes : Bytes} (few : Incomplete limit bytes) : Parses limit bytes [] (.short bytes)
  | tooLarge {bytes : Bytes} (whole : frameHeaderSize ≤ bytes.length)
      (large : limit < declaredLength bytes) :
      Parses limit bytes [] (.tooLarge (bytes.take frameHeaderSize) (declaredLength bytes)
        (bytes.drop frameHeaderSize))
  | frame {f : Frame} {rest : Bytes} {frames : List Frame} {ending : Ending} (fits : f.length ≤ limit)
      (wire : f.length ≤ maxFrameLength) (later : Parses limit rest frames ending) :
      Parses limit (f.toBytes ++ rest) (f :: frames) ending

/-- The parser makes of a byte string what it is made up of. -/
theorem parses (limit : Nat) (bytes : Bytes) :
    Parses limit bytes (parse limit bytes).1 (parse limit bytes).2 := by
  induction size : bytes.length using Nat.strongRecOn generalizing bytes with
  | ind size ih =>
    by_cases few : Incomplete limit bytes
    · rw [parse_of_incomplete few]
      exact .short few
    · by_cases fits : declaredLength bytes ≤ limit
      · obtain ⟨f, rest, rfl, small, wire⟩ := exists_frame few fits
        rw [parse_toBytes_append small wire]
        have shorter : rest.length < (f.toBytes ++ rest).length := by
          rw [List.length_append, length_toBytes, frameHeaderSize]
          omega
        exact .frame small wire (ih rest.length (size ▸ shorter) rest rfl)
      · rw [Incomplete, not_or] at few
        have whole := Nat.le_of_not_lt few.1
        rw [parse_of_tooLarge whole (Nat.lt_of_not_le fits)]
        exact .tooLarge whole (Nat.lt_of_not_le fits)

namespace Parses

variable {frames : List Frame} {left header rest : Bytes} {length : Nat}

/-- Behind the frames of a byte string, parsing goes on with what was left over and what follows. -/
theorem append (parses : Parses limit bytes frames (.short left)) (more : Bytes) :
    parse limit (bytes ++ more) =
      (frames ++ (parse limit (left ++ more)).1, (parse limit (left ++ more)).2) := by
  generalize ends : Ending.short left = ending at parses
  induction parses with
  | short few =>
    cases ends
    rfl
  | tooLarge => cases ends
  | frame fits wire later ih => rw [List.append_assoc, parse_toBytes_append fits wire, ih ends]; rfl

/-- Nothing is parsed behind a header that is refused. -/
theorem append_tooLarge (parses : Parses limit bytes frames (.tooLarge header length rest))
    (more : Bytes) : parse limit (bytes ++ more) = (frames, .tooLarge header length (rest ++ more)) := by
  generalize ends : Ending.tooLarge header length rest = ending at parses
  induction parses with
  | short => cases ends
  | @tooLarge bytes whole large =>
    cases ends
    have declared := declaredLength_append whole more
    rw [parse_of_tooLarge (by rw [List.length_append]; omega) (by rwa [declared]), declared,
      List.take_append_of_le_length whole, List.drop_append_of_le_length whole]
  | frame fits wire later ih => rw [List.append_assoc, parse_toBytes_append fits wire, ih ends]

/-- Frames and what is left over make up the byte string. -/
theorem spelled (parses : Parses limit bytes frames (.short left)) :
    bytes = frames.flatMap toBytes ++ left := by
  generalize ends : Ending.short left = ending at parses
  induction parses with
  | short few =>
    cases ends
    rfl
  | tooLarge => cases ends
  | frame fits wire later ih => rw [List.flatMap_cons, List.append_assoc, ← ih ends]

end Parses

/-- What an assembler holds between calls is no whole frame. -/
theorem parse_of_settled {a : Assembler} (settled : a.Settled) :
    parse a.limit a.progress.buffer = ([], .short a.progress.buffer) := by
  apply parse_of_incomplete
  by_cases whole : frameHeaderSize ≤ a.progress.buffer.length
  · exact .inr (settled.waits whole)
  · exact .inl (Nat.lt_of_not_le whole)

end Frame

/-! ## The calls of an assembler -/

namespace Assembler

/-- One call of an assembler: the bytes it is offered, the assembler after it, and its outcome. -/
structure Call where
  input : Bytes
  after : Assembler
  outcome : Next

namespace Call

/-- The bytes that are offered and not taken. -/
def left (call : Call) : Bytes :=
  match call.outcome with
  | .hungry => []
  | .frame _ rest => rest
  | .fault _ rest => rest

theorem left_hungry (input : Bytes) (after : Assembler) : (⟨input, after, .hungry⟩ : Call).left = [] :=
  rfl

theorem left_frame (input : Bytes) (after : Assembler) (frame : Frame) (rest : Bytes) :
    (⟨input, after, .frame frame rest⟩ : Call).left = rest := rfl

theorem left_fault (input : Bytes) (after : Assembler) (fault : FrameError) (rest : Bytes) :
    (⟨input, after, .fault fault rest⟩ : Call).left = rest := rfl

/-- The bytes that are taken. -/
def taken (call : Call) : Bytes :=
  call.input.take (call.input.length - call.left.length)

/-- The frame that the call gives out. -/
def frame? (call : Call) : Option Frame :=
  match call.outcome with
  | .frame frame _ => some frame
  | _ => none

/-- The fault that the call reports. -/
def fault? (call : Call) : Option FrameError :=
  match call.outcome with
  | .fault fault _ => some fault
  | _ => none

/-- What is offered after the call, if `inputs` are still to come: a fault ends it all. -/
def onward (call : Call) (inputs : List Bytes) : List Bytes :=
  match call.outcome with
  | .hungry => inputs
  | .frame _ rest => rest :: inputs
  | .fault _ _ => []

end Call

/-- The calls that take inputs one after the other: what a call leaves of an input is offered again, and
the first fault ends it all. -/
def calls (a : Assembler) : List Bytes → List Call
  | [] => []
  | input :: inputs =>
    match _found : a.next input with
    | (a', .hungry) => ⟨input, a', .hungry⟩ :: calls a' inputs
    | (a', .frame frame rest) => ⟨input, a', .frame frame rest⟩ :: calls a' (rest :: inputs)
    | (a', .fault fault rest) => [⟨input, a', .fault fault rest⟩]
termination_by inputs => (inputs.length, a.work (inputs.headD []))
decreasing_by
  · exact .left _ _ (Nat.lt_succ_self _)
  · exact .right _ (work_next _found)

/-- The assembler after some calls. -/
def afterCalls (a : Assembler) : List Call → Assembler
  | [] => a
  | call :: seen => afterCalls call.after seen

/-- How calls come about: each is made by the assembler that the one before it left. -/
inductive Calling : Assembler → List Bytes → List Call → Prop
  | done {a : Assembler} : Calling a [] []
  | call {a : Assembler} (call : Call) {inputs : List Bytes} {later : List Call}
      (found : a.next call.input = (call.after, call.outcome))
      (onward : Calling call.after (call.onward inputs) later) :
      Calling a (call.input :: inputs) (call :: later)

/-- The calls of an assembler come about one from another. -/
theorem calling (a : Assembler) (inputs : List Bytes) : Calling a inputs (a.calls inputs) := by
  induction a, inputs using calls.induct with
  | case1 a =>
    rw [calls]
    exact .done
  | case2 a input inputs a' found ih =>
    have unfolded : a.calls (input :: inputs) = ⟨input, a', .hungry⟩ :: a'.calls inputs := by
      rw [calls]
      split <;> simp_all
    rw [unfolded]
    exact .call ⟨input, a', .hungry⟩ found ih
  | case3 a input inputs a' frame rest found ih =>
    have unfolded : a.calls (input :: inputs) =
        ⟨input, a', .frame frame rest⟩ :: a'.calls (rest :: inputs) := by
      rw [calls]
      split <;> simp_all
    rw [unfolded]
    exact .call ⟨input, a', .frame frame rest⟩ found ih
  | case4 a input inputs a' fault rest found =>
    have unfolded : a.calls (input :: inputs) = [⟨input, a', .fault fault rest⟩] := by
      rw [calls]
      split <;> simp_all
    rw [unfolded]
    exact .call ⟨input, a', .fault fault rest⟩ found .done

/-! ## Calls and the parser -/

/-- What the parser makes of the bytes that calls have taken is what the calls have made of them: the
frames given out, the bytes held, and the fault if there was one. -/
inductive Agrees (limit : Nat) (consumed : Bytes) (frames : List Frame) (held : Bytes) :
    Option FrameError → Prop
  | going (parsed : Frame.parse limit consumed = (frames, .short held))
      (spelled : consumed = frames.flatMap Frame.toBytes ++ held) :
      Agrees limit consumed frames held none
  /-- The header that is refused is taken, and nothing behind it. -/
  | stopped {header : Bytes} {length : Nat}
      (parsed : Frame.parse limit consumed = (frames, .tooLarge header length []))
      (spelled : consumed = frames.flatMap Frame.toBytes ++ header)
      (size : header.length = frameHeaderSize) (emptied : held = []) :
      Agrees limit consumed frames held (some (.tooLarge length limit))

variable {a : Assembler} {consumed : Bytes} {frames : List Frame} {call : Call}
  {inputs : List Bytes}

/-- Bytes that are parsed to a short end are the frames parsed and what is left. -/
theorem Agrees.of_parsed {limit : Nat} {held : Bytes}
    (parsed : Frame.parse limit consumed = (frames, .short held)) :
    Agrees limit consumed frames held none := by
  have parses := Frame.parses limit consumed
  rw [parsed] at parses
  exact .going parsed parses.spelled

/-- A call that leaves what comes after some position has taken everything up to there. -/
theorem Call.taken_of_left {held all : Bytes} {count : Nat} (spell : held ++ call.input = all)
    (room : held.length ≤ count) (whole : count ≤ all.length) (rest : call.left = all.drop count) :
    call.taken ++ call.left = call.input ∧ held ++ call.taken = all.take count := by
  subst spell
  rw [List.length_append] at whole
  rw [List.drop_append, List.drop_of_length_le room, List.nil_append] at rest
  have taken : call.taken = call.input.take (count - held.length) := by
    have left : call.input.length - (call.input.length - (count - held.length)) =
        count - held.length := by omega
    rw [Call.taken, rest, List.length_drop, left]
  constructor
  · rw [taken, rest, List.take_append_drop]
  · rw [taken, List.take_append, List.take_of_length_le room]

/-- What is held between calls is no whole frame, and no more than the header of one that is
refused. -/
theorem Settled.room {all input : Bytes} (settled : a.Settled)
    (spell : a.progress.buffer ++ input = all) :
    a.progress.buffer.length ≤ frameHeaderSize + Frame.declaredLength all ∧
      (a.limit < Frame.declaredLength all → a.progress.buffer.length ≤ frameHeaderSize) := by
  subst spell
  have held := settled.held_lt input
  exact ⟨Nat.le_of_lt held.1, fun large => Nat.le_of_lt (held.2 large)⟩

/-- One call does to the frames and the bytes held what the parser does with the bytes taken. -/
theorem agrees_next (settled : a.Settled)
    (parsed : Frame.parse a.limit consumed = (frames, .short a.progress.buffer))
    (found : a.next call.input = (call.after, call.outcome)) :
    call.taken ++ call.left = call.input ∧
      Agrees a.limit (consumed ++ call.taken) (frames ++ call.frame?.toList)
        call.after.progress.buffer call.fault? := by
  have parses := Frame.parses a.limit consumed
  rw [parsed] at parses
  have onward := parses.append call.taken
  have spelled := parses.spelled
  have reads := next_reads settled call.input
  rw [found] at reads
  generalize spell : a.progress.buffer ++ call.input = all at reads
  obtain ⟨room, header⟩ := settled.room spell
  obtain ⟨input, after, outcome⟩ := call
  dsimp only at reads
  cases reads with
  | hungry same settled' held =>
    have size := congrArg List.length spell
    rw [List.length_append] at size
    obtain ⟨input_eq, taken⟩ :=
      Call.taken_of_left spell (by omega) (Nat.le_refl _)
        (by rw [Call.left_hungry, List.drop_length])
    refine ⟨input_eq, .of_parsed ?_⟩
    rw [onward, taken, List.take_length, ← held, ← same, Frame.parse_of_settled settled']
    rfl
  | refused whole large =>
    obtain ⟨input_eq, taken⟩ :=
      Call.taken_of_left spell (header large) whole (Call.left_fault ..)
    have sized : (all.take frameHeaderSize).length = frameHeaderSize := List.length_take_of_le whole
    have declared := Frame.declaredLength_take (Nat.le_refl _) all
    have stops := Frame.parse_of_tooLarge (Nat.le_of_eq sized.symm) (declared.symm ▸ large)
    rw [declared, List.drop_of_length_le (Nat.le_of_eq sized)] at stops
    refine ⟨input_eq, .stopped ?_ ?_ sized rfl⟩
    · rw [onward, taken, stops, List.take_take, Nat.min_self]
      rfl
    · rw [spelled, List.append_assoc, taken]
      simp [Call.frame?]
  | complete fits whole =>
    obtain ⟨input_eq, taken⟩ := Call.taken_of_left spell room whole (Call.left_frame ..)
    have length := Frame.length_ofRegion_take whole
    have spelled := Frame.toBytes_ofRegion_take whole
    generalize Frame.ofRegion (all.take (frameHeaderSize + Frame.declaredLength all)) = f at *
    have wire : f.length ≤ maxFrameLength := length ▸ Frame.declaredLength_le all
    have one := Frame.parse_toBytes_append (length ▸ fits) wire []
    have none : Frame.parse a.limit [] = ([], .short []) :=
      Frame.parse_of_incomplete (.inl (by decide))
    rw [List.append_nil, spelled, none] at one
    refine ⟨input_eq, .of_parsed ?_⟩
    rw [onward, taken, one]
    rfl

/-! ## All calls -/

variable {made seen later : List Call} {fault : FrameError}

/-- No call follows a fault, and its outcome is no frame. -/
theorem Calling.of_fault (refused : call.fault? = some fault)
    (onward : Calling call.after (call.onward inputs) made) : made = [] ∧ call.frame? = none := by
  obtain ⟨input, after, outcome⟩ := call
  cases outcome with
  | hungry => cases refused
  | frame => cases refused
  | fault =>
    cases onward with
    | done => exact ⟨rfl, rfl⟩

/-- The calls of a settled assembler go on from what the parser made of the bytes taken before. -/
theorem Calling.agrees (calling : Calling a inputs made) (settled : a.Settled)
    (parsed : Frame.parse a.limit consumed = (frames, .short a.progress.buffer))
    (split : made = seen ++ later) :
    Agrees a.limit (consumed ++ seen.flatMap Call.taken) (frames ++ seen.filterMap Call.frame?)
        (a.afterCalls seen).progress.buffer (seen.findSome? Call.fault?) ∧
      (seen.findSome? Call.fault? ≠ none → later = []) := by
  induction calling generalizing consumed frames seen with
  | done =>
    obtain ⟨rfl, rfl⟩ := List.append_eq_nil_iff.mp split.symm
    simpa [afterCalls] using Agrees.of_parsed parsed
  | @call a call inputs made found onward ih =>
    cases seen with
    | nil => simpa [afterCalls] using Agrees.of_parsed parsed
    | cons first seen =>
      obtain ⟨rfl, tail⟩ := List.cons.inj split
      have agrees := (agrees_next settled parsed found).2
      have sound := settled_next settled call.input
      rw [found] at sound
      cases refused : call.fault? with
      | none =>
        rw [refused, ← sound.2] at agrees
        cases agrees with
        | going parsed spelled =>
          have rest := ih sound.1 parsed tail
          rw [sound.2] at rest
          cases frame : call.frame? <;> simpa [afterCalls, refused, frame] using rest
      | some fault =>
        obtain ⟨rfl, frame⟩ := Calling.of_fault refused onward
        obtain ⟨rfl, rfl⟩ := List.append_eq_nil_iff.mp tail.symm
        rw [refused] at agrees
        simpa [afterCalls, refused, frame] using agrees

/-- What a call leaves is offered again, unless it reports a fault. -/
theorem Call.flatten_onward (accepted : call.fault? = none) (inputs : List Bytes) :
    (call.onward inputs).flatten = call.left ++ inputs.flatten := by
  obtain ⟨input, after, outcome⟩ := call
  cases outcome with
  | hungry => rfl
  | frame => rfl
  | fault => cases accepted

/-- Calls take the inputs from the front, and all of them if there is no fault. -/
theorem Calling.taken (calling : Calling a inputs made) (settled : a.Settled) :
    (∀ call ∈ made, call.taken ++ call.left = call.input) ∧
      ∃ rest, made.flatMap Call.taken ++ rest = inputs.flatten ∧
        (made.findSome? Call.fault? = none → rest = []) := by
  induction calling with
  | done => exact ⟨by simp, [], by simp⟩
  | @call a call inputs made found onward ih =>
    have sound := settled_next settled call.input
    rw [found] at sound
    have first := (agrees_next settled (Frame.parse_of_settled settled) found).1
    obtain ⟨others, rest, spelled, all⟩ := ih sound.1
    refine ⟨List.forall_mem_cons.mpr ⟨first, others⟩, ?_⟩
    rw [List.flatten_cons, ← first, List.flatMap_cons]
    cases refused : call.fault? with
    | none =>
      rw [Call.flatten_onward refused] at spelled
      refine ⟨rest, by rw [List.append_assoc, spelled, List.append_assoc], fun calm => all ?_⟩
      simpa [refused] using calm
    | some fault =>
      obtain ⟨rfl, -⟩ := Calling.of_fault refused onward
      exact ⟨call.left ++ inputs.flatten, by simp, by simp [refused]⟩

/-- The calls of a fresh assembler, and what the parser makes of the bytes that they have taken. -/
theorem Calling.agrees_start {limit : Nat} (calling : Calling { limit } inputs made)
    (split : made = seen ++ later) :
    Agrees limit (seen.flatMap Call.taken) (seen.filterMap Call.frame?)
        (afterCalls { limit } seen).progress.buffer (seen.findSome? Call.fault?) ∧
      (seen.findSome? Call.fault? ≠ none → later = []) :=
  calling.agrees rfl (Frame.parse_of_settled (a := { limit }) rfl) split

/-- The calls of a fresh assembler, and what the parser makes of their inputs as a whole. -/
theorem Calling.parse_flatten {limit : Nat} (calling : Calling { limit } inputs made) :
    match Frame.parse limit inputs.flatten with
    | (frames, .short left) =>
      made.filterMap Call.frame? = frames ∧ made.findSome? Call.fault? = none ∧
        made.flatMap Call.taken = inputs.flatten ∧ (afterCalls { limit } made).progress.buffer = left
    | (frames, .tooLarge _ length rest) =>
      made.filterMap Call.frame? = frames ∧
        made.findSome? Call.fault? = some (.tooLarge length limit) ∧
        made.flatMap Call.taken ++ rest = inputs.flatten := by
  obtain ⟨rest, spelled, all⟩ := (calling.taken rfl).2
  have agrees := (calling.agrees_start (List.append_nil made).symm).1
  generalize verdict : made.findSome? Call.fault? = fault at agrees all
  cases agrees with
  | going parsed =>
    rw [all rfl, List.append_nil] at spelled
    rw [← spelled, parsed]
    exact ⟨rfl, rfl, rfl, rfl⟩
  | stopped parsed =>
    have parses := Frame.parses limit (made.flatMap Call.taken)
    rw [parsed] at parses
    rw [← spelled, parses.append_tooLarge rest]
    exact ⟨rfl, rfl, rfl⟩

/-- However a byte string is cut into inputs, the calls of an assembler give out the frames that the
parser finds in the whole. They report a fault if the parser comes to a header that declares too large a
length, and then nothing behind that header is taken. After each call the bytes taken are those of the
frames given out and the bytes held, or those of the frames and of the header that is refused. -/
theorem calls_parse (limit : Nat) (inputs : List Bytes) :
    let start : Assembler := { limit }
    let made := start.calls inputs
    (match Frame.parse limit inputs.flatten with
      | (frames, .short left) =>
        made.filterMap Call.frame? = frames ∧ made.findSome? Call.fault? = none ∧
          made.flatMap Call.taken = inputs.flatten ∧ (start.afterCalls made).progress.buffer = left
      | (frames, .tooLarge _ length rest) =>
        made.filterMap Call.frame? = frames ∧
          made.findSome? Call.fault? = some (.tooLarge length limit) ∧
          made.flatMap Call.taken ++ rest = inputs.flatten) ∧
      (∀ call ∈ made, call.taken ++ call.left = call.input) ∧
      ∀ seen later, made = seen ++ later →
        seen.flatMap Call.taken <+: inputs.flatten ∧
        Agrees limit (seen.flatMap Call.taken) (seen.filterMap Call.frame?)
          (start.afterCalls seen).progress.buffer (seen.findSome? Call.fault?) ∧
        (seen.findSome? Call.fault? ≠ none → later = []) := by
  intro start made
  have calling : Calling { limit } inputs made := calling start inputs
  obtain ⟨each, rest, spelled, -⟩ := calling.taken rfl
  refine ⟨calling.parse_flatten, each, fun seen later split => ⟨?_, calling.agrees_start split⟩⟩
  refine ⟨later.flatMap Call.taken ++ rest, ?_⟩
  rw [← List.append_assoc, ← List.flatMap_append, ← split, spelled]

end Assembler

end Http2
