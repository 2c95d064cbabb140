import Http2.Codec.Send
import Http2.Proofs.Codec.View

/-!
# The frames of one push

A payload is cut into consecutive slices, one for each frame. `runs_blockFrames` and
`runs_dataFrames` say that the frames of a push may follow what was sent before, and what the other
end reports about them.
-/

namespace Http2

/-! ## Slices -/

/-- The consecutive slices of `size` bytes, the last of them perhaps shorter; all bytes in one slice
if `size` is zero. -/
def Bytes.slices (size : Nat) (bytes : Bytes) : List Bytes :=
  if bytes.length ≤ size ∨ size = 0 then [bytes]
  else bytes.take size :: slices size (bytes.drop size)
termination_by bytes.length
decreasing_by simp only [List.length_drop]; omega

namespace Bytes

variable {size : Nat}

/-- What fits in one slice is one slice, even if it is empty. -/
theorem slices_of_short {bytes : Bytes} (short : bytes.length ≤ size) :
    slices size bytes = [bytes] := by
  rw [slices, if_pos (.inl short)]

/-- The first slice of something longer is full. -/
theorem slices_of_long {bytes : Bytes} (positive : 1 ≤ size) (long : size < bytes.length) :
    slices size bytes = bytes.take size :: slices size (bytes.drop size) := by
  rw [slices, if_neg (by omega)]

/-- There is always a slice, so there is always a frame to carry the flags. -/
theorem slices_ne_nil (size : Nat) (bytes : Bytes) : slices size bytes ≠ [] := by
  rw [slices]
  split <;> simp

/-- The slices of a byte string make it up. -/
@[simp] theorem flatten_slices (size : Nat) (bytes : Bytes) : (slices size bytes).flatten = bytes := by
  induction bytes using slices.induct size with
  | case1 bytes short =>
    rw [slices, if_pos short]
    simp
  | case2 bytes long ih =>
    rw [slices, if_neg long, List.flatten_cons, ih, List.take_append_drop]

/-- No slice is longer than the size. -/
theorem length_of_mem_slices {bytes slice : Bytes} (positive : 1 ≤ size)
    (member : slice ∈ slices size bytes) : slice.length ≤ size := by
  induction bytes using slices.induct size with
  | case1 bytes short =>
    rw [slices, if_pos short, List.mem_singleton] at member
    rw [member]
    omega
  | case2 bytes long ih =>
    rw [slices, if_neg long, List.mem_cons] at member
    rcases member with rfl | member
    · exact List.length_take_le _ _
    · exact ih member

/-- The cutting loop yields slices, behind those that it has cut already. -/
theorem pieces_go {count : Nat} {rest : Bytes} (positive : 1 ≤ size) (nonempty : rest ≠ [])
    (enough : rest.length ≤ count) (cut : List Bytes) :
    pieces.go size count rest cut = cut.reverse ++ slices size rest := by
  induction count generalizing rest cut with
  | zero => exact absurd (List.length_eq_zero_iff.mp (Nat.le_zero.mp enough)) nonempty
  | succ count ih =>
    have unfolded : pieces.go size (count + 1) rest cut =
        pieces.go size count (rest.drop size) (rest.take size :: cut) := by
      cases rest with
      | nil => exact absurd rfl nonempty
      | cons byte rest => rfl
    rw [unfolded]
    by_cases short : rest.length ≤ size
    · rw [List.drop_eq_nil_of_le short, slices_of_short short, List.take_of_length_le short]
      cases count <;> simp [pieces.go]
    · have left : rest.drop size ≠ [] := by
        rw [ne_eq, List.drop_eq_nil_iff]
        exact short
      have shorter : (rest.drop size).length ≤ count := by
        rw [List.length_drop]
        omega
      rw [ih left shorter, slices_of_long positive (Nat.lt_of_not_le short)]
      simp

end Bytes

namespace Codec

/-- The pieces of a payload are its slices. -/
theorem payloadPieces_eq {size : Nat} (positive : 1 ≤ size) (payload : Bytes) :
    payloadPieces size payload = Bytes.slices size payload := by
  have sized : max size 1 = size := by omega
  by_cases nonempty : payload = []
  · rw [nonempty, Bytes.slices_of_short (Nat.zero_le size)]
    rfl
  · have cut : Bytes.pieces size payload = Bytes.slices size payload := by
      rw [Bytes.pieces, sized, Bytes.pieces_go positive nonempty (Nat.le_refl _)]
      rfl
    rw [payloadPieces, cut]
    split
    · rename_i none
      exact absurd none (Bytes.slices_ne_nil size payload)
    · rfl

/-- The pieces of a payload fit the frame size. -/
theorem length_of_mem_payloadPieces {size : Nat} (positive : 1 ≤ size) {payload piece : Bytes}
    (member : piece ∈ payloadPieces size payload) : piece.length ≤ size := by
  rw [payloadPieces_eq positive] at member
  exact Bytes.length_of_mem_slices positive member

/-! ## Frames -/

/-- The CONTINUATION frames that end a header block. -/
def continuationFrames (id : UInt32) : List Bytes → List Frame
  | [] => []
  | [piece] => [Frame.ofParts .continuation Flag.endHeaders id piece]
  | piece :: next :: rest =>
    Frame.ofParts .continuation 0 id piece :: continuationFrames id (next :: rest)

/-- The flags of the frame that opens a header block. -/
def openingFlags (last alone : Bool) : UInt8 :=
  endFlag last ||| if alone then Flag.endHeaders else 0

/-- Of the CONTINUATION frames, the last one and no other ends the headers. -/
theorem continuationFrames_eq (id : UInt32) (pieces : List Bytes) :
    continuationFrames id pieces = pieces.mapIdx fun i piece =>
      Frame.ofParts .continuation (if i + 1 = pieces.length then Flag.endHeaders else 0) id piece := by
  induction pieces using continuationFrames.induct with
  | case1 => rfl
  | case2 piece => rfl
  | case3 piece next rest ih => simp [continuationFrames, ih, List.mapIdx_cons]

/-- A header block is one HEADERS frame, which ends the headers if it is alone, and CONTINUATION frames.
-/
theorem blockFrames_cons (id : UInt32) (last : Bool) (piece : Bytes) (rest : List Bytes) :
    blockFrames id last (piece :: rest) =
      Frame.ofParts .headers (openingFlags last rest.isEmpty) id piece ::
        continuationFrames id rest := by
  cases rest <;> simp [blockFrames, continuationFrames_eq, List.mapIdx_cons, openingFlags]

/-- A DATA frame that is followed by another one of its segment does not end the stream. -/
theorem dataFrames_cons (id : UInt32) (last : Bool) (piece next : Bytes) (rest : List Bytes) :
    dataFrames id last (piece :: next :: rest) =
      Frame.ofParts .data (endFlag false) id piece :: dataFrames id last (next :: rest) := by
  simp [dataFrames, List.mapIdx_cons, endFlag]

end Codec

namespace Frame

variable {kind : FrameKind} {flags : UInt8} {id : UInt32} {payload : Bytes}

/-- A frame is built with the kind that was asked for, if it is a named one. -/
theorem kind_ofParts (known : kind.isUnknown = false) :
    (ofParts kind flags id payload).kind = kind := by
  cases kind <;> first | rfl | cases known

/-- A frame is built for the stream that was asked for, if the identifier has 31 bits. -/
theorem stream_ofParts (valid : IsStreamId id) : (ofParts kind flags id payload).stream = id := by
  simp only [stream, ofParts, UInt32.and_assoc, UInt32.and_self]
  exact valid.2

theorem hasFlag_ofParts (mask : UInt8) :
    (ofParts kind flags id payload).hasFlag mask = Flag.has flags mask := rfl

/-- A frame that is built with neither of the two flags carries its payload as it is. -/
theorem plain_ofParts (valid : IsStreamId id) (unpadded : Flag.has flags Flag.padded = false)
    (weightless : Flag.has flags Flag.priority = false) :
    (ofParts kind flags id payload).Plain where
  stream := by
    rw [stream_ofParts valid]
    exact valid.1
  unpadded := unpadded
  weightless := weightless

end Frame

namespace Codec

/-- The opening flags say what was asked for, and that there is neither padding nor priority. -/
theorem has_openingFlags (last alone : Bool) :
    Flag.has (openingFlags last alone) Flag.padded = false ∧
      Flag.has (openingFlags last alone) Flag.priority = false ∧
      Flag.has (openingFlags last alone) Flag.endHeaders = alone ∧
      Flag.has (openingFlags last alone) Flag.endStream = last := by
  cases last <;> cases alone <;> decide

/-- The end flag says what was asked for, and that there is neither padding nor priority. -/
theorem has_endFlag (last : Bool) :
    Flag.has (endFlag last) Flag.padded = false ∧
      Flag.has (endFlag last) Flag.priority = false ∧
      Flag.has (endFlag last) Flag.endStream = last := by
  cases last <;> decide

end Codec

/-! ## Runs -/

namespace View

open Codec

variable {answered : UInt32 → Bool} {v : View} {id : UInt32} {last : Bool} {phase : Phase}

/-- Whether a block ends its stream is said by its first frame. -/
theorem blockEndsStream_append {front : List Frame} (nonempty : front ≠ []) (back : List Frame) :
    Endpoint.blockEndsStream (front ++ back) = Endpoint.blockEndsStream front := by
  cases front with
  | nil => exact absurd rfl nonempty
  | cons f front => rfl

/-- A CONTINUATION may follow in a header block that is open. -/
theorem takes_continuation (answered : UInt32 → Bool) (flags : UInt8) (piece : Bytes)
    (valid : IsStreamId id) (unpadded : Flag.has flags Flag.padded = false)
    (weightless : Flag.has flags Flag.priority = false)
    (opened : v.gathered ≠ []) (same : ∀ g ∈ v.gathered, g.stream = id) (begun : v.begun id)
    (small : Frame.payloadSize v.gathered + piece.length ≤ maxHeaderBlockSize) :
    Takes answered v (Frame.ofParts .continuation flags id piece)
      { v with gathered := gather v.gathered (Frame.ofParts .continuation flags id piece) } := by
  have stream : (Frame.ofParts .continuation flags id piece).stream = id :=
    Frame.stream_ofParts valid
  refine .continuing (Frame.plain_ofParts valid unpadded weightless) (Frame.kind_ofParts rfl) opened
    ?_ ?_ ?_
  · rwa [stream]
  · rwa [stream]
  · rw [Frame.payloadSize_append]
    exact small

/-- CONTINUATIONs may end a header block that is open, and then it is reported. -/
theorem runs_continuationFrames (answered : UInt32 → Bool) {pieces : List Bytes}
    (valid : IsStreamId id) (opened : v.gathered ≠ []) (same : ∀ g ∈ v.gathered, g.stream = id) (begun : v.begun id)
    (nonempty : pieces ≠ [])
    (small : Frame.payloadSize v.gathered + pieces.flatten.length ≤ maxHeaderBlockSize) :
    Runs answered v (continuationFrames id pieces) { v with gathered := [] } ∧
      callbacks v.gathered (continuationFrames id pieces) =
        [.headers id (HeaderBlock.decode (v.gathered.flatMap Frame.payload ++ pieces.flatten))
          (Endpoint.blockEndsStream v.gathered)] := by
  induction pieces using continuationFrames.induct generalizing v with
  | case1 => exact absurd rfl nonempty
  | case2 piece =>
    let f := Frame.ofParts .continuation Flag.endHeaders id piece
    have kind : f.kind = .continuation := Frame.kind_ofParts rfl
    have ended : f.hasFlag Flag.endHeaders = true := by
      rw [Frame.hasFlag_ofParts]
      decide
    have takes := takes_continuation answered Flag.endHeaders piece valid (by decide)
      (by decide) opened same begun (by simpa using small)
    rw [gather_of_ended _ ended] at takes
    refine ⟨.single takes, ?_⟩
    rw [continuationFrames, callbacks, gather_of_ended _ ended,
      firing_of_ended _ (.inr kind) ended, Frame.stream_ofParts valid, blockEndsStream_append opened]
    simp [callbacks, f, Frame.ofParts]
  | case3 piece next rest ih =>
    let f := Frame.ofParts .continuation 0 id piece
    have kind : f.kind = .continuation := Frame.kind_ofParts rfl
    have more : f.hasFlag Flag.endHeaders = false := by
      rw [Frame.hasFlag_ofParts]
      decide
    have carries : f.kind.carriesHeaderBlock := by rw [kind]; rfl
    rw [List.flatten_cons, List.length_append] at small
    have takes := takes_continuation answered 0 piece valid (by decide) (by decide)
      opened same begun (by omega)
    rw [gather_of_more _ carries more] at takes
    have sameNext : ∀ g ∈ v.gathered ++ [f], g.stream = id := by
      intro g member
      rcases List.mem_append.mp member with member | member
      · exact same g member
      · rw [List.mem_singleton.mp member]
        exact Frame.stream_ofParts valid
    have smallNext : Frame.payloadSize (v.gathered ++ [f]) + (next :: rest).flatten.length ≤
        maxHeaderBlockSize := by
      rw [Frame.payloadSize_append]
      have alone : Frame.payloadSize [f] = piece.length := rfl
      omega
    obtain ⟨later, reported⟩ := ih (v := { v with gathered := v.gathered ++ [f] }) (by simp)
      sameNext begun (by simp) smallNext
    refine ⟨.cons takes later, ?_⟩
    rw [continuationFrames, callbacks, gather_of_more _ carries more,
      firing_of_more _ (.inr kind) more, reported, blockEndsStream_append opened]
    simp [f, Frame.ofParts]

/-- A frame with HEADERS may follow outside a header block. -/
theorem takes_opening (answered : UInt32 → Bool) (piece : Bytes) (alone : Bool)
    (valid : IsStreamId id) (closed : v.gathered = [])
    (small : piece.length ≤ maxHeaderBlockSize)
    (moved : (v.phase id).after? (answered id) .headers last = some phase) :
    Takes answered v (Frame.ofParts .headers (openingFlags last alone) id piece)
      { v.move id phase with
        gathered := gather [] (Frame.ofParts .headers (openingFlags last alone) id piece) } := by
  let f := Frame.ofParts .headers (openingFlags last alone) id piece
  obtain ⟨unpadded, weightless, -, ends⟩ := has_openingFlags last alone
  have kind : f.kind = .headers := Frame.kind_ofParts rfl
  have stream : f.stream = id := Frame.stream_ofParts valid
  have ending : f.kind.endsStream f.flags = last := by
    rw [kind, ← ends]
    rfl
  have takes : Takes answered v f { v.move f.stream phase with gathered := gather v.gathered f } :=
    .opening (Frame.plain_ofParts valid unpadded weightless) kind closed small
      (by rwa [kind, stream, ← kind, ending])
  rwa [stream, closed] at takes

/-- The frames of a header list may follow outside a header block, and the other end reports them
once. -/
theorem runs_blockFrames {pieces : List Bytes} (valid : IsStreamId id) (closed : v.gathered = [])
    (nonempty : pieces ≠ []) (small : pieces.flatten.length ≤ maxHeaderBlockSize)
    (moved : (v.phase id).after? (answered id) .headers last = some phase) :
    Runs answered v (blockFrames id last pieces) { v.move id phase with gathered := [] } ∧
      callbacks [] (blockFrames id last pieces) =
        [.headers id (HeaderBlock.decode pieces.flatten) last] := by
  cases pieces with
  | nil => exact absurd rfl nonempty
  | cons piece rest =>
    let f := Frame.ofParts .headers (openingFlags last rest.isEmpty) id piece
    obtain ⟨-, -, alone, ends⟩ := has_openingFlags last rest.isEmpty
    have kind : f.kind = .headers := Frame.kind_ofParts rfl
    have stream : f.stream = id := Frame.stream_ofParts valid
    have ending : Endpoint.blockEndsStream [f] = last := by
      simp only [Endpoint.blockEndsStream, List.head?_cons, Option.any_some, kind, decide_true,
        Bool.true_and]
      exact ends
    rw [List.flatten_cons, List.length_append] at small
    have takes := takes_opening answered piece rest.isEmpty valid closed (by omega) moved
    rw [blockFrames_cons, callbacks]
    cases rest with
    | nil =>
      rw [gather_of_ended (f := f) [] alone] at takes
      refine ⟨.single takes, ?_⟩
      rw [gather_of_ended (f := f) [] alone, firing_of_ended (f := f) [] (.inl kind) alone,
        List.nil_append, ending, stream]
      simp [callbacks, continuationFrames, f, Frame.ofParts]
    | cons next rest =>
      have carries : f.kind.carriesHeaderBlock := by rw [kind]; rfl
      rw [gather_of_more (f := f) [] carries alone] at takes
      have begun : (v.move id phase).begun id := by
        rw [begun, phase_move_self]
        exact Phase.begun_of_after? moved
      obtain ⟨later, reported⟩ := runs_continuationFrames answered
        (v := { v.move id phase with gathered := [f] }) valid (by simp) (by simp [stream]) begun
        (List.cons_ne_nil next rest) small
      refine ⟨.cons takes later, ?_⟩
      rw [gather_of_more (f := f) [] carries alone, firing_of_more (f := f) [] (.inl kind) alone,
        List.nil_append, reported, ending]
      simp [f, Frame.ofParts]

/-- A DATA frame may follow outside a header block. -/
theorem takes_data (answered : UInt32 → Bool) (last : Bool) (piece : Bytes)
    (valid : IsStreamId id) (closed : v.gathered = [])
    (moved : (v.phase id).after? (answered id) .data last = some phase) :
    Takes answered v (Frame.ofParts .data (endFlag last) id piece)
      { v.move id phase with gathered := [] } := by
  let f := Frame.ofParts .data (endFlag last) id piece
  obtain ⟨unpadded, weightless, ends⟩ := has_endFlag last
  have kind : f.kind = .data := Frame.kind_ofParts rfl
  have stream : f.stream = id := Frame.stream_ofParts valid
  have ending : f.kind.endsStream f.flags = last := by
    rw [kind, ← ends]
    rfl
  have takes : Takes answered v f { v.move f.stream phase with gathered := gather v.gathered f } :=
    .moving (Frame.plain_ofParts valid unpadded weightless) (.inl kind) closed
      (by rwa [kind, stream, ← kind, ending])
  rwa [stream, gather_of_moving _ (.inl kind)] at takes

/-- The callbacks about the pieces of a body segment, of which only the last may end the stream. -/
def bodies (id : UInt32) (last : Bool) : List Bytes → List Callback
  | [] => []
  | [piece] => [.body id piece last]
  | piece :: next :: rest => .body id piece false :: bodies id last (next :: rest)

/-- A frame of a body segment calls for one report of its data, and the block gathered so far is over. -/
theorem callbacks_data (gathered : List Frame) (last : Bool) (piece : Bytes) (rest : List Frame)
    (valid : IsStreamId id) :
    callbacks gathered (Frame.ofParts .data (endFlag last) id piece :: rest) =
      .body id piece last :: callbacks [] rest := by
  have kind : (Frame.ofParts .data (endFlag last) id piece).kind = .data := Frame.kind_ofParts rfl
  have ends := (has_endFlag last).2.2
  rw [callbacks, gather_of_moving _ (.inl kind), firing_of_data _ kind, Frame.stream_ofParts valid,
    Frame.hasFlag_ofParts, ends]
  rfl

/-- The frames of a body segment may follow outside a header block, and the other end reports each of
them. -/
theorem runs_dataFrames {pieces : List Bytes} (valid : IsStreamId id) (closed : v.gathered = [])
    (nonempty : pieces ≠ [])
    (moved : (v.phase id).after? (answered id) .data last = some phase) :
    Runs answered v (dataFrames id last pieces) { v.move id phase with gathered := [] } ∧
      callbacks [] (dataFrames id last pieces) = bodies id last pieces := by
  induction pieces using bodies.induct generalizing v with
  | case1 => exact absurd rfl nonempty
  | case2 piece =>
    have alone : dataFrames id last [piece] = [Frame.ofParts .data (endFlag last) id piece] := rfl
    rw [alone, callbacks_data [] last piece [] valid]
    exact ⟨.single (takes_data answered last piece valid closed moved), rfl⟩
  | case3 piece next rest ih =>
    obtain ⟨first, later⟩ := Phase.after?_data_split moved
    have takes := takes_data answered false piece valid closed first
    obtain ⟨runs, reported⟩ := ih (v := { v.move id .flowing with gathered := [] }) rfl
      (List.cons_ne_nil next rest) (by rwa [phase_move_self])
    have moves : (v.move id .flowing).move id phase = v.move id phase := by
      simp only [move, mk.injEq, and_true]
      funext other
      split <;> rfl
    rw [dataFrames_cons, callbacks_data [] false piece _ valid, reported]
    refine ⟨.cons takes ?_, rfl⟩
    rw [← moves]
    exact runs

end View

end Http2
