import Http2.Proofs.Codec.Trace
import Http2.Proofs.Stream.Phase

/-!
# Frames in one direction

A `View` is what is known of one direction of a connection from the frames that have travelled in it:
the phase of every stream, and the frames of a header block that is not complete. `Takes` says which
frames a sender may put next, and `callbacks` what a receiver reports about them. Neither mentions a
codec, so that the same run of frames is what one end sends and what the other end receives.
-/

namespace Http2

/-- A stream identifier that a frame can carry and that is not the connection's. -/
def IsStreamId (id : UInt32) : Prop :=
  id ≠ 0 ∧ id &&& maxStreamId = id

/-- Frames of a stream without padding and priority data. -/
structure Frame.Plain (f : Frame) : Prop where
  stream : f.stream ≠ 0
  unpadded : f.hasFlag Flag.padded = false
  weightless : f.hasFlag Flag.priority = false

namespace Frame.Plain

variable {f : Frame}

/-- A plain payload is all data. -/
theorem unpadded_eq (plain : f.Plain) : f.unpadded = .ok f.payload := by
  simp [Frame.unpadded, plain.unpadded]

/-- A plain payload is all header text. -/
theorem fragment_eq (plain : f.Plain) : f.fragment = .ok f.payload := by
  simp [Frame.fragment, plain.unpadded_eq, plain.weightless]

end Frame.Plain

/-- What has travelled in one direction of a connection. -/
structure View where
  phase : UInt32 → Phase := fun _ => .fresh
  /-- The frames of the header block that is not complete. -/
  gathered : List Frame := []

namespace View

/-- Whether frames have travelled on a stream. -/
def begun (v : View) (id : UInt32) : Bool :=
  (v.phase id).begun

/-- The view after a stream has moved. -/
def move (v : View) (id : UInt32) (phase : Phase) : View :=
  { v with phase := fun other => if other = id then phase else v.phase other }

/-- The incomplete header block after one more frame. -/
def gather (gathered : List Frame) (f : Frame) : List Frame :=
  if f.kind.carriesHeaderBlock && !f.hasFlag Flag.endHeaders then gathered ++ [f] else []

/-- What a frame may be, and what it does. `answered` are the streams that carry frames in the other
direction. -/
inductive Takes (answered : UInt32 → Bool) (v : View) (f : Frame) : View → Prop
  | opening {phase : Phase} (plain : f.Plain) (kind : f.kind = .headers) (closed : v.gathered = [])
      (small : f.length ≤ maxHeaderBlockSize)
      (moved : (v.phase f.stream).after? (answered f.stream) f.kind (f.kind.endsStream f.flags) =
        some phase) :
      Takes answered v f { v.move f.stream phase with gathered := gather v.gathered f }
  | continuing (plain : f.Plain) (kind : f.kind = .continuation) (opened : v.gathered ≠ [])
      (same : ∀ g ∈ v.gathered, g.stream = f.stream) (begun : v.begun f.stream)
      (small : Frame.payloadSize (v.gathered ++ [f]) ≤ maxHeaderBlockSize) :
      Takes answered v f { v with gathered := gather v.gathered f }
  | moving {phase : Phase} (plain : f.Plain) (kind : f.kind = .data ∨ f.kind = .rstStream)
      (closed : v.gathered = [])
      (moved : (v.phase f.stream).after? (answered f.stream) f.kind (f.kind.endsStream f.flags) =
        some phase) :
      Takes answered v f { v.move f.stream phase with gathered := gather v.gathered f }

/-- Frames that may follow each other. -/
inductive Runs (answered : UInt32 → Bool) : View → List Frame → View → Prop
  | nil (v : View) : Runs answered v [] v
  | cons {v v' v'' : View} {f : Frame} {rest : List Frame} (first : Takes answered v f v')
      (later : Runs answered v' rest v'') : Runs answered v (f :: rest) v''

variable {answered answered' : UInt32 → Bool} {v v' v'' : View} {f : Frame} {fs gs : List Frame}

@[simp] theorem phase_move_self (v : View) (id : UInt32) (phase : Phase) :
    (v.move id phase).phase id = phase := by
  simp [move]

theorem phase_move_of_ne (v : View) {id other : UInt32} (phase : Phase) (ne : other ≠ id) :
    (v.move id phase).phase other = v.phase other := by
  simp [move, ne]

namespace Takes

/-- Only plain frames travel. -/
theorem plain (takes : Takes answered v f v') : f.Plain := by
  cases takes <;> assumption

/-- Whether a block stays incomplete depends on the frames of headers alone. -/
theorem gathered_eq (takes : Takes answered v f v') : v'.gathered = gather v.gathered f := by
  cases takes <;> rfl

/-- A frame does not touch other streams. -/
theorem phase_of_ne (takes : Takes answered v f v') {id : UInt32} (ne : id ≠ f.stream) :
    v'.phase id = v.phase id := by
  cases takes with
  | opening => exact phase_move_of_ne v _ ne
  | continuing => rfl
  | moving => exact phase_move_of_ne v _ ne

/-- A frame begins its stream. -/
theorem begun_stream (takes : Takes answered v f v') : v'.begun f.stream := by
  cases takes with
  | opening plain kind closed small moved =>
    simpa [begun] using Phase.begun_of_after? moved
  | continuing plain kind opened same begun small => exact begun
  | moving plain kind closed moved => simpa [begun] using Phase.begun_of_after? moved

theorem begun_mono (takes : Takes answered v f v') {id : UInt32} (already : v.begun id) :
    v'.begun id := by
  by_cases same : id = f.stream
  · rw [same]
    exact takes.begun_stream
  · rwa [begun, takes.phase_of_ne same]

/-- Answers that come meanwhile forbid nothing. -/
theorem mono (takes : Takes answered v f v') (more : ∀ id, answered id → answered' id) :
    Takes answered' v f v' := by
  cases takes with
  | opening plain kind closed small moved =>
    exact .opening plain kind closed small (Phase.after?_of_answered moved (more f.stream))
  | continuing plain kind opened same begun small =>
    exact .continuing plain kind opened same begun small
  | moving plain kind closed moved =>
    exact .moving plain kind closed (Phase.after?_of_answered moved (more f.stream))

end Takes

namespace Runs

theorem eq_of_nil (runs : Runs answered v [] v') : v = v' := by
  cases runs
  rfl

theorem single (takes : Takes answered v f v') : Runs answered v [f] v' :=
  .cons takes (.nil v')

/-- Frames that may follow each other may be followed by more that may. -/
theorem append (first : Runs answered v fs v') (second : Runs answered v' gs v'') :
    Runs answered v (fs ++ gs) v'' := by
  induction first with
  | nil => exact second
  | cons takes _ ih => exact .cons takes (ih second)

theorem mono (runs : Runs answered v fs v') (more : ∀ id, answered id → answered' id) :
    Runs answered' v fs v' := by
  induction runs with
  | nil v => exact .nil v
  | cons takes _ ih => exact .cons (takes.mono more) ih

theorem begun_mono (runs : Runs answered v fs v') {id : UInt32} (already : v.begun id) :
    v'.begun id := by
  induction runs with
  | nil => exact already
  | cons takes _ ih => exact ih (takes.begun_mono already)

/-- The streams that carry frames are those that had begun and those of the frames. -/
theorem begun_iff (runs : Runs answered v fs v') (id : UInt32) :
    v'.begun id ↔ v.begun id ∨ ∃ f ∈ fs, f.stream = id := by
  induction runs with
  | nil => simp
  | @cons v v' v'' f rest takes later ih =>
    rw [ih]
    constructor
    · rintro (already | ⟨g, member, stream⟩)
      · by_cases same : id = f.stream
        · exact .inr ⟨f, List.mem_cons_self, same.symm⟩
        · rw [begun, takes.phase_of_ne same] at already
          exact .inl already
      · exact .inr ⟨g, List.mem_cons_of_mem f member, stream⟩
    · rintro (already | ⟨g, member, stream⟩)
      · exact .inl (takes.begun_mono already)
      · rcases List.mem_cons.mp member with rfl | member
        · rw [← stream]
          exact .inl takes.begun_stream
        · exact .inr ⟨g, member, stream⟩

end Runs

/-! ## What a receiver reports -/

/-- The callback that a frame causes, if it causes one. -/
def firing (gathered : List Frame) (f : Frame) : Option Callback :=
  match f.kind with
  | .headers | .continuation =>
    if f.hasFlag Flag.endHeaders then
      some (.headers f.stream (HeaderBlock.decode ((gathered ++ [f]).flatMap Frame.payload))
        (Endpoint.blockEndsStream (gathered ++ [f])))
    else
      none
  | .data => some (.body f.stream f.payload (f.hasFlag Flag.endStream))
  | _ => none

/-- The end of the headers leaves no block incomplete. -/
theorem gather_of_ended (gathered : List Frame) (ended : f.hasFlag Flag.endHeaders = true) :
    gather gathered f = [] := by
  simp [gather, ended]

/-- A part of a header block that does not end it is gathered. -/
theorem gather_of_more (gathered : List Frame) (carries : f.kind.carriesHeaderBlock)
    (more : f.hasFlag Flag.endHeaders = false) : gather gathered f = gathered ++ [f] := by
  simp [gather, carries, more]

/-- DATA and resets do not come within a header block. -/
theorem gather_of_moving (gathered : List Frame) (kind : f.kind = .data ∨ f.kind = .rstStream) :
    gather gathered f = [] := by
  rcases kind with kind | kind <;> simp [gather, kind, FrameKind.carriesHeaderBlock]

/-- The frame that ends the headers reports the fields of all payloads of its block. -/
theorem firing_of_ended (gathered : List Frame) (kind : f.kind = .headers ∨ f.kind = .continuation)
    (ended : f.hasFlag Flag.endHeaders = true) :
    firing gathered f =
      some (.headers f.stream (HeaderBlock.decode ((gathered ++ [f]).flatMap Frame.payload))
        (Endpoint.blockEndsStream (gathered ++ [f]))) := by
  rcases kind with kind | kind <;> simp [firing, kind, ended]

/-- A part of a header block that does not end it reports nothing. -/
theorem firing_of_more (gathered : List Frame) (kind : f.kind = .headers ∨ f.kind = .continuation)
    (more : f.hasFlag Flag.endHeaders = false) : firing gathered f = none := by
  rcases kind with kind | kind <;> simp [firing, kind, more]

/-- Every DATA frame is reported, with its payload. -/
theorem firing_of_data (gathered : List Frame) (kind : f.kind = .data) :
    firing gathered f = some (.body f.stream f.payload (f.hasFlag Flag.endStream)) := by
  simp [firing, kind]

/-- The callbacks that frames cause, in order. -/
def callbacks (gathered : List Frame) : List Frame → List Callback
  | [] => []
  | f :: rest => (firing gathered f).toList ++ callbacks (gather gathered f) rest

/-- Frames that follow others cause the callbacks they cause after the block that those leave incomplete.
-/
theorem Runs.callbacks_append (runs : Runs answered v fs v') (gs : List Frame) :
    callbacks v.gathered (fs ++ gs) = callbacks v.gathered fs ++ callbacks v'.gathered gs := by
  induction runs with
  | nil => rfl
  | cons takes _ ih =>
    rw [List.cons_append, callbacks, callbacks, ← takes.gathered_eq, ih, List.append_assoc]

end View

end Http2
