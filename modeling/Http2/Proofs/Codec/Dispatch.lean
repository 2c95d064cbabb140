import Http2.Proofs.Codec.Trace

/-!
# What one frame does

`dispatch` goes through many branches before a frame has its effect. The equations of this file say
what that effect is for each way in which a frame of a stream can be taken: it opens a header block,
continues one, moves its stream along the receive table, or is turned down. Each right-hand side
stores the stream once and makes at most one report.
-/

namespace Http2

variable {δ σ : Type}

/-! ## Joining fragments -/

/-- The contents of well-formed fragments are joined in order, behind what was joined before. -/
theorem joinFragments_go {frames : List Frame} {pieces : List Bytes}
    (carried : frames.map Frame.fragment = pieces.map .ok) (joined : List Bytes) :
    joinFragments.go frames joined = .ok (joined.reverse.flatten ++ pieces.flatten) := by
  induction frames generalizing pieces joined with
  | nil =>
    cases pieces with
    | nil => simp [joinFragments.go]
    | cons piece pieces => simp at carried
  | cons f frames ih =>
    cases pieces with
    | nil => simp at carried
    | cons piece pieces =>
      simp only [List.map_cons, List.cons.injEq] at carried
      obtain ⟨first, others⟩ := carried
      simp only [joinFragments.go, first]
      rw [ih others]
      simp

/-- Well-formed fragments are joined in order. -/
theorem joinFragments_eq {frames : List Frame} {pieces : List Bytes}
    (carried : frames.map Frame.fragment = pieces.map .ok) :
    joinFragments frames = .ok pieces.flatten :=
  joinFragments_go carried []

/-- A CONTINUATION carries its whole payload, whatever its flags. -/
theorem Frame.fragment_of_continuation {f : Frame} (kind : f.kind = .continuation) :
    f.fragment = .ok f.payload := by
  simp [fragment, unpadded, kind, FrameKind.isPaddable]

/-! ## Whether a header block is open -/

namespace Codec

/-- A block is open if the last frame carries a part of it and its stream waits for more. -/
theorem openBlock?_of_awaiting {c : Codec δ} {kind : FrameKind} {id : UInt32} {s : Stream δ}
    (noted : c.lastFrame = some (kind, id)) (carries : kind.carriesHeaderBlock)
    (stored : c.streams.get? id = some s) (awaits : s.awaiting) : c.openBlock? = some id := by
  simp only [openBlock?, noted, carries, stored, Option.any_some, awaits, Bool.and_self, if_true]

/-- No stream waits for CONTINUATION. -/
def Quiet (c : Codec δ) : Prop :=
  ∀ id, (c.streams.inbound id).awaiting = false

/-- If no stream waits, no block is open. -/
theorem Quiet.openBlock? {c : Codec δ} (quiet : c.Quiet) : c.openBlock? = none := by
  unfold Codec.openBlock?
  split
  · rfl
  · rename_i kind id noted
    cases found : c.streams.get? id with
    | none => simp
    | some s =>
      have settled : s.awaiting = false := by
        rw [← Registry.inbound_of_get? found]
        exact quiet id
      simp [settled]

/-- A block is open if the last frame carried a part of it and its stream waits. -/
theorem openBlock?_of_inbound {c : Codec δ} {kind : FrameKind} {id : UInt32}
    (noted : c.lastFrame = some (kind, id)) (carries : kind.carriesHeaderBlock)
    (awaits : (c.streams.inbound id).awaiting) : c.openBlock? = some id := by
  cases found : c.streams.get? id with
  | none => simp [Registry.inbound, found] at awaits
  | some s =>
    rw [Registry.inbound_of_get? found] at awaits
    exact openBlock?_of_awaiting noted carries found awaits

/-- The receive table decides about a frame: no header block is open, and the frame is one of a stream
that is neither ignored nor continues a block. -/
structure Judges (c : Codec δ) (f : Frame) : Prop where
  closed : c.openBlock? = none
  heeded : Endpoint.isIgnored f = false
  stream : f.stream ≠ 0
  kind : f.kind ≠ .continuation

end Codec

namespace Endpoint

variable {h : Handler δ σ} {e : Endpoint δ σ} {f : Frame}

theorem inbound_putStream (e : Endpoint δ σ) (s : Stream δ) :
    (e.putStream s).codec.streams.inbound s.id = s := by
  simp [putStream, Codec.putStream, Registry.inbound]

/-- Only the last stream stored under an identifier counts. -/
theorem putStream_putStream (e : Endpoint δ σ) {s s' : Stream δ} (same : s.id = s'.id) :
    (e.putStream s).putStream s' = e.putStream s' := by
  simp only [putStream, Codec.putStream, Registry.put_put _ same]

theorem inbound_note_putStream (e : Endpoint δ σ) (f : Frame) (s : Stream δ) (id : UInt32) :
    ((e.note f).putStream s).codec.streams.inbound id =
      if s.id = id then s else e.codec.streams.inbound id :=
  Registry.inbound_put _ s id

/-- If a settled stream is stored, still no stream waits. -/
theorem quiet_note_putStream {s : Stream δ} (quiet : e.codec.Quiet) (settled : s.awaiting = false) :
    ((e.note f).putStream s).codec.Quiet := by
  intro id
  rw [inbound_note_putStream]
  split
  · exact settled
  · exact quiet id

/-! ## Stored fragments -/

/-- A fragment before the last is kept. -/
theorem afterFragment_more {s : Stream δ} {id : UInt32} (same : s.id = id)
    (small : Frame.payloadSize s.fragments ≤ maxHeaderBlockSize) :
    (e.putStream s).afterFragment h id false = { endpoint := e.putStream s } := by
  have stored : (e.putStream s).codec.streams.get? id = some s :=
    Registry.get?_put_of_id _ same
  simp only [afterFragment, stored, Nat.not_lt.mpr small, Bool.false_eq_true, if_false]

/-- The last fragment of a block delivers it. -/
theorem afterFragment_last {s : Stream δ} {id : UInt32} {block : Bytes} (same : s.id = id)
    (small : Frame.payloadSize s.fragments ≤ maxHeaderBlockSize)
    (joined : joinFragments s.fragments = .ok block) :
    (e.putStream s).afterFragment h id true =
      { endpoint := (e.putStream { s with fragments := [], awaiting := false }).report h
          (.headers id (HeaderBlock.decode block) (blockEndsStream s.fragments)) } := by
  have stored : (e.putStream s).codec.streams.get? id = some s :=
    Registry.get?_put_of_id _ same
  simp only [afterFragment, stored, Nat.not_lt.mpr small, if_false, if_true, joined]
  rw [putStream_putStream]
  · rfl
  · rfl

/-! ## Frames that come while no header block is open -/

/-- Frames of a stream that the receive table decides about whatever their flags. -/
structure Tabled (f : Frame) : Prop where
  kind : f.kind = .headers ∨ f.kind = .pushPromise ∨ f.kind = .data ∨ f.kind = .rstStream
  stream : f.stream ≠ 0

/-- A frame of the table is judged unless a block is open. -/
theorem Tabled.judged (tabled : Tabled f) (closed : e.codec.openBlock? = none) : e.codec.Judges f := by
  obtain ⟨kind, stream⟩ := tabled
  rcases kind with kind | kind | kind | kind <;>
    exact ⟨closed, by simp [isIgnored, kind, FrameKind.isConnectionLevel, FrameKind.isUnknown],
      stream, by simp [kind]⟩

/-- A judged frame goes to the receive table. -/
theorem dispatch_judged (judged : e.codec.Judges f) : e.dispatch h f = (e.note f).applyFrame h f := by
  simp only [dispatch, judged.closed, admitFrame, judged.heeded, judged.stream, judged.kind,
    Bool.false_eq_true, if_false]

/-- A judged frame that the table accepts is applied to its stream, which is registered by then. -/
theorem dispatch_accepted {next : StreamState} (judged : e.codec.Judges f)
    (accepted : (e.codec.streams.inbound f.stream).state.transition .inbound f.kind f.flags =
      .accept next) :
    e.dispatch h f = ((e.note f).putStream (e.codec.streams.inbound f.stream)).acceptFrame h f
      (e.codec.streams.inbound f.stream) next := by
  rw [dispatch_judged judged]
  simp only [applyFrame, show (e.note f).codec.streams = e.codec.streams from rfl, accepted]

/-- A frame that opens a header block stores its fragment. -/
theorem dispatch_opening {next : StreamState} {fragment : Bytes}
    (closed : e.codec.openBlock? = none) (opens : f.kind = .headers ∨ f.kind = .pushPromise)
    (stream : f.stream ≠ 0)
    (accepted : (e.codec.streams.inbound f.stream).state.transition .inbound f.kind f.flags =
      .accept next)
    (wellFormed : f.fragment = .ok fragment) :
    e.dispatch h f =
      ((e.note f).putStream { e.codec.streams.inbound f.stream with
        state := next, fragments := [f], awaiting := true }).afterFragment h f.stream
          (f.hasFlag Flag.endHeaders) := by
  have tabled : Tabled f := ⟨opens.imp_right .inl, stream⟩
  rw [dispatch_accepted (tabled.judged closed) accepted]
  rcases opens with opens | opens <;>
    · simp only [acceptFrame, opens, wellFormed, Registry.id_inbound]
      rw [putStream_putStream]
      exact Registry.id_inbound _ _

/-- An accepted DATA frame moves its stream and is reported. -/
theorem dispatch_data {next : StreamState} {data : Bytes} (closed : e.codec.openBlock? = none)
    (kind : f.kind = .data) (stream : f.stream ≠ 0)
    (accepted : (e.codec.streams.inbound f.stream).state.transition .inbound f.kind f.flags =
      .accept next)
    (wellFormed : f.unpadded = .ok data) :
    e.dispatch h f =
      { endpoint := ((e.note f).putStream { e.codec.streams.inbound f.stream with
          state := next }).report h (.body f.stream data (f.hasFlag Flag.endStream)) } := by
  have tabled : Tabled f := ⟨.inr (.inr (.inl kind)), stream⟩
  rw [dispatch_accepted (tabled.judged closed) accepted]
  simp only [acceptFrame, kind, wellFormed, Registry.id_inbound]
  rw [putStream_putStream]
  · rfl
  · exact Registry.id_inbound _ _

/-- Any other accepted frame moves its stream. -/
theorem dispatch_moved {next : StreamState} (judged : e.codec.Judges f)
    (kind : f.kind ≠ .headers ∧ f.kind ≠ .pushPromise ∧ f.kind ≠ .data)
    (accepted : (e.codec.streams.inbound f.stream).state.transition .inbound f.kind f.flags =
      .accept next) :
    e.dispatch h f =
      { endpoint := (e.note f).putStream { e.codec.streams.inbound f.stream with
          state := next } } := by
  rw [dispatch_accepted judged accepted]
  unfold acceptFrame
  split
  · exact absurd ‹_› kind.1
  · exact absurd ‹_› kind.2.1
  · exact absurd ‹_› kind.2.2
  · rw [putStream_putStream]
    rfl

/-- An accepted frame whose padding or priority data is malformed only registers its stream. -/
theorem dispatch_malformed {next : StreamState} {fault : FrameError} (judged : e.codec.Judges f)
    (accepted : (e.codec.streams.inbound f.stream).state.transition .inbound f.kind f.flags =
      .accept next)
    (wrong : (f.kind = .headers ∨ f.kind = .pushPromise) ∧ f.fragment = .error fault ∨
      f.kind = .data ∧ f.unpadded = .error fault) :
    e.dispatch h f =
      { endpoint := (e.note f).putStream (e.codec.streams.inbound f.stream)
        fault := some fault } := by
  rw [dispatch_accepted judged accepted]
  rcases wrong with ⟨kind | kind, malformed⟩ | ⟨kind, malformed⟩ <;>
    simp only [acceptFrame, kind, malformed]

/-- A frame that the table ignores only registers its stream. -/
theorem dispatch_unmoved (judged : e.codec.Judges f)
    (ignored : (e.codec.streams.inbound f.stream).state.transition .inbound f.kind f.flags =
      .ignore) :
    e.dispatch h f =
      { endpoint := (e.note f).putStream (e.codec.streams.inbound f.stream) } := by
  rw [dispatch_judged judged]
  simp only [applyFrame, show (e.note f).codec.streams = e.codec.streams from rfl, ignored]

/-- A frame that the table rejects closes its stream and is reported. -/
theorem dispatch_rejected {fault : StreamError} (judged : e.codec.Judges f)
    (rejected : (e.codec.streams.inbound f.stream).state.transition .inbound f.kind f.flags =
      .reject fault) :
    e.dispatch h f =
      { endpoint := ((e.note f).putStream (e.codec.streams.inbound f.stream).failed).report h
          (.error f.stream fault) } := by
  rw [dispatch_judged judged]
  have stored := inbound_putStream (e.note f) (e.codec.streams.inbound f.stream)
  rw [Registry.id_inbound] at stored
  simp only [applyFrame, show (e.note f).codec.streams = e.codec.streams from rfl, rejected,
    failStream, stored]
  rw [putStream_putStream]
  · rfl
  · rfl

/-- Frames of the whole connection and of unknown kinds do nothing. -/
theorem dispatch_ignored (closed : e.codec.openBlock? = none) (ignored : isIgnored f = true) :
    e.dispatch h f = { endpoint := e.note f } := by
  simp only [dispatch, closed, admitFrame, ignored, if_true]

/-- A frame of a stream must not come on stream 0. -/
theorem dispatch_streamZero (closed : e.codec.openBlock? = none) (heeded : isIgnored f = false)
    (zero : f.stream = 0) :
    e.dispatch h f = { endpoint := e.note f, fault := some (.streamZero f.kind) } := by
  simp only [dispatch, closed, admitFrame, heeded, zero, Bool.false_eq_true, if_false, if_true]

/-! ## Frames that interrupt a header block -/

/-- Only a CONTINUATION of its stream continues a header block. -/
theorem dispatch_interrupting {owner : UInt32} (opened : e.codec.openBlock? = some owner)
    (other : ¬(f.kind = .continuation ∧ f.stream = owner)) :
    e.dispatch h f = { endpoint := (e.note f).interruptBlock h f owner } := by
  simp only [dispatch, opened, other, if_false]

/-! ## CONTINUATION frames -/

/-- A CONTINUATION of the open header block stores its fragment. -/
theorem dispatch_continuation (opened : e.codec.openBlock? = some f.stream)
    (kind : f.kind = .continuation) (stream : f.stream ≠ 0) :
    e.dispatch h f =
      ((e.note f).putStream { e.codec.streams.inbound f.stream with
        fragments := (e.codec.streams.inbound f.stream).fragments ++ [f] }).afterFragment h f.stream
          (f.hasFlag Flag.endHeaders) := by
  simp [dispatch, opened, kind, stream, admitFrame, isIgnored, FrameKind.isConnectionLevel,
    FrameKind.isUnknown, continueBlock, note]

/-- A CONTINUATION that continues nothing closes its stream and is reported. -/
theorem dispatch_stray (closed : e.codec.openBlock? = none) (kind : f.kind = .continuation)
    (stream : f.stream ≠ 0) :
    e.dispatch h f =
      { endpoint := ((e.note f).putStream (e.codec.streams.inbound f.stream).failed).report h
          (.error f.stream .protocolError) } := by
  simp [dispatch, closed, kind, stream, admitFrame, isIgnored, FrameKind.isConnectionLevel,
    FrameKind.isUnknown, continueBlock, failStream, report, note]
  rfl

end Endpoint

end Http2
