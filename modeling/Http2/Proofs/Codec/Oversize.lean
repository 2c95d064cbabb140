import Http2.Proofs.Codec.Aggregation
import Http2.Proofs.Codec.History
import Http2.Proofs.Frame.Padding

/-!
# The size limit of header blocks

The check on the size of a header block counts the payloads of its frames, not the block that they
carry. Only the opening frame has bytes around its piece of the block, at most 261 of them, and these
count as well: `header_block_limit` has a term for them, and `padded_block_is_refused` is a block at the
limit that is refused for one byte of padding length.
-/

namespace Http2

variable {δ σ : Type}

/-! ## What an application hears -/

/-- The callback that an event is. -/
def Event.callback? : Event δ → Option Callback
  | .called callback => some callback
  | .performed .. => none

/-- What a script does is not a callback. -/
theorem Script.filterMap_steps {α : Type} (s : Script δ α) (c : Codec δ) :
    (s.steps c).filterMap Event.callback? = [] := by
  induction s generalizing c with
  | done value => rfl
  | call op next ih => exact ih _ _

namespace Endpoint

/-- The callbacks in the history beside the application's state. -/
def heard (e : Endpoint δ (σ × List (Event δ))) : List Callback :=
  e.app.2.filterMap Event.callback?

/-- One callback is one more that was heard, whatever the application does about it. -/
theorem heard_report (h : Handler δ σ) (e : Endpoint δ (σ × List (Event δ))) (callback : Callback) :
    (e.report h.traced callback).heard = e.heard ++ [callback] := by
  obtain ⟨codec, app, log⟩ := e
  simp only [report, play, heard, Handler.on_traced, Script.run_traced, List.filterMap_append,
    Script.filterMap_steps, List.append_nil]
  rfl

end Endpoint

/-! ## CONTINUATIONs behind a header block that was refused -/

namespace Endpoint

variable {h : Handler δ σ} {f : Frame} {id : UInt32}

/-- A CONTINUATION behind a refused header block is an error of its own. -/
theorem heard_stray {e : Endpoint δ (σ × List (Event δ))} (quiet : e.codec.Quiet)
    (kind : f.kind = .continuation) (stream : f.stream ≠ 0) :
    let after := (e.completing f).dispatch h.traced f
    after.fault = none ∧ after.endpoint.codec.Quiet ∧
      after.endpoint.heard = e.heard ++ [.error f.stream .protocolError] := by
  intro after
  have stray : after = _ := dispatch_stray (e := e.completing f) quiet.openBlock? kind stream
  rw [stray]
  have stored := quiet_note_putStream (e := e.completing f) (f := f)
    (s := (e.codec.streams.inbound f.stream).failed) quiet rfl
  exact ⟨rfl, stored.report _ _, heard_report h _ _⟩

/-- Once a block was refused, each CONTINUATION of it is heard as one more error. -/
theorem heard_strays {e : Endpoint δ (σ × List (Event δ))} {frames : List Frame}
    (quiet : e.codec.Quiet) (nonzero : id ≠ 0)
    (continues : ∀ f ∈ frames, f.kind = .continuation ∧ f.stream = id) :
    let after := e.dispatchAll h.traced frames
    after.fault = none ∧
      after.endpoint.heard = e.heard ++ List.replicate frames.length (.error id .protocolError) := by
  induction frames generalizing e with
  | nil => exact ⟨rfl, (List.append_nil _).symm⟩
  | cons f frames ih =>
    obtain ⟨kind, rfl⟩ := continues f List.mem_cons_self
    obtain ⟨fine, quietNext, heard⟩ := heard_stray (h := h) quiet kind nonzero
    obtain ⟨fineRest, heardRest⟩ := ih quietNext fun g later => continues g (List.mem_cons_of_mem f later)
    rw [heard, List.append_assoc, List.singleton_append, ← List.replicate_succ] at heardRest
    rw [dispatchAll, Received.andThen_of_none fine]
    exact ⟨fineRest, heardRest⟩

end Endpoint

/-! ## The frame that makes a block too large -/

/-- Frames that are too large together are so from one of them on. -/
theorem Frame.exists_overflow {limit : Nat} {frames : List Frame} (large : limit < payloadSize frames) :
    ∃ front f back, frames = front ++ f :: back ∧ payloadSize front ≤ limit ∧
      limit < payloadSize (front ++ [f]) := by
  induction frames generalizing limit with
  | nil => exact absurd large (Nat.not_lt_zero limit)
  | cons g rest ih =>
    rw [payloadSize] at large
    by_cases first : limit < g.length
    · exact ⟨[], g, rest, rfl, Nat.zero_le _, by simpa [payloadSize] using first⟩
    · have left : limit - g.length < payloadSize rest := by omega
      obtain ⟨front, f, back, rfl, small, large⟩ := ih left
      refine ⟨g :: front, f, back, rfl, ?_, ?_⟩ <;> simp only [List.cons_append, payloadSize] <;> omega

namespace Codec

/-- The codec when a header block of which `last` is the latest frame is about to be refused. -/
def refusing (c : Codec δ) (id : UInt32) (last : Frame) : Codec δ :=
  { c with
    assembler := c.assembler.emptied last
    lastFrame := some (last.kind, id)
    streams := c.streams.put (c.streams.inbound id).failed }

/-- A block that is refused closes its stream. -/
theorem stream?_refusing (c : Codec δ) (id : UInt32) (last : Frame) :
    (c.refusing id last).stream? id = some (c.streams.inbound id).failed :=
  Registry.get?_put_of_id _ (Registry.id_inbound _ _)

/-- Refusing a block leaves no stream waiting. -/
theorem Quiet.refusing {c : Codec δ} (quiet : c.Quiet) (id : UInt32) (last : Frame) :
    (c.refusing id last).Quiet := by
  intro other
  rw [Codec.refusing, Registry.inbound_put]
  split
  · rfl
  · exact quiet other

end Codec

namespace Endpoint

variable {c : Codec δ} {h : Handler δ σ} {app : σ} {next : StreamState} {id : UInt32}
  {opening : Frame} {continuations : List Frame} {fragment : Bytes}

/-- A frame that makes a block too large fails its stream, whether it is the last one or not. -/
theorem afterFragment_refusing {fragments : List Frame} {last : Frame} {ended : Bool}
    (large : maxHeaderBlockSize < Frame.payloadSize fragments) :
    (⟨c.gathering id next fragments last, app⟩ : Endpoint δ σ).afterFragment h id ended =
      { endpoint := (⟨c.refusing id last, app⟩ : Endpoint δ σ).report h
          (.error id .protocolError) } :=
  afterFragment_overflowed
    (e := ⟨{ c with assembler := c.assembler.emptied last, lastFrame := some (last.kind, id) }, app⟩)
    (s := { c.streams.inbound id with state := next, fragments, awaiting := true })
    (Registry.id_inbound _ _) large ended

/-- No callback fires before the frame that makes a block too large, and this one fails the stream. -/
theorem dispatchAll_refusing (h : Handler δ σ) (app : σ) (closed : c.openBlock? = none)
    (block : HeaderFrames opening continuations)
    (accepted : (c.streams.inbound opening.stream).state.transition .inbound opening.kind
      opening.flags = .accept next)
    (wellFormed : opening.fragment = .ok fragment) {front back : List Frame} {f : Frame}
    (split : opening :: continuations = front ++ f :: back)
    (small : Frame.payloadSize front ≤ maxHeaderBlockSize)
    (large : maxHeaderBlockSize < Frame.payloadSize (front ++ [f])) :
    let start : Endpoint δ σ := ⟨c, app⟩
    (∃ c', start.dispatchAll h front = { endpoint := ⟨c', app⟩ }) ∧
      start.dispatchAll h (front ++ [f]) =
        { endpoint := (⟨c.refusing opening.stream f, app⟩ : Endpoint δ σ).report h
            (.error opening.stream .protocolError) } := by
  intro start
  cases front with
  | nil =>
    obtain ⟨rfl, rfl⟩ := List.cons.inj split
    refine ⟨⟨c, rfl⟩, ?_⟩
    rw [List.nil_append] at large ⊢
    rw [dispatchAll, dispatch_opening_gathering closed block.opens block.stream accepted wellFormed,
      afterFragment_refusing large]
    rfl
  | cons first more =>
    rw [List.cons_append, List.cons.injEq] at split
    obtain ⟨rfl, rfl⟩ := split
    have unended : ∀ g ∈ opening :: more, g.hasFlag Flag.endHeaders = false := by
      intro g member
      refine block.unended g ?_
      rw [← List.cons_append, List.dropLast_append_of_ne_nil (List.cons_ne_nil f back)]
      exact List.mem_append_left _ member
    obtain ⟨last, carries, gathered⟩ := dispatchAll_unended h app closed block.opens block.stream
      accepted wellFormed (fun g member => block.continues g (List.mem_append_left _ member)) unended
      small
    obtain ⟨kind, stream⟩ := block.continues f (List.mem_append_right more List.mem_cons_self)
    refine ⟨⟨_, gathered⟩, ?_⟩
    rw [dispatchAll_append, gathered, Received.andThen_of_none rfl, dispatchAll,
      dispatch_gathering carries kind stream block.stream, afterFragment_refusing large]
    rfl

/-- A header block of the stream `id` is refused at its frame `f`. -/
structure RefusesAt (h : Handler δ σ) (start : Endpoint δ (σ × List (Event δ))) (id : UInt32)
    (front : List Frame) (f : Frame) (back : List Frame) : Prop where
  /-- Nothing is heard before. -/
  silent : ∃ c, start.dispatchAll h.traced front = { endpoint := ⟨c, start.app⟩ }
  /-- The application is told when the stream is closed and the block gone. -/
  told : ∃ c, c.stream? id = some (start.codec.streams.inbound id).failed ∧ c.openBlock? = none ∧
    start.dispatchAll h.traced (front ++ [f]) =
      { endpoint := report h.traced ⟨c, start.app⟩ (.error id .protocolError) }
  /-- Every frame behind is an error of its own, and no fault. -/
  heard : (start.dispatchAll h.traced (front ++ f :: back)).endpoint.heard =
    start.heard ++ List.replicate (back.length + 1) (.error id .protocolError)
  fine : (start.dispatchAll h.traced (front ++ f :: back)).fault = none

/-- A block is refused at the frame that makes it too large. -/
theorem refusesAt (h : Handler δ σ) (app : σ) (log : List (Event δ)) (quiet : c.Quiet)
    (block : HeaderFrames opening continuations)
    (accepted : (c.streams.inbound opening.stream).state.transition .inbound opening.kind
      opening.flags = .accept next)
    (wellFormed : opening.fragment = .ok fragment) {front back : List Frame} {f : Frame}
    (split : opening :: continuations = front ++ f :: back)
    (small : Frame.payloadSize front ≤ maxHeaderBlockSize)
    (large : maxHeaderBlockSize < Frame.payloadSize (front ++ [f])) :
    RefusesAt h ⟨c, (app, log)⟩ opening.stream front f back := by
  obtain ⟨silent, refused⟩ := dispatchAll_refusing h.traced (app, log) quiet.openBlock? block
    accepted wellFormed split small large
  have quietAfter := quiet.refusing opening.stream f
  have behind : ∀ g ∈ back, g.kind = .continuation ∧ g.stream = opening.stream := by
    intro g member
    refine block.continues g ?_
    cases front with
    | nil => exact (List.cons.inj split).2 ▸ member
    | cons first more =>
      rw [(List.cons.inj split).2]
      exact List.mem_append_right _ (List.mem_cons_of_mem f member)
  let told : Endpoint δ (σ × List (Event δ)) :=
    report h.traced ⟨c.refusing opening.stream f, (app, log)⟩ (.error opening.stream .protocolError)
  have quietTold : told.codec.Quiet :=
    Codec.Quiet.report (e := ⟨c.refusing opening.stream f, (app, log)⟩) quietAfter _ _
  obtain ⟨fine, heard⟩ := heard_strays (h := h) quietTold block.stream behind
  have all : (⟨c, (app, log)⟩ : Endpoint δ _).dispatchAll h.traced (front ++ f :: back) =
      told.dispatchAll h.traced back := by
    rw [List.append_cons, dispatchAll_append, refused, Received.andThen_of_none rfl]
  refine ⟨silent, ⟨_, c.stream?_refusing _ f, quietAfter.openBlock?, refused⟩, ?_, ?_⟩
  · rw [all, heard, heard_report, List.append_assoc, List.singleton_append, ← List.replicate_succ]
    rfl
  · rw [all]
    exact fine

end Endpoint

/-- The payloads of a block are the block that they carry and what is around its first piece. -/
theorem Frame.payloadSize_of_fragment {opening : Frame} {continuations : List Frame} {fragment : Bytes}
    (wellFormed : opening.fragment = .ok fragment) :
    payloadSize (opening :: continuations) =
      (fragment ++ (continuations.map Frame.payload).flatten).length + opening.wrapping := by
  have others : payloadSize continuations = (continuations.map Frame.payload).flatten.length := by
    induction continuations with
    | nil => rfl
    | cons f rest ih =>
      rw [payloadSize, ih, List.map_cons, List.flatten_cons, List.length_append]
      rfl
  rw [payloadSize, others, (fragment_eq_ok_iff.mp wellFormed).length_eq,
    List.length_append]
  omega

/-- A header block is delivered exactly if it fits together with the bytes around its first piece. These
are a pad length, padding and priority data, at most 261 bytes, and none if the opening frame has
neither flag. A block that does not fit is refused at the frame that makes its payloads too large, and
is not delivered. The same happens when the frames come in as bytes. -/
theorem header_block_limit {c : Codec δ} (reachable : c.Reachable) (closed : c.openBlock? = none)
    {opening : Frame} {continuations : List Frame} (block : HeaderFrames opening continuations)
    {next : StreamState}
    (accepted : (c.streams.inbound opening.stream).state.transition .inbound opening.kind
      opening.flags = .accept next)
    {fragment : Bytes} (wellFormed : opening.fragment = .ok fragment)
    (h : Handler δ σ) (app : σ) :
    let frames := opening :: continuations
    let start : Endpoint δ (σ × List (Event δ)) := ⟨c, (app, [])⟩
    let after := start.dispatchAll h.traced frames
    let carried := fragment ++ (continuations.map Frame.payload).flatten
    let delivery := Callback.headers opening.stream (HeaderBlock.decode carried)
      (opening.kind = .headers && opening.hasFlag Flag.endStream)
    after.fault = none ∧ opening.wrapping ≤ 261 ∧
      (after.endpoint.heard = [delivery] ↔
        carried.length + opening.wrapping ≤ maxHeaderBlockSize) ∧
      (maxHeaderBlockSize < carried.length + opening.wrapping →
        ∃ front f back, frames = front ++ f :: back ∧
          Frame.payloadSize front ≤ maxHeaderBlockSize ∧
          maxHeaderBlockSize < Frame.payloadSize (front ++ [f]) ∧
          start.RefusesAt h opening.stream front f back) ∧
      ((∀ f ∈ frames, f.length ≤ c.maxFrameSize) → ∀ chunks,
        c.assembler.progress.buffer ++ chunks.flatten = frames.flatMap Frame.toBytes →
          start.processAll h.traced chunks = after) := by
  intro frames start after carried delivery
  have size : Frame.payloadSize frames = carried.length + opening.wrapping :=
    Frame.payloadSize_of_fragment wellFormed
  have quiet : c.Quiet := fun id => (reachable.consistent.rests_of_closed closed id).settled
  have delivered (fits : carried.length + opening.wrapping ≤ maxHeaderBlockSize) :
      after.fault = none ∧ after.endpoint.heard = [delivery] := by
    have fired : after = _ :=
      Endpoint.dispatchAll_block closed block accepted wellFormed (size ▸ fits)
    rw [fired]
    exact ⟨rfl, Endpoint.heard_report h _ delivery⟩
  have refused (exceeds : maxHeaderBlockSize < carried.length + opening.wrapping) :
      ∃ front f back, frames = front ++ f :: back ∧
        Frame.payloadSize front ≤ maxHeaderBlockSize ∧
        maxHeaderBlockSize < Frame.payloadSize (front ++ [f]) ∧
        start.RefusesAt h opening.stream front f back := by
    rw [← size] at exceeds
    obtain ⟨front, f, back, split, small, large⟩ := Frame.exists_overflow exceeds
    exact ⟨front, f, back, split, small, large,
      Endpoint.refusesAt h app [] quiet block accepted wellFormed split small large⟩
  refine ⟨?_, opening.wrapping_le, ⟨fun heard => ?_, fun fits => (delivered fits).2⟩, refused, ?_⟩
  · by_cases fits : carried.length + opening.wrapping ≤ maxHeaderBlockSize
    · exact (delivered fits).1
    · obtain ⟨front, f, back, split, -, -, refuses⟩ := refused (Nat.lt_of_not_le fits)
      rw [show after = start.dispatchAll h.traced frames from rfl, split]
      exact refuses.fine
  · refine Nat.le_of_not_lt fun exceeds => ?_
    obtain ⟨front, f, back, split, -, -, refuses⟩ := refused exceeds
    have errors := refuses.heard
    rw [← split, show (start.dispatchAll h.traced frames).endpoint.heard = [delivery] from heard,
      List.replicate_succ] at errors
    obtain ⟨same, -⟩ := List.cons.inj errors
    simp only [delivery, reduceCtorEq] at same
  · intro fits chunks spelled
    have framed : start.codec.Framed := reachable.framed
    rw [Endpoint.processAll_eq _ framed, Endpoint.process_eq_dispatchAll _ framed fits spelled]

/-- A short block in one padded frame, on a fresh server. -/
theorem header_block_limit_of_padded_frame :
    let opening := Frame.ofParts .headers (Flag.padded ||| Flag.endHeaders) 1 [1, 97, 61, 98, 0]
    let start : Endpoint Unit (Unit × List (Event Unit)) := ⟨.create .server 16384, ((), [])⟩
    let h : Handler Unit Unit := { onHeaders := fun _ _ _ _ => .done (), onBody := fun _ _ _ _ => .done () }
    HeaderFrames opening [] ∧ opening.fragment = .ok [97, 61, 98] ∧ opening.wrapping = 2 ∧
      (start.dispatchAll h.traced [opening]).endpoint.heard =
        [.headers 1 (HeaderBlock.decode [97, 61, 98]) false] := by
  intro opening start h
  have block : HeaderFrames opening [] := ⟨.inl rfl, by decide, by simp, by decide, by decide⟩
  have wellFormed : opening.fragment = .ok [97, 61, 98] :=
    Frame.fragment_eq_ok_iff.mpr
      (.plain (.padded (by decide) (show _ = 1 :: ([97, 61, 98] ++ [0]) from rfl) rfl) (by decide))
  have accepted : (start.codec.streams.inbound opening.stream).state.transition .inbound opening.kind
      opening.flags = .accept .opened := by decide +kernel
  have stream : opening.stream = 1 := by decide
  have last : (decide (opening.kind = .headers) && opening.hasFlag Flag.endStream) = false := by
    decide
  have heard := (header_block_limit (.create .server 16384) rfl block accepted wellFormed h
    ()).2.2.1.mpr (by decide)
  rw [stream, last] at heard
  exact ⟨block, wellFormed, by decide, heard⟩

/-- A header block as long as the limit is refused in a frame that is padded with nothing, for the byte
that says so. -/
theorem refused_of_padded {carried : Bytes} (size : carried.length = maxHeaderBlockSize) :
    let opening := Frame.ofParts .headers (Flag.padded ||| Flag.endHeaders) 1 (0 :: carried)
    let start : Endpoint Unit (List Callback) := ⟨.create .server maxFrameLength, []⟩
    HeaderFrames opening [] ∧ opening.fragment = .ok carried ∧
      opening.length ≤ start.codec.maxFrameSize ∧
      (start.process .recorder opening.toBytes).endpoint.app = [.error 1 .protocolError] := by
  intro opening start
  have length : opening.length = maxHeaderBlockSize + 1 := congrArg (· + 1) size
  have kind : opening.kind = .headers := rfl
  have stream : opening.stream = 1 := show 1 &&& maxStreamId &&& maxStreamId = 1 by decide
  have flagged (mask : UInt8) : opening.hasFlag mask = Flag.has (Flag.padded ||| Flag.endHeaders) mask :=
    rfl
  have padded : (opening.kind.isPaddable && opening.hasFlag Flag.padded) = true := by
    rw [kind, flagged]
    decide
  have weightless : opening.isWeighted = false := by
    rw [Frame.isWeighted, kind, flagged]
    decide
  have ended : opening.hasFlag Flag.endHeaders = true := by
    rw [flagged]
    decide
  have block : HeaderFrames opening [] :=
    ⟨.inl kind, by rw [stream]; decide, fun f member => (List.not_mem_nil member).elim,
      fun f member => (List.not_mem_nil member).elim, ended⟩
  have wellFormed : opening.fragment = .ok carried := by
    have payload : opening.payload = 0 :: (carried ++ []) := congrArg _ (List.append_nil carried).symm
    exact Frame.fragment_eq_ok_iff.mpr (.plain (.padded padded payload rfl) weightless)
  have accepted : (start.codec.streams.inbound opening.stream).state.transition .inbound opening.kind
      opening.flags = .accept .opened := by
    rw [stream, kind, show opening.flags = Flag.padded ||| Flag.endHeaders from rfl]
    decide +kernel
  have fits : opening.length ≤ start.codec.maxFrameSize := by
    rw [length]
    decide
  have large : maxHeaderBlockSize < Frame.payloadSize ([] ++ [opening]) := by
    rw [List.nil_append, Frame.payloadSize, length]
    exact Nat.lt_succ_self _
  obtain ⟨-, refused⟩ := Endpoint.dispatchAll_refusing .recorder [] rfl block accepted wellFormed rfl
    (Nat.zero_le _) large
  refine ⟨block, wellFormed, fits, ?_⟩
  have processed : start.process .recorder opening.toBytes = start.dispatchAll .recorder [opening] :=
    Endpoint.process_eq_dispatchAll _ (Codec.framed_create .server maxFrameLength)
      (fun f member => List.mem_singleton.mp member ▸ fits) (List.append_nil _).symm
  rw [processed, ← List.nil_append [opening], refused, Endpoint.report_recorder, stream,
    List.nil_append]

/-- A header block that is not longer than the limit is not delivered. -/
theorem padded_block_is_refused :
    let carried : Bytes := List.replicate maxHeaderBlockSize 97
    let opening := Frame.ofParts .headers (Flag.padded ||| Flag.endHeaders) 1 (0 :: carried)
    let start : Endpoint Unit (List Callback) := ⟨.create .server maxFrameLength, []⟩
    HeaderFrames opening [] ∧ opening.fragment = .ok carried ∧
      carried.length ≤ maxHeaderBlockSize ∧ opening.length ≤ start.codec.maxFrameSize ∧
      (start.process .recorder opening.toBytes).endpoint.app = [.error 1 .protocolError] := by
  intro carried opening start
  have size : carried.length = maxHeaderBlockSize := List.length_replicate
  obtain ⟨block, wellFormed, fits, refused⟩ := refused_of_padded size
  exact ⟨block, wellFormed, Nat.le_of_eq size, fits, refused⟩

end Http2
