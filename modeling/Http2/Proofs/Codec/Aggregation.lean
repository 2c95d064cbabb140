import Http2.Proofs.Codec.Dispatch
import Http2.Proofs.Codec.Reachable

/-!
# Header blocks in many frames

The fragments of a header block arrive in one HEADERS or PUSH_PROMISE frame and any number of
CONTINUATIONs. `dispatchAll_gathering` is the invariant while the block is open: the stream keeps
the frames that came so far, in order, and no callback fires. `header_block_fires_once` says what
happens with its last frame.
-/

namespace Http2

variable {δ σ : Type}

/-! ## The frames of one block -/

/-- The frames of one header block, of which the last one and no other ends the block. -/
structure HeaderFrames (opening : Frame) (continuations : List Frame) : Prop where
  opens : opening.kind = .headers ∨ opening.kind = .pushPromise
  stream : opening.stream ≠ 0
  continues : ∀ f ∈ continuations, f.kind = .continuation ∧ f.stream = opening.stream
  unended : ∀ f ∈ (opening :: continuations).dropLast, f.hasFlag Flag.endHeaders = false
  ended : (continuations.getLastD opening).hasFlag Flag.endHeaders

namespace HeaderFrames

variable {opening : Frame} {continuations : List Frame}

/-- The header block that the frames carry, cut as they carry it. -/
theorem fragments (block : HeaderFrames opening continuations) {fragment : Bytes}
    (wellFormed : opening.fragment = .ok fragment) :
    (opening :: continuations).map Frame.fragment =
      (fragment :: continuations.map Frame.payload).map .ok := by
  have others : continuations.map Frame.fragment =
      continuations.map fun f => .ok f.payload :=
    List.map_congr_left fun f member => Frame.fragment_of_continuation (block.continues f member).1
  simp [wellFormed, others]

/-- No frame before the last of several ends the block. -/
theorem unended_of_concat {more : List Frame} {final : Frame}
    (block : HeaderFrames opening (more ++ [final])) :
    ∀ f ∈ opening :: more, f.hasFlag Flag.endHeaders = false := by
  have unended := block.unended
  rwa [← List.cons_append, List.dropLast_concat] at unended

/-- Of a block with continuations, the last continuation is what ends the headers. -/
theorem ended_of_concat {more : List Frame} {final : Frame}
    (block : HeaderFrames opening (more ++ [final])) : final.hasFlag Flag.endHeaders := by
  have ended := block.ended
  rwa [List.getLastD_concat] at ended

end HeaderFrames

namespace Codec

/-- The codec while a header block is open of which `last` is the latest frame. -/
def gathering (c : Codec δ) (id : UInt32) (next : StreamState) (fragments : List Frame)
    (last : Frame) : Codec δ :=
  { c with
    assembler := c.assembler.emptied last
    lastFrame := some (last.kind, id)
    streams := c.streams.put
      { c.streams.inbound id with state := next, fragments, awaiting := true } }

/-- The codec when a header block of which `last` is the last frame is about to be delivered. -/
def delivering (c : Codec δ) (id : UInt32) (next : StreamState) (last : Frame) : Codec δ :=
  { c with
    assembler := c.assembler.emptied last
    lastFrame := some (last.kind, id)
    streams := c.streams.put
      { c.streams.inbound id with state := next, fragments := [], awaiting := false } }

/-- The stream of the block while it is open. -/
theorem inbound_gathering (c : Codec δ) (id : UInt32) (next : StreamState) (fragments : List Frame)
    (last : Frame) :
    (c.gathering id next fragments last).streams.inbound id =
      { c.streams.inbound id with state := next, fragments, awaiting := true } :=
  Registry.inbound_put_of_id _ (Registry.id_inbound _ _)

/-- While its block gathers, the stream is the one with an open block. -/
theorem openBlock?_gathering (c : Codec δ) (id : UInt32) (next : StreamState)
    (fragments : List Frame) {last : Frame} (carries : last.kind.carriesHeaderBlock) :
    (c.gathering id next fragments last).openBlock? = some id :=
  openBlock?_of_awaiting rfl carries (Registry.get?_put_of_id _ (Registry.id_inbound _ _)) rfl

end Codec

namespace Endpoint

variable {h : Handler δ σ} {c : Codec δ} {app : σ} {next : StreamState} {id : UInt32}

/-- A CONTINUATION that comes while a block is open is stored behind the frames before it. -/
theorem dispatch_gathering {fragments : List Frame} {last f : Frame}
    (carries : last.kind.carriesHeaderBlock) (kind : f.kind = .continuation)
    (stream : f.stream = id) (nonzero : id ≠ 0) :
    ((⟨c.gathering id next fragments last, app⟩ : Endpoint δ σ).completing f).dispatch h f =
      (⟨c.gathering id next (fragments ++ [f]) f, app⟩ : Endpoint δ σ).afterFragment h id
        (f.hasFlag Flag.endHeaders) := by
  subst stream
  have opened : ((⟨c.gathering f.stream next fragments last, app⟩ :
      Endpoint δ σ).completing f).codec.openBlock? = some f.stream :=
    Codec.openBlock?_gathering c f.stream next fragments carries
  have stored : ((⟨c.gathering f.stream next fragments last, app⟩ :
      Endpoint δ σ).completing f).codec.streams.inbound f.stream = _ :=
    Codec.inbound_gathering c f.stream next fragments last
  rw [dispatch_continuation opened kind nonzero, stored]
  congr 1
  simp only [note, completing, withAssembler, putStream, Codec.putStream, Codec.gathering]
  rw [Registry.put_put]
  · rfl
  · rfl

/-- A block that is not ended and not too large goes on gathering. -/
theorem afterFragment_gathering {fragments : List Frame} {last : Frame}
    (small : Frame.payloadSize fragments ≤ maxHeaderBlockSize) :
    (⟨c.gathering id next fragments last, app⟩ : Endpoint δ σ).afterFragment h id false =
      { endpoint := ⟨c.gathering id next fragments last, app⟩ } :=
  afterFragment_more
    (e := ⟨{ c with assembler := c.assembler.emptied last, lastFrame := some (last.kind, id) }, app⟩)
    (s := { c.streams.inbound id with state := next, fragments, awaiting := true })
    (Registry.id_inbound _ _) small

/-- While CONTINUATIONs that do not end the block come, the stream keeps them in order and no
callback fires. -/
theorem dispatchAll_gathering (h : Handler δ σ) (c : Codec δ) (app : σ) (next : StreamState)
    {fragments more : List Frame} {last : Frame}
    (carries : last.kind.carriesHeaderBlock) (nonzero : id ≠ 0)
    (continues : ∀ f ∈ more, f.kind = .continuation ∧ f.stream = id)
    (unended : ∀ f ∈ more, f.hasFlag Flag.endHeaders = false)
    (small : Frame.payloadSize (fragments ++ more) ≤ maxHeaderBlockSize) :
    ∃ last', last'.kind.carriesHeaderBlock ∧
      (⟨c.gathering id next fragments last, app⟩ : Endpoint δ σ).dispatchAll h more =
        { endpoint := ⟨c.gathering id next (fragments ++ more) last', app⟩ } := by
  induction more generalizing fragments last with
  | nil => exact ⟨last, carries, by simp [dispatchAll]⟩
  | cons f more ih =>
    obtain ⟨kind, stream⟩ := continues f List.mem_cons_self
    have carriesNext : f.kind.carriesHeaderBlock := by rw [kind]; rfl
    rw [List.append_cons] at small ⊢
    have smallHere : Frame.payloadSize (fragments ++ [f]) ≤ maxHeaderBlockSize := by
      rw [Frame.payloadSize_append] at small
      omega
    obtain ⟨last', carries', gathered⟩ := ih carriesNext
      (fun f' later => continues f' (List.mem_cons_of_mem f later))
      (fun f' later => unended f' (List.mem_cons_of_mem f later)) small
    refine ⟨last', carries', ?_⟩
    rw [dispatchAll, dispatch_gathering carries kind stream nonzero, unended f List.mem_cons_self,
      afterFragment_gathering smallHere, Received.andThen_of_none rfl]
    exact gathered

/-- The end of a block that is not too large reports its fields, and whether they end the stream. -/
theorem afterFragment_delivering {fragments : List Frame} {last : Frame} {block : Bytes}
    (small : Frame.payloadSize fragments ≤ maxHeaderBlockSize)
    (joined : joinFragments fragments = .ok block) :
    (⟨c.gathering id next fragments last, app⟩ : Endpoint δ σ).afterFragment h id true =
      { endpoint := (⟨c.delivering id next last, app⟩ : Endpoint δ σ).report h
          (.headers id (HeaderBlock.decode block) (blockEndsStream fragments)) } :=
  afterFragment_last
    (e := ⟨{ c with assembler := c.assembler.emptied last, lastFrame := some (last.kind, id) }, app⟩)
    (s := { c.streams.inbound id with state := next, fragments, awaiting := true })
    (Registry.id_inbound _ _) small joined

/-- The frame that opens a block, as a codec meets it that has none open. -/
theorem dispatch_opening_gathering {opening : Frame} {fragment : Bytes}
    (closed : c.openBlock? = none) (opens : opening.kind = .headers ∨ opening.kind = .pushPromise)
    (stream : opening.stream ≠ 0)
    (accepted : (c.streams.inbound opening.stream).state.transition .inbound opening.kind
      opening.flags = .accept next)
    (wellFormed : opening.fragment = .ok fragment) :
    ((⟨c, app⟩ : Endpoint δ σ).completing opening).dispatch h opening =
      (⟨c.gathering opening.stream next [opening] opening, app⟩ : Endpoint δ σ).afterFragment h
        opening.stream (opening.hasFlag Flag.endHeaders) :=
  dispatch_opening (e := (⟨c, app⟩ : Endpoint δ σ).completing opening) closed opens stream accepted
    wellFormed

/-- The frames of a block before its last one fire no callback. -/
theorem dispatchAll_unended (h : Handler δ σ) (app : σ) {opening : Frame} {more : List Frame}
    {fragment : Bytes}
    (closed : c.openBlock? = none) (opens : opening.kind = .headers ∨ opening.kind = .pushPromise)
    (stream : opening.stream ≠ 0)
    (accepted : (c.streams.inbound opening.stream).state.transition .inbound opening.kind
      opening.flags = .accept next)
    (wellFormed : opening.fragment = .ok fragment)
    (continues : ∀ f ∈ more, f.kind = .continuation ∧ f.stream = opening.stream)
    (unended : ∀ f ∈ opening :: more, f.hasFlag Flag.endHeaders = false)
    (small : Frame.payloadSize (opening :: more) ≤ maxHeaderBlockSize) :
    ∃ last, last.kind.carriesHeaderBlock ∧
      (⟨c, app⟩ : Endpoint δ σ).dispatchAll h (opening :: more) =
        { endpoint := ⟨c.gathering opening.stream next (opening :: more) last, app⟩ } := by
  have carries : opening.kind.carriesHeaderBlock := by
    rcases opens with kind | kind <;> rw [kind] <;> rfl
  have smallHere : Frame.payloadSize [opening] ≤ maxHeaderBlockSize := by
    simp only [Frame.payloadSize] at small ⊢
    omega
  obtain ⟨last, carriesLast, gathered⟩ := dispatchAll_gathering h c app next carries stream
    continues (fun f member => unended f (List.mem_cons_of_mem opening member))
    (show Frame.payloadSize ([opening] ++ more) ≤ maxHeaderBlockSize from small)
  refine ⟨last, carriesLast, ?_⟩
  rw [dispatchAll, dispatch_opening_gathering closed opens stream accepted wellFormed,
    unended opening List.mem_cons_self, afterFragment_gathering smallHere,
    Received.andThen_of_none rfl]
  exact gathered

/-- The frames of a block fire one callback, with the fragments joined in order. -/
theorem dispatchAll_block {opening : Frame} {continuations : List Frame} {fragment : Bytes}
    (closed : c.openBlock? = none) (block : HeaderFrames opening continuations)
    (accepted : (c.streams.inbound opening.stream).state.transition .inbound opening.kind
      opening.flags = .accept next)
    (wellFormed : opening.fragment = .ok fragment)
    (small : Frame.payloadSize (opening :: continuations) ≤ maxHeaderBlockSize) :
    (⟨c, app⟩ : Endpoint δ σ).dispatchAll h (opening :: continuations) =
      { endpoint := (⟨c.delivering opening.stream next (continuations.getLastD opening), app⟩ :
          Endpoint δ σ).report h
          (.headers opening.stream
            (HeaderBlock.decode (fragment ++ (continuations.map Frame.payload).flatten))
            (blockEndsStream (opening :: continuations))) } := by
  have joined := joinFragments_eq (block.fragments wellFormed)
  rw [List.flatten_cons] at joined
  rcases List.eq_nil_or_concat continuations with rfl | ⟨more, final, rfl⟩
  · have ended : opening.hasFlag Flag.endHeaders := block.ended
    rw [dispatchAll, dispatch_opening_gathering closed block.opens block.stream accepted wellFormed,
      ended, afterFragment_delivering small joined, Received.andThen_of_none rfl]
    rfl
  · have smallFront : Frame.payloadSize (opening :: more) ≤ maxHeaderBlockSize := by
      rw [List.concat_eq_append, ← List.cons_append, Frame.payloadSize_append] at small
      omega
    rw [List.concat_eq_append] at block joined small ⊢
    obtain ⟨kind, stream⟩ := block.continues final (List.mem_append_right more List.mem_cons_self)
    obtain ⟨last, carries, gathered⟩ := dispatchAll_unended h app closed block.opens
      block.stream accepted wellFormed
      (fun f member => block.continues f (List.mem_append_left [final] member))
      block.unended_of_concat smallFront
    rw [List.getLastD_concat, ← List.cons_append, dispatchAll_append, gathered,
      Received.andThen_of_none rfl, dispatchAll,
      dispatch_gathering carries kind stream block.stream, block.ended_of_concat,
      List.cons_append, afterFragment_delivering small joined, Received.andThen_of_none rfl,
      dispatchAll]

/-- No callback fires before the last frame of a block. -/
theorem dispatchAll_front {opening : Frame} {continuations front back : List Frame}
    {fragment : Bytes} (closed : c.openBlock? = none) (block : HeaderFrames opening continuations)
    (accepted : (c.streams.inbound opening.stream).state.transition .inbound opening.kind
      opening.flags = .accept next)
    (wellFormed : opening.fragment = .ok fragment)
    (small : Frame.payloadSize (opening :: continuations) ≤ maxHeaderBlockSize)
    (split : front ++ back = opening :: continuations) (missing : back ≠ []) :
    ∃ c', (⟨c, app⟩ : Endpoint δ σ).dispatchAll h front = { endpoint := ⟨c', app⟩ } := by
  cases front with
  | nil => exact ⟨c, rfl⟩
  | cons first more =>
    rw [List.cons_append, List.cons.injEq] at split
    obtain ⟨rfl, rfl⟩ := split
    have unended := block.unended
    rw [← List.cons_append, List.dropLast_append_of_ne_nil missing] at unended
    rw [← List.cons_append, Frame.payloadSize_append] at small
    obtain ⟨last, -, gathered⟩ := dispatchAll_unended h app closed block.opens
      block.stream accepted wellFormed
      (fun f member => block.continues f (List.mem_append_left back member))
      (fun f member => unended f (List.mem_append_left back.dropLast member))
      (Nat.le_trans (Nat.le_add_right _ _) small)
    exact ⟨_, gathered⟩

end Endpoint

namespace Codec

/-- The stream of a delivered block holds no fragment and waits for none. -/
theorem stream?_delivering (c : Codec δ) (id : UInt32) (next : StreamState) (last : Frame) :
    (c.delivering id next last).stream? id =
      some { c.streams.inbound id with state := next, fragments := [], awaiting := false } :=
  Registry.get?_put_of_id _ (Registry.id_inbound _ _)

/-- Delivering a block closes it: no stream is left with an open block. -/
theorem openBlock?_delivering (c : Codec δ) (id : UInt32) (next : StreamState) (last : Frame) :
    (c.delivering id next last).openBlock? = none := by
  have stored := stream?_delivering c id next last
  have noted : (c.delivering id next last).lastFrame = some (last.kind, id) := rfl
  simp only [stream?] at stored
  simp [openBlock?, stored, noted]

end Codec

/-- The frames of one header block, cut into chunks in any way, fire one callback, when the last one
has come and not before: its headers are decoded from all fragments in order. At that moment the
stream has its new state and keeps nothing of the block. Frames above the size limit never get as
far as `dispatchAll`. -/
theorem header_block_fires_once {c : Codec δ} (reachable : c.Reachable)
    (closed : c.openBlock? = none) {opening : Frame} {continuations : List Frame}
    (block : HeaderFrames opening continuations) {next : StreamState}
    (accepted : (c.streams.inbound opening.stream).state.transition .inbound opening.kind
      opening.flags = .accept next)
    {fragment : Bytes} (wellFormed : opening.fragment = .ok fragment)
    (small : Frame.payloadSize (opening :: continuations) ≤ maxHeaderBlockSize)
    (h : Handler δ σ) (app : σ) :
    let start : Endpoint δ σ := ⟨c, app⟩
    let before : Endpoint δ σ :=
      ⟨c.delivering opening.stream next (continuations.getLastD opening), app⟩
    let fired := before.report h (.headers opening.stream
      (HeaderBlock.decode (fragment ++ (continuations.map Frame.payload).flatten))
      (opening.kind = .headers && opening.hasFlag Flag.endStream))
    let spelled := (opening :: continuations).flatMap Frame.toBytes
    (before.codec.stream? opening.stream = some { c.streams.inbound opening.stream with
        state := next, fragments := [], awaiting := false } ∧ before.codec.openBlock? = none) ∧
      (start.dispatchAll h (opening :: continuations) = { endpoint := fired } ∧
        ∀ front back, front ++ back = opening :: continuations → back ≠ [] →
          ∃ c', start.dispatchAll h front = { endpoint := ⟨c', app⟩ }) ∧
      ((∀ f ∈ opening :: continuations, f.length ≤ c.maxFrameSize) →
        (∀ chunks, c.assembler.progress.buffer ++ chunks.flatten = spelled →
          start.processAll h chunks = { endpoint := fired }) ∧
        ∀ chunks more, c.assembler.progress.buffer ++ chunks.flatten ++ more = spelled →
          more ≠ [] → ∃ c', start.processAll h chunks = { endpoint := ⟨c', app⟩ }) := by
  intro start before fired spelled
  have framed : start.codec.Framed := reachable.framed
  have all : start.dispatchAll h (opening :: continuations) = { endpoint := fired } :=
    Endpoint.dispatchAll_block closed block accepted wellFormed small
  have silent (front back) (split : front ++ back = opening :: continuations)
      (missing : back ≠ []) : ∃ c', start.dispatchAll h front = { endpoint := ⟨c', app⟩ } :=
    Endpoint.dispatchAll_front closed block accepted wellFormed small split missing
  refine ⟨⟨Codec.stream?_delivering c _ _ _, Codec.openBlock?_delivering c _ _ _⟩,
    ⟨all, silent⟩, ?_⟩
  intro fits
  constructor
  · intro chunks bytes
    rw [Endpoint.processAll_eq h framed, Endpoint.process_eq_dispatchAll h framed fits bytes, all]
  · intro chunks more bytes missing
    obtain ⟨front, back, a, split, held, processed⟩ :=
      Endpoint.process_spelled h framed fits bytes
    have notAll : back ≠ [] := by
      rintro rfl
      simp only [List.flatMap_nil, List.append_eq_nil_iff] at held
      exact missing held.2
    obtain ⟨c', gathered⟩ := silent front back split.symm notAll
    rw [Endpoint.processAll_eq h framed, processed, gathered, Received.andThen_of_none rfl]
    exact ⟨_, rfl⟩

/-- A request whose only record is cut in two, on a fresh server. The last frame carries the
END_STREAM bit, which means nothing there. -/
theorem header_block_fires_once_on_two_frames :
    let opening := Frame.ofParts .headers Flag.endStream 1 [97, 58]
    let closing := Frame.ofParts .continuation (Flag.endHeaders ||| Flag.endStream) 1 [98, 10]
    HeaderFrames opening [closing] ∧
      ((⟨Codec.create .server 16384, []⟩ : Endpoint Unit (List Callback)).processAll .recorder
        [opening.toBytes, closing.toBytes]).endpoint.app =
          [.headers 1 (HeaderBlock.decode [97, 58, 98, 10]) true] := by
  intro opening closing
  have block : HeaderFrames opening [closing] :=
    ⟨.inl rfl, by decide, by simp [closing, opening]; decide, by decide, by decide⟩
  have accepted : ((Codec.create .server 16384 : Codec Unit).streams.inbound
      opening.stream).state.transition .inbound opening.kind opening.flags =
        .accept .halfClosedRemote := by
    simp [Codec.create, Registry.inbound]
    decide
  have wellFormed : opening.fragment = .ok [97, 58] := by
    have unpadded : opening.hasFlag Flag.padded = false := by decide
    have weightless : opening.hasFlag Flag.priority = false := by decide
    simp [Frame.fragment, Frame.unpadded, unpadded, weightless]
    rfl
  have fired := header_block_fires_once (.create .server 16384) rfl block accepted wellFormed
    (by decide) .recorder []
  have stream : opening.stream = 1 := by decide
  have last : (decide (opening.kind = .headers) && opening.hasFlag Flag.endStream) = true := by
    decide
  refine ⟨block, ?_⟩
  rw [(fired.2.2 (by decide)).1 _ (by decide), Endpoint.report_recorder, stream, last]
  rfl

end Http2
