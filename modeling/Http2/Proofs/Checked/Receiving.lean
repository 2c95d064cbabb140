import Http2.Proofs.Checked.Assembler
import Http2.Proofs.Checked.Sending
import Http2.Proofs.Codec.History

/-!
# Received frames, with every access checked

`Checked.process` takes regions off the received bytes and dispatches each by the fields that it reads
off them. Stored frames are read again when their header block is complete; what they hold is counted
in a word first. Nothing of this is cut short on a consistent codec that is ready for the next call,
and it makes of the endpoint what `Endpoint.process` does: `process_eq`.
-/

namespace Http2.Checked

variable {δ σ : Type} {e : Endpoint δ σ} {f : Frame}

/-! ## Header blocks -/

/-- The payload bytes of stored frames, counted together. -/
def payloadSize (frames : List Frame) : Checked Nat := do
  sum wordLimit (← frames.mapM fun f => return (← payload f.toBytes).length)

/-- Whether the frames of a block end the peer's side of the stream. -/
def blockEndsStream : List Frame → Checked Bool
  | [] => return false
  | first :: _ => do
    if (← kind first.toBytes) = .headers then hasFlag first.toBytes Flag.endStream
    else return false

/-- Joins what frames carry to a block, up to the first framing fault. -/
def joinFragments : List Frame → Bytes → Checked (Except (FrameError × List Frame) Bytes)
  | [], block => return .ok block
  | f :: rest, block => do
    match ← fragment f.toBytes with
    | .error fault => return .error (fault, rest)
    | .ok piece => joinFragments rest (block ++ piece)

/-- The payload bytes of fragments are summed without overflow below the limit of the word. -/
theorem payloadSize_eq {frames : List Frame} (fits : Frame.payloadSize frames < wordLimit) :
    payloadSize frames = pure (Frame.payloadSize frames) := by
  have same : total (frames.map Frame.length) = Frame.payloadSize frames := by
    clear fits
    induction frames with
    | nil => rfl
    | cons f frames ih => rw [List.map_cons, total, ih, Frame.payloadSize]
  have counted : (frames.mapM fun f => return (← payload f.toBytes).length) =
      (pure (frames.map Frame.length) : Checked (List Nat)) :=
    mapM_eq fun f _ => by rw [payload_toBytes, pure_bind, Frame.length]
  rw [payloadSize, counted, pure_bind, sum_eq (by rwa [same]), same]

/-- The flags of the opening fragment are read without a trap. -/
theorem blockEndsStream_eq (frames : List Frame) :
    blockEndsStream frames = pure (Endpoint.blockEndsStream frames) := by
  cases frames with
  | nil => rfl
  | cons first frames =>
    simp only [blockEndsStream, kind_toBytes, hasFlag_toBytes, pure_bind, Endpoint.blockEndsStream,
      List.head?_cons, Option.any_some]
    by_cases headers : first.kind = .headers <;> simp [headers]

/-- Joining traps nowhere: every fragment is stripped of its padding inside its own bounds. -/
theorem joinFragments_go (frames : List Frame) (joined : List Bytes) :
    joinFragments frames joined.reverse.flatten = pure (Http2.joinFragments.go frames joined) := by
  induction frames generalizing joined with
  | nil => rfl
  | cons f frames ih =>
    rw [joinFragments, fragment_toBytes, pure_bind, Http2.joinFragments.go]
    cases f.fragment with
    | error fault => rfl
    | ok piece =>
      have grown : joined.reverse.flatten ++ piece = (piece :: joined).reverse.flatten := by simp
      simp only [grown]
      exact ih (piece :: joined)

/-- Fragments are joined as the plain function joins them. -/
theorem joinFragments_eq (frames : List Frame) :
    joinFragments frames [] = pure (Http2.joinFragments frames) :=
  joinFragments_go frames []

/-- A frame carries no more than its payload. -/
theorem length_of_fragment {piece : Bytes} (carries : f.fragment = .ok piece) :
    piece.length ≤ f.length := by
  have stripped {content : Bytes} (unpadded : f.unpadded = .ok content) :
      content.length ≤ f.length := by
    rw [Frame.length]
    unfold Frame.unpadded at unpadded
    split at unpadded
    · split at unpadded
      · cases unpadded
      · rename_i pad rest whole
        split at unpadded <;> cases unpadded
        rw [whole, List.length_take, List.length_cons]
        omega
    · cases unpadded
      exact Nat.le_refl _
  unfold Frame.fragment at carries
  split at carries
  · cases carries
  · rename_i content unpadded
    have small := stripped unpadded
    split at carries
    · split at carries <;> cases carries
      rw [List.length_drop]
      omega
    · cases carries
      exact small

/-- A block is not longer than the payloads that it is joined from. -/
theorem length_of_joinFragments {frames : List Frame} {joined : List Bytes} {block : Bytes}
    (carries : Http2.joinFragments.go frames joined = .ok block) :
    block.length ≤ joined.flatten.length + Frame.payloadSize frames := by
  induction frames generalizing joined with
  | nil =>
    cases carries
    simp [Frame.payloadSize]
  | cons f frames ih =>
    rw [Http2.joinFragments.go] at carries
    cases fragment : f.fragment with
    | error fault => simp [fragment] at carries
    | ok piece =>
      simp only [fragment] at carries
      have more := ih carries
      have small := length_of_fragment fragment
      rw [List.flatten_cons, List.length_append] at more
      rw [Frame.payloadSize]
      omega

/-! ## One frame -/

/-- Closes a stream for a fault and reports it. -/
def failStream (h : Handler δ σ) (e : Endpoint δ σ) (id : UInt32) (fault : StreamError) :
    Checked (Endpoint δ σ) :=
  play (e.putStream (e.codec.streams.inbound id).failed) fun app => h.onError app id fault

/-- Bounds the open header block of a stream, and delivers it when its last frame has come. -/
def afterFragment (h : Handler δ σ) (e : Endpoint δ σ) (id : UInt32) (endHeaders : Bool) :
    Checked (Received δ σ) :=
  match e.codec.streams.get? id with
  | none => return { endpoint := e }
  | some s => do
    let buffered ← payloadSize s.fragments
    if maxHeaderBlockSize < buffered then
      return { endpoint := ← failStream h e id .protocolError }
    else if endHeaders then
      let last ← blockEndsStream s.fragments
      match ← joinFragments s.fragments [] with
      | .error (fault, rest) =>
        return {
          endpoint := e.putStream { s with fragments := rest, awaiting := false }
          fault := some fault }
      | .ok block =>
        let fields ← decode block
        let delivered := e.putStream { s with fragments := [], awaiting := false }
        return { endpoint := ← play delivered fun app => h.onHeaders app id fields last }
    else
      return { endpoint := e }

/-- A CONTINUATION frame on a stream other than 0. -/
def continueBlock (h : Handler δ σ) (e : Endpoint δ σ) (raw : Bytes) (block? : Option UInt32) :
    Checked (Received δ σ) := do
  let id ← stream raw
  let endHeaders ← hasFlag raw Flag.endHeaders
  if block? = some id then
    let s := e.codec.streams.inbound id
    let grown := e.putStream { s with fragments := s.fragments ++ [Frame.ofRegion raw] }
    afterFragment h grown id endHeaders
  else
    return { endpoint := ← failStream h e id .protocolError }

/-- The error code of a reset, which is only logged. -/
def resetCode (raw : Bytes) : Checked (Option UInt32) := do
  let content ← payload raw
  if 4 ≤ content.length then
    let code := content.take 4
    return some (Bytes.toUInt32 (← byteAt code 0) (← byteAt code 1) (← byteAt code 2)
      (← byteAt code 3))
  else
    return none

/-- A frame that the receive table of its stream accepts; `s` is the stream and `next` its state
after the frame. -/
def acceptFrame (h : Handler δ σ) (e : Endpoint δ σ) (raw : Bytes) (fields : FrameHeader)
    (s : Stream δ) (next : StreamState) : Checked (Received δ σ) :=
  match fields.kind with
  | .headers | .pushPromise => do
    match ← fragment raw with
    | .error fault => return { endpoint := e, fault := some fault }
    | .ok _ =>
      let opened := e.putStream
        { s with state := next, fragments := [Frame.ofRegion raw], awaiting := true }
      afterFragment h opened s.id fields.isEndHeaders
  | .data => do
    match ← unpadded raw with
    | .error fault => return { endpoint := e, fault := some fault }
    | .ok data =>
      let moved := e.putStream { s with state := next }
      return { endpoint := ← play moved fun app => h.onBody app s.id data fields.isEndStream }
  | .rstStream => do
    let _ ← resetCode raw
    return { endpoint := e.putStream { s with state := next } }
  | _ => return { endpoint := e.putStream { s with state := next } }

/-- A frame on a stream other than 0 that is not CONTINUATION. -/
def applyFrame (h : Handler δ σ) (e : Endpoint δ σ) (raw : Bytes) (fields : FrameHeader) :
    Checked (Received δ σ) :=
  let s := e.codec.streams.inbound fields.stream
  let e := e.putStream s
  match s.state.transition .inbound fields.kind fields.flags with
  | .accept next => acceptFrame h e raw fields s next
  | .ignore | .refuse => return { endpoint := e }
  | .reject fault => return { endpoint := ← failStream h e fields.stream fault }

/-- A frame that does not interrupt a header block. -/
def admitFrame (h : Handler δ σ) (e : Endpoint δ σ) (raw : Bytes) (fields : FrameHeader)
    (block? : Option UInt32) : Checked (Received δ σ) :=
  if fields.kind.isConnectionLevel || fields.kind.isUnknown ||
      (fields.kind = .windowUpdate && fields.stream = 0) then
    return { endpoint := e }
  else if fields.stream = 0 then
    return { endpoint := e, fault := some (.streamZero fields.kind) }
  else if fields.kind = .continuation then
    continueBlock h e raw block?
  else
    applyFrame h e raw fields

/-- A frame that interrupts the header block of `owner`. -/
def interruptBlock (h : Handler δ σ) (e : Endpoint δ σ) (fields : FrameHeader) (owner : UInt32) :
    Checked (Endpoint δ σ) := do
  let failed ← failStream h e owner .protocolError
  if fields.kind = .continuation ∧ fields.stream ≠ 0 then
    failStream h failed fields.stream .protocolError
  else
    return failed

/-- Dispatches the region of one received frame. -/
def dispatch (h : Handler δ σ) (e : Endpoint δ σ) (raw : Bytes) : Checked (Received δ σ) := do
  let fields ← header raw
  let codec := { e.codec with lastFrame := some (fields.kind, fields.stream) }
  let noted := { e with codec }
  match e.codec.openBlock? with
  | some owner =>
    if fields.kind = .continuation ∧ fields.stream = owner then
      admitFrame h noted raw fields (some owner)
    else
      return { endpoint := ← interruptBlock h noted fields owner }
  | none => admitFrame h noted raw fields none

variable {h : Handler δ σ}

/-- Nothing that handles a frame changes what the checks rest on. -/
theorem keeps_framed (h : Handler δ σ) : h.Keeps fun e => e.codec.Framed where
  stored _ _ same framed := framed.of_sameFraming same
  headers e _ _ _ framed := framed.of_sameFraming (e.sameFraming_play _)
  body e _ _ _ framed := framed.of_sameFraming (e.sameFraming_play _)
  error e _ _ framed := framed.of_sameFraming (e.sameFraming_play _)

/-- Failing a stream traps nowhere, and neither does the handler's answer. -/
theorem failStream_eq (framed : e.codec.Framed) (id : UInt32) (fault : StreamError) :
    failStream h e id fault = pure (e.failStream h id fault) :=
  play_eq ((keeps_framed h).putStream framed _) _

/-- Completing or refusing a block traps nowhere while the held fragments fit the word. -/
theorem afterFragment_eq (framed : e.codec.Framed) {id : UInt32}
    (fits : Frame.payloadSize (e.codec.streams.inbound id).fragments < wordLimit)
    (endHeaders : Bool) :
    afterFragment h e id endHeaders = pure (e.afterFragment h id endHeaders) := by
  unfold afterFragment Endpoint.afterFragment
  cases found : e.codec.streams.get? id with
  | none => rfl
  | some s =>
    rw [Registry.inbound_of_get? found] at fits
    simp only [payloadSize_eq fits, pure_bind]
    by_cases large : maxHeaderBlockSize < Frame.payloadSize s.fragments
    · simp only [large, if_true, failStream_eq framed, pure_bind]
    · simp only [large, if_false]
      cases endHeaders with
      | false => rfl
      | true =>
        simp only [if_true, blockEndsStream_eq, joinFragments_eq, pure_bind]
        cases joined : Http2.joinFragments s.fragments with
        | error failed => rfl
        | ok block =>
          have small : block.length < wordLimit := by
            have bound := length_of_joinFragments joined
            rw [List.flatten_nil, List.length_nil] at bound
            omega
          simp only [decode_eq small, pure_bind]
          rw [play_eq ((keeps_framed h).putStream framed _), pure_bind]

/-- One more frame does not make stored frames too many to count. -/
theorem payloadSize_lt {frames : List Frame} (bounded : Frame.payloadSize frames ≤ maxHeaderBlockSize)
    (fits : f.length ≤ maxFrameLength) : Frame.payloadSize (frames ++ [f]) < wordLimit := by
  simp only [maxHeaderBlockSize] at bounded
  simp only [maxFrameLength] at fits
  simp only [Frame.payloadSize_append, Frame.payloadSize, wordLimit]
  omega

theorem inbound_stored {s : Stream δ} {id : UInt32} (same : s.id = id) :
    (e.putStream s).codec.streams.inbound id = s :=
  Registry.inbound_put_of_id _ same

theorem header_eq (f : Frame) :
    f.header.kind = f.kind ∧ f.header.flags = f.flags ∧ f.header.stream = f.stream :=
  ⟨rfl, rfl, rfl⟩

/-- Continuing a block traps nowhere while the held fragments are within the limit of a block. -/
theorem continueBlock_eq (framed : e.codec.Framed)
    (bounded : ∀ id, Frame.payloadSize (e.codec.streams.inbound id).fragments ≤ maxHeaderBlockSize)
    (fits : f.length ≤ maxFrameLength) (block? : Option UInt32) :
    continueBlock h e f.toBytes block? = pure (e.continueBlock h f block?) := by
  simp only [continueBlock, stream_toBytes, hasFlag_toBytes, pure_bind, Frame.ofRegion_toBytes]
  unfold Endpoint.continueBlock
  split
  · let s := e.codec.streams.inbound f.stream
    have here : ({ s with fragments := s.fragments ++ [f] } : Stream δ).id = f.stream :=
      Registry.id_inbound _ _
    refine afterFragment_eq ((keeps_framed h).putStream framed _) ?_ _
    rw [inbound_stored here]
    exact payloadSize_lt (bounded f.stream) fits
  · rw [failStream_eq framed, pure_bind]

/-- Reading the code of a reset traps nowhere: a payload too short for a code has none. -/
theorem exists_resetCode_eq (f : Frame) : ∃ code, resetCode f.toBytes = pure code := by
  simp only [resetCode, payload_toBytes, pure_bind]
  by_cases long : 4 ≤ f.payload.length
  · have early {i : Nat} (inside : i < 4) :
        byteAt (f.payload.take 4) i = pure ((f.payload.take 4).getD i 0) :=
      byteAt_eq (by rwa [List.length_take_of_le long])
    simp only [long, if_true, early, Nat.reduceLT, pure_bind]
    exact ⟨_, rfl⟩
  · rw [if_neg long]
    exact ⟨_, rfl⟩

/-- An accepted frame traps nowhere, whatever state its stream moves to. -/
theorem acceptFrame_eq (framed : e.codec.Framed) (fits : f.length ≤ maxFrameLength) (s : Stream δ)
    (next : StreamState) :
    acceptFrame h e f.toBytes f.header s next = pure (e.acceptFrame h f s next) := by
  have opening : Frame.payloadSize ([] ++ [f]) < wordLimit := payloadSize_lt (Nat.zero_le _) fits
  unfold acceptFrame Endpoint.acceptFrame
  rw [(header_eq f).1]
  cases f.kind with
  | headers | pushPromise =>
    simp only [fragment_toBytes, pure_bind, Frame.ofRegion_toBytes]
    cases f.fragment with
    | error fault => rfl
    | ok piece =>
      refine afterFragment_eq ((keeps_framed h).putStream framed _) ?_ _
      rwa [inbound_stored rfl]
  | data =>
    simp only [unpadded_toBytes, pure_bind]
    cases f.unpadded with
    | error fault => rfl
    | ok data =>
      simp only
      rw [play_eq ((keeps_framed h).putStream framed _), pure_bind]
      rfl
  | rstStream =>
    obtain ⟨code, read⟩ := exists_resetCode_eq f
    simp only [read, pure_bind]
  | _ => rfl

/-- Judging a frame by the state of its stream traps nowhere. -/
theorem applyFrame_eq (framed : e.codec.Framed) (fits : f.length ≤ maxFrameLength) :
    applyFrame h e f.toBytes f.header = pure (e.applyFrame h f) := by
  have registered := (keeps_framed h).putStream framed (e.codec.streams.inbound f.stream)
  simp only [applyFrame, Endpoint.applyFrame, header_eq]
  cases (e.codec.streams.inbound f.stream).state.transition .inbound f.kind f.flags with
  | accept next => exact acceptFrame_eq registered fits _ next
  | ignore | refuse => rfl
  | reject fault => simp only [failStream_eq registered, pure_bind]

/-- A frame outside of any interrupted block traps nowhere, in a block or out of one. -/
theorem admitFrame_eq (framed : e.codec.Framed)
    (bounded : ∀ id, Frame.payloadSize (e.codec.streams.inbound id).fragments ≤ maxHeaderBlockSize)
    (fits : f.length ≤ maxFrameLength) (block? : Option UInt32) :
    admitFrame h e f.toBytes f.header block? = pure (e.admitFrame h f block?) := by
  have same : (f.kind.isConnectionLevel || f.kind.isUnknown ||
      (f.kind = .windowUpdate && f.stream = 0)) = Endpoint.isIgnored f := rfl
  simp only [admitFrame, Endpoint.admitFrame, header_eq, same]
  by_cases ignored : Endpoint.isIgnored f = true
  · rw [if_pos ignored, if_pos ignored]
  · rw [if_neg ignored, if_neg ignored]
    by_cases zero : f.stream = 0
    · rw [if_pos zero, if_pos zero]
    · rw [if_neg zero, if_neg zero]
      by_cases continues : f.kind = .continuation
      · rw [if_pos continues, if_pos continues]
        exact continueBlock_eq framed bounded fits block?
      · rw [if_neg continues, if_neg continues]
        exact applyFrame_eq framed fits

/-- An interrupted block traps nowhere. -/
theorem interruptBlock_eq (framed : e.codec.Framed) (f : Frame) (owner : UInt32) :
    interruptBlock h e f.header owner = pure (e.interruptBlock h f owner) := by
  have failed := (keeps_framed h).failStream framed owner .protocolError
  simp only [interruptBlock, Endpoint.interruptBlock, header_eq, failStream_eq framed, pure_bind]
  split
  · exact failStream_eq failed _ _
  · rfl

/-- No received frame cuts its dispatch short. -/
theorem dispatch_eq (framed : e.codec.Framed)
    (bounded : ∀ id, Frame.payloadSize (e.codec.streams.inbound id).fragments ≤ maxHeaderBlockSize)
    (fits : f.length ≤ maxFrameLength) : dispatch h e f.toBytes = pure (e.dispatch h f) := by
  have noted := (keeps_framed h).note framed f
  simp only [dispatch, Endpoint.dispatch, header_toBytes fits, header_eq, pure_bind]
  cases e.codec.openBlock? with
  | none => exact admitFrame_eq noted bounded fits none
  | some owner =>
    simp only
    split
    · exact admitFrame_eq noted bounded fits (some owner)
    · have interrupted := interruptBlock_eq (h := h) noted f owner
      exact congrArg (· >>= _) interrupted

/-! ## Received bytes -/

/-- Takes received bytes and dispatches every region they complete, up to the first framing fault. -/
def process (h : Handler δ σ) (e : Endpoint δ σ) (input : Bytes) : Checked (Received δ σ) := do
  match ← next e.codec.assembler input with
  | (assembler, .hungry) => return { endpoint := e.withAssembler assembler }
  | (assembler, .fault fault _) =>
    return { endpoint := e.withAssembler assembler, fault := some fault }
  | (assembler, .region raw rest) =>
    let received ← dispatch h (e.withAssembler assembler) raw
    match received.fault with
    | none =>
      again (received.endpoint.codec.assembler.work rest) (e.codec.assembler.work input) fun _ =>
        process h received.endpoint rest
    | some _ => return received
termination_by e.codec.assembler.work input

/-- Stored frames hold no more than one header block may. -/
theorem payloadSize_le {c : Codec δ} (consistent : c.Consistent) (id : UInt32) :
    Frame.payloadSize (c.streams.inbound id).fragments ≤ maxHeaderBlockSize := by
  by_cases awaits : c.Awaits id
  · obtain ⟨opening, continuations, gathered, block⟩ := consistent.gathered id awaits
    rw [gathered]
    exact block.small
  · rw [consistent.emptied id awaits]
    exact Nat.zero_le _

/-- A frame that is complete is not longer than the assembler allows. -/
theorem length_of_next {a a' : Assembler} (settled : a.Settled) {input rest : Bytes}
    (found : a.next input = (a', .frame f rest)) : f.length ≤ a.limit := by
  have reads := Assembler.next_reads settled input
  rw [found] at reads
  cases reads with
  | complete fits whole =>
    rw [Frame.length, Frame.ofRegion, List.length_drop, List.length_take_of_le whole,
      Nat.add_sub_cancel_left]
    exact fits

/-- A frame that is read whole is dispatched before the rest of the input is read. -/
theorem process_of_frame (framed : e.codec.Framed) (consistent : e.codec.Consistent)
    {input rest : Bytes} {a : Assembler}
    (taken : e.codec.assembler.next input = (a, .frame f rest)) :
    process h e input =
      match ((e.withAssembler a).dispatch h f).fault with
      | none => process h ((e.withAssembler a).dispatch h f).endpoint rest
      | some _ => pure ((e.withAssembler a).dispatch h f) := by
  have settled := Assembler.settled_next framed.settled input
  have fits := length_of_next framed.settled taken
  rw [taken] at settled
  rw [framed.limit] at fits
  have dispatched : dispatch h (e.withAssembler a) f.toBytes =
      pure ((e.withAssembler a).dispatch h f) :=
    dispatch_eq (Endpoint.framed_withAssembler framed settled.1 settled.2)
      (payloadSize_le (consistent.reassemble a)) (Nat.le_trans fits framed.small)
  rw [process, next_eq framed.settled, taken, pure_bind]
  simp only [Taken.spelled, dispatched, pure_bind, again_eq (Endpoint.work_dispatch h taken)]

/-- No received bytes cut their processing short, and it ends. -/
theorem process_eq (framed : e.codec.Framed) (consistent : e.codec.Consistent) (input : Bytes) :
    process h e input = pure (e.process h input) := by
  induction e, input using Endpoint.process.induct h with
  | case1 e input a taken =>
    rw [process, next_eq framed.settled, taken, Endpoint.process_of_hungry taken]
    rfl
  | case2 e input a fault rest taken =>
    rw [process, next_eq framed.settled, taken, Endpoint.process_of_fault taken]
    rfl
  | case3 e input a frame rest taken endpoint handled ih =>
    have settled := Assembler.settled_next framed.settled input
    rw [taken] at settled
    have framedAfter := Endpoint.framed_dispatch
      (Endpoint.framed_withAssembler framed settled.1 settled.2) h frame
    have leads := Endpoint.leads_watch (e := e.withAssembler a) (consistent.reassemble a) h frame
    have consistentAfter := leads.consistent (consistent.reassemble a)
    rw [handled] at framedAfter consistentAfter
    rw [process_of_frame framed consistent taken, Endpoint.process_of_frame taken, handled]
    exact ih framedAfter consistentAfter
  | case4 e input a frame rest taken faulty =>
    rw [process_of_frame framed consistent taken, Endpoint.process_of_frame taken]
    cases failed : ((e.withAssembler a).dispatch h frame).fault with
    | none => exact absurd (by rw [← failed]) (faulty ((e.withAssembler a).dispatch h frame).endpoint)
    | some fault => rw [Received.andThen_of_some failed]

/-! ## Runs -/

/-- A number brought between two bounds, which must be in order. -/
def clamp (n low high : Nat) : Checked Nat := do
  ensure (low ≤ high) "min <= max"
  return max low (min n high)

/-- A fresh codec. -/
def createCodec (role : Role) (maxFrameSize : UInt32) : Checked (Codec δ) := do
  let size ← clamp maxFrameSize.toNat 1 maxFrameLength
  return {
    role
    maxFrameSize := size
    assembler := { limit := size }
    nextStreamId := role.firstStreamId }

/-- The endpoint after a deed, whether it faulted or not. -/
def after (h : Handler δ σ) (e : Endpoint δ σ) : Deed δ σ → Checked (Endpoint δ σ)
  | .receive input => return (← process h e input).endpoint
  | .act script => play e script

/-- The endpoint after a run. -/
def live (h : Handler δ σ) (e : Endpoint δ σ) : List (Deed δ σ) → Checked (Endpoint δ σ)
  | [] => return e
  | deed :: deeds => do live h (← after h e deed) deeds

/-- A codec is created with the limit that it is given, as the plain one. -/
theorem createCodec_eq (role : Role) (maxFrameSize : UInt32) :
    createCodec role maxFrameSize = pure (Codec.create role maxFrameSize.toNat : Codec δ) := by
  rw [createCodec, clamp, ensure_eq (by decide), pure_bind]
  rfl

/-- A deed of an endpoint in reach, a receipt or a script, traps nowhere. -/
theorem after_eq (reachable : e.codec.Reachable) (deed : Deed δ σ) :
    after h e deed = pure (e.after h deed) := by
  cases deed with
  | receive input =>
    rw [after, process_eq reachable.framed reachable.consistent, pure_bind]
    rfl
  | act script => exact play_eq reachable.framed script

/-- No run from a reachable codec is cut short, and every run ends. -/
theorem live_eq (reachable : e.codec.Reachable) (deeds : List (Deed δ σ)) :
    live h e deeds = pure (e.live h deeds) := by
  induction deeds generalizing e with
  | nil => rfl
  | cons deed deeds ih =>
    rw [live, after_eq reachable, pure_bind, Endpoint.live]
    exact ih (Endpoint.reachable_after reachable h deed)

end Http2.Checked
