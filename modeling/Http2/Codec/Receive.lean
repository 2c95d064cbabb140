import Http2.Codec.Handler
import Http2.Frame.Payload

/-!
# Received frames

`process` takes received bytes and dispatches each frame as it completes. A framing fault ends the
connection: it is returned, and the bytes after it are not looked at. A frame that
breaks the rules of its stream closes that stream, is reported to the application, and is no fault of
the connection. While a header block is open only CONTINUATION frames of its stream are admitted; any
other frame closes the stream of the block and is itself dropped.
-/

namespace Http2

/-- The header block carried by frames, or the first framing fault and the frames after it. -/
def joinFragments (frames : List Frame) : Except (FrameError × List Frame) Bytes :=
  go frames []
where
  /-- Fragments joined so far are kept newest first. -/
  go : List Frame → List Bytes → Except (FrameError × List Frame) Bytes
    | [], joined => .ok joined.reverse.flatten
    | frame :: rest, joined =>
      match frame.fragment with
      | .error fault => .error (fault, rest)
      | .ok bytes => go rest (bytes :: joined)

/-- What became of an endpoint, and the framing fault if there was one. -/
structure Received (δ σ : Type) where
  endpoint : Endpoint δ σ
  fault : Option FrameError := none

namespace Endpoint

variable {δ σ : Type}

/-- Stores a stream. -/
def putStream (e : Endpoint δ σ) (s : Stream δ) : Endpoint δ σ :=
  { e with codec := e.codec.putStream s }

/-- Closes a stream for a fault and reports it. -/
def failStream (h : Handler δ σ) (e : Endpoint δ σ) (id : UInt32) (fault : StreamError) :
    Endpoint δ σ :=
  (e.putStream (e.codec.streams.inbound id).failed).play fun app => h.onError app id fault

/-- Whether the frames of a block end the peer's side of the stream: only an opening HEADERS frame
can say so. -/
def blockEndsStream (fragments : List Frame) : Bool :=
  fragments.head?.any fun first => first.kind = .headers && first.hasFlag Flag.endStream

/-- Bounds the open header block of a stream, and delivers it when its last frame has come. -/
def afterFragment (h : Handler δ σ) (e : Endpoint δ σ) (id : UInt32) (endHeaders : Bool) :
    Received δ σ :=
  match e.codec.streams.get? id with
  | none => { endpoint := e }
  | some s =>
    if maxHeaderBlockSize < Frame.payloadSize s.fragments then
      { endpoint := e.failStream h id .protocolError }
    else if endHeaders then
      match joinFragments s.fragments with
      | .error (fault, rest) =>
        { endpoint := e.putStream { s with fragments := rest, awaiting := false }
          fault := some fault }
      | .ok block =>
        let delivered := e.putStream { s with fragments := [], awaiting := false }
        { endpoint := delivered.play fun app =>
            h.onHeaders app id (HeaderBlock.decode block) (blockEndsStream s.fragments) }
    else
      { endpoint := e }

/-- A CONTINUATION frame on a stream other than 0. -/
def continueBlock (h : Handler δ σ) (e : Endpoint δ σ) (frame : Frame) (block? : Option UInt32) :
    Received δ σ :=
  if block? = some frame.stream then
    let s := e.codec.streams.inbound frame.stream
    (e.putStream { s with fragments := s.fragments ++ [frame] }).afterFragment h frame.stream
      (frame.hasFlag Flag.endHeaders)
  else
    { endpoint := e.failStream h frame.stream .protocolError }

/-- A frame that the receive table of its stream accepts; `s` is the stream and `next` its state
after the frame. The stream keeps its old state if the payload is malformed. -/
def acceptFrame (h : Handler δ σ) (e : Endpoint δ σ) (frame : Frame) (s : Stream δ)
    (next : StreamState) : Received δ σ :=
  match frame.kind with
  | .headers | .pushPromise =>
    match frame.fragment with
    | .error fault => { endpoint := e, fault := some fault }
    | .ok _ =>
      let opened := e.putStream { s with state := next, fragments := [frame], awaiting := true }
      opened.afterFragment h s.id (frame.hasFlag Flag.endHeaders)
  | .data =>
    match frame.unpadded with
    | .error fault => { endpoint := e, fault := some fault }
    | .ok data =>
      let moved := e.putStream { s with state := next }
      { endpoint := moved.play fun app => h.onBody app s.id data (frame.hasFlag Flag.endStream) }
  | _ => { endpoint := e.putStream { s with state := next } }

/-- A frame on a stream other than 0 that is not CONTINUATION. An unseen stream is registered. -/
def applyFrame (h : Handler δ σ) (e : Endpoint δ σ) (frame : Frame) : Received δ σ :=
  let s := e.codec.streams.inbound frame.stream
  let e := e.putStream s
  match s.state.transition .inbound frame.kind frame.flags with
  | .accept next => e.acceptFrame h frame s next
  | .ignore | .refuse => { endpoint := e }
  | .reject fault => { endpoint := e.failStream h frame.stream fault }

/-- Frames that have no effect: those of the whole connection, and those of unknown kinds. -/
def isIgnored (frame : Frame) : Bool :=
  frame.kind.isConnectionLevel || frame.kind.isUnknown ||
    (frame.kind = .windowUpdate && frame.stream = 0)

/-- A frame that does not interrupt a header block. -/
def admitFrame (h : Handler δ σ) (e : Endpoint δ σ) (frame : Frame) (block? : Option UInt32) :
    Received δ σ :=
  if isIgnored frame then
    { endpoint := e }
  else if frame.stream = 0 then
    { endpoint := e, fault := some (.streamZero frame.kind) }
  else if frame.kind = .continuation then
    e.continueBlock h frame block?
  else
    e.applyFrame h frame

/-- A frame that interrupts the header block of `owner`: that stream is closed, and so is the stream
of a CONTINUATION that went astray. -/
def interruptBlock (h : Handler δ σ) (e : Endpoint δ σ) (frame : Frame) (owner : UInt32) :
    Endpoint δ σ :=
  let failed := e.failStream h owner .protocolError
  if frame.kind = .continuation ∧ frame.stream ≠ 0 then
    failed.failStream h frame.stream .protocolError
  else
    failed

/-- Remembers kind and stream of a received frame. -/
def note (e : Endpoint δ σ) (frame : Frame) : Endpoint δ σ :=
  { e with codec := { e.codec with lastFrame := some (frame.kind, frame.stream) } }

/-- Dispatches one received frame. -/
def dispatch (h : Handler δ σ) (e : Endpoint δ σ) (frame : Frame) : Received δ σ :=
  match e.codec.openBlock? with
  | some owner =>
    if frame.kind = .continuation ∧ frame.stream = owner then
      (e.note frame).admitFrame h frame (some owner)
    else
      { endpoint := (e.note frame).interruptBlock h frame owner }
  | none => (e.note frame).admitFrame h frame none

/-! ## What handling a frame keeps -/

end Endpoint

/-- A property of endpoints that no callback destroys, and no change of the codec apart from its
framing. -/
structure Handler.Keeps {δ σ : Type} (h : Handler δ σ) (P : Endpoint δ σ → Prop) : Prop where
  stored : ∀ e c, Codec.SameFraming e.codec c → P e → P { e with codec := c }
  headers : ∀ e id fields last, P e → P (e.play fun app => h.onHeaders app id fields last)
  body : ∀ e id data last, P e → P (e.play fun app => h.onBody app id data last)
  error : ∀ e id fault, P e → P (e.play fun app => h.onError app id fault)

namespace Handler.Keeps

variable {δ σ : Type} {h : Handler δ σ} {P : Endpoint δ σ → Prop} {e : Endpoint δ σ}

theorem putStream (keeps : h.Keeps P) (holds : P e) (s : Stream δ) : P (e.putStream s) :=
  keeps.stored e (e.codec.putStream s) (Codec.sameReceiver_putStream e.codec s).toSameFraming holds

theorem note (keeps : h.Keeps P) (holds : P e) (frame : Frame) : P (e.note frame) :=
  keeps.stored e { e.codec with lastFrame := some (frame.kind, frame.stream) } ⟨rfl, rfl, rfl⟩ holds

/-- A stream error is stored and reported by `onError`, the one call there is. -/
theorem failStream (keeps : h.Keeps P) (holds : P e) (id : UInt32) (fault : StreamError) :
    P (e.failStream h id fault) :=
  keeps.error _ id fault (keeps.putStream holds _)

/-- The block is held, refused by `onError` or delivered by `onHeaders`. -/
theorem afterFragment (keeps : h.Keeps P) (holds : P e) (id : UInt32) (endHeaders : Bool) :
    P (e.afterFragment h id endHeaders).endpoint := by
  unfold Endpoint.afterFragment
  split
  · exact holds
  · split
    · exact keeps.failStream holds id _
    · split
      · split
        · exact keeps.putStream holds _
        · exact keeps.headers _ _ _ _ (keeps.putStream holds _)
      · exact holds

/-- A frame in an open block continues it or fails its owner. -/
theorem continueBlock (keeps : h.Keeps P) (holds : P e) (frame : Frame) (block? : Option UInt32) :
    P (e.continueBlock h frame block?).endpoint := by
  unfold Endpoint.continueBlock
  split
  · exact keeps.afterFragment (keeps.putStream holds _) _ _
  · exact keeps.failStream holds _ _

/-- Only a completed block and a DATA frame reach the handler from an accepted frame. -/
theorem acceptFrame (keeps : h.Keeps P) (holds : P e) (frame : Frame) (s : Stream δ)
    (next : StreamState) : P (e.acceptFrame h frame s next).endpoint := by
  unfold Endpoint.acceptFrame
  split
  · split
    · exact holds
    · exact keeps.afterFragment (keeps.putStream holds _) _ _
  · split
    · exact holds
    · exact keeps.afterFragment (keeps.putStream holds _) _ _
  · split
    · exact holds
    · exact keeps.body _ _ _ _ (keeps.putStream holds _)
  · exact keeps.putStream holds _

/-- Judging a frame by the state of its stream calls the handler only through the three verdicts. -/
theorem applyFrame (keeps : h.Keeps P) (holds : P e) (frame : Frame) :
    P (e.applyFrame h frame).endpoint := by
  have registered := keeps.putStream holds (e.codec.streams.inbound frame.stream)
  unfold Endpoint.applyFrame
  simp only
  split
  · exact keeps.acceptFrame registered _ _ _
  · exact registered
  · exact registered
  · exact keeps.failStream registered _ _

/-- Ignored frames, and frames on stream 0 that name a stream, do not reach the handler. -/
theorem admitFrame (keeps : h.Keeps P) (holds : P e) (frame : Frame) (block? : Option UInt32) :
    P (e.admitFrame h frame block?).endpoint := by
  unfold Endpoint.admitFrame
  split
  · exact holds
  · split
    · exact holds
    · split
      · exact keeps.continueBlock holds frame block?
      · exact keeps.applyFrame holds frame

/-- An interrupted block fails its owner, and the interrupting stream if it is another one. -/
theorem interruptBlock (keeps : h.Keeps P) (holds : P e) (frame : Frame) (owner : UInt32) :
    P (e.interruptBlock h frame owner) := by
  have failed := keeps.failStream holds owner .protocolError
  unfold Endpoint.interruptBlock
  simp only
  split
  · exact keeps.failStream failed _ _
  · exact failed

/-- Handling a frame stores streams, notes the frame and calls the application. -/
theorem dispatch (keeps : h.Keeps P) (holds : P e) (frame : Frame) :
    P (e.dispatch h frame).endpoint := by
  have noted := keeps.note holds frame
  unfold Endpoint.dispatch
  split
  · split
    · exact keeps.admitFrame noted _ _
    · exact keeps.interruptBlock noted _ _
  · exact keeps.admitFrame noted _ _

end Handler.Keeps

namespace Endpoint

variable {δ σ : Type}

/-- The scripts of an application leave role, limit and assembler as they are. -/
theorem sameFraming_play (e : Endpoint δ σ) (script : σ → Script δ σ) :
    Codec.SameFraming e.codec (e.play script).codec :=
  ((script e.app).sameReceiver_run e.codec).toSameFraming

/-- Handling a frame leaves the frame under assembly alone. -/
theorem sameFraming_dispatch (h : Handler δ σ) (e : Endpoint δ σ) (frame : Frame) :
    Codec.SameFraming e.codec (e.dispatch h frame).endpoint.codec := by
  have keeps : h.Keeps fun e' => Codec.SameFraming e.codec e'.codec :=
    { stored := fun _ _ same before => before.trans same
      headers := fun e' _ _ _ before => before.trans (sameFraming_play e' _)
      body := fun e' _ _ _ before => before.trans (sameFraming_play e' _)
      error := fun e' _ _ before => before.trans (sameFraming_play e' _) }
  exact keeps.dispatch (.refl e.codec) frame

/-- Replaces the assembler. -/
def withAssembler (e : Endpoint δ σ) (assembler : Assembler) : Endpoint δ σ :=
  { e with codec := { e.codec with assembler } }

@[simp] theorem assembler_withAssembler (e : Endpoint δ σ) (a : Assembler) :
    (e.withAssembler a).codec.assembler = a := rfl

/-- Dispatching a frame that is complete leaves less to be done. -/
theorem work_dispatch (h : Handler δ σ) {e : Endpoint δ σ} {a : Assembler} {input rest : Bytes}
    {frame : Frame} (taken : e.codec.assembler.next input = (a, .frame frame rest)) :
    ((e.withAssembler a).dispatch h frame).endpoint.codec.assembler.work rest
      < e.codec.assembler.work input := by
  rw [(sameFraming_dispatch h (e.withAssembler a) frame).assembler, assembler_withAssembler]
  exact Assembler.work_next taken

/-- Takes received bytes and dispatches every frame they complete, up to the first framing fault. -/
def process (h : Handler δ σ) (e : Endpoint δ σ) (input : Bytes) : Received δ σ :=
  match _taken : e.codec.assembler.next input with
  | (assembler, .hungry) => { endpoint := e.withAssembler assembler }
  | (assembler, .fault fault _) => { endpoint := e.withAssembler assembler, fault := some fault }
  | (assembler, .frame frame rest) =>
    match _handled : (e.withAssembler assembler).dispatch h frame with
    | { endpoint, fault := none } => process h endpoint rest
    | faulty => faulty
termination_by e.codec.assembler.work input
decreasing_by
  have nearer := work_dispatch h _taken
  rwa [_handled] at nearer

end Endpoint

end Http2
