import Http2.Codec.Send

/-!
# What an application asks of a codec

An application callback may use every operation of this side, any number of times, and may let later
operations depend on the answers to earlier ones. A `Script` is such a dialogue as a tree: an
operation, and what follows each answer to it. `Script.run` plays it on a codec. Whatever all
operations keep, every script keeps.
-/

namespace Http2

/-- An operation of this side on a codec. -/
inductive Codec.Op (δ : Type) where
  | openStream
  | pushHeaders (id : UInt32) (fields : List Field) (last : Bool)
  | pushData (id : UInt32) (data : Bytes) (last : Bool)
  | pushReset (id code : UInt32)
  | popOutbound
  | takeWriteSignal
  | setUserData (id : UInt32) (value : δ)
  | takeUserData (id : UInt32)
  | evictClosed
  /-- Looks at the whole codec. -/
  | inspect

/-- The type of the answer to an operation. -/
def Codec.Op.Reply {δ : Type} : Codec.Op δ → Type
  | openStream => Except SendError UInt32
  | pushHeaders .. => Except SendError Unit
  | pushData .. => Except SendError Unit
  | pushReset .. => Except SendError Unit
  | popOutbound => Option Frame
  | takeWriteSignal => Bool
  | setUserData .. => Except SendError Unit
  | takeUserData _ => Option δ
  | evictClosed => Nat
  | inspect => Codec δ

namespace Codec

variable {δ : Type}

/-- Performs one operation. -/
def perform (c : Codec δ) : (op : Op δ) → op.Reply × Codec δ
  | .openStream => c.openStream
  | .pushHeaders id fields last => c.pushHeaders id fields last
  | .pushData id data last => c.pushData id data last
  | .pushReset id code => c.pushReset id code
  | .popOutbound => c.popOutbound
  | .takeWriteSignal => c.takeWriteSignal
  | .setUserData id value => c.setUserData id value
  | .takeUserData id => c.takeUserData id
  | .evictClosed => c.evictClosed
  | .inspect => (c, c)

/-- What neither a frame nor an operation of this side changes: the bytes of the frame under assembly
and what was fixed when the codec was made. -/
structure SameFraming (c c' : Codec δ) : Prop where
  role : c'.role = c.role
  maxFrameSize : c'.maxFrameSize = c.maxFrameSize
  assembler : c'.assembler = c.assembler

/-- What no operation of this side changes: also the last received frame. -/
structure SameReceiver (c c' : Codec δ) : Prop extends SameFraming c c' where
  lastFrame : c'.lastFrame = c.lastFrame

protected theorem SameFraming.refl (c : Codec δ) : SameFraming c c := ⟨rfl, rfl, rfl⟩

protected theorem SameFraming.trans {c c' c'' : Codec δ} (first : SameFraming c c')
    (second : SameFraming c' c'') : SameFraming c c'' where
  role := second.role.trans first.role
  maxFrameSize := second.maxFrameSize.trans first.maxFrameSize
  assembler := second.assembler.trans first.assembler

protected theorem SameReceiver.refl (c : Codec δ) : SameReceiver c c := ⟨.refl c, rfl⟩

protected theorem SameReceiver.trans {c c' c'' : Codec δ} (first : SameReceiver c c')
    (second : SameReceiver c' c'') : SameReceiver c c'' where
  toSameFraming := first.toSameFraming.trans second.toSameFraming
  lastFrame := second.lastFrame.trans first.lastFrame

/-- Streams may be stored without touching what reads frames. -/
theorem sameReceiver_putStream (c : Codec δ) (s : Stream δ) : SameReceiver c (c.putStream s) :=
  ⟨⟨rfl, rfl, rfl⟩, rfl⟩

/-- Frames may be queued without touching what reads frames. -/
theorem sameReceiver_enqueue (c : Codec δ) (frames : List Frame) :
    SameReceiver c (c.enqueue frames) :=
  ⟨⟨rfl, rfl, rfl⟩, rfl⟩

/-- Opening a stream touches the registry and the next id, nothing that reads frames. -/
theorem sameReceiver_openStream (c : Codec δ) : SameReceiver c c.openStream.2 := by
  unfold openStream
  split
  · exact .refl c
  · simp only
    split <;> exact ⟨⟨rfl, rfl, rfl⟩, rfl⟩

/-- The send table is asked about the state of one stream. -/
theorem sameReceiver_applySend (c : Codec δ) (id : UInt32) (kind : FrameKind) (flags : UInt8) :
    SameReceiver c (c.applySend id kind flags).2 := by
  unfold applySend
  split
  · exact .refl c
  · split
    · exact sameReceiver_putStream c _
    · exact .refl c
    · exact .refl c
    · exact .refl c

/-- Whether frames are queued or refused, frames are read as before. -/
theorem sameReceiver_send (c : Codec δ) (id : UInt32) (kind : FrameKind) (flags : UInt8)
    (frames : List Frame) : SameReceiver c (c.send id kind flags frames).2 := by
  have asked := sameReceiver_applySend c id kind flags
  unfold send
  split
  · rename_i refused
    rwa [refused] at asked
  · rename_i accepted
    rw [accepted] at asked
    exact asked.trans (sameReceiver_enqueue _ _)

/-- Whether a list of fields is queued or refused, frames are read as before. -/
theorem sameReceiver_pushHeaders (c : Codec δ) (id : UInt32) (fields : List Field) (last : Bool) :
    SameReceiver c (c.pushHeaders id fields last).2 := by
  unfold pushHeaders
  split
  · exact .refl c
  · exact sameReceiver_send c id .headers _ _

/-- Whether a body is queued or refused, frames are read as before. -/
theorem sameReceiver_pushData (c : Codec δ) (id : UInt32) (data : Bytes) (last : Bool) :
    SameReceiver c (c.pushData id data last).2 := by
  unfold pushData
  split
  · exact sameReceiver_applySend c id .data 0
  · exact sameReceiver_send c id .data _ _

/-- Whether a reset is queued or refused, frames are read as before. -/
theorem sameReceiver_pushReset (c : Codec δ) (id code : UInt32) :
    SameReceiver c (c.pushReset id code).2 :=
  sameReceiver_send c id .rstStream 0 _

/-- No operation of this side touches the receiving side. -/
theorem sameReceiver_perform (c : Codec δ) (op : Op δ) : SameReceiver c (c.perform op).2 := by
  cases op with
  | openStream => exact sameReceiver_openStream c
  | pushHeaders id fields last => exact sameReceiver_pushHeaders c id fields last
  | pushData id data last => exact sameReceiver_pushData c id data last
  | pushReset id code => exact sameReceiver_pushReset c id code
  | popOutbound =>
    simp only [perform, popOutbound]
    split <;> exact ⟨⟨rfl, rfl, rfl⟩, rfl⟩
  | takeWriteSignal => exact ⟨⟨rfl, rfl, rfl⟩, rfl⟩
  | setUserData id value =>
    simp only [perform, setUserData]
    split
    · exact .refl c
    · exact sameReceiver_putStream c _
  | takeUserData id =>
    simp only [perform, takeUserData]
    split
    · exact .refl c
    · exact sameReceiver_putStream c _
  | evictClosed => exact ⟨⟨rfl, rfl, rfl⟩, rfl⟩
  | inspect => exact .refl c

end Codec

/-- A dialogue with a codec that ends with a value. -/
inductive Script (δ α : Type) where
  | done (value : α)
  | call (op : Codec.Op δ) (next : op.Reply → Script δ α)

namespace Script

variable {δ α β : Type}

/-- Plays a script on a codec. -/
def run : Script δ α → Codec δ → α × Codec δ
  | done value, c => (value, c)
  | call op next, c => run (next (c.perform op).1) (c.perform op).2

/-- One script after the other. -/
def bind : Script δ α → (α → Script δ β) → Script δ β
  | done value, f => f value
  | call op next, f => call op fun reply => bind (next reply) f

instance : Monad (Script δ) where
  pure := done
  bind := bind

/-- The script of one operation. -/
def op (op : Codec.Op δ) : Script δ op.Reply :=
  call op done

@[simp] theorem run_done (value : α) (c : Codec δ) : (done value).run c = (value, c) := rfl

/-- A call performs its operation and goes on with the reply. -/
theorem run_call (op : Codec.Op δ) (next : op.Reply → Script δ α) (c : Codec δ) :
    (call op next).run c = (next (c.perform op).1).run (c.perform op).2 := rfl

/-- Scripts in sequence run one after the other, on the codec that the first one leaves. -/
theorem run_bind (s : Script δ α) (f : α → Script δ β) (c : Codec δ) :
    (s.bind f).run c = (f (s.run c).1).run (s.run c).2 := by
  induction s generalizing c with
  | done value => rfl
  | call op next ih => simp [bind, run_call, ih]

/-- What every operation keeps, every script keeps. -/
theorem run_preserves {P : Codec δ → Prop} (keeps : ∀ c op, P c → P (c.perform op).2)
    (s : Script δ α) (c : Codec δ) (holds : P c) : P (s.run c).2 := by
  induction s generalizing c with
  | done value => exact holds
  | call op next ih => exact ih _ _ (keeps c op holds)

/-- A script leaves the receiving side alone. -/
theorem sameReceiver_run (s : Script δ α) (c : Codec δ) : Codec.SameReceiver c (s.run c).2 :=
  s.run_preserves (P := Codec.SameReceiver c)
    (fun _ op same => same.trans (Codec.sameReceiver_perform _ op)) c (.refl c)

end Script

end Http2
