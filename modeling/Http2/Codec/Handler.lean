import Http2.Codec.Script

/-!
# Application callbacks

A `Handler` is the application behind one connection. `σ` is the type of its own state; each callback
is given that state and the event, and answers with a script that ends in the new state. Callbacks
therefore depend on nothing but what they were given and what the codec answered.
-/

namespace Http2

/-- What a handler reports about one piece of a request body. -/
structure BodyChunk where
  /-- How many bytes at the front of the buffer count. -/
  written : Nat
  /-- No more body follows. -/
  finished : Bool
  deriving DecidableEq, Repr

/-- A handler's answer to a call for body bytes. -/
structure BodyReply (σ : Type) where
  app : σ
  /-- The bytes stored at the front of the buffer; the rest of it stays as it was. -/
  stored : Bytes := []
  chunk : BodyChunk

/-- The application behind one connection. -/
structure Handler (δ σ : Type) where
  /-- A header block is complete. `last` is the END_STREAM flag of the HEADERS frame that opened it. -/
  onHeaders : σ → (id : UInt32) → (fields : List Field) → (last : Bool) → Script δ σ
  /-- A DATA frame arrived; its padding is removed. -/
  onBody : σ → (id : UInt32) → (data : Bytes) → (last : Bool) → Script δ σ
  /-- A received frame broke the rules of a stream, which is closed now. -/
  onError : σ → (id : UInt32) → (fault : StreamError) → Script δ σ := fun app _ _ => .done app
  /-- The next piece of a request body is wanted, in a buffer with the given contents. -/
  onDataNeeded : σ → (id : UInt32) → (buffer : Bytes) → Script δ (BodyReply σ) :=
    fun app _ _ => .done { app, chunk := { written := 0, finished := true } }

/-- A codec and the state of the application behind it. -/
structure Endpoint (δ σ : Type) where
  codec : Codec δ
  app : σ

namespace Endpoint

variable {δ σ : Type}

/-- Plays a script whose value is the new state of the application. -/
def play (e : Endpoint δ σ) (script : σ → Script δ σ) : Endpoint δ σ :=
  let (app, codec) := (script e.app).run e.codec
  { codec, app }

end Endpoint

end Http2
