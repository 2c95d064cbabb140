import Http2.Proofs.Codec.Process

/-!
# Histories

`Callback` names what a codec reports to its application. `Handler.traced` behaves as the handler
under it and keeps a history beside the application's state: every callback, and every operation that
a callback performs with the answer to it, in order. `run_traced` says that a script is not disturbed
by being traced.
-/

namespace Http2

variable {δ σ α : Type}

/-- What a codec reports to its application about received frames. -/
inductive Callback where
  | headers (id : UInt32) (fields : List Field) (last : Bool)
  | body (id : UInt32) (data : Bytes) (last : Bool)
  | error (id : UInt32) (fault : StreamError)
  deriving DecidableEq, Repr

/-- The answer of a handler to a callback. -/
def Handler.on (h : Handler δ σ) : Callback → σ → Script δ σ
  | .headers id fields last, app => h.onHeaders app id fields last
  | .body id data last, app => h.onBody app id data last
  | .error id fault, app => h.onError app id fault

/-- The handler that only records its callbacks. -/
def Handler.recorder : Handler δ (List Callback) where
  onHeaders := fun log id fields last => .done (log ++ [.headers id fields last])
  onBody := fun log id data last => .done (log ++ [.body id data last])
  onError := fun log id fault => .done (log ++ [.error id fault])

/-- What happens at an endpoint, seen from its application. -/
inductive Event (δ : Type) where
  | called (callback : Callback)
  /-- This side performed an operation and got an answer. -/
  | performed (op : Codec.Op δ) (reply : op.Reply)

namespace Script

/-- The operations that a script performs on a codec, with their answers. -/
def steps : Script δ α → Codec δ → List (Event δ)
  | done _, _ => []
  | call op next, c =>
    .performed op (c.perform op).1 :: steps (next (c.perform op).1) (c.perform op).2

/-- The script that also extends a history by the operations it performs. -/
def traced : Script δ α → List (Event δ) → Script δ (α × List (Event δ))
  | done value, log => done (value, log)
  | call op next, log => call op fun reply => traced (next reply) (log ++ [.performed op reply])

/-- Tracing a script adds its steps to the history and changes nothing else. -/
theorem run_traced (s : Script δ α) (log : List (Event δ)) (c : Codec δ) :
    (s.traced log).run c = (((s.run c).1, log ++ s.steps c), (s.run c).2) := by
  induction s generalizing log c with
  | done value => simp [traced, steps]
  | call op next ih => simp [traced, steps, run_call, ih, List.append_assoc]

end Script

/-- The handler that keeps a history beside the application's state. -/
def Handler.traced (h : Handler δ σ) : Handler δ (σ × List (Event δ)) where
  onHeaders := fun (app, log) id fields last =>
    (h.onHeaders app id fields last).traced (log ++ [.called (.headers id fields last)])
  onBody := fun (app, log) id data last =>
    (h.onBody app id data last).traced (log ++ [.called (.body id data last)])
  onError := fun (app, log) id fault =>
    (h.onError app id fault).traced (log ++ [.called (.error id fault)])
  onDataNeeded := fun (app, log) id buffer =>
    ((h.onDataNeeded app id buffer).traced log).bind fun (reply, log) =>
      .done { app := (reply.app, log), stored := reply.stored, chunk := reply.chunk }

/-- A traced handler records each callback and then what its answer does. -/
theorem Handler.on_traced (h : Handler δ σ) (callback : Callback) (app : σ)
    (log : List (Event δ)) :
    h.traced.on callback (app, log) = (h.on callback app).traced (log ++ [.called callback]) := by
  cases callback <;> rfl

/-! ## Reports -/

namespace Endpoint

/-- Reports to the application. -/
def report (h : Handler δ σ) (e : Endpoint δ σ) (callback : Callback) : Endpoint δ σ :=
  e.play (h.on callback)

/-- Answers to at most one callback. -/
def answer (h : Handler δ σ) (e : Endpoint δ σ) : Option Callback → Endpoint δ σ
  | none => e
  | some callback => e.report h callback

/-- A recorder adds the callback to its record and does nothing else. -/
theorem report_recorder (e : Endpoint δ (List Callback)) (callback : Callback) :
    e.report .recorder callback = { e with app := e.app ++ [callback] } := by
  cases callback <;> rfl

/-- A recorder adds the callback, if there is one. -/
theorem answer_recorder (e : Endpoint δ (List Callback)) (callback : Option Callback) :
    e.answer .recorder callback = { e with app := e.app ++ callback.toList } := by
  cases callback with
  | none => simp [answer]
  | some callback => exact report_recorder e callback

end Endpoint

end Http2
