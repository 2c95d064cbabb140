import Http2.Proofs.Codec.Process

/-!
# Reachable codecs

A codec is reachable if it comes about from a fresh one by operations of this side and by processing
received bytes, with any handlers and any outcomes.
-/

namespace Http2.Codec

variable {δ : Type}

/-- A codec that comes about by use. -/
inductive Reachable : Codec δ → Prop where
  | create (role : Role) (maxFrameSize : Nat) : Reachable (create role maxFrameSize)
  | perform {c : Codec δ} (before : Reachable c) (op : Op δ) : Reachable (c.perform op).2
  | process {σ : Type} {c : Codec δ} (before : Reachable c) (h : Handler δ σ) (app : σ)
      (input : Bytes) : Reachable (Endpoint.process h ⟨c, app⟩ input).endpoint.codec

/-- The receiving side of a reachable codec is ready for the next call. -/
theorem Reachable.framed {c : Codec δ} (reachable : c.Reachable) : c.Framed := by
  induction reachable with
  | create role maxFrameSize => exact framed_create role maxFrameSize
  | perform _ op ih => exact ih.of_sameFraming (sameReceiver_perform _ op).toSameFraming
  | process _ h app input ih => exact Endpoint.framed_process h _ input ih

/-- A script leads from a reachable codec to a reachable one. -/
theorem Reachable.run {α : Type} {c : Codec δ} (reachable : c.Reachable) (s : Script δ α) :
    (s.run c).2.Reachable :=
  s.run_preserves (fun _ op before => .perform before op) c reachable

/-- The codec that an operation leaves behind, whatever it answers. -/
theorem Reachable.left {c c' : Codec δ} (reachable : c.Reachable) (op : Op δ) {reply : op.Reply}
    (performed : c.perform op = (reply, c')) : c'.Reachable := by
  have reached := reachable.perform op
  rwa [performed] at reached

end Http2.Codec
