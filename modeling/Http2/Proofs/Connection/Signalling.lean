import Http2.Proofs.Connection.Writing

/-!
# The write signal tells of every queued frame

A connection whose write signal is off after a turn had it off before, and nothing was queued in between,
unless someone took the signal meanwhile (`Quiets`). So the owner who looks at the signal after each turn
misses no frame, whichever callback queued it.
-/

namespace Http2

variable {δ σ : Type}

namespace Codec

/-- Frames are added at the end of the queue, and the signal is set if there are any. -/
def Rings (c c' : Codec δ) : Prop :=
  ∃ new, c'.outbound = c.outbound ++ new ∧ c'.writeSignal = (c.writeSignal || !new.isEmpty)

variable {c c' : Codec δ}

/-- Every operation rings, apart from those that take a frame or the signal. -/
theorem Effect.rings {op : Op δ} (effect : Effect c op c') (kept : op ≠ .popOutbound)
    (heard : op ≠ .takeWriteSignal) : Rings c c' := by
  cases effect with
  | @pushed _ _ _ _ frames => exact ⟨frames, rfl, rfl⟩
  | popped => exact absurd rfl kept
  | heard => exact absurd rfl heard
  | still | skipped | opened | marked | evicted =>
    exact ⟨[], (List.append_nil _).symm, (Bool.or_false _).symm⟩

/-- An operation that leaves the signal off found it off and queues nothing. -/
theorem quiet_perform (c : Codec δ) {op : Op δ} (heard : op ≠ .takeWriteSignal)
    (off : (c.perform op).2.writeSignal = false) :
    c.writeSignal = false ∧ Moment.queued ⟨c, .performed op (c.perform op).1⟩ = [] := by
  by_cases pops : op = .popOutbound
  · subst pops
    rw [perform, popOutbound_eq] at off
    exact ⟨off, by simp [Moment.queued, Moment.next, perform, popOutbound_eq]⟩
  · obtain ⟨new, queue, signal⟩ := (effect_perform c op).rings pops heard
    rw [off] at signal
    obtain ⟨before, none⟩ := Bool.or_eq_false_iff.mp signal.symm
    have none : new = [] := by simpa using none
    exact ⟨before, by simp [Moment.queued, Moment.next, queue, none]⟩

/-- Received frames do not touch the write signal. -/
theorem signal_of_outcome {f : Frame} {callback : Option Callback} {fault : Option FrameError}
    (outcome : Outcome c f c' callback fault) : c'.writeSignal = c.writeSignal := by
  cases outcome <;> rfl

/-- If the signal is off in the end, it was off at the start, and nothing was queued in between. -/
def Quiets (c : Codec δ) (between : List (Instant δ)) (c' : Codec δ) : Prop :=
  c'.writeSignal = false →
    c.writeSignal = false ∧ (∀ i ∈ between, i.queued = []) ∧ (c.outbound = [] → c'.outbound = [])

namespace Quiets

/-- What leaves queue and signal as they are has no need to set the signal. -/
theorem of_same (queue : c'.outbound = c.outbound) (signal : c'.writeSignal = c.writeSignal) :
    Quiets c [] c' :=
  fun off => ⟨signal ▸ off, fun _ member => absurd member List.not_mem_nil, queue.trans⟩

/-- If the signal is off after two steps, it was off between them. -/
protected theorem trans {c'' : Codec δ} {first second : List (Instant δ)} (one : Quiets c first c')
    (two : Quiets c' second c'') : Quiets c (first ++ second) c'' := by
  intro off
  obtain ⟨middle, later, empties'⟩ := two off
  obtain ⟨before, earlier, empties⟩ := one middle
  refine ⟨before, fun i member => ?_, fun empty => empties' (empties empty)⟩
  exact (List.mem_append.mp member).elim (earlier i) (later i)

end Quiets

end Codec

namespace Connection

open Codec (Quiets)

variable {c : Connection δ σ}

/-- What happens at the codec is told by the signal, if nobody takes it. -/
theorem quiets_during {codec : Codec δ} {log : List (Moment δ)} {due : Option (Moment δ)}
    (leads : Codec.Leads c.codec log due codec) (heard : ∀ i ∈ c.during log, i.takesSignal = false) :
    Quiets c.codec (c.during log) codec := by
  induction leads with
  | nil => exact .of_same rfl rfl
  | @perform log codec before op ih =>
    simp only [during, List.map_append, List.map_singleton] at heard ⊢
    have allowed : op ≠ .takeWriteSignal := by
      rintro rfl
      exact absurd (heard _ (List.mem_append_right _ List.mem_cons_self)) Bool.noConfusion
    refine (ih fun i member => heard i (List.mem_append_left _ member)).trans fun off => ?_
    obtain ⟨silent, nothing⟩ := codec.quiet_perform allowed off
    refine ⟨silent, fun i member => ?_, fun empty => ?_⟩
    · rw [List.mem_singleton.mp member]
      exact nothing
    · have balance := codec.queue_perform op
      rw [nothing, List.append_nil, empty] at balance
      exact (List.append_eq_nil_iff.mp balance).2
  | @receive log codec next f callback fault before outcome ih =>
    simp only [during, List.map_append, List.map_singleton] at heard ⊢
    refine (ih fun i member => heard i (List.mem_append_left _ member)).trans fun off => ?_
    refine ⟨Codec.signal_of_outcome outcome ▸ off, fun i member => ?_, fun empty => ?_⟩
    · rw [List.mem_singleton.mp member]
      exact Codec.queued_of_received
    · exact outcome.outbound_eq.trans empty
  | fail before astray ih => exact ih heard
  | @call log codec m before ih =>
    obtain ⟨-, arrival, f, callback, rfl⟩ := before.follows_of_due
    simp only [during, List.map_append, List.map_singleton] at heard ⊢
    refine (ih fun i member => heard i (List.mem_append_left _ member)).trans fun off => ?_
    refine ⟨off, fun i member => ?_, fun empty => empty⟩
    rw [List.mem_singleton.mp member]
    exact Codec.queued_of_called
  | reassemble before a ih => exact ih heard

/-- While a connection is read, nothing is queued without setting the signal. -/
theorem quiets_read {buffer : Bytes} (sound : c.Sound)
    (heard : ∀ i ∈ c.readInstants buffer, i.takesSignal = false) :
    Quiets c.codec (c.readInstants buffer) (c.readAvailable buffer).connection.codec := by
  induction c, buffer using readAvailable.induct_unfolding with
  | case1 c buffer socket c' found =>
    rw [readInstants_of_empty found]
    exact .of_same rfl rfl
  | case2 c buffer bytes socket found c' some connection fed ih =>
    rw [readInstants_of_bytes found some, fed] at heard ⊢
    have arrived : c'.Sound := sound.meet socket c.health
    have fine := Endpoint.leads_moments arrived.reachable.consistent c'.handler bytes
    have taken := arrived.takeIn bytes
    have first : Quiets c'.codec (c'.during (c'.endpoint.moments c'.handler bytes))
        (c'.takeIn bytes).1.codec :=
      quiets_during fine fun i member => heard i (List.mem_append_left _ member)
    rw [fed] at first taken
    exact first.trans (ih taken fun i member => heard i (List.mem_append_right _ member))
  | case3 c buffer bytes socket found c' some connection fault fed =>
    rw [readInstants_of_bytes found some, fed] at heard ⊢
    have arrived : c'.Sound := sound.meet socket c.health
    have fine := Endpoint.leads_moments arrived.reachable.consistent c'.handler bytes
    have first : Quiets c'.codec (c'.during (c'.endpoint.moments c'.handler bytes))
        (c'.takeIn bytes).1.codec :=
      quiets_during fine fun i member => heard i (List.mem_append_left _ member)
    rw [fed] at first
    rw [List.append_nil]
    exact first
  | case4 c buffer socket found | case5 c buffer socket found | case6 c buffer name socket found =>
    rw [readInstants_of_error found]
    exact .of_same rfl rfl

/-- While bodies are pulled, nothing is queued without setting the signal. -/
theorem quiets_pull {ids : List UInt32} {buffer : Bytes}
    (heard : ∀ i ∈ c.pullInstants buffer ids, i.takesSignal = false) :
    Quiets c.codec (c.pullInstants buffer ids)
      (ids.foldl (fun (c, buffer) id => c.pullBody buffer id) (c, buffer)).1.codec := by
  induction ids generalizing c buffer with
  | nil => exact .of_same rfl rfl
  | cons id ids ih =>
    rw [pullInstants] at heard ⊢
    have first := quiets_during ((c.pullScript buffer id).leads c.codec) fun i member =>
      heard i (List.mem_append_left _ member)
    rw [← codec_pullBody] at first
    exact first.trans (ih fun i member => heard i (List.mem_append_right _ member))

/-- Turns in which requests, bodies and answers may be queued, so that the worker looks at the signal
afterwards. -/
def Turn.Busy : Turn δ σ → Prop
  | .read _ | .start _ | .pull _ => True
  | _ => False

/-- A busy turn is told by the signal, if nobody takes it. -/
theorem quiets_turn {t : Turn δ σ} (sound : c.Sound) (busy : t.Busy)
    (heard : ∀ i ∈ c.instants t, i.takesSignal = false) :
    Quiets c.codec (c.instants t) (c.turn t).codec := by
  cases t with
  | read buffer => exact quiets_read sound heard
  | start request =>
    rw [turn, startRequest_eq]
    exact quiets_during (request.script.leads c.codec) heard
  | pull buffer => exact quiets_pull (c := { c with inProgress := [] }) heard
  | write | abandon | deed | meet => cases busy

/-- A busy turn leaves the frame being written alone. -/
theorem sending_turn {t : Turn δ σ} (busy : t.Busy) : (c.turn t).sending = c.sending := by
  cases t with
  | read buffer =>
    obtain ⟨endpoint, socket, health, read⟩ := c.exists_readAvailable buffer
    rw [turn, read]
  | start request =>
    rw [turn, startRequest_eq]
    rfl
  | pull buffer =>
    obtain ⟨endpoint, inProgress, pulled⟩ := c.exists_pullBodies buffer
    rw [turn, pulled]
  | write | abandon | deed | meet => cases busy

/-- After a busy turn that leaves the signal off, nothing is pending that was not pending before. -/
theorem pending_of_quiet {t : Turn δ σ} (sound : c.Sound) (busy : t.Busy)
    (heard : ∀ i ∈ c.instants t, i.takesSignal = false)
    (off : (c.turn t).codec.writeSignal = false) (pending : (c.turn t).hasPendingOutput = true) :
    c.hasPendingOutput = true := by
  obtain ⟨-, -, empties⟩ := quiets_turn sound busy heard off
  simp only [hasPendingOutput, sending_turn busy, Codec.hasPendingOutput, Bool.or_eq_true] at pending ⊢
  refine pending.imp_right fun queued => ?_
  cases queue : c.codec.outbound with
  | nil =>
    rw [empties queue] at queued
    cases queued
  | cons frame rest => rfl

/-- Writing leaves the signal as it is. -/
theorem signal_writeLoop (c : Connection δ σ) :
    c.writeLoop.connection.codec.writeSignal = c.codec.writeSignal := by
  obtain ⟨outbound, sending, socket, health, wrote⟩ := c.exists_writeLoop
  rw [wrote]
  rfl

end Connection

end Http2
