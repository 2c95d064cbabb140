import Http2.Proofs.Worker.Visit

/-!
# Pumping ends with nothing left to do

A connection comes back on the chain that it is served from only after an interruption, and each
interruption uses up a step of a socket's script. So the interruptions that the scripts still hold,
together with the keys on the read and the write chain, do not grow in a pass, and after the passes of
one round every key on a chain was paid for (`weight_passes`). The rounds that `Workload.pump` allows are
enough (`isIdle_pump`).
-/

namespace Http2

variable {δ σ : Type}

/-! ## Interruptions of a connection -/

namespace Socket

/-- How many interruptions the scripts still hold. -/
def interruptions (s : Socket) : Nat :=
  s.incoming.countP (· = .failure .interrupted) + s.outgoing.countP (· = .failure .interrupted)

variable {s s' : Socket}

/-- A read adds no interruption, and an interrupted read uses one up. -/
theorem interruptions_read {room : Nat} {answer : Except SocketError Bytes}
    (found : s.read room = (answer, s')) :
    s'.interruptions ≤ s.interruptions ∧
      (answer = .error .interrupted → s'.interruptions < s.interruptions) := by
  unfold read at found
  split at found <;> cases found
  · exact ⟨Nat.le_refl _, nofun⟩
  · rename_i rest script
    simp [interruptions, script]
  · rename_i error rest script
    by_cases stopped : error = .interrupted <;> simp [interruptions, script, stopped]
  · rename_i bytes rest script
    split <;> simp [interruptions, script]

/-- A write adds no interruption, and an interrupted write uses one up. -/
theorem interruptions_write {bytes : Bytes} {answer : Except SocketError Nat}
    (written : s.write bytes = (answer, s')) :
    s'.interruptions ≤ s.interruptions ∧
      (answer = .error .interrupted → s'.interruptions < s.interruptions) := by
  unfold write at written
  split at written
  · split at written <;> cases written <;> exact ⟨Nat.le_refl _, nofun⟩
  · rename_i limit rest script
    cases written
    simp [interruptions, script]
  · rename_i error rest script
    cases written
    by_cases stopped : error = .interrupted <;> simp [interruptions, script, stopped]

end Socket

namespace Connection

/-- How many interruptions the scripts of the socket still hold. -/
def interruptions (c : Connection δ σ) : Nat :=
  c.socket.interruptions

/-- What a read finds and the codec takes in adds no interruption. -/
theorem interruptions_fed {c connection : Connection δ σ} {socket : Socket} {room : Nat}
    {bytes : Bytes} {fault : Option FrameError} (found : c.socket.read room = (.ok bytes, socket))
    (fed : ({ c with socket } : Connection δ σ).takeIn bytes = (connection, fault)) :
    connection.interruptions ≤ c.interruptions := by
  have same := socket_takeIn ({ c with socket } : Connection δ σ) bytes
  rw [fed] at same
  rw [interruptions, show connection.socket = socket from same]
  exact (Socket.interruptions_read found).1

/-- Reading adds no interruption, and interrupted reading uses one up. -/
theorem interruptions_readAvailable (c : Connection δ σ) (buffer : Bytes) :
    let result := c.readAvailable buffer
    result.connection.interruptions ≤ c.interruptions ∧
      (result.outcome = .interrupted → result.connection.interruptions < c.interruptions) := by
  induction c, buffer using readAvailable.induct_unfolding with
  | case2 c buffer bytes socket found c' some connection fed ih =>
    have fewer := interruptions_fed found fed
    exact ⟨Nat.le_trans ih.1 fewer, fun stopped => Nat.lt_of_lt_of_le (ih.2 stopped) fewer⟩
  | case3 c buffer bytes socket found c' some connection fault fed =>
    exact ⟨interruptions_fed found fed, fun stopped => by cases stopped⟩
  | case5 c buffer socket found =>
    have step := Socket.interruptions_read found
    exact ⟨step.1, fun _ => step.2 rfl⟩
  | case1 c buffer socket c' found | case4 c buffer socket found
  | case6 c buffer name socket found =>
    exact ⟨(Socket.interruptions_read found).1, fun stopped => by cases stopped⟩

/-- Writing adds no interruption, and interrupted writing uses one up. -/
theorem interruptions_writeLoop (c : Connection δ σ) :
    c.writeLoop.connection.interruptions ≤ c.interruptions ∧
      (c.writeLoop.outcome = .interrupted →
        c.writeLoop.connection.interruptions < c.interruptions) := by
  induction c using writeLoop.induct_unfolding with
  | case1 c next => exact ⟨Nat.le_refl _, fun stopped => by cases stopped⟩
  | case3 c frame cursor loaded next count socket written some ih =>
    have fewer := (Socket.interruptions_write written).1
    rw [(nextToSend_eq next).2.1] at fewer
    exact ⟨Nat.le_trans ih.1 fewer, fun stopped => Nat.lt_of_lt_of_le (ih.2 stopped) fewer⟩
  | case5 c frame cursor loaded next socket written =>
    have step := Socket.interruptions_write written
    rw [(nextToSend_eq next).2.1] at step
    exact ⟨step.1, fun _ => step.2 rfl⟩
  | case2 c frame cursor loaded next socket written
  | case4 c frame cursor loaded next socket written
  | case6 c frame cursor loaded next name socket written =>
    have fewer := (Socket.interruptions_write written).1
    rw [(nextToSend_eq next).2.1] at fewer
    exact ⟨fewer, fun stopped => by cases stopped⟩

end Connection

/-! ## Visits -/

namespace WorkChains

/-- To queue a key on one chain leaves the other chains alone. -/
theorem keys_enqueue_of_ne {chain other : Chain} (different : chain ≠ other) (chains : WorkChains)
    (key : Nat) (m : Membership) :
    (chains.enqueue chain key m).1.keys other = chains.keys other := by
  unfold enqueue
  split
  · rfl
  · rw [keys_relink, if_neg different]

end WorkChains

namespace Connection

variable (c : Connection δ σ) (key : Nat) (chains : WorkChains) (buffer : Bytes)

/-- A turn in which frames may be queued puts the key on no chain but the write chain. -/
theorem keys_busyVisit (turn : Turn δ σ) (chain : Chain) (different : Chain.write ≠ chain) :
    (c.busyVisit key chains buffer turn).chains.keys chain = chains.keys chain := by
  unfold busyVisit
  split
  · exact chains.keys_enqueue_of_ne different key c.membership
  · rfl

/-- A visit for reading puts the key back on the read chain only after an interruption. -/
theorem weight_readVisit :
    let v := c.visit key chains buffer .read
    (c.attend v.turn).interruptions + (v.chains.keys .read).length ≤
      c.interruptions + (chains.keys .read).length := by
  simp only [visit, readVisit]
  split
  · exact Nat.le_refl _
  · obtain ⟨most, fewer⟩ := c.interruptions_readAvailable buffer
    have same := c.keys_busyVisit key chains (c.readAvailable buffer).buffer (.read buffer)
      .read (by decide)
    have read :
        (c.attend (c.busyVisit key chains (c.readAvailable buffer).buffer
          (.read buffer)).turn).interruptions =
            (c.readAvailable buffer).connection.interruptions := by
      rw [turn_busyVisit]
      rfl
    cases ended : (c.readAvailable buffer).outcome with
    | drained =>
      simp only [Worker.Visit.leave, same, read]
      omega
    | interrupted =>
      have less := fewer ended
      simp only [Worker.Visit.stay, WorkChains.keys_relink, if_true, List.length_append,
        List.length_singleton, same, read]
      omega
    | closed =>
      have apart : Chain.close ≠ .read := by decide
      simp only [Worker.Visit.join, Worker.Visit.leave, WorkChains.keys_enqueue_of_ne apart, same,
        read]
      omega

/-- A visit for writing puts the key back on the write chain only after an interruption, and leaves the
read chain alone. -/
theorem weight_writeVisit :
    let v := c.visit key chains buffer .write
    (c.attend v.turn).interruptions + (v.chains.keys .write).length ≤
        c.interruptions + (chains.keys .write).length ∧
      v.chains.keys .read = chains.keys .read := by
  simp only [visit, writeVisit]
  split
  · exact ⟨Nat.le_refl _, rfl⟩
  · have most : (c.attend (some .write)).interruptions ≤ c.interruptions :=
      c.takeWriteSignal.2.interruptions_writeLoop.1
    have fewer : c.writePending.outcome = .interrupted →
        (c.attend (some .write)).interruptions < c.interruptions :=
      c.takeWriteSignal.2.interruptions_writeLoop.2
    cases ended : c.writePending.outcome with
    | flushed | blocked =>
      simp only [Worker.Visit.leave]
      exact ⟨Nat.add_le_add_right most _, trivial⟩
    | interrupted =>
      have less := fewer ended
      simp only [Worker.Visit.stay, WorkChains.keys_relink, if_true, List.length_append,
        List.length_singleton]
      exact ⟨by omega, rfl⟩
    | closed =>
      have apart : Chain.close ≠ .write ∧ Chain.close ≠ .read := by decide
      simp only [Worker.Visit.join, Worker.Visit.leave, WorkChains.keys_enqueue_of_ne apart.1,
        WorkChains.keys_enqueue_of_ne apart.2]
      exact ⟨Nat.add_le_add_right most _, trivial⟩

end Connection

/-! ## Passes -/

namespace Workload

variable {w : Workload δ σ}

/-- The interruptions that are left, and the keys on the read chain. -/
def readWeight (w : Workload δ σ) : Nat :=
  w.interruptions + (w.chains.keys .read).length

/-- The interruptions that are left, and the keys on the read chain and on the write chain. -/
def weight (w : Workload δ σ) : Nat :=
  w.readWeight + (w.chains.keys .write).length

/-- A visit uses up interruptions of its own connection only. -/
theorem interruptions_visited {key : Nat} {c : Connection δ σ}
    (found : w.connections.get? key = some c) (v : Worker.Visit δ σ) :
    (w.visited key c v).interruptions + c.interruptions =
      w.interruptions + (c.attend v.turn).interruptions :=
  Arena.sum_put Connection.interruptions found _

/-- Reading one connection adds no weight: it goes back on the chain only if an interruption was used up. -/
theorem readWeight_readOne (w : Workload δ σ) (key : Nat) :
    (w.readOne key).readWeight ≤ w.readWeight := by
  cases found : w.connections.get? key with
  | none =>
    have same : w.readOne key = w := modify_of_vacant found _
    exact Nat.le_of_eq (congrArg readWeight same)
  | some c =>
    have left := interruptions_visited found (c.visit key w.chains w.buffer .read)
    have lighter := c.weight_readVisit key w.chains w.buffer
    rw [readOne_eq found]
    simp only [readWeight] at lighter ⊢
    simp only [visited] at left ⊢
    omega

/-- Writing one connection adds no weight: it goes back on the chain only if an interruption was used up. -/
theorem weight_writeOne (w : Workload δ σ) (key : Nat) :
    (w.writeOne key).weight ≤ w.weight := by
  cases found : w.connections.get? key with
  | none =>
    have same : w.writeOne key = w := modify_of_vacant found _
    exact Nat.le_of_eq (congrArg weight same)
  | some c =>
    have left := interruptions_visited found (c.visit key w.chains w.buffer .write)
    obtain ⟨lighter, same⟩ := c.weight_writeVisit key w.chains w.buffer
    rw [writeOne_eq found]
    simp only [weight, readWeight]
    simp only [visited] at left ⊢
    rw [same]
    omega

/-- What does not grow in one step does not grow in any number of steps. -/
theorem foldl_le {weight : Workload δ σ → Nat} {step : Workload δ σ → Nat → Workload δ σ}
    (lighter : ∀ w key, weight (step w key) ≤ weight w) (keys : List Nat) (w : Workload δ σ) :
    weight (keys.foldl step w) ≤ weight w := by
  induction keys generalizing w with
  | nil => exact Nat.le_refl _
  | cons key keys ih => exact Nat.le_trans (ih (step w key)) (lighter w key)

/-- After a read pass and a write pass, every key on the two chains was paid for by an interruption. -/
theorem weight_passes (w : Workload δ σ) : w.readPass.writePass.weight ≤ w.interruptions := by
  have reading := foldl_le readWeight_readOne (w.detach .read).1 (w.detach .read).2
  have writing := foldl_le weight_writeOne (w.readPass.detach .write).1 (w.readPass.detach .write).2
  have detached : (w.detach .read).2.readWeight = w.interruptions := by
    simp [readWeight, detach, WorkChains.detach, interruptions]
  have half : (w.readPass.detach .write).2.weight = w.readPass.readWeight := by
    simp [weight, readWeight, detach, WorkChains.detach, interruptions]
  rw [detached] at reading
  rw [half] at writing
  exact Nat.le_trans writing reading

/-- A round that leaves something to do has used up an interruption. -/
theorem interruptions_passes (busy : w.readPass.writePass.isIdle = false) :
    w.readPass.writePass.interruptions < w.interruptions := by
  have lighter := w.weight_passes
  have some : 0 < (w.readPass.writePass.chains.keys .read).length +
      (w.readPass.writePass.chains.keys .write).length := by
    refine Nat.pos_of_ne_zero fun none => ?_
    obtain ⟨read, write⟩ := Nat.add_eq_zero_iff.mp none
    simp only [WorkChains.keys, List.length_eq_zero_iff] at read write
    simp [isIdle, read, write] at busy
  simp only [weight, readWeight] at lighter
  omega

/-- When nothing is left to do, rounds do nothing. -/
theorem rounds_of_idle (n : Nat) (idle : w.isIdle = true) : w.rounds n = w := by
  cases n with
  | zero => rfl
  | succ n => rw [rounds, if_pos idle]

/-- Enough rounds leave nothing to do. -/
theorem isIdle_rounds {n : Nat} (enough : w.interruptions < n) : (w.rounds n).isIdle = true := by
  induction n generalizing w with
  | zero => exact absurd enough (Nat.not_lt_zero _)
  | succ n ih =>
    rw [rounds]
    split
    · assumption
    · by_cases idle : w.readPass.writePass.isIdle = true
      · rwa [rounds_of_idle n idle]
      · have fewer := interruptions_passes (Bool.eq_false_iff.mpr idle)
        exact ih (by omega)

/-- Pumping ends with nothing left to read or write. -/
theorem isIdle_pump (w : Workload δ σ) : w.pump.isIdle = true :=
  isIdle_rounds (by omega)

end Workload

end Http2
