import Http2.Proofs.Worker.Pumping

/-!
# Pumping converges

A worker goes round as long as a connection waits to be read or written: a read pass, then a write
pass. `Workload.Pumps` is that loop without a bound on its rounds. It ends for every workload, and
`Workload.pump` is where it ends (`Pumps.rounds_eq`, `exists_pumps`): a round after which something is
left to do has used up an interruption of a script, so there is at most one round more than there are
interruptions. A write pass only ever puts back keys that it took (`keys_writes`).
-/

namespace Http2

variable {δ σ : Type}

namespace Workload

variable {w w' : Workload δ σ}

/-- From one workload, so many rounds lead to another, in which nothing is left to do. -/
inductive Pumps : Workload δ σ → Nat → Workload δ σ → Prop where
  | done {w : Workload δ σ} (idle : w.isIdle = true) : Pumps w 0 w
  | round {w w' : Workload δ σ} {n : Nat} (busy : w.isIdle = false)
      (rest : Pumps w.readPass.writePass n w') : Pumps w (n + 1) w'

/-- Pumping ends only when nothing is left to do. -/
theorem Pumps.isIdle {n : Nat} (pumps : w.Pumps n w') : w'.isIdle = true := by
  induction pumps with
  | done idle => exact idle
  | round _ _ ih => exact ih

/-- Rounds that are enough give what the loop gives. -/
theorem Pumps.rounds_eq {n m : Nat} (pumps : w.Pumps n w') (enough : n ≤ m) : w.rounds m = w' := by
  induction pumps generalizing m with
  | done idle => exact rounds_of_idle m idle
  | round busy _ ih =>
    obtain ⟨m, rfl⟩ := Nat.exists_eq_add_of_lt enough
    rw [rounds, if_neg (by simp [busy])]
    exact ih (by omega)

/-- The loop can end in one way only. -/
theorem Pumps.unique {n m : Nat} {w₁ w₂ : Workload δ σ} (first : w.Pumps n w₁)
    (second : w.Pumps m w₂) : n = m ∧ w₁ = w₂ := by
  induction first generalizing m with
  | done idle =>
    cases second with
    | done => exact ⟨rfl, rfl⟩
    | round busy => exact absurd (idle.symm.trans busy) Bool.noConfusion
  | round busy _ ih =>
    cases second with
    | done idle => exact absurd (idle.symm.trans busy) Bool.noConfusion
    | round _ rest =>
      obtain ⟨rfl, same⟩ := ih rest
      exact ⟨rfl, same⟩

/-- The loop ends, whatever the sockets and the callbacks do. Every round after the first was paid for
by an interruption. -/
theorem exists_pumps (w : Workload δ σ) :
    ∃ n w', w.Pumps n w' ∧ n + w'.interruptions ≤ 1 + w.interruptions := by
  by_cases idle : w.isIdle = true
  · exact ⟨0, w, .done idle, by omega⟩
  have busy : w.isIdle = false := Bool.eq_false_iff.mpr idle
  by_cases settled : w.readPass.writePass.isIdle = true
  · have kept : w.readPass.writePass.interruptions ≤ w.interruptions :=
      Nat.le_trans (by unfold weight readWeight; omega) w.weight_passes
    exact ⟨1, _, .round busy (.done settled), by omega⟩
  · have fewer := interruptions_passes (Bool.eq_false_iff.mpr settled)
    obtain ⟨n, w', rest, few⟩ := exists_pumps w.readPass.writePass
    exact ⟨n + 1, w', .round busy rest, by omega⟩
termination_by w.interruptions

/-! ## What a write pass leaves on the chains -/

/-- Serving one key of the write chain leaves the read chain alone, and puts at most that key back. -/
theorem keys_writeOne (w : Workload δ σ) (key : Nat) :
    (w.writeOne key).chains.read = w.chains.read ∧
      ((w.writeOne key).chains.write = w.chains.write ∨
        (w.writeOne key).chains.write = w.chains.write ++ [key]) := by
  cases found : w.connections.get? key with
  | none =>
    have same : w.writeOne key = w := modify_of_vacant found _
    exact ⟨congrArg (·.chains.read) same, .inl (congrArg (·.chains.write) same)⟩
  | some c =>
    rw [writeOne_eq found]
    refine ⟨(c.weight_writeVisit key w.chains w.buffer).2, ?_⟩
    simp only [visited, Connection.visit, Connection.writeVisit]
    split
    · exact .inl rfl
    · cases c.writePending.outcome with
      | flushed | blocked => exact .inl rfl
      | interrupted => exact .inr rfl
      | closed => exact .inl (WorkChains.keys_enqueue_of_ne (by decide : Chain.close ≠ .write) ..)

/-- Serving keys of the write chain one after the other puts back some of them, in their order. -/
theorem keys_writes (keys : List Nat) (w : Workload δ σ) :
    (keys.foldl writeOne w).chains.read = w.chains.read ∧
      ∃ back, back.Sublist keys ∧ (keys.foldl writeOne w).chains.write = w.chains.write ++ back := by
  induction keys generalizing w with
  | nil => exact ⟨rfl, [], .slnil, (List.append_nil _).symm⟩
  | cons key keys ih =>
    obtain ⟨read, one⟩ := w.keys_writeOne key
    obtain ⟨later, back, some, write⟩ := ih (w.writeOne key)
    refine ⟨later.trans read, ?_⟩
    rw [List.foldl_cons, write]
    rcases one with same | put
    · exact ⟨back, some.cons key, by rw [same]⟩
    · exact ⟨key :: back, some.cons_cons key, by rw [put, List.append_assoc, List.singleton_append]⟩

/-- A write pass with nothing to write changes nothing. -/
theorem writePass_of_empty (empty : w.chains.write = []) : w.writePass = w := by
  obtain ⟨connections, ⟨read, write, close⟩, buffer⟩ := w
  obtain rfl : write = [] := empty
  rfl

end Workload

/-- Whatever the scripts of the sockets hold, whatever the applications queue, and whatever is on the
chains, going round as long as something is to be read or written ends, in only one way, with both chains
empty. That takes at most one round more than there are interruptions in the scripts, less those that
are left. At no point of a write pass is a key on the read chain that was not there, nor a key on the
write chain that the pass did not take from it; and write passes with an empty write chain do nothing. -/
theorem pumping_converges (w : Workload δ σ) :
    (∃ rounds, w.Pumps rounds w.pump ∧ rounds + w.pump.interruptions ≤ 1 + w.interruptions) ∧
    (∀ rounds w', w.Pumps rounds w' → w' = w.pump ∧ rounds ≤ 1 + w.interruptions) ∧
    (w.pump.chains.read = [] ∧ w.pump.chains.write = []) ∧
    ∀ w' : Workload δ σ,
      (∀ served rest : List Nat, w'.chains.write = served ++ rest →
        let midway := served.foldl Workload.writeOne (w'.detach .write).2
        midway.chains.read = w'.chains.read ∧ midway.chains.write.Sublist served) ∧
      w'.writePass.chains.read = w'.chains.read ∧
      w'.writePass.chains.write.Sublist w'.chains.write ∧
      (w'.chains.write = [] → ∀ n, Workload.writePass^[n] w' = w') := by
  obtain ⟨n, w₁, pumps, few⟩ := w.exists_pumps
  obtain rfl : w.pump = w₁ := pumps.rounds_eq (by omega)
  have idle := pumps.isIdle
  simp only [Workload.isIdle, Bool.and_eq_true, List.isEmpty_iff] at idle
  refine ⟨⟨n, pumps, few⟩, fun m w₂ others => ?_, idle, fun w' => ?_⟩
  · obtain ⟨rfl, same⟩ := pumps.unique others
    exact ⟨same.symm, by omega⟩
  have puts : ∀ served : List Nat, (served.foldl Workload.writeOne (w'.detach .write).2).chains.read =
      w'.chains.read ∧ (served.foldl Workload.writeOne (w'.detach .write).2).chains.write.Sublist
        served := by
    intro served
    obtain ⟨read, back, some, write⟩ := Workload.keys_writes served (w'.detach .write).2
    refine ⟨read, ?_⟩
    rw [write]
    exact some
  refine ⟨fun served _ _ => puts served, (puts _).1, (puts _).2, fun empty n => ?_⟩
  exact Function.iterate_fixed (Workload.writePass_of_empty empty) n

/-- Two servers that wait to be read. The first is interrupted while it is read; the other takes in a
header block and answers with a reset, whose writing is interrupted. Of the three rounds that two
interruptions allow, two are made. -/
theorem pumping_converges_when_interrupted :
    let opening : Bytes := [0, 0, 0, 1, 4, 0, 0, 0, 1]
    let server (serial : Nat) (socket : Socket) : Connection Unit Unit :=
      { id := ⟨0, serial⟩, socket, membership := { read := true }
        endpoint := ⟨.create .server 16384, ()⟩
        handler :=
          { onHeaders := fun _ id _ _ => .call (.pushReset id 8) fun _ => .done ()
            onBody := fun _ _ _ _ => .done () } }
    let one := server 0 { incoming := [.failure .interrupted] }
    let other :=
      server 1 { incoming := [.data opening], outgoing := [.accept 4, .failure .interrupted] }
    let w : Workload Unit Unit :=
      { connections := ((({} : Arena _).insert one).2.insert other).2
        chains := { read := [0, 1] }, buffer := List.replicate 8 0 }
    w.interruptions = 2 ∧ w.readPass.writePass.chains = { read := [0], write := [1] } ∧
      w.Pumps 2 w.pump ∧ w.pump.chains = {} ∧ w.pump.writePass = w.pump := by
  intro opening server one other w
  obtain ⟨⟨n, pumps, -⟩, -, ⟨-, empty⟩, passes⟩ := pumping_converges w
  have again : w.readPass.writePass.chains = { read := [0], write := [1] } := by decide +kernel
  have settled : w.readPass.writePass.readPass.writePass.isIdle = true := by decide +kernel
  have two : w.Pumps 2 _ := .round rfl (.round (by simp [Workload.isIdle, again]) (.done settled))
  obtain ⟨-, same⟩ := two.unique pumps
  refine ⟨by decide +kernel, again, same ▸ two, by decide +kernel, ?_⟩
  exact (passes w.pump).2.2.2 empty 1

end Http2
