import Http2.Proofs.Worker.Closing
import Mathlib.Data.List.Nodup

/-!
# What a worker has

The slab of a worker is the connections in its slots. A task neither makes nor loses a connection: what is
in the slab afterwards, together with what is given up, is what was there before, together with what came
(`Sited.conserves`). When the last turn of a worker is over, nothing is left in the slab
(`at?_last_turn`).
-/

namespace Http2

variable {δ σ : Type}

namespace Shift

variable {s : Shift δ σ} {t : Task δ σ}

/-- The connections that the worker has admitted, in the order of their slots. -/
def slab (s : Shift δ σ) : List (Connection δ σ) :=
  s.worker.work.connections.toList.map (·.2)

theorem slab_of_empty (empty : s.worker.work.connections = {}) : s.slab = [] := by
  rw [slab, empty]
  simp [Arena.toList]

theorem mem_slots {key : Nat} {c : Connection δ σ} :
    (key, c) ∈ s.worker.work.connections.toList ↔ s.at? key = some c :=
  Std.ExtTreeMap.mem_toList_iff_getElem?_eq_some

/-- The slab holds the connections that are in slots. -/
theorem mem_slab {c : Connection δ σ} : c ∈ s.slab ↔ ∃ key, s.at? key = some c := by
  constructor
  · intro member
    obtain ⟨⟨key, c'⟩, listed, rfl⟩ := List.mem_map.mp member
    exact ⟨key, mem_slots.mp listed⟩
  · rintro ⟨key, found⟩
    exact List.mem_map.mpr ⟨(key, c), mem_slots.mpr found, rfl⟩

namespace Sited

/-- No two connections in the slab have the same name. -/
theorem nodup_slab (sited : s.Sited) : (s.slab.map Connection.id).Nodup := by
  rw [slab, List.map_map]
  have keys := s.worker.work.connections.slots.distinct_keys_toList
  refine List.pairwise_map.mpr (keys.imp_of_mem fun {x y} here there apart same => ?_)
  have equal := sited.eq_of_id (mem_slots.mp here) (mem_slots.mp there) same
  exact apart (by simp [equal])

/-- The slab holds a name once if the worker knows it, and else not at all. -/
theorem count_slab (sited : s.Sited) (id : ConnectionId) :
    (s.slab.map Connection.id).count id = (s.worker.slot? id).isSome.toNat := by
  cases known : s.worker.slot? id with
  | none =>
    refine List.count_eq_zero.mpr fun member => ?_
    obtain ⟨c, held, rfl⟩ := List.mem_map.mp member
    obtain ⟨key, found⟩ := mem_slab.mp held
    rw [(sited.slots c.id key).mpr ⟨c, found, rfl⟩] at known
    cases known
  | some key =>
    obtain ⟨c, found, rfl⟩ := (sited.slots id key).mp known
    exact List.count_eq_one_of_mem sited.nodup_slab
      (List.mem_map.mpr ⟨c, mem_slab.mpr ⟨key, found⟩, rfl⟩)

end Sited

/-- Most tasks change no slot. -/
theorem slots_perform (away : t ≠ .serve .close) (quiet : t.newcomers = []) :
    (s.perform t).worker.slots = s.worker.slots := by
  have effect := s.effect t
  generalize s.perform t = s' at effect ⊢
  cases effect with
  | visit | idle | miss | take => rfl
  | takeOver c => cases quiet
  | release front removed => exact absurd rfl away

/-- A task neither makes nor loses a connection. -/
theorem Sited.conserves (sited : s.Sited) (proper : (Step.mk s t).Proper) (id : ConnectionId) :
    ((s.perform t).slab.map Connection.id).count id + ((s.finished t).map Connection.id).count id =
      (s.slab.map Connection.id).count id + (t.newcomers.map Connection.id).count id := by
  have after := sited.perform proper
  rw [after.count_slab, sited.count_slab]
  -- tasks that give up no connection and get none
  have quiet (away : t ≠ .serve .close) (alone : t.newcomers = []) (kept : s.finished t = []) :
      ((s.perform t).worker.slot? id).isSome.toNat + ((s.finished t).map Connection.id).count id =
        (s.worker.slot? id).isSome.toNat + (t.newcomers.map Connection.id).count id := by
    rw [alone, kept, Worker.slot?, slots_perform away alone, Worker.slot?]
  cases t with
  | sort | take | fetch | start | pull | doom => exact quiet (by rintro ⟨⟩) rfl rfl
  | handBack c => rfl
  | takeOver c =>
    have unknown : s.worker.slot? c.id = none := (proper c List.mem_cons_self).2
    cases refused : c.socket.registration with
    | some error =>
      simp [finished, Shift.perform, Worker.takeOver, refused, Task.newcomers, Connection.noteError]
    | none =>
      have performed : (s.perform (.takeOver c)).worker = s.worker.admitted c.welcomed := by
        simp only [Shift.perform, Worker.takeOver, refused]
        rfl
      have kept : s.finished (.takeOver c) = [] := by
        simp only [finished, Worker.takeOver, refused, Option.toList_none]
      rw [performed, kept, Worker.slot?_admitted, Connection.id_welcomed]
      by_cases mine : c.id = id
      · subst mine
        simp [unknown, Task.newcomers]
      · simp [mine, Task.newcomers]
  | serve chain =>
    cases chain with
    | read | write => exact quiet (by rintro ⟨⟩) rfl rfl
    | close =>
      cases front : s.taken.close with
      | nil => simp [finished, Shift.perform, WorkChains.keys, front, Task.newcomers]
      | cons key rest =>
        cases removed : s.worker.work.connections.remove? key with
        | none =>
          simp [finished, Shift.perform, WorkChains.keys, front, Worker.serveOne, Worker.release, removed,
            Task.newcomers]
        | some found =>
          obtain ⟨c, connections⟩ := found
          have known : s.worker.slot? c.id = some key :=
            (sited.slots c.id key).mpr ⟨c, Arena.get?_of_remove removed, rfl⟩
          have performed : (s.perform (.serve .close)).worker =
              { work := { s.worker.work with connections }
                slots := s.worker.slots.filter (·.1 ≠ c.id) } := by
            simp only [Shift.perform, WorkChains.keys, front, Worker.serveOne, Worker.release, removed]
          rw [finished_of_release front removed, performed, Worker.slot?_filter]
          by_cases mine : id = c.id
          · subst mine
            simp [known, Task.newcomers]
          · simp [mine, Ne.symm mine, Task.newcomers]

/-! ## The last turn -/

/-- Queueing a connection for closing occupies no slot and frees none. Afterwards it waits to be closed,
and so does what waited before. -/
theorem perform_doom (s : Shift δ σ) (key other : Nat) :
    ((s.perform (.doom key)).at? other).isSome = (s.at? other).isSome ∧
      ((s.at? other).isSome → key = other ∨ (s.flags other).close = true →
        ((s.perform (.doom key)).flags other).close = true) := by
  cases found : s.at? key with
  | none =>
    have same : s.perform (.doom key) = s := by
      rw [perform, Workload.modify_of_vacant found]
    rw [same]
    refine ⟨rfl, fun occupied waits => waits.resolve_left ?_⟩
    rintro rfl
    rw [found] at occupied
    cases occupied
  | some c =>
    have visited : s.perform (.doom key) =
        ⟨s.worker.visited key c (c.visit key s.worker.work.chains s.worker.work.buffer .doom),
          s.taken⟩ := by
      rw [perform, Workload.doom_eq found]
      rfl
    have there := at?_visited s.worker key c
      (c.visit key s.worker.work.chains s.worker.work.buffer .doom) s.taken other
    rw [visited]
    by_cases same : key = other
    · subst same
      rw [if_pos rfl] at there
      refine ⟨by rw [there, found]; rfl, fun _ _ => ?_⟩
      rw [flags_of_found there]
      exact (s.worker.work.chains.contains_enqueue .close key c.membership .close).trans (by simp)
    · rw [if_neg same] at there
      refine ⟨congrArg Option.isSome there, fun _ waits => ?_⟩
      rw [flags_congr (s := s) there]
      exact waits.resolve_left same

/-- Queueing connections for closing, one after the other. -/
theorem run_dooms (keys : List Nat) (s : Shift δ σ) (other : Nat) :
    let last := s.run (keys.map .doom)
    (last.at? other).isSome = (s.at? other).isSome ∧
      ((s.at? other).isSome → other ∈ keys ∨ (s.flags other).close = true →
        (last.flags other).close = true) := by
  induction keys generalizing s with
  | nil => exact ⟨rfl, fun _ waits => waits.resolve_left List.not_mem_nil⟩
  | cons key keys ih =>
    obtain ⟨same, doomed⟩ := s.perform_doom key other
    obtain ⟨later, last⟩ := ih (s.perform (.doom key))
    refine ⟨later.trans same, fun occupied waits => last (same.trans occupied) ?_⟩
    rcases waits with listed | waits
    · exact (List.mem_cons.mp listed).symm.imp_right fun first => doomed occupied (.inl first.symm)
    · exact .inr (doomed occupied (.inr waits))

/-- In the last turn of a worker, every connection waits to be closed when the close chain is taken. -/
theorem closing_middle {r : Round δ σ} (ends : r.ends = true) (s : Shift δ σ) (key : Nat) :
    ((s.run (r.middle s)).at? key).isSome → ((s.run (r.middle s)).flags key).close = true := by
  rw [Round.middle, run_append, run_append]
  generalize s.run (.fetch :: r.mailing) = mailed
  generalize mailed.run (Round.pulling mailed) = pulled
  rw [Round.dooming, if_pos ends]
  obtain ⟨same, doomed⟩ := run_dooms pulled.worker.work.connections.keys pulled key
  intro occupied
  rw [same] at occupied
  exact doomed occupied (.inl (Arena.mem_keys.mpr occupied))

/-- When the last turn of a worker is over, its slots are empty. -/
theorem at?_last_turn {r : Round δ σ} (ends : r.ends = true) (sited : s.Sited) (tied : s.Tied .close)
    (rested : s.taken = {}) (awaits : s.Awaits r.mail.connections) (key : Nat) :
    let closing := s.run (r.middle s)
    (closing.run (closing.passTasks .close)).at? key = none := by
  intro closing
  have proper : ∀ x ∈ s.steps (r.middle s), x.Proper :=
    proper_steps (newcomers_middle r s ▸ awaits)
  obtain ⟨-, -, tied⟩ : (∀ x ∈ s.steps (r.middle s), x.shift.Sited ∧ x.shift.Tied .close) ∧
      closing.Sited ∧ closing.Tied .close :=
    steps_keep (P := fun s => s.Sited ∧ s.Tied .close) ⟨sited, tied⟩ fun x member here =>
      ⟨here.1.perform (proper x member), here.2.perform here.1 (proper x member) fun _ => .inl rfl⟩
  have still : closing.taken = {} := (congrArg taken (run_middle r s).1).trans rested
  let keys := closing.worker.work.chains.close
  have whole : closing.waiting .close = keys := by
    simp [waiting, WorkChains.waiting, still, keys, WorkChains.keys]
  have front : (closing.perform (.take .close)).taken.close = keys := by
    simp [perform, Workload.detach, WorkChains.detach, still, WorkChains.keys, WorkChains.assign, keys]
  have served := (run_serve_close front (whole ▸ WorkChains.Ties.nodup_waiting tied)).1 key
  refine served.trans ?_
  split
  · rfl
  · rename_i away
    refine Option.not_isSome_iff_eq_none.mp fun occupied => away ?_
    rw [← whole]
    exact (WorkChains.Ties.mem_waiting (tied key)).mpr (closing_middle ends s key occupied)

end Shift

end Http2
