import Http2.Proofs.Engine.Basic

/-!
# A turn without interruption

When nothing happens between the steps that a worker makes in one turn, they are `Pool.runWorker`
(`Engine.run_turn`).
-/

namespace Http2

variable {δ σ : Type}

namespace Bench

/-- What any number of steps of a worker give. -/
def runs (b : Bench δ σ) : List Thread.Move → Moved δ σ
  | [] => { bench := b }
  | m :: moves =>
    let later := (b.move m).bench.runs moves
    { bench := later.bench
      finished := (b.move m).finished ++ later.finished
      events := (b.move m).events ++ later.events }

variable {b : Bench δ σ}

theorem bench_runs_append (b : Bench δ σ) (first second : List Thread.Move) :
    (b.runs (first ++ second)).bench = ((b.runs first).bench.runs second).bench := by
  induction first generalizing b with
  | nil => rfl
  | cons m moves ih => exact ih (b.move m).bench

theorem finished_runs_append (b : Bench δ σ) (first second : List Thread.Move) :
    (b.runs (first ++ second)).finished =
      (b.runs first).finished ++ ((b.runs first).bench.runs second).finished := by
  induction first generalizing b with
  | nil => rfl
  | cons m moves ih =>
    exact (congrArg _ (ih (b.move m).bench)).trans (List.append_assoc _ _ _).symm

/-- The first tasks that are due are done, and all of them collect what they give up, or none does. -/
theorem runs_work {tasks rest : List (Task δ σ)} (due : b.thread.due = tasks ++ rest) (keep : Bool)
    (alike : ∀ t ∈ tasks, t.collects = keep) :
    (b.runs (List.replicate tasks.length .work)).bench =
        { slot := { b.slot with worker := (b.shift.run tasks).worker }
          thread :=
            { b.thread with
              taken := (b.shift.run tasks).taken
              due := rest
              released := b.thread.released ++ if keep then b.shift.gaveUp tasks else [] } } ∧
      (b.runs (List.replicate tasks.length .work)).finished =
        if keep then [] else b.shift.gaveUp tasks := by
  induction tasks generalizing b with
  | nil =>
    obtain ⟨slot, ⟨stage, taken, queue, released⟩⟩ := b
    obtain rfl : queue = rest := due
    cases keep <;> simp [runs, Shift.run, Shift.gaveUp, Shift.steps, shift]
  | cons t tasks ih =>
    have worked : b.move .work = b.worked t (tasks ++ rest) := by
      simp only [move, due, List.cons_append]
    obtain ⟨bench, finished⟩ := ih (b := (b.worked t (tasks ++ rest)).bench) rfl
      fun t member => alike t (List.mem_cons_of_mem _ member)
    rw [List.length_cons, List.replicate_succ, runs, worked, bench, finished, Shift.gaveUp_cons]
    have first := alike t List.mem_cons_self
    cases keep <;> simp [Bench.worked, first, shift, Shift.run]

/-- The tasks from the mail to the close pass collect nothing. -/
theorem collects_middle {r : Round δ σ} {s : Shift δ σ} {t : Task δ σ} (member : t ∈ r.middle s) :
    t.collects = false := by
  rcases Shift.mem_middle member with rfl | mailed | ⟨-, key, rfl⟩
  · rfl
  · cases t with
    | serve => cases mailed
    | sort | take | fetch | handBack | takeOver | start | pull | doom => rfl
  · rfl

/-- Before the mail, a connection that is given up is handed back at once. -/
theorem collects_early {r : Round δ σ} {s : Shift δ σ} {t : Task δ σ} (member : t ∈ r.early s) :
    t.collects = false := by
  rcases Shift.mem_early member with ⟨key, report, rfl⟩ | ⟨chain, different, rfl | rfl⟩
  · rfl
  · rfl
  · cases chain with
    | read | write => rfl
    | close => exact absurd rfl different

/-- The steps before the mail are the tasks before the mail. -/
theorem runs_early (waits : b.thread = {}) (r : Round δ σ) :
    let tasks := r.early b.shift
    let served := b.runs (.begin r.reports false :: List.replicate tasks.length .work)
    served.bench =
        { slot := { b.slot with worker := (b.shift.run tasks).worker }
          thread := { stage := .serving false, taken := (b.shift.run tasks).taken } } ∧
      served.finished = [] := by
  intro tasks served
  obtain ⟨slot, thread⟩ := b
  obtain rfl : thread = {} := waits
  have due : ((Bench.mk slot {}).begun r.reports false).thread.due = tasks ++ [] :=
    (List.append_nil _).symm
  obtain ⟨bench, finished⟩ := runs_work due false fun t => collects_early
  exact ⟨bench, (congrArg ([] ++ ·) finished).trans (Shift.gaveUp_early r)⟩

/-- The steps after the mail are the tasks after the mail. -/
theorem runs_late (fetches : b.thread.stage = .serving false) (done : b.thread.due = [])
    (none : b.thread.released = []) :
    let r := b.round false
    let closing := b.shift.run (r.middle b.shift)
    let tasks := r.middle b.shift ++ closing.passTasks .close
    ∃ count,
      let settled := b.runs (.fetch :: List.replicate count .work ++ [.deliver])
      settled.bench =
          { slot := { b.slot with worker := (b.shift.run tasks).worker, mailbox := {} }
            thread :=
              { stage := if b.slot.quit then .ended else .waiting
                taken := (b.shift.run tasks).taken } } ∧
        settled.finished = b.shift.gaveUp tasks := by
  intro r closing tasks
  let mailed : List (Task δ σ) := (r.middle b.shift).tail ++ [.take .close]
  let served : List (Task δ σ) :=
    List.replicate (closing.worker.work.chains.keys .close).length (.serve .close)
  have whole : tasks = .fetch :: (mailed ++ served) := by
    exact congrArg (Task.fetch :: ·) (List.append_cons _ _ _)
  -- the tasks up to the close pass hand back what they give up; the others collect it
  have queued : (b.fetched false).bench.thread.due = mailed ++ served := List.append_cons _ _ _
  obtain ⟨first, back⟩ := runs_work queued false fun t member => by
    rcases List.mem_append.mp member with member | single
    · exact collects_middle (List.mem_of_mem_tail member)
    · rw [List.mem_singleton.mp single]
      rfl
  have left : ((b.fetched false).bench.runs (List.replicate mailed.length .work)).bench.thread.due =
      served ++ [] := by
    rw [first, List.append_nil]
  obtain ⟨second, kept⟩ := runs_work left true fun t member => by
    rw [(List.mem_replicate.mp member).2]
    rfl
  have last : (b.round false).ends = b.slot.quit := Bool.or_false _
  have fetch : b.move .fetch = b.fetched false := by
    simp only [move, fetches, done]
  refine ⟨mailed.length + served.length, ?_⟩
  rw [List.replicate_add, List.cons_append, runs, fetch, bench_runs_append, bench_runs_append,
    finished_runs_append, finished_runs_append, bench_runs_append, second, kept, back, first, whole]
  simp [runs, move, Bench.delivered, Bench.fetched, last, none, shift, Shift.run, Shift.run_append,
    Shift.gaveUp_cons, Shift.gaveUp_append, Shift.finished, Shift.perform]

/-- The steps of a turn, with so many tasks before the mail and after it. -/
def turnMoves (reports : List (Nat × Readiness)) (before after : Nat) (quit : Bool) :
    List Thread.Move :=
  .begin reports false :: List.replicate before .work ++
    (.fetch :: List.replicate after .work ++ [.deliver] ++ if quit then [.stop] else [])

/-- A worker that makes the steps of a turn does what `Worker.turn` says. -/
theorem runs_turn (waits : b.thread = {}) (lives : b.slot.stopped = false)
    (reports : List (Nat × Readiness)) :
    let turn := b.slot.worker.turn reports b.slot.mailbox b.slot.quit
    ∃ before after,
      let made := b.runs (turnMoves reports before after b.slot.quit)
      made.bench =
          { slot :=
              { b.slot with worker := turn.worker, mailbox := {}, stopped := b.slot.quit }
            thread := { stage := if b.slot.quit then .ended else .waiting } } ∧
        made.finished = turn.finished := by
  intro turn
  let r : Round δ σ := { reports, mail := b.slot.mailbox, quit := b.slot.quit }
  let tasks := r.early b.shift
  let pumped : Bench δ σ :=
    { slot := { b.slot with worker := (b.shift.run tasks).worker }
      thread := { stage := .serving false, taken := (b.shift.run tasks).taken } }
  have start : b.shift = { worker := b.slot.worker } := by rw [shift, waits]
  obtain ⟨made, given⟩ := Shift.run_tasks r rfl b.slot.worker
  rw [← start, Round.tasks, List.append_assoc] at made given
  rw [Shift.run_append] at made
  rw [Shift.gaveUp_append, Shift.gaveUp_early, List.nil_append] at given
  obtain ⟨served, silent⟩ := runs_early waits r
  obtain ⟨count, settled, finished⟩ := runs_late (b := pumped) rfl rfl rfl
  have here : pumped.shift = b.shift.run tasks := rfl
  have same : (pumped.round false).middle (b.shift.run tasks) = r.middle (b.shift.run tasks) := rfl
  rw [here, same, made] at settled
  rw [here, same, given] at finished
  refine ⟨tasks.length, count, ?_⟩
  change (b.runs _).bench = _ ∧ (b.runs _).finished = _
  rw [turnMoves, bench_runs_append, bench_runs_append, finished_runs_append, finished_runs_append,
    served, silent, settled, finished]
  cases quit : b.slot.quit with
  | true =>
    constructor
    · simp [runs, move, stopped, pumped, quit, turn, r]
    · simp [runs, move, quit, turn, r]
  | false =>
    constructor
    · simp [runs, pumped, quit, turn, r, lives]
    · simp [runs, quit, turn, r]

end Bench

/-- Changing a slot is about what is in the slot. -/
theorem Pool.modifySlot_congr {p : Pool δ σ} {index : Nat} {s : Slot δ σ} {f g : Slot δ σ → Slot δ σ}
    (found : p.slots[index]? = some s) (same : f s = g s) :
    p.modifySlot index f = p.modifySlot index g := by
  have slots : p.slots.modify index f = p.slots.modify index g := by
    refine List.ext_getElem? fun other => ?_
    rw [List.getElem?_modify, List.getElem?_modify]
    split
    · rename_i here
      rw [← here, found]
      exact congrArg some same
    · rfl
  rw [modifySlot, slots, ← modifySlot]

namespace Engine

variable {e : Engine δ σ} {index : Nat} {b : Bench δ σ}

/-- To put a worker back as it is changes nothing. -/
theorem seat_self (found : e.bench? index = some b) : e.seat index { bench := b } = e := by
  obtain ⟨s, there, rfl⟩ := Option.map_eq_some_iff.mp found
  have kept : e.pool.modifySlot index (fun _ => s) = e.pool := by
    refine (Pool.modifySlot_congr (f := fun _ => s) (g := id) there rfl).trans ?_
    rw [Pool.modifySlot, List.modify_id]
  have same : (fun other => if other = index then e.threads index else e.threads other) = e.threads := by
    funext other
    split
    · rename_i same
      rw [same]
    · rfl
  simp only [seat, kept, same, List.append_nil]

/-- Two steps of one worker are one, with what both handed to the manager. -/
theorem seat_seat (e : Engine δ σ) (index : Nat) (first later : Bench.Moved δ σ) :
    (e.seat index first).seat index later =
      e.seat index
        { bench := later.bench
          finished := first.finished ++ later.finished
          events := first.events ++ later.events } := by
  simp only [seat, Pool.modifySlot, List.modify_modify_eq, List.append_assoc]
  congr 1
  funext other
  split <;> rfl

/-- The steps of one worker, with nothing between them. -/
theorem run_worker (found : e.bench? index = some b) (moves : List Thread.Move) :
    e.run (moves.map (.worker index)) = e.seat index (b.runs moves) := by
  induction moves generalizing e b with
  | nil => exact (seat_self found).symm
  | cons m moves ih =>
    have moved : e.move (.worker index m) =
        { engine := e.seat index (b.move m), events := (b.move m).events } := by
      simp only [move, found]
    have there : (e.seat index (b.move m)).bench? index = some (b.move m).bench := by
      rw [bench?_seat, if_pos rfl, found, Option.map_some]
    rw [List.map_cons, run, moved, ih there]
    exact e.seat_seat index (b.move m) _

/-- If a worker makes the steps of a turn and nothing happens between them, this is a turn of the worker
as the pool has it. -/
theorem run_turn (found : e.bench? index = some b) (waits : b.thread = {})
    (lives : b.slot.stopped = false) (reports : List (Nat × Readiness)) :
    ∃ before after,
      (e.run ((Bench.turnMoves reports before after b.slot.quit).map (.worker index))).pool =
        e.pool.runWorker index reports := by
  obtain ⟨before, after, bench, finished⟩ := Bench.runs_turn waits lives reports
  refine ⟨before, after, ?_⟩
  have slot := slot_of_bench? found
  rw [run_worker found, seat, bench, finished, Pool.runWorker, slot]
  simp only [lives, Bool.false_eq_true, if_false]
  rw [Pool.modifySlot_congr (g := fun s =>
    { s with
      worker := (b.slot.worker.turn reports b.slot.mailbox b.slot.quit).worker
      mailbox := {}
      stopped := s.quit }) slot rfl]
  rfl

end Engine

end Http2
