import Http2.Proofs.Worker.Keeping
import Http2.Proofs.Worker.Pumping

/-!
# Chains, memberships and slots of a worker agree

Between any two steps of a worker, each key is on a chain once if it is the key of a connection that says
so, and not at all otherwise. Every task keeps this, except that giving up a connection must find it on no
chain but the close chain. That holds from the point where the mail is fetched: pumping has emptied the
read and the write chain, and until the close chain is taken nothing is queued for closing, unless the
worker stops.
-/

namespace Http2

variable {δ σ : Type}

/-- Tasks that queue nothing for closing. -/
def Task.Late : Task δ σ → Prop
  | .sort .. | .serve .read | .serve .write | .doom _ => False
  | _ => True

/-- Tasks that the mail calls for, and pulling bodies. -/
def Task.Mailed : Task δ σ → Prop
  | .handBack _ | .takeOver _ | .start .. | .pull _ => True
  | _ => False

/-- What the mail calls for, and pulling, queue nothing for closing. -/
theorem Task.Mailed.late {t : Task δ σ} (mailed : t.Mailed) : t.Late := by
  cases t with
  | handBack | takeOver | start | pull => trivial
  | sort | take | serve | fetch | doom => cases mailed

/-- The connections that the mail of a run brings, in order. -/
def Round.sent (rounds : List (Round δ σ)) : List (Connection δ σ) :=
  rounds.flatMap fun r => r.mail.connections

namespace Connection

variable {c : Connection δ σ} {key : Nat} {chains : WorkChains} {buffer : Bytes}

/-- After a turn a connection is queued for writing, never for closing. -/
theorem membership_busyVisit {turn : Turn δ σ} (running : c.membership.close = false) :
    (c.busyVisit key chains buffer turn).membership.close = false := by
  unfold busyVisit
  split
  · have waits := chains.contains_enqueue .write key c.membership .close
    rw [show c.membership.contains .close = false from running] at waits
    exact waits
  · exact running

/-- Neither pulling bodies nor starting a request changes on what chains a connection is that waits to
be closed. -/
theorem membership_of_late {errand : Errand δ}
    (late : errand = .pull ∨ ∃ request, errand = .start request)
    (closing : (c.visit key chains buffer errand).membership.close = true) :
    (c.visit key chains buffer errand).membership = c.membership := by
  rcases late with rfl | ⟨request, rfl⟩
  · rw [visit, pullVisit] at closing ⊢
    split
    · rfl
    · rename_i busy
      rw [if_neg busy, membership_busyVisit (by simp_all)] at closing
      cases closing
  · rw [visit, startVisit] at closing ⊢
    split
    · rfl
    · rename_i busy
      rw [if_neg busy, membership_busyVisit (by simpa using busy)] at closing
      cases closing

end Connection

namespace Shift

variable {s : Shift δ σ} {t : Task δ σ} {tasks : List (Task δ σ)}

/-- Late tasks visit a connection only to pull bodies or to start a request. -/
theorem errand_of_late (late : t.Late) {key : Nat} {errand : Errand δ}
    (goes : s.errand? t = some (key, errand)) :
    errand = .pull ∨ ∃ request, errand = .start request := by
  cases t with
  | sort | doom => cases late
  | take | fetch | handBack | takeOver => cases goes
  | serve chain =>
    cases chain with
    | read | write => cases late
    | close => cases goes
  | pull key => exact .inl (Prod.mk.inj (Option.some.inj goes)).2.symm
  | start id request =>
    obtain ⟨found, -, same⟩ := Option.map_eq_some_iff.mp goes
    exact .inr ⟨request, (Prod.mk.inj same).2.symm⟩

/-- A late task puts no connection that waits to be closed on another chain. -/
theorem Settled.perform (settled : s.Settled) (proper : (Step.mk s t).Proper) (late : t.Late) :
    (s.perform t).Settled := by
  intro key held found closing
  cases origin (x := ⟨s, t⟩) found with
  | kept found apart => exact settled key held found closing
  | @visited c errand taken goes here takes =>
    have same : (c.visited (c.visit key s.worker.work.chains s.worker.work.buffer errand)).membership =
        c.membership := Connection.membership_of_late (errand_of_late late goes) closing
    rw [same] at closing ⊢
    exact settled key c here closing
  | @admitted c came =>
    rw [Connection.membership_welcomed, (proper c came).1.membership] at closing
    cases closing

/-- Slots and chains are in order. -/
structure Linked (s : Shift δ σ) : Prop where
  sited : s.Sited
  tied : ∀ chain, s.Tied chain

namespace Linked

/-- A worker with no connections has its chains in order. -/
theorem idle (bufferSize : Nat) : (Shift.idle bufferSize : Shift δ σ).Linked :=
  ⟨.idle bufferSize, .idle bufferSize⟩

/-- A task keeps slots and chains in order, if what it gives up is on the close chain alone. -/
theorem perform (linked : s.Linked) (proper : (Step.mk s t).Proper)
    (releases : t = .serve .close → s.Settled) : (s.perform t).Linked :=
  ⟨linked.sited.perform proper, fun chain =>
    (linked.tied chain).perform linked.sited proper fun close =>
      .inr ⟨releases close, linked.tied .close⟩⟩

/-- Tasks that give up no connection. -/
theorem steps (linked : s.Linked) (proper : ∀ x ∈ s.steps tasks, x.Proper)
    (holding : .serve .close ∉ tasks) :
    (∀ x ∈ s.steps tasks, x.shift.Linked) ∧ (s.run tasks).Linked := by
  refine steps_keep linked fun x member here => here.perform (proper x member) fun close => ?_
  exact absurd (close ▸ task_of_mem member) holding

/-- Tasks that queue nothing for closing, from where everything that waits to be closed is off the other
chains. -/
theorem steps_of_late (linked : s.Linked) (settled : s.Settled)
    (proper : ∀ x ∈ s.steps tasks, x.Proper) (late : ∀ t ∈ tasks, t.Late) :
    (∀ x ∈ s.steps tasks, x.shift.Linked) ∧ (s.run tasks).Linked := by
  have both : (∀ x ∈ s.steps tasks, x.shift.Linked ∧ x.shift.Settled) ∧
      (s.run tasks).Linked ∧ (s.run tasks).Settled :=
    steps_keep (P := fun s => s.Linked ∧ s.Settled) ⟨linked, settled⟩ fun x member here =>
      ⟨here.1.perform (proper x member) fun _ => here.2,
        here.2.perform (proper x member) (late x.task (task_of_mem member))⟩
  exact ⟨fun x member => (both.1 x member).1, both.2.1⟩

/-- While nothing waits to be read or written, no connection says that it does. -/
theorem clear_of_idle (linked : s.Linked) (rested : s.taken = {})
    (idle : s.worker.work.isIdle = true) (key : Nat) :
    (s.flags key).read = false ∧ (s.flags key).write = false := by
  obtain ⟨read, write⟩ := Bool.and_eq_true_iff.mp idle
  rw [List.isEmpty_iff] at read write
  have first := linked.tied .read key
  have second := linked.tied .write key
  rw [WorkChains.Ties, rested] at first second
  simp only [WorkChains.keys, read, write, List.count_nil, Nat.add_zero] at first second
  exact ⟨Bool.toNat_eq_zero.mp first.symm, Bool.toNat_eq_zero.mp second.symm⟩

/-- When nothing is left to read or write, connections that wait to be closed are on no other chain. -/
theorem settled_of_idle (linked : s.Linked) (rested : s.taken = {})
    (idle : s.worker.work.isIdle = true) : s.Settled := by
  intro key c found _
  rw [← flags_of_found found]
  exact linked.clear_of_idle rested idle key

end Linked

/-! ## Turns -/

/-- The kinds of tasks between fetching the mail and the close chain. -/
theorem mem_middle_tail {r : Round δ σ} (member : t ∈ (r.middle s).tail) :
    t.Mailed ∨ (r.ends = true ∧ ∃ key, t = .doom key) := by
  rw [Round.middle, List.cons_append, List.cons_append, List.tail_cons] at member
  rcases List.mem_append.mp member with member | member
  · refine .inl ?_
    rcases List.mem_append.mp member with member | member
    · unfold Round.mailing at member
      split at member
      · obtain ⟨c, -, rfl⟩ := List.mem_map.mp member
        trivial
      · rcases List.mem_append.mp member with member | member
        · obtain ⟨c, -, rfl⟩ := List.mem_map.mp member
          trivial
        · obtain ⟨entry, -, rfl⟩ := List.mem_map.mp member
          trivial
    · obtain ⟨key, -, rfl⟩ := List.mem_map.mp member
      trivial
  · unfold Round.dooming at member
    split at member
    · rename_i ends
      obtain ⟨key, -, rfl⟩ := List.mem_map.mp member
      exact .inr ⟨ends, key, rfl⟩
    · cases member

/-- The kinds of tasks from the mail to the close chain. -/
theorem mem_middle {r : Round δ σ} (member : t ∈ r.middle s) :
    t = .fetch ∨ t.Mailed ∨ (r.ends = true ∧ ∃ key, t = .doom key) :=
  (List.mem_cons.mp member).imp_right mem_middle_tail

/-- Unless the worker stops, nothing between the passes and the close chain queues for closing. -/
theorem late_middle {r : Round δ σ} (goes : r.ends = false) : ∀ t ∈ r.middle s, t.Late := by
  intro t member
  rcases mem_middle member with rfl | mailed | ⟨ends, -⟩
  · trivial
  · exact mailed.late
  · rw [goes] at ends
    cases ends

/-- Only the last pass of a turn is over the close chain. -/
theorem away_early (r : Round δ σ) : .take .close ∉ r.early s ∧ .serve .close ∉ r.early s := by
  constructor
  all_goals
    intro member
    rcases mem_early member with ⟨key, report, same⟩ | ⟨chain, different, same | same⟩ <;> cases same
    exact different rfl

/-- From the mail up to the end of the turn, the close chain is neither taken nor served. -/
theorem away_middle (r : Round δ σ) : .take .close ∉ r.middle s ∧ .serve .close ∉ r.middle s := by
  constructor
  all_goals
    intro member
    rcases mem_middle member with same | mailed | ⟨-, key, same⟩
    · cases same
    · cases mailed
    · cases same

/-- A turn goes in three parts: to the mail, to the close chain, and to the end. -/
theorem steps_tasks (r : Round δ σ) (s : Shift δ σ) :
    let pumped := s.run (r.early s)
    let closing := pumped.run (r.middle pumped)
    s.steps (r.tasks s) =
        s.steps (r.early s) ++ pumped.steps (r.middle pumped) ++
          closing.steps (closing.passTasks .close) ∧
      s.run (r.tasks s) = closing.run (closing.passTasks .close) := by
  simp only [Round.tasks, steps_append, run_append, and_self]

/-- Where the mail is fetched, the passes are over. -/
theorem idle_early (r : Round δ σ) (rested : s.taken = {}) :
    (s.run (r.early s)).taken = {} ∧ (s.run (r.early s)).worker.work.isIdle = true := by
  rw [run_early r rested]
  exact ⟨rested, Workload.isIdle_pump _⟩

/-- Slots and chains stay in order in a turn up to where connections are given up, and to its end if the
worker goes on. -/
theorem linked_tasks (r : Round δ σ) (linked : s.Linked) (rested : s.taken = {})
    (proper : ∀ x ∈ s.steps (r.tasks s), x.Proper) :
    (∀ x ∈ s.steps (r.tasks s), x.task ≠ .serve .close → x.shift.Linked) ∧
      (r.ends = false → (s.run (r.tasks s)).Linked) := by
  obtain ⟨parts, last⟩ := steps_tasks r s
  rw [parts] at proper ⊢
  rw [last]
  have early := linked.steps (fun x member => proper x
    (List.mem_append_left _ (List.mem_append_left _ member))) (away_early r).2
  have properMiddle := fun x member => proper x (List.mem_append_left _ (List.mem_append_right _ member))
  have middle := early.2.steps properMiddle (away_middle r).2
  refine ⟨fun x member holding => ?_, fun goes => ?_⟩
  · rcases List.mem_append.mp member with member | member
    · rcases List.mem_append.mp member with member | member
      · exact early.1 x member
      · exact middle.1 x member
    · rcases List.mem_cons.mp member with rfl | member
      · exact middle.2
      · rcases mem_passTasks (List.mem_cons_of_mem _ (task_of_mem member)) with same | same
        · have served := List.eq_of_mem_replicate (task_of_mem member)
          rw [served] at same
          cases same
        · exact absurd same holding
  · obtain ⟨empty, idle⟩ := idle_early r rested
    have settled := early.2.settled_of_idle empty idle
    have proper := fun x member => proper x (by
      rw [List.append_assoc]
      exact List.mem_append_right _ member)
    rw [← steps_append] at proper
    rw [← run_append]
    refine (early.2.steps_of_late settled proper fun t member => ?_).2
    rcases List.mem_append.mp member with member | member
    · exact late_middle goes t member
    · rcases mem_passTasks member with rfl | rfl <;> trivial

/-- While keys are served, some are not served yet. -/
theorem taken_serve (chain : Chain) {keys : List Nat} (front : s.taken.keys chain = keys) :
    ∀ x ∈ s.steps (List.replicate keys.length (.serve chain)), x.shift.taken.keys chain ≠ [] := by
  induction keys generalizing s with
  | nil => intro x member; cases member
  | cons key rest ih =>
    intro x member
    rw [List.length_cons, List.replicate_succ, steps] at member
    rcases List.mem_cons.mp member with rfl | member
    · simp [front]
    · refine ih ?_ x member
      simp only [perform, front, WorkChains.keys_assign, if_true]

/-- The tasks of the pass over the close chain are its last ones. -/
theorem steps_of_close (r : Round δ σ) (rested : s.taken = {}) {x : Step δ σ}
    (member : x ∈ s.steps (r.tasks s)) (close : x.task = .take .close ∨ x.task = .serve .close) :
    ∃ closing : Shift δ σ, closing.taken = {} ∧ x ∈ closing.steps (closing.passTasks .close) := by
  rw [(steps_tasks r s).1] at member
  rcases List.mem_append.mp member with member | member
  · have task := task_of_mem ((steps_append s _ _).symm ▸ member)
    rcases List.mem_append.mp task with task | task
    · rcases close with same | same <;> rw [same] at task
      · exact absurd task (away_early r).1
      · exact absurd task (away_early r).2
    · rcases close with same | same <;> rw [same] at task
      · exact absurd task (away_middle r).1
      · exact absurd task (away_middle r).2
  · have middle := (run_middle r (s.run (r.early s))).1
    exact ⟨_, by rw [middle]; exact (idle_early r rested).1, member⟩

/-- The close chain is taken when no pass is going on. -/
theorem taken_of_closing (r : Round δ σ) (rested : s.taken = {}) :
    ∀ x ∈ s.steps (r.tasks s), x.task = .take .close → x.shift.taken = {} := by
  intro x member taking
  obtain ⟨closing, empty, member⟩ := steps_of_close r rested member (.inl taking)
  rcases List.mem_cons.mp member with rfl | member
  · exact empty
  · have served := List.eq_of_mem_replicate (task_of_mem member)
    rw [taking] at served
    cases served

/-- Connections are given up only within a pass. -/
theorem taken_of_release (r : Round δ σ) (rested : s.taken = {}) :
    ∀ x ∈ s.steps (r.tasks s), x.task = .serve .close → x.shift.taken ≠ {} := by
  intro x member release
  obtain ⟨closing, empty, member⟩ := steps_of_close r rested member (.inr release)
  rcases List.mem_cons.mp member with rfl | member
  · cases release
  · have front := taken_serve .close (by
      simp [perform, Workload.detach, WorkChains.detach, empty]) x member
    intro none
    rw [none] at front
    exact front rfl

/-- The mail is fetched between the passes, when nothing is left to read or write. -/
theorem idle_of_fetch (r : Round δ σ) (rested : s.taken = {}) :
    ∀ x ∈ s.steps (r.tasks s), x.task = .fetch →
      x.shift.taken = {} ∧ x.shift.worker.work.isIdle = true := by
  intro x member fetch
  rw [(steps_tasks r s).1] at member
  rcases List.mem_append.mp member with member | member
  · rcases List.mem_append.mp member with member | member
    · have task := task_of_mem member
      rw [fetch] at task
      rcases mem_early task with ⟨key, report, same⟩ | ⟨chain, -, same | same⟩ <;> cases same
    · rcases List.mem_cons.mp member with rfl | member
      · exact idle_early r rested
      · have task := task_of_mem member
        rw [fetch] at task
        rcases mem_middle_tail (r := r) task with mailed | ⟨-, key, same⟩
        · cases mailed
        · cases same
  · have task := task_of_mem member
    rw [fetch] at task
    rcases mem_passTasks task with same | same <;> cases same

/-- Sorting and passes bring no connection. -/
theorem newcomers_early (r : Round δ σ) (s : Shift δ σ) :
    (r.early s).flatMap Task.newcomers = [] := by
  refine List.flatMap_eq_nil_iff.mpr fun t member => ?_
  rcases mem_early member with ⟨key, report, rfl⟩ | ⟨chain, -, rfl | rfl⟩ <;> rfl

/-- A pass brings no connection. -/
theorem newcomers_passTasks (s : Shift δ σ) (chain : Chain) :
    (s.passTasks chain).flatMap Task.newcomers = [] := by
  refine List.flatMap_eq_nil_iff.mpr fun t member => ?_
  rcases mem_passTasks member with rfl | rfl <;> rfl

/-- The connections that come between the mail and the close chain are those that the mail brings. -/
theorem newcomers_middle (r : Round δ σ) (s : Shift δ σ) :
    (r.middle s).flatMap Task.newcomers = r.mail.connections := by
  have pulling : ∀ s : Shift δ σ, (Round.pulling s).flatMap Task.newcomers = [] := by
    refine fun s => List.flatMap_eq_nil_iff.mpr fun t member => ?_
    obtain ⟨key, -, rfl⟩ := List.mem_map.mp member
    rfl
  have dooming : ∀ s : Shift δ σ, (r.dooming s).flatMap Task.newcomers = [] := by
    refine fun s => List.flatMap_eq_nil_iff.mpr fun t member => ?_
    unfold Round.dooming at member
    split at member
    · obtain ⟨key, -, rfl⟩ := List.mem_map.mp member
      rfl
    · cases member
  have starts : (r.mail.requests.map fun entry =>
      (.start entry.1 entry.2 : Task δ σ)).flatMap Task.newcomers = [] := by
    refine List.flatMap_eq_nil_iff.mpr fun t member => ?_
    obtain ⟨entry, -, rfl⟩ := List.mem_map.mp member
    rfl
  simp only [Round.middle, List.flatMap_append, List.flatMap_cons, pulling, dooming, List.append_nil,
    List.nil_append, Task.newcomers]
  unfold Round.mailing
  split
  · rw [List.flatMap_map]
    simp [Task.newcomers]
  · rw [List.flatMap_append, starts, List.append_nil, List.flatMap_map]
    simp [Task.newcomers]

/-- The connections that come in a turn are those that the mail brings. -/
theorem newcomers_tasks (r : Round δ σ) (s : Shift δ σ) :
    (r.tasks s).flatMap Task.newcomers = r.mail.connections := by
  rw [Round.tasks, List.flatMap_append, List.flatMap_append, newcomers_early, newcomers_middle,
    newcomers_passTasks, List.nil_append, List.append_nil]

/-! ## Runs -/

/-- All connections that come to a worker come with its mail. -/
theorem newcomers_rounds (s : Shift δ σ) (rounds : List (Round δ σ)) :
    (s.tasks rounds).flatMap Task.newcomers = Round.sent rounds := by
  induction rounds generalizing s with
  | nil => rfl
  | cons r rounds ih =>
    rw [tasks, List.flatMap_append, newcomers_tasks, ih]
    rfl

/-- Connections that the mail of a run brings are new to the worker if they are at the start. -/
theorem proper_history {rounds : List (Round δ σ)} (awaits : s.Awaits (Round.sent rounds)) :
    ∀ x ∈ s.history rounds, x.Proper :=
  proper_steps (newcomers_rounds s rounds ▸ awaits)

/-- What the steps of one turn are, the steps of any number of turns are. -/
theorem history_rule {rounds : List (Round δ σ)} {P : Step δ σ → Prop} (rested : s.taken = {})
    (each : ∀ (r : Round δ σ) (s : Shift δ σ), s.taken = {} → ∀ x ∈ s.steps (r.tasks s), P x) :
    ∀ x ∈ s.history rounds, P x := by
  induction rounds generalizing s with
  | nil => intro x member; cases member
  | cons r rounds ih =>
    intro x member
    rw [history_cons] at member
    rcases List.mem_append.mp member with member | member
    · exact each r s rested x member
    · exact ih (taken_tasks r rested) x member

/-- Slots and chains stay in order while the worker goes on. -/
theorem linked_rounds {rounds : List (Round δ σ)} (lasting : ∀ r ∈ rounds, r.ends = false)
    (linked : s.Linked) (rested : s.taken = {}) (proper : ∀ x ∈ s.history rounds, x.Proper) :
    (∀ x ∈ s.history rounds, x.task ≠ .serve .close → x.shift.Linked) ∧
      (s.run (s.tasks rounds)).Linked := by
  induction rounds generalizing s with
  | nil => exact ⟨fun x member => absurd member List.not_mem_nil, linked⟩
  | cons r rounds ih =>
    rw [history_cons] at proper ⊢
    rw [tasks, run_append]
    obtain ⟨here, goes⟩ := linked_tasks r linked rested fun x member =>
      proper x (List.mem_append_left _ member)
    obtain ⟨later, last⟩ := ih (fun r member => lasting r (List.mem_cons_of_mem _ member))
      (goes (lasting r List.mem_cons_self)) (taken_tasks r rested)
      fun x member => proper x (List.mem_append_right _ member)
    refine ⟨fun x member => ?_, last⟩
    rcases List.mem_append.mp member with member | member
    · exact here x member
    · exact later x member

/-- Slots and chains stay in order until the worker stops. -/
theorem linked_history {rounds : List (Round δ σ)} {last : Round δ σ}
    (lasting : ∀ r ∈ rounds, r.ends = false) (linked : s.Linked) (rested : s.taken = {})
    (proper : ∀ x ∈ s.history (rounds ++ [last]), x.Proper) :
    ∀ x ∈ s.history (rounds ++ [last]), x.task ≠ .serve .close → x.shift.Linked := by
  rw [history_append, history_cons] at proper ⊢
  obtain ⟨early, goes⟩ := linked_rounds lasting linked rested fun x member =>
    proper x (List.mem_append_left _ member)
  intro x member
  rcases List.mem_append.mp member with member | member
  · exact early x member
  · rcases List.mem_append.mp member with member | member
    · refine (linked_tasks last goes (taken_rounds rounds rested) fun x member => ?_).1 x member
      exact proper x (List.mem_append_right _ (List.mem_append_left _ member))
    · cases member

/-- A worker with no connections may get any fresh connections with different names. -/
theorem awaits_idle (bufferSize : Nat) {cs : List (Connection δ σ)} (fresh : ∀ c ∈ cs, c.Fresh)
    (distinct : (cs.map Connection.id).Nodup) :
    (idle bufferSize : Shift δ σ).Awaits cs :=
  ⟨fresh, fun _ _ => rfl, distinct⟩

end Shift

/-- However a worker runs, between any two of its steps, up to and including the turn in which it stops,
each key is on a chain at most once, and it is there if and only if there is a connection in its slot that
says so; and the names of the connections and their slots match one to one. Where the mail is fetched, the
read chain and the write chain are empty, and no connection says that it is on one of them. -/
theorem chains_match_memberships (bufferSize : Nat) (rounds : List (Round δ σ)) (last : Round δ σ)
    (lasting : ∀ r ∈ rounds, r.ends = false)
    (fresh : ∀ c ∈ Round.sent (rounds ++ [last]), c.Fresh)
    (distinct : ((Round.sent (rounds ++ [last])).map Connection.id).Nodup) :
    ∀ x ∈ (Shift.idle bufferSize : Shift δ σ).history (rounds ++ [last]),
      let chains := x.shift.worker.work.chains
      (x.shift.taken = {} →
        (∀ chain, (chains.keys chain).Nodup ∧
          ∀ key, key ∈ chains.keys chain ↔
            ∃ c, x.shift.at? key = some c ∧ c.membership.contains chain = true) ∧
        ∀ id key, x.shift.worker.slot? id = some key ↔ ∃ c, x.shift.at? key = some c ∧ c.id = id) ∧
      (x.task = .fetch →
        x.shift.taken = {} ∧ chains.read = [] ∧ chains.write = [] ∧
          ∀ key c, x.shift.at? key = some c →
            c.membership.read = false ∧ c.membership.write = false) := by
  intro x member chains
  have proper := Shift.proper_history (Shift.awaits_idle bufferSize fresh distinct)
  have linked := Shift.linked_history lasting (.idle bufferSize) rfl proper x member
  constructor
  · intro rested
    have holding : x.task ≠ .serve .close := fun release =>
      Shift.history_rule (P := fun x => x.task = .serve .close → x.shift.taken ≠ {}) rfl
        (fun r s => Shift.taken_of_release r) x member release rested
    have linked := linked holding
    refine ⟨fun chain => ?_, linked.sited.slots⟩
    have tied := linked.tied chain
    have whole : WorkChains.waiting x.shift.taken chains chain = chains.keys chain := by
      simp [WorkChains.waiting, rested]
    refine ⟨whole ▸ WorkChains.Ties.nodup_waiting tied, fun key => ?_⟩
    rw [← whole, WorkChains.Ties.mem_waiting (tied key)]
    cases found : x.shift.at? key with
    | none => simp [Shift.flags_of_vacant found]
    | some c => simp [Shift.flags_of_found found]
  · intro fetch
    obtain ⟨rested, idle⟩ := Shift.history_rule
      (P := fun x => x.task = .fetch → x.shift.taken = {} ∧ x.shift.worker.work.isIdle = true) rfl
      (fun r s => Shift.idle_of_fetch r) x member fetch
    have linked := linked fun release => by
      rw [fetch] at release
      cases release
    obtain ⟨read, write⟩ := Bool.and_eq_true_iff.mp idle
    refine ⟨rested, List.isEmpty_iff.mp read, List.isEmpty_iff.mp write, fun key c found => ?_⟩
    rw [← Shift.flags_of_found found]
    exact linked.clear_of_idle rested idle key

/-- A worker reads a connection after an interruption, gives it up because the peer closed, and gives the
freed slot to the next connection before it stops. -/
theorem chains_match_memberships_of_stopped :
    let c : Connection Unit Unit :=
      { id := ⟨0, 0⟩, socket := { incoming := [.failure .interrupted, .endOfStream] }
        endpoint := ⟨.create .server 16384, ()⟩
        handler := { onHeaders := fun _ _ _ _ => .done (), onBody := fun _ _ _ _ => .done () } }
    let s : Shift Unit Unit := .idle 8
    let rounds : List (Round Unit Unit) :=
      [{ mail := { connections := [c] } }, { reports := [(0, { readable := true })] }]
    let last : Round Unit Unit :=
      { mail := { connections := [{ c with id := ⟨0, 1⟩ }] }, failed := true }
    (s.history (rounds ++ [last])).countP (·.shift.worker.work.chains.close == [0]) = 5 ∧
      ∀ x ∈ s.history (rounds ++ [last]), x.shift.taken = {} →
        x.shift.worker.work.chains.close.Nodup ∧
          (0 ∈ x.shift.worker.work.chains.close ↔
            ∃ c, x.shift.at? 0 = some c ∧ c.membership.close = true) := by
  intro c s rounds last
  have holds := chains_match_memberships 8 rounds last (by decide)
    (by
      rintro c' member
      simp only [Round.sent, rounds, last, List.cons_append, List.nil_append, List.flatMap_cons,
        List.flatMap_nil, List.append_nil, List.mem_cons, List.not_mem_nil, or_false] at member
      rcases member with rfl | rfl
      · exact ⟨_, _, _, .server, 16384, (), rfl⟩
      · exact ⟨_, _, _, .server, 16384, (), rfl⟩)
    (by decide)
  refine ⟨by decide +kernel, fun x member rested => ?_⟩
  obtain ⟨nodup, there⟩ := ((holds x member).1 rested).1 .close
  exact ⟨nodup, there 0⟩

end Http2
