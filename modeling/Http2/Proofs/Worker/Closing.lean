import Http2.Proofs.Worker.Linking
import Mathlib.Data.List.Basic

/-!
# Closing is silent and happens once

From the moment a connection is put on the close chain, the worker gives it no turn apart from noting
what a report says about its socket (`use_of_closing`), whatever other chains it is on, and nothing else
changes about it (`rests_steps`). The next pass over the close chain gives it up and leaves every
connection alone that is not on that chain (`releaseClosed_of_closing`). No connection is given up twice
(`nodup_finished`).
-/

namespace Http2

variable {δ σ : Type}

namespace Connection

/-- The connection waits to be closed and nothing was done with it since, apart from noting what is known
about its socket and putting it on chains or taking it off. -/
def Rests (c c' : Connection δ σ) : Prop :=
  c' = { c with health := c'.health, membership := c'.membership } ∧ c'.membership.close = true

/-- The connection as it is given up: on no chain, and with no bodies in progress. -/
def released (c : Connection δ σ) : Connection δ σ :=
  { c with membership := {}, inProgress := [] }

@[simp] theorem id_released (c : Connection δ σ) : c.released.id = c.id :=
  rfl

variable {c c' c'' : Connection δ σ}

namespace Rests

protected theorem refl (closing : c.membership.close = true) : c.Rests c :=
  ⟨rfl, closing⟩

protected theorem trans (first : c.Rests c') (second : c'.Rests c'') : c.Rests c'' := by
  refine ⟨?_, second.2⟩
  rw [second.1, first.1]

theorem id (rests : c.Rests c') : c'.id = c.id := by
  rw [rests.1]

/-- Nothing is read from or written to a connection that rests. -/
theorem socket (rests : c.Rests c') : c'.socket = c.socket := by
  rw [rests.1]

/-- A visit leaves a connection alone that waits to be closed. -/
theorem visited {key : Nat} {chains : WorkChains} {buffer : Bytes}
    (closing : c.membership.close = true) (errand : Errand δ) :
    c.Rests (c.visited (c.visit key chains buffer errand)) := by
  obtain ⟨waits, silent⟩ := visit_of_closing closing key chains buffer errand
  refine ⟨?_, waits⟩
  unfold Connection.visited
  rcases silent with none | ⟨health, met⟩
  · rw [none]
    rfl
  · rw [met]
    rfl

end Rests

end Connection

namespace Shift

variable {s : Shift δ σ} {t : Task δ σ} {x : Step δ σ} {key : Nat} {c : Connection δ σ}

/-- A connection that waits to be closed is given no turn, except that a report about its socket is
noted. -/
theorem use_of_closing (sited : x.shift.Sited) (found : x.shift.at? key = some c)
    (closing : c.membership.close = true) :
    ∀ u ∈ x.use?, u.connection.id = c.id → ∃ health, u.turn = .meet c.socket health := by
  intro u used same
  obtain ⟨-, errand, -, given⟩ := sited.errand_of_id found used same
  rcases (Connection.visit_of_closing closing key {} x.shift.worker.work.buffer errand).2 with
    none | ⟨health, met⟩
  · rw [Connection.turn_visit, given] at none
    cases none
  · rw [Connection.turn_visit, given] at met
    exact ⟨health, Option.some.inj met⟩

/-- The connection at the front of the close chain is given up, with its memberships and requests cleared.
-/
theorem finished_of_release {rest : List Nat} {connections : Arena (Connection δ σ)}
    (front : s.taken.close = key :: rest)
    (removed : s.worker.work.connections.remove? key = some (c, connections)) :
    s.finished (.serve .close) = [c.released] := by
  simp only [finished, front, Worker.release, removed]
  rfl

/-- A connection that waits to be closed rests in its slot until it is given up. -/
theorem rests_step (sited : x.shift.Sited) (found : x.shift.at? key = some c)
    (closing : c.membership.close = true) (held : ∀ gone ∈ x.finished, gone.id ≠ c.id) :
    ∃ c', x.next.at? key = some c' ∧ c.Rests c' := by
  obtain ⟨s, t⟩ := x
  have effect := s.effect t
  unfold Step.next
  simp only at sited found held ⊢
  generalize s.perform t = s' at effect ⊢
  cases effect with
  | idle | miss | take => exact ⟨c, found, .refl closing⟩
  | takeOver new =>
    rw [at?_admitted]
    split
    · rename_i same
      have vacant : s.at? key = none := same ▸ sited.arena.get?_slot new.welcomed
      rw [vacant] at found
      cases found
    · exact ⟨c, found, .refl closing⟩
  | @visit _ other errand c' taken goes here takes =>
    rw [at?_visited]
    split
    · rename_i same
      subst same
      obtain rfl := Option.some.inj (here.symm.trans found)
      exact ⟨_, rfl, .visited closing errand⟩
    · exact ⟨c, found, .refl closing⟩
  | @release other rest c' connections front removed =>
    rw [at?_released removed]
    split
    · rename_i same
      subst same
      obtain rfl := Option.some.inj ((Arena.get?_of_remove removed).symm.trans found)
      rw [Step.finished, finished_of_release front removed] at held
      exact absurd rfl (held c'.released List.mem_cons_self)
    · exact ⟨c, found, .refl closing⟩

/-- A connection that waits to be closed rests until it is given up. -/
theorem rests_steps {tasks : List (Task δ σ)} (sited : ∀ z ∈ s.steps tasks, z.shift.Sited)
    (found : s.at? key = some c) (closing : c.membership.close = true) :
    ∀ between y later, s.steps tasks = between ++ y :: later →
      (∀ z ∈ between, ∀ gone ∈ z.finished, gone.id ≠ c.id) →
        ∃ c', y.shift.at? key = some c' ∧ c.Rests c' := by
  refine (steps_rule
    (P := fun past s => (∀ z ∈ past, ∀ gone ∈ z.finished, gone.id ≠ c.id) →
      ∃ c', s.at? key = some c' ∧ c.Rests c') []
    (fun _ => ⟨c, found, .refl closing⟩) fun past z member ih held => ?_).1
  obtain ⟨c', here, rests⟩ := ih fun z member => held z (List.mem_append_left _ member)
  have last := held z (List.mem_append_right _ List.mem_cons_self)
  rw [← rests.id] at last
  obtain ⟨c'', there, next⟩ := rests_step (sited z member) here rests.2 last
  exact ⟨c'', there, rests.trans next⟩

/-! ## The pass over the close chain -/

/-- Serving a key of the close chain empties its slot and gives up what was there. -/
theorem perform_serve_close {rest : List Nat} (front : s.taken.close = key :: rest) :
    (s.perform (.serve .close)).taken.close = rest ∧
      (∀ other, (s.perform (.serve .close)).at? other = if key = other then none else s.at? other) ∧
        s.finished (.serve .close) = ((s.at? key).map Connection.released).toList := by
  have served : s.perform (.serve .close) =
      { worker := s.worker.serveOne key .close, taken := s.taken.assign .close rest } := by
    simp only [perform, WorkChains.keys, front]
  rw [served]
  refine ⟨rfl, fun other => ?_, ?_⟩
  · cases removed : s.worker.work.connections.remove? key with
    | none =>
      have vacant : s.at? key = none := Arena.remove?_eq_none.mp removed
      simp only [Worker.serveOne, Worker.release, removed]
      split
      · rename_i same
        exact same ▸ vacant
      · rfl
    | some found =>
      simp only [Worker.serveOne, Worker.release, removed]
      exact at?_released removed _ _ other
  · cases removed : s.worker.work.connections.remove? key with
    | none =>
      have vacant : s.at? key = none := Arena.remove?_eq_none.mp removed
      simp only [finished, front, Worker.release, removed, vacant, Option.map_none, Option.toList_none]
    | some found =>
      have there : s.at? key = some found.1 := Arena.get?_of_remove removed
      rw [finished_of_release front removed, there]
      rfl

/-- Serving all keys of the close chain empties their slots and gives up what was there, in order. -/
theorem run_serve_close {keys : List Nat} (front : s.taken.close = keys) (once : keys.Nodup) :
    let serving := List.replicate keys.length (.serve .close)
    (∀ other, (s.run serving).at? other = if other ∈ keys then none else s.at? other) ∧
      s.gaveUp serving = keys.filterMap fun key => (s.at? key).map Connection.released := by
  induction keys generalizing s with
  | nil => exact ⟨fun other => rfl, rfl⟩
  | cons key rest ih =>
    obtain ⟨fresh, once⟩ := List.nodup_cons.mp once
    obtain ⟨left, slots, gone⟩ := perform_serve_close front
    obtain ⟨later, goneLater⟩ := ih left once
    simp only [List.length_cons, List.replicate_succ, run, gaveUp_cons]
    refine ⟨fun other => ?_, ?_⟩
    · rw [later, slots]
      by_cases first : key = other <;> by_cases second : other ∈ rest <;>
        simp [first, second, eq_comm]
    · have same : rest.filterMap (fun key => ((s.perform (.serve .close)).at? key).map
          Connection.released) = rest.filterMap fun key => (s.at? key).map Connection.released := by
        refine List.filterMap_congr fun other member => ?_
        have different : key ≠ other := fun named => fresh (named ▸ member)
        rw [slots, if_neg different]
      rw [goneLater, same, gone]
      cases here : s.at? key with
      | none => rw [List.filterMap_cons_none (by rw [here]; rfl)]; rfl
      | some c => rw [List.filterMap_cons_some (by rw [here]; rfl)]; rfl

/-- Of the connections in different slots, one has the name of a connection. -/
theorem filter_released (sited : s.Sited) (found : s.at? key = some c) {keys : List Nat}
    (once : keys.Nodup) :
    (keys.filterMap fun key => (s.at? key).map Connection.released).filter (·.id = c.id) =
      if key ∈ keys then [c.released] else [] := by
  induction keys with
  | nil => rfl
  | cons first rest ih =>
    obtain ⟨fresh, once⟩ := List.nodup_cons.mp once
    have later := ih once
    by_cases same : first = key
    · subst same
      rw [if_neg fresh] at later
      rw [List.filterMap_cons_some (by rw [found]; rfl), List.filter_cons_of_pos (by simp), later,
        if_pos List.mem_cons_self]
    · have member : key ∈ first :: rest ↔ key ∈ rest := by simp [Ne.symm same]
      simp only [member]
      cases here : s.at? first with
      | none => rwa [List.filterMap_cons_none (by rw [here]; rfl)]
      | some other =>
        have different : other.id ≠ c.id := fun named => same (sited.eq_of_id here found named)
        rwa [List.filterMap_cons_some (by rw [here]; rfl),
          List.filter_cons_of_neg (by simp [different])]

/-- A pass over the close chain brings no connection. -/
theorem sited_pass (sited : s.Sited) : (s.run (s.passTasks .close)).Sited := by
  refine (steps_keep sited fun x member sited => sited.perform fun c came => ?_).2
  rcases mem_passTasks (task_of_mem member) with same | same
  · rw [same] at came
    cases came
  · rw [same] at came
    cases came

/-- Giving up what is on the close chain gives up each connection on it once, and touches no other. -/
theorem releaseClosed_of_closing (sited : s.Sited) (tied : s.Tied .close) (rested : s.taken = {})
    (found : s.at? key = some c) (closing : c.membership.close = true) :
    let closed := s.worker.releaseClosed
    closed.2.filter (·.id = c.id) = [c.released] ∧
      closed.1.work.connections.get? key = none ∧ closed.1.slot? c.id = none ∧
        ∀ other c', s.at? other = some c' → other ∉ s.worker.work.chains.close →
          closed.1.work.connections.get? other = some c' := by
  intro closed
  let keys := s.worker.work.chains.close
  have whole : s.waiting .close = keys := by
    simp [waiting, WorkChains.waiting, rested, keys, WorkChains.keys]
  have once : keys.Nodup := whole ▸ WorkChains.Ties.nodup_waiting tied
  have queued : key ∈ keys := by
    rw [← whole]
    exact (WorkChains.Ties.mem_waiting (tied key)).mpr (flags_of_found found ▸ closing)
  have front : (s.perform (.take .close)).taken.close = keys := by
    simp [perform, Workload.detach, WorkChains.detach, rested, WorkChains.keys, WorkChains.assign, keys]
  obtain ⟨slots, gone⟩ := run_serve_close front once
  have worker : closed.1 = (s.run (s.passTasks .close)).worker :=
    congrArg Prod.fst (run_closing rested).symm
  have released : closed.2 = s.gaveUp (s.passTasks .close) :=
    congrArg Prod.snd (run_closing rested).symm
  have empty : ∀ other, closed.1.work.connections.get? other =
      if other ∈ keys then none else s.at? other := by
    intro other
    rw [worker]
    exact slots other
  refine ⟨?_, (empty key).trans (if_pos queued), ?_, fun other c' held away =>
    (empty other).trans ((if_neg away).trans held)⟩
  · rw [released, passTasks, gaveUp_cons]
    refine (congrArg (List.filter _) gone).trans ?_
    exact (filter_released sited found once).trans (if_pos queued)
  · cases known : closed.1.slot? c.id with
    | none => rfl
    | some other =>
      rw [worker] at known
      obtain ⟨c', held, same⟩ := ((sited_pass sited).slots c.id other).mp known
      have away := held
      rw [at?, ← worker, empty] at away
      split at away
      · cases away
      · rename_i absent
        exact absurd (sited.eq_of_id found away same.symm ▸ queued) absent

/-! ## Once -/

/-- A task gives up one connection at most: one that comes with it, or one that the worker knew. The
worker does not know it afterwards. -/
theorem finished_cases (sited : s.Sited) (proper : (Step.mk s t).Proper) :
    s.finished t = [] ∨ ∃ gone, s.finished t = [gone] ∧ (s.perform t).worker.slot? gone.id = none ∧
      ((∃ new ∈ t.newcomers, new.id = gone.id) ∨ s.worker.slot? gone.id ≠ none) := by
  cases t with
  | sort | take | fetch | start | pull | doom => exact .inl rfl
  | handBack new =>
    have unknown := (proper new List.mem_cons_self).2
    exact .inr ⟨new, rfl, unknown, .inl ⟨new, List.mem_cons_self, rfl⟩⟩
  | takeOver new =>
    have unknown := (proper new List.mem_cons_self).2
    simp only [finished, perform, Worker.takeOver]
    cases new.socket.registration with
    | none => exact .inl rfl
    | some error => exact .inr ⟨_, rfl, unknown, .inl ⟨new, List.mem_cons_self, rfl⟩⟩
  | serve chain =>
    cases chain with
    | read | write => exact .inl rfl
    | close =>
      cases front : s.taken.close with
      | nil => exact .inl (by simp only [finished, front])
      | cons key rest =>
        cases removed : s.worker.work.connections.remove? key with
        | none =>
          exact .inl (by simp only [finished, front, Worker.release, removed, Option.toList_none])
        | some found =>
          obtain ⟨c, connections⟩ := found
          have there : s.at? key = some c := Arena.get?_of_remove removed
          refine .inr ⟨c.released, finished_of_release front removed, ?_, .inr ?_⟩
          · simp only [perform, WorkChains.keys, front, Worker.serveOne, Worker.release, removed]
            rw [Worker.slot?_filter, Connection.id_released, if_pos rfl]
          · rw [Connection.id_released, (sited.slots c.id key).mpr ⟨c, there, rfl⟩]
            exact Option.some_ne_none key

/-- No connection is given up twice. -/
theorem nodup_gaveUp {tasks : List (Task δ σ)} (gone : List ConnectionId) (sited : s.Sited)
    (awaits : s.Awaits (tasks.flatMap Task.newcomers)) (once : gone.Nodup)
    (left : ∀ id ∈ gone, s.worker.slot? id = none)
    (apart : ∀ c ∈ tasks.flatMap Task.newcomers, c.id ∉ gone) :
    (gone ++ (s.gaveUp tasks).map Connection.id).Nodup := by
  induction tasks generalizing s gone with
  | nil => simpa [gaveUp, steps] using once
  | cons t tasks ih =>
    rw [List.flatMap_cons] at awaits apart
    have proper : (Step.mk s t).Proper := fun c came =>
      have member := List.mem_append_left (tasks.flatMap Task.newcomers) came
      ⟨awaits.fresh c member, awaits.unknown c member⟩
    have unknown : ∀ id ∈ gone, (s.perform t).worker.slot? id = none := fun id member =>
      unknown_perform (left id member) fun c came same =>
        apart c (List.mem_append_left _ came) (same ▸ member)
    have later : ∀ c ∈ tasks.flatMap Task.newcomers, c.id ∉ gone := fun c member =>
      apart c (List.mem_append_right _ member)
    have next := fun gone => ih gone (sited.perform proper) awaits.perform
    rw [gaveUp_cons, List.map_append, ← List.append_assoc]
    rcases finished_cases sited proper with nobody | ⟨c, one, dropped, known⟩
    · rw [nobody, List.map_nil, List.append_nil]
      exact next gone once unknown later
    · rw [one, List.map_singleton]
      refine next _ ?_ ?_ ?_
      · refine List.nodup_append.mpr ⟨once, List.pairwise_singleton _ _, ?_⟩
        rintro id member other single rfl
        obtain rfl := List.mem_singleton.mp single
        rcases known with ⟨new, came, same⟩ | known
        · exact apart new (List.mem_append_left _ came) (same ▸ member)
        · exact known (left _ member)
      · intro id member
        rcases List.mem_append.mp member with member | member
        · exact unknown id member
        · rw [List.mem_singleton.mp member]
          exact dropped
      · intro new member twice
        rcases List.mem_append.mp twice with twice | twice
        · exact later new member twice
        · have same := List.mem_singleton.mp twice
          rcases known with ⟨came, here, named⟩ | known
          · exact awaits.apart member here (named.trans same.symm)
          · exact known (same ▸ awaits.unknown new (List.mem_append_right _ member))

/-- No connection is given up twice in any number of turns. -/
theorem nodup_finished {rounds : List (Round δ σ)} (sited : s.Sited)
    (awaits : s.Awaits (Round.sent rounds)) :
    (((s.history rounds).flatMap Step.finished).map Connection.id).Nodup := by
  rw [← newcomers_rounds s rounds] at awaits
  exact nodup_gaveUp [] sited awaits .nil (fun id member => absurd member List.not_mem_nil)
    fun c member => List.not_mem_nil

end Shift

/-- However a worker runs, no connection is given up twice. And from any point where a connection is on
the close chain until it is given up, nothing changes about it but what is noted about its socket and on
what chains it is: it gets no turn but for noting a report. When the close chain is taken, the connection
is given up, once, on no chain and with no requests in progress; its slot and its name are free then, and
what is not on the close chain stays as it is. -/
theorem closing_is_silent_and_happens_once (bufferSize : Nat) (rounds : List (Round δ σ))
    (fresh : ∀ c ∈ Round.sent rounds, c.Fresh)
    (distinct : ((Round.sent rounds).map Connection.id).Nodup) :
    let history := (Shift.idle bufferSize : Shift δ σ).history rounds
    ((history.flatMap Shift.Step.finished).map Connection.id).Nodup ∧
      ∀ before x after, history = before ++ x :: after →
        ∀ key c, x.shift.at? key = some c → key ∈ x.shift.waiting .close →
          ∀ between y later, x :: after = between ++ y :: later →
            (∀ z ∈ between, ∀ gone ∈ z.finished, gone.id ≠ c.id) →
              ∃ c', y.shift.at? key = some c' ∧ c.Rests c' ∧
                (∀ u ∈ y.use?, u.connection.id = c.id → ∃ health, u.turn = .meet c.socket health) ∧
                (y.task = .take .close →
                  let closed := y.shift.worker.releaseClosed
                  closed.2.filter (·.id = c.id) = [c'.released] ∧
                    closed.1.work.connections.get? key = none ∧ closed.1.slot? c.id = none ∧
                      ∀ other c'', y.shift.at? other = some c'' →
                        other ∉ y.shift.worker.work.chains.close →
                          closed.1.work.connections.get? other = some c'') := by
  intro history
  have awaits := Shift.awaits_idle bufferSize fresh distinct
  have proper := Shift.proper_history awaits
  have rule : ∀ x ∈ history, x.shift.Sited ∧ x.shift.Tied .close :=
    Shift.history_keep (P := fun s => s.Sited ∧ s.Tied .close)
      ⟨.idle bufferSize, .idle bufferSize .close⟩ fun x member here =>
        ⟨here.1.perform (proper x member), here.2.perform here.1 (proper x member) fun _ => .inl rfl⟩
  have resting : ∀ x ∈ history, x.task = .take .close → x.shift.taken = {} :=
    Shift.history_rule rfl fun r s => Shift.taken_of_closing r
  refine ⟨Shift.nodup_finished (.idle bufferSize) awaits, ?_⟩
  intro before x after split key c found waits between y later follow held
  have inside : ∀ z ∈ x :: after, z ∈ history := fun z member =>
    split ▸ List.mem_append_right _ member
  have closing : c.membership.close = true := by
    have tied := (rule x (inside x List.mem_cons_self)).2 key
    have listed := (WorkChains.Ties.mem_waiting tied).mp waits
    rwa [Shift.flags_of_found found] at listed
  -- the steps from `x` on are a run of their own
  obtain ⟨left, same⟩ := Shift.steps_of_split split
  rw [← same] at inside follow
  obtain ⟨c', here, rests⟩ := Shift.rests_steps (fun z member => (rule z (inside z member)).1) found
    closing between y later follow held
  have member : y ∈ history := inside y (follow ▸ List.mem_append_right _ List.mem_cons_self)
  obtain ⟨sited, tied⟩ := rule y member
  refine ⟨c', here, rests, fun u used named => ?_, fun taking => ?_⟩
  · rw [← rests.socket]
    exact Shift.use_of_closing sited here rests.2 u used (named.trans rests.id.symm)
  · rw [← rests.id]
    exact Shift.releaseClosed_of_closing sited tied (resting y member taking) here rests.2

/-- A client has a request to write when its peer closes, and is asked for another one. It waits to be
closed before seven tasks, among them a pass over the write chain, and is given up with its request
unwritten. -/
theorem closing_is_silent_and_happens_once_at_end_of_stream :
    let c : Connection Unit Unit :=
      { id := ⟨0, 0⟩
        socket := { incoming := [.endOfStream], outgoing := [.accept 4, .failure .wouldBlock] }
        endpoint := ⟨.create .client 16384, ()⟩
        handler := { onHeaders := fun _ _ _ _ => .done (), onBody := fun _ _ _ _ => .done () } }
    let request : Request Unit := { fields := [{ name := "a", value := "b" }], hasBody := false }
    let rounds : List (Round Unit Unit) :=
      [{ mail := { connections := [c], requests := [(⟨0, 0⟩, request)] } },
        { reports := [(0, { readable := true, writable := true })]
          mail := { requests := [(⟨0, 0⟩, request)] } }]
    let history := (Shift.idle 8 : Shift Unit Unit).history rounds
    history.countP (fun x => (x.shift.waiting .close).contains 0) = 7 ∧
      (history.flatMap Shift.Step.finished).map (fun c => (c.id, c.socket.outgoing.length)) =
        [(⟨0, 0⟩, 2)] ∧
      ∀ before x after, history = before ++ x :: after →
        ∀ c, x.shift.at? 0 = some c → 0 ∈ x.shift.waiting .close →
          ∀ between y later, x :: after = between ++ y :: later →
            (∀ z ∈ between, ∀ gone ∈ z.finished, gone.id ≠ c.id) →
              ∃ c', y.shift.at? 0 = some c' ∧ c'.socket = c.socket ∧ c'.endpoint = c.endpoint := by
  intro c request rounds history
  have holds := closing_is_silent_and_happens_once 8 rounds
    (by
      rintro c' member
      rw [List.mem_singleton.mp member]
      exact ⟨_, _, _, .client, 16384, (), rfl⟩)
    (by decide)
  refine ⟨by decide +kernel, by decide +kernel, ?_⟩
  intro before x after split c found waits between y later follow held
  obtain ⟨c', here, rests, -⟩ := holds.2 before x after split 0 c found waits between y later follow held
  refine ⟨c', here, rests.socket, ?_⟩
  rw [rests.1]

end Http2
