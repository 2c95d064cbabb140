import Http2.Proofs.Worker.Round

/-!
# What every worker keeps

Three things hold of a worker between any two of its tasks. The slots are in order (`Shift.Sited`): the
names of its connections and their slots match one to one. A chain is in order (`Shift.Tied`): a key waits
on it once if the connection in the slot says so, and not at all otherwise. And connections that are still
to come are new to it (`Shift.Awaits`). Giving up a connection is the one task that does not keep the ties
by itself: it clears all memberships of the connection, so the connection has to be off the other chains
(`Shift.Settled`). What every connection of a worker keeps follows from where it was before a step
(`Shift.origin`).
-/

namespace Http2

variable {δ σ : Type}

/-- A connection as the manager of the pool makes it. -/
def Connection.Fresh (c : Connection δ σ) : Prop :=
  ∃ id socket handler role maxFrameSize app,
    c = { id, socket, handler, endpoint := ⟨.create role maxFrameSize, app⟩ }

/-- The connections that come with a task, to be admitted or handed back. -/
def Task.newcomers : Task δ σ → List (Connection δ σ)
  | .takeOver c | .handBack c => [c]
  | _ => []

/-! ## Slots -/

namespace Worker

variable (w : Worker δ σ) (c : Connection δ σ)

/-- An admitted connection is found under its name, and the others as before. -/
theorem slot?_admitted (id : ConnectionId) :
    (w.admitted c).slot? id =
      if c.id = id then some (w.work.connections.insert c).1 else w.slot? id := by
  unfold admitted slot?
  by_cases same : c.id = id <;> simp [same]

/-- The slots after the name of a connection was dropped. -/
theorem slot?_filter (work : Workload δ σ) (id : ConnectionId) :
    ({ work, slots := w.slots.filter (·.1 ≠ c.id) } : Worker δ σ).slot? id =
      if id = c.id then none else w.slot? id := by
  unfold slot?
  simp only [List.find?_filter]
  split
  · rename_i same
    subst same
    simp
  · rename_i different
    refine congrArg (Option.map _) (congrArg (w.slots.find? ·) (funext fun entry => ?_))
    by_cases same : entry.1 = id <;> simp [same, different]

end Worker

namespace Connection

@[simp] theorem id_welcomed (c : Connection δ σ) : c.welcomed.id = c.id := by
  unfold welcomed
  split <;> rfl

@[simp] theorem membership_welcomed (c : Connection δ σ) : c.welcomed.membership = c.membership := by
  unfold welcomed
  split <;> rfl

/-- A fresh connection is on no chain. -/
theorem Fresh.membership {c : Connection δ σ} (fresh : c.Fresh) : c.membership = {} := by
  obtain ⟨_, _, _, _, _, _, rfl⟩ := fresh
  rfl

end Connection

namespace Shift

variable {s : Shift δ σ} {t : Task δ σ} {chain : Chain}

/-- The names of the connections and their slots match one to one, and free slots are free. -/
structure Sited (s : Shift δ σ) : Prop where
  slots : ∀ id key, s.worker.slot? id = some key ↔ ∃ c, s.at? key = some c ∧ c.id = id
  arena : s.worker.work.connections.Sound

/-- A key waits on the chain once if the connection in the slot says so, and else not at all. -/
def Tied (s : Shift δ σ) (chain : Chain) : Prop :=
  ∀ key, WorkChains.Ties s.taken s.worker.work.chains key (s.flags key) chain

/-- Connections that wait to be closed are on no other chain. -/
def Settled (s : Shift δ σ) : Prop :=
  ∀ key c, s.at? key = some c → c.membership.close = true →
    c.membership.read = false ∧ c.membership.write = false

/-- The worker may still get these connections: it does not know their names yet. -/
structure Awaits (s : Shift δ σ) (cs : List (Connection δ σ)) : Prop where
  fresh : ∀ c ∈ cs, c.Fresh
  unknown : ∀ c ∈ cs, s.worker.slot? c.id = none
  distinct : (cs.map Connection.id).Nodup

/-- The shift of a worker with no connections. -/
def idle (bufferSize : Nat) : Shift δ σ where
  worker := .idle bufferSize

/-! ## Where connections are after a task -/

/-- A visit changes the connection in its own slot only. -/
theorem at?_visited (w : Worker δ σ) (key : Nat) (c : Connection δ σ) (v : Worker.Visit δ σ)
    (taken : WorkChains) (other : Nat) :
    (⟨w.visited key c v, taken⟩ : Shift δ σ).at? other =
      if key = other then some (c.visited v) else w.work.connections.get? other :=
  w.work.connections.get?_put key other _

/-- A connection that is admitted goes into the slot that the arena gives out. -/
theorem at?_admitted (w : Worker δ σ) (c : Connection δ σ) (taken : WorkChains) (other : Nat) :
    (⟨w.admitted c, taken⟩ : Shift δ σ).at? other =
      if (w.work.connections.insert c).1 = other then some c else w.work.connections.get? other :=
  w.work.connections.get?_insert c other

/-- A connection that is given up leaves its slot empty. -/
theorem at?_released {w : Worker δ σ} {key : Nat} {c : Connection δ σ}
    {connections : Arena (Connection δ σ)}
    (removed : w.work.connections.remove? key = some (c, connections))
    (slots : List (ConnectionId × Nat)) (taken : WorkChains) (other : Nat) :
    (⟨{ work := { w.work with connections }, slots }, taken⟩ : Shift δ σ).at? other =
      if key = other then none else w.work.connections.get? other :=
  Arena.get?_remove removed other

/-- How a connection came to be in a slot after a step. -/
inductive Origin (x : Step δ σ) (key : Nat) : Connection δ σ → Prop
  /-- It was there before, and the step gives it no turn. -/
  | kept {c : Connection δ σ} (found : x.shift.at? key = some c)
      (apart : ∀ u ∈ x.use?, ∀ errand, x.shift.errand? x.task ≠ some (key, errand)) : Origin x key c
  | admitted {c : Connection δ σ} (came : c ∈ x.task.newcomers) : Origin x key c.welcomed
  | visited {c : Connection δ σ} {errand : Errand δ} {taken : WorkChains}
      (goes : x.shift.errand? x.task = some (key, errand)) (found : x.shift.at? key = some c)
      (takes : errand.Takes key x.shift.taken taken) :
      Origin x key
        (c.visited (c.visit key x.shift.worker.work.chains x.shift.worker.work.buffer errand))

/-- A connection in a slot was there before, was admitted, or was visited. -/
theorem origin {x : Step δ σ} {key : Nat} {c : Connection δ σ} (found : x.next.at? key = some c) :
    Origin x key c := by
  obtain ⟨s, t⟩ := x
  have idle (there : s.at? key = some c) (unused : (Step.mk s t).use? = none) : Origin ⟨s, t⟩ key c :=
    .kept there fun u used => by rw [unused] at used; cases used
  have effect := s.effect t
  unfold Step.next at found
  simp only at found
  generalize s.perform t = s' at effect found
  cases effect with
  | idle unused => exact idle found unused
  | miss front vacant unused => exact idle found unused
  | take chain => exact idle found rfl
  | takeOver new =>
    rw [at?_admitted] at found
    split at found
    · cases found
      exact .admitted List.mem_cons_self
    · exact idle found rfl
  | release front removed =>
    rw [at?_released removed] at found
    split at found
    · cases found
    · exact idle found rfl
  | @visit _ other errand c' taken goes here takes =>
    rw [at?_visited] at found
    split at found
    · rename_i same
      cases found
      subst same
      exact .visited goes here takes
    · rename_i different
      refine .kept found fun u used errand' goes' => different ?_
      exact congrArg Prod.fst (Option.some.inj (goes.symm.trans goes'))

theorem flags_of_found {key : Nat} {c : Connection δ σ} (found : s.at? key = some c) :
    s.flags key = c.membership := by
  rw [flags, found]
  rfl

theorem flags_of_vacant {key : Nat} (vacant : s.at? key = none) : s.flags key = {} := by
  rw [flags, vacant]
  rfl

theorem flags_congr {s' : Shift δ σ} {key : Nat} (same : s'.at? key = s.at? key) :
    s'.flags key = s.flags key := by
  rw [flags, flags, same]

/-! ## Newcomers -/

/-- A worker does not get to know a name unless a connection of that name comes. -/
theorem unknown_perform {id : ConnectionId} (unknown : s.worker.slot? id = none)
    (other : ∀ c ∈ t.newcomers, c.id ≠ id) : (s.perform t).worker.slot? id = none := by
  have effect := s.effect t
  generalize s.perform t = s' at effect ⊢
  cases effect with
  | visit | idle | miss | take => exact unknown
  | takeOver new =>
    have different := other new List.mem_cons_self
    rw [Worker.slot?_admitted, if_neg (by simpa using different)]
    exact unknown
  | release front removed =>
    rw [Worker.slot?_filter]
    split
    · rfl
    · exact unknown

namespace Awaits

variable {cs : List (Connection δ σ)}

/-- Of connections that are awaited, some are awaited. -/
theorem sublist {cs' : List (Connection δ σ)} (awaits : s.Awaits cs) (part : cs'.Sublist cs) :
    s.Awaits cs' where
  fresh c member := awaits.fresh c (part.subset member)
  unknown c member := awaits.unknown c (part.subset member)
  distinct := awaits.distinct.sublist (part.map Connection.id)

/-- No connection that is still to come has the name of one that comes now. -/
theorem apart (awaits : s.Awaits (t.newcomers ++ cs)) {c new : Connection δ σ} (member : c ∈ cs)
    (came : new ∈ t.newcomers) : new.id ≠ c.id := by
  have distinct := awaits.distinct
  rw [List.map_append, List.nodup_append] at distinct
  exact distinct.2.2 _ (List.mem_map_of_mem came) _ (List.mem_map_of_mem member)

/-- What a task leaves unknown is still to come. -/
theorem perform (awaits : s.Awaits (t.newcomers ++ cs)) : (s.perform t).Awaits cs := by
  have rest := awaits.sublist (List.sublist_append_right t.newcomers cs)
  exact ⟨rest.fresh, fun c member => unknown_perform (rest.unknown c member) fun new =>
    awaits.apart member, rest.distinct⟩

end Awaits

/-- Every connection that comes in a step is fresh, and the worker does not know its name. -/
def Step.Proper (x : Step δ σ) : Prop :=
  ∀ c ∈ x.task.newcomers, c.Fresh ∧ x.shift.worker.slot? c.id = none

/-- What is still to come is new when it comes. -/
theorem proper_steps {tasks : List (Task δ σ)}
    (awaits : s.Awaits (tasks.flatMap Task.newcomers)) : ∀ x ∈ s.steps tasks, x.Proper := by
  induction tasks generalizing s with
  | nil => intro x member; cases member
  | cons t tasks ih =>
    intro x member
    rw [List.flatMap_cons] at awaits
    rcases List.mem_cons.mp member with rfl | member
    · intro c came
      have member := List.mem_append_left (tasks.flatMap Task.newcomers) came
      exact ⟨awaits.fresh c member, awaits.unknown c member⟩
    · exact ih awaits.perform x member

/-! ## Slots stay in order -/

namespace Sited

/-- A worker with no connections has no names and no slots. -/
theorem idle (bufferSize : Nat) : (Shift.idle bufferSize : Shift δ σ).Sited where
  slots id key := by simp [Shift.idle, Worker.idle, Worker.slot?, at?]
  arena := .fresh

/-- A name belongs to one slot. -/
theorem eq_of_id (sited : s.Sited) {key key' : Nat} {c c' : Connection δ σ}
    (found : s.at? key = some c) (found' : s.at? key' = some c') (same : c.id = c'.id) : key = key' := by
  have known := (sited.slots c.id key).mpr ⟨c, found, rfl⟩
  have known' := (sited.slots c'.id key').mpr ⟨c', found', rfl⟩
  rw [← same, known] at known'
  exact Option.some.inj known'

/-- A turn of a connection of this name is one of the connection in this slot. -/
theorem errand_of_id (sited : s.Sited) {key : Nat} {c : Connection δ σ} (found : s.at? key = some c)
    {u : Use δ σ} (used : (Step.mk s t).use? = some u) (same : u.connection.id = c.id) :
    u.connection = c ∧ ∃ errand, s.errand? t = some (key, errand) ∧
      c.turnFor s.worker.work.buffer errand = some u.turn := by
  obtain ⟨other, errand, goes, there, given⟩ := errand_of_use used
  obtain rfl := sited.eq_of_id there found same
  obtain here : u.connection = c := Option.some.inj (there.symm.trans found)
  exact ⟨here, errand, goes, here ▸ given⟩

/-- No other connection has the name of one that a step gives no turn. -/
theorem apart (sited : s.Sited) {key : Nat} {c : Connection δ σ} (found : s.at? key = some c)
    (apart : ∀ u ∈ (Step.mk s t).use?, ∀ errand, s.errand? t ≠ some (key, errand)) :
    ∀ u ∈ (Step.mk s t).use?, u.connection.id ≠ c.id := by
  intro u used same
  obtain ⟨-, errand, goes, -⟩ := sited.errand_of_id found used same
  exact apart u used errand goes

/-- A task keeps names and slots matched if what comes with it is new. -/
theorem perform (sited : s.Sited) (proper : (Step.mk s t).Proper) : (s.perform t).Sited := by
  have effect := s.effect t
  generalize s.perform t = s' at effect ⊢
  cases effect with
  | idle | miss | take => exact ⟨sited.slots, sited.arena⟩
  | @visit _ key errand c taken goes found takes =>
    have there : s.worker.work.connections.get? key = some c := found
    refine ⟨fun id other => (sited.slots id other).trans ?_, sited.arena.put (by simp [there]) _⟩
    rw [at?_visited]
    split
    · rename_i same
      subst same
      simp [found]
    · rfl
  | takeOver c =>
    obtain ⟨-, unknown⟩ := proper c List.mem_cons_self
    have empty := sited.arena.get?_slot c.welcomed
    refine ⟨fun id key => ?_, sited.arena.insert _⟩
    rw [Worker.slot?_admitted, at?_admitted, Connection.id_welcomed]
    by_cases mine : c.id = id
    · subst mine
      rw [if_pos rfl]
      have before := sited.slots c.id key
      rw [unknown] at before
      constructor
      · intro same
        rw [if_pos (Option.some.inj same)]
        exact ⟨_, rfl, c.id_welcomed⟩
      · rintro ⟨other, held, same⟩
        split at held
        · rename_i here
          rw [here]
        · cases before.mpr ⟨other, held, same⟩
    · rw [if_neg mine]
      refine (sited.slots id key).trans ?_
      split
      · rename_i here
        subst here
        have vacant : s.at? (s.worker.work.connections.insert c.welcomed).1 = none := empty
        simp [vacant, mine]
      · rfl
  | @release key rest c connections front removed =>
    have there : s.at? key = some c := Arena.get?_of_remove removed
    refine ⟨fun id other => ?_, sited.arena.remove removed⟩
    rw [Worker.slot?_filter, at?_released removed]
    by_cases mine : id = c.id
    · subst mine
      rw [if_pos rfl]
      refine iff_of_false nofun ?_
      rintro ⟨other', held, same⟩
      split at held
      · cases held
      · rename_i elsewhere
        exact elsewhere (sited.eq_of_id there held same.symm)
    · rw [if_neg mine]
      refine (sited.slots id other).trans ?_
      split
      · rename_i here
        subst here
        simp [there, Ne.symm mine]
      · rfl

end Sited

/-! ## Chains stay in order -/

namespace Tied

/-- Without connections and keys, every key waits as often as it should: not at all. -/
theorem idle (bufferSize : Nat) (chain : Chain) :
    (Shift.idle bufferSize : Shift δ σ).Tied chain := by
  intro key
  simp [WorkChains.Ties, Shift.idle, Worker.idle, flags, at?]

/-- A key that was taken off a chain is the key of a connection. -/
theorem found (tied : s.Tied chain) {key : Nat} {rest : List Nat}
    (front : s.taken.keys chain = key :: rest) :
    (s.flags key).contains chain = true ∧ ∃ c, s.at? key = some c := by
  have ties := tied key
  rw [WorkChains.Ties, front, List.count_cons_self] at ties
  have set : (s.flags key).contains chain = true := by
    cases clear : (s.flags key).contains chain with
    | true => rfl
    | false =>
      rw [clear, Bool.toNat_false] at ties
      omega
  refine ⟨set, Option.isSome_iff_exists.mp ?_⟩
  cases vacant : s.at? key with
  | none =>
    rw [flags_of_vacant vacant, Membership.contains_empty] at set
    cases set
  | some c => rfl

/-- A task keeps a chain tied. What is given up must be on no other chain, or that one would keep its key.
-/
theorem perform (tied : s.Tied chain) (sited : s.Sited) (proper : (Step.mk s t).Proper)
    (releases : t = .serve .close → chain = .close ∨ (s.Settled ∧ s.Tied .close)) :
    (s.perform t).Tied chain := by
  have effect := s.effect t
  generalize s.perform t = s' at effect ⊢
  intro other
  have ties := tied other
  cases effect with
  | idle => exact ties
  | @visit _ key errand c taken goes found takes =>
    have moves := c.moves_visit s.worker.work.chains s.worker.work.buffer errand takes
    by_cases mine : key = other
    · subst mine
      rw [flags_of_found found] at ties
      rw [flags_of_found ((at?_visited _ _ _ _ _ _).trans (if_pos rfl))]
      exact moves.ties ties
    · have same := (at?_visited s.worker key c
        (c.visit key s.worker.work.chains s.worker.work.buffer errand) taken other).trans (if_neg mine)
      exact ties.congr (congrArg (·.contains chain) (flags_congr same))
        (moves.sameBut.1 chain other (Ne.symm mine)) (moves.sameBut.2 chain other (Ne.symm mine))
  | @miss line key rest front vacant =>
    by_cases mine : key = other
    · subst mine
      rw [flags_of_vacant vacant] at ties
      have clear : ({} : Membership).remove line = {} := by cases line <;> rfl
      have left := ties.leave front
      rw [clear] at left
      rwa [flags_of_vacant (s := { s with taken := s.taken.assign line rest }) vacant]
    · exact ties.congr rfl (WorkChains.SameBut.assign front chain other (Ne.symm mine)) rfl
  | take line =>
    refine Eq.trans ?_ ties
    simp only [Workload.detach, WorkChains.detach, WorkChains.keys_assign]
    by_cases same : line = chain
    · subst same
      simp
    · simp [same]
  | takeOver c =>
    have empty : s.at? (s.worker.work.connections.insert c.welcomed).1 = none :=
      sited.arena.get?_slot c.welcomed
    have found := at?_admitted s.worker c.welcomed s.taken other
    refine ties.congr ?_ rfl rfl
    by_cases mine : (s.worker.work.connections.insert c.welcomed).1 = other
    · rw [flags_of_found (found.trans (if_pos mine)), ← mine, flags_of_vacant empty,
        Connection.membership_welcomed, (proper c List.mem_cons_self).1.membership]
    · rw [flags_congr (found.trans (if_neg mine))]
  | @release key rest c connections front removed =>
    have there : s.at? key = some c := Arena.get?_of_remove removed
    have listed : s.taken.keys .close = key :: rest := front
    have found := at?_released removed (s.worker.slots.filter (·.1 ≠ c.id))
      (s.taken.assign .close rest) other
    by_cases mine : key = other
    · subst mine
      rw [flags_of_found there] at ties
      have vacant := found.trans (if_pos rfl)
      have closing : c.membership.close = true := by
        rcases releases rfl with rfl | ⟨-, closeTied⟩
        · exact flags_of_found there ▸ (tied.found front).1
        · exact flags_of_found there ▸ (closeTied.found front).1
      refine (ties.leave listed).congr ?_ rfl rfl
      rw [flags_of_vacant vacant, Membership.contains_empty, Membership.contains_remove]
      rcases releases rfl with rfl | ⟨settled, -⟩
      · rfl
      · obtain ⟨read, write⟩ := settled key c there closing
        cases chain <;> simp [Membership.contains, read, write]
    · refine ties.congr ?_ (WorkChains.SameBut.assign listed chain other (Ne.symm mine)) rfl
      rw [flags_congr (s := s) (found.trans (if_neg mine))]

end Tied

end Shift

end Http2
