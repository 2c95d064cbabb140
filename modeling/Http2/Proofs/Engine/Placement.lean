import Http2.Proofs.Engine.Balance

/-!
# Where connections are placed

A connection goes to the first of the least-loaded workers among those that run and have room, in whatever
state the engine is (`Pool.place_cases`). So as long as nothing is reclaimed, workers that run and had the
same load stay within one of each other: a placement raises a lowest load (`Pool.Even.place`), and no other
step changes the load of a worker that goes on running (`Engine.steady_move`).
-/

namespace Http2

variable {δ σ : Type}

namespace Pool

variable {p p' : Pool δ σ} {level index : Nat}

/-- Every worker that runs has this load, or one more. -/
def Even (p : Pool δ σ) (level : Nat) : Prop :=
  ∀ s ∈ p.slots, s.stopped = false → s.active = level ∨ s.active = level + 1

/-- Workers of equal load are even. -/
theorem exists_even (equal : ∀ s ∈ p.slots, ∀ s' ∈ p.slots, s.stopped = false → s'.stopped = false →
    s.active = s'.active) : ∃ level, p.Even level := by
  by_cases some : ∃ s ∈ p.slots, s.stopped = false
  · obtain ⟨s, member, runs⟩ := some
    exact ⟨s.active, fun s' member' runs' => .inl (equal s' member' s member runs' runs)⟩
  · exact ⟨0, fun s member runs => absurd ⟨s, member, runs⟩ some⟩

/-- No load is more than one ahead of another. -/
theorem Even.within_one (even : p.Even level) : ∀ s ∈ p.slots, ∀ s' ∈ p.slots,
    s.stopped = false → s'.stopped = false → s.active ≤ s'.active + 1 := by
  intro s member s' member' runs runs'
  have one := even s member runs
  have two := even s' member' runs'
  omega

/-- Every worker that runs afterwards ran before, with the same load. -/
def Steady (p p' : Pool δ σ) : Prop :=
  ∀ s' ∈ p'.slots, s'.stopped = false → ∃ s ∈ p.slots, s.stopped = false ∧ s'.active = s.active

protected theorem Steady.refl (p : Pool δ σ) : p.Steady p :=
  fun s' member runs => ⟨s', member, runs, rfl⟩

/-- If no worker is added and no load changes, an even pool stays even. -/
theorem Steady.even (steady : p.Steady p') (even : p.Even level) : p'.Even level := by
  intro s' member runs
  obtain ⟨s, before, ran, same⟩ := steady s' member runs
  rw [same]
  exact even s before ran

/-- A slot after one slot was changed. -/
theorem mem_modifySlot {s' : Slot δ σ} {f : Slot δ σ → Slot δ σ}
    (member : s' ∈ (p.modifySlot index f).slots) :
    s' ∈ p.slots ∨ ∃ s, p.slots[index]? = some s ∧ s' = f s := by
  obtain ⟨other, found⟩ := List.mem_iff_getElem?.mp member
  rw [getElem?_modifySlot] at found
  split at found
  · rename_i same
    obtain ⟨s, there, rfl⟩ := Option.map_eq_some_iff.mp found
    exact .inr ⟨s, same ▸ there, rfl⟩
  · exact .inl (List.mem_of_getElem? found)

/-- A slot may be changed if its load stays, and a worker that stopped does not run again. -/
theorem steady_modifySlot {f : Slot δ σ → Slot δ σ}
    (keeps : ∀ s, p.slots[index]? = some s →
      (f s).active = s.active ∧ ((f s).stopped = false → s.stopped = false)) :
    p.Steady (p.modifySlot index f) := by
  intro s' member runs
  rcases mem_modifySlot member with same | ⟨s, there, rfl⟩
  · exact ⟨s', same, runs, rfl⟩
  · obtain ⟨active, ran⟩ := keeps s there
    exact ⟨s, List.mem_of_getElem? there, ran runs, active⟩

/-- A connection is placed where the load is lowest, so that no load gets more than one ahead of
another. -/
theorem Even.place (even : p.Even level) (socket : Socket) (handler : Handler δ σ) (app : σ) :
    ∃ level', (p.place socket handler app).2.Even level' := by
  rcases p.place_cases socket handler app with ⟨refused, -⟩ | ⟨index, s, least, placed⟩
  · rw [refused]
    exact ⟨level, even⟩
  rw [placed]
  have listed := List.mem_of_getElem? least.found
  rcases even s listed least.runs with low | high
  · refine ⟨level, fun s' member runs => ?_⟩
    rcases mem_modifySlot member with same | ⟨s₁, there, rfl⟩
    · exact even s' same runs
    · cases Option.some.inj (there.symm.trans least.found)
      exact .inr (congrArg (· + 1) low)
  · -- the least load is the higher one, so every worker that runs has it
    have level_up : ∀ s' ∈ p.slots, s'.stopped = false → s'.active = level + 1 := by
      intro s' member runs
      refine (even s' member runs).resolve_left fun low => ?_
      obtain ⟨other, found⟩ := List.mem_iff_getElem?.mp member
      have room := least.room
      have atLeast := (least.least other s' found runs (by omega)).1
      omega
    refine ⟨level + 1, fun s' member runs => ?_⟩
    rcases mem_modifySlot member with same | ⟨s₁, there, rfl⟩
    · exact .inl (level_up s' same runs)
    · cases Option.some.inj (there.symm.trans least.found)
      exact .inr (congrArg (· + 1) high)

end Pool

namespace Engine

variable {e : Engine δ σ} {level : Nat}

/-- Reclaiming nothing changes no slot. -/
theorem slots_reclaimed (nothing : Log.reclaimed e.reclaimed.events = []) :
    e.reclaimed.engine.pool.slots = e.pool.slots := by
  rw [(Sound.entries_reclaimed e).2.2, List.map_eq_nil_iff] at nothing
  simp only [reclaimed, Pool.reclaim_eq, nothing, List.foldl_nil]

/-- Apart from placements, a step in which nothing is reclaimed changes no load of a worker that goes on
running. -/
theorem steady_move {m : Move δ σ} (nothing : Log.reclaimed (e.move m).events = [])
    (other : ∀ socket handler app, m ≠ .place socket handler app) :
    e.pool.Steady (e.move m).engine.pool := by
  have effect := e.effect m
  generalize e.move m = moved at effect nothing ⊢
  cases effect with
  | still | closing | waiting | joined => exact .refl _
  | placed => exact absurd rfl (other _ _ _)
  | sent => exact Pool.steady_modifySlot fun s _ => ⟨rfl, id⟩
  | told => exact Pool.steady_modifySlot fun s _ => ⟨rfl, id⟩
  | reclaimed | closed =>
    intro s' member runs
    rw [slots_reclaimed nothing] at member
    exact ⟨s', member, runs, rfl⟩
  | @worked index b found m =>
    refine Pool.steady_modifySlot fun s there => ?_
    obtain rfl := Option.some.inj (there.symm.trans (slot_of_bench? found))
    obtain ⟨active, -, -, stays⟩ := b.slot_move m
    refine ⟨active, fun runs => Bool.eq_false_iff.mpr fun stopped => ?_⟩
    exact absurd ((stays stopped).symm.trans runs) Bool.noConfusion

/-- A step in which nothing is reclaimed keeps the loads within one of each other. -/
theorem even_move (even : e.pool.Even level) (m : Move δ σ)
    (nothing : Log.reclaimed (e.move m).events = []) : ∃ level', (e.move m).engine.pool.Even level' := by
  cases m with
  | place socket handler app =>
    rw [move, whileReceiving]
    split
    · exact even.place socket handler app
    · exact ⟨level, even⟩
  | request | reclaim | shutDown | worker =>
    exact ⟨level, (steady_move nothing fun _ _ _ same => by cases same).even even⟩

/-- As long as nothing is reclaimed, the loads stay within one of each other. -/
theorem even_run (even : e.pool.Even level) (moves : List (Move δ σ))
    (nothing : Log.reclaimed (e.trace moves) = []) : ∃ level', (e.run moves).pool.Even level' := by
  induction moves generalizing e level with
  | nil => exact ⟨level, even⟩
  | cons m moves ih =>
    rw [trace, Log.reclaimed_append, List.append_eq_nil_iff] at nothing
    obtain ⟨level', even'⟩ := even_move even m nothing.1
    exact ih even' nothing.2

end Engine

/-- Whatever an engine went through, and whichever of its workers have exited, a socket that is accepted
becomes a connection on the first of the least-loaded workers among those that run and have room, and only
the load, the serial and the mailbox of that worker change. A socket is refused, and then nothing changes,
if and only if every worker that runs has as many connections as it may have. From there on, if the
workers that run have equal loads and nothing is reclaimed, the loads of any two that still run differ by
at most one, however many connections are placed. -/
theorem placement_is_least_loaded_and_fair (config : Config) (workers : Nat)
    (moves : List (Engine.Move δ σ)) :
    let e : Engine δ σ := (Engine.start config workers).run moves
    (∀ socket handler app id p', e.pool.place socket handler app = (some id, p') →
      ∃ s, e.pool.LeastLoaded id.worker s ∧ id.serial = s.nextSerial ∧
        p' = e.pool.modifySlot id.worker (·.received
          { id, socket, handler, endpoint := ⟨.create config.role config.maxFrameSize, app⟩ })) ∧
    (∀ socket handler app, (e.pool.place socket handler app).1 = none ↔
      ∀ s ∈ e.pool.slots, s.stopped = false → s.active = config.connectionsPerThread) ∧
    (∀ socket handler app, (e.pool.place socket handler app).1 = none →
      (e.pool.place socket handler app).2 = e.pool) ∧
    ∀ later : List (Engine.Move δ σ),
      (∀ s ∈ e.pool.slots, ∀ s' ∈ e.pool.slots, s.stopped = false → s'.stopped = false →
        s.active = s'.active) →
      Log.reclaimed (e.trace later) = [] →
      ∀ s ∈ (e.run later).pool.slots, ∀ s' ∈ (e.run later).pool.slots,
        s.stopped = false → s'.stopped = false → s.active ≤ s'.active + 1 := by
  intro e
  have sound := Engine.Sound.run config workers moves
  have configured : e.pool.config = config := sound.configured
  have capped : ∀ s ∈ e.pool.slots, s.active ≤ config.connectionsPerThread := by
    intro s member
    obtain ⟨index, found⟩ := List.mem_iff_getElem?.mp member
    exact (sound.benches index _ (Engine.bench?_of_slot found)).room
  refine ⟨fun socket handler app id p' => ?_, fun socket handler app => ?_,
    fun socket handler app => ?_, fun later equal nothing => ?_⟩
  · rcases e.pool.place_cases socket handler app with ⟨refused, -⟩ | ⟨index, s, least, placed⟩
    · rw [refused]
      nofun
    · rw [placed, configured]
      rintro ⟨rfl, rfl⟩
      exact ⟨s, least, rfl, rfl⟩
  · rcases e.pool.place_cases socket handler app with ⟨refused, full⟩ | ⟨index, s, least, placed⟩
    · rw [refused]
      rw [configured] at full
      exact ⟨fun _ s member runs => Nat.le_antisymm (capped s member) (full s member runs),
        fun _ => rfl⟩
    · rw [placed]
      refine ⟨nofun, fun full => ?_⟩
      have room := least.room
      rw [configured] at room
      exact absurd (full s (List.mem_of_getElem? least.found) least.runs) (Nat.ne_of_lt room)
  · rcases e.pool.place_cases socket handler app with ⟨refused, -⟩ | ⟨index, s, least, placed⟩
    · rw [refused]
      exact fun _ => rfl
    · rw [placed]
      nofun
  · obtain ⟨level, even⟩ := Pool.exists_even equal
    obtain ⟨level', even'⟩ := Engine.even_run even later nothing
    exact even'.within_one

/-- Three workers with room for two connections each. The first dies before anything is placed, and is
passed over for good, although its load is the least. The other two get one connection each, then one more
each, and then there is no room left. -/
theorem placement_is_least_loaded_and_fair_without_first :
    let config : Config := { threads := 3, connectionsPerThread := 2 }
    let handler : Handler Unit Unit :=
      { onHeaders := fun _ _ _ _ => .done (), onBody := fun _ _ _ _ => .done () }
    let place : Engine.Move Unit Unit := .place {} handler ()
    let e : Engine Unit Unit :=
      (Engine.start config 3).run [.worker 0 .die, .worker 0 .stop, place, place]
    let full := e.run [place, place, place]
    e.pool.slots.map (·.active) = [0, 1, 1] ∧ (e.pool.place {} handler ()).1 = some ⟨1, 1⟩ ∧
      (∃ s, e.pool.LeastLoaded 1 s) ∧ full.pool.slots.map (·.active) = [0, 2, 2] ∧
      (full.pool.place {} handler ()).1 = none ∧
      ∀ s ∈ full.pool.slots, ∀ s' ∈ full.pool.slots, s.stopped = false → s'.stopped = false →
        s.active ≤ s'.active + 1 := by
  intro config handler place
  dsimp only
  refine ⟨by decide +kernel, by decide +kernel, ?_, by decide +kernel, by decide +kernel, ?_⟩
  · refine Exists.imp (fun _ placed => placed.1)
      ((placement_is_least_loaded_and_fair _ _ _).1 {} handler () ⟨1, 1⟩ _ (Prod.ext ?_ rfl))
    decide +kernel
  · refine (placement_is_least_loaded_and_fair _ _ _).2.2.2 _ ?_ ?_
    · decide +kernel
    · decide +kernel

end Http2
