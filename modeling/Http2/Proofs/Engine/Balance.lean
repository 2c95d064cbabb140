import Http2.Proofs.Engine.Bench
import Mathlib.Data.List.Perm.Subperm

/-!
# The balance of an engine

Each connection that was ever placed is with its worker, among what is finished, reclaimed, or lost with a
worker that died, and the loads count what is not reclaimed (`Engine.Sound`). Every step keeps this, so it
holds in any interleaving (`Sound.run`).
-/

namespace Http2

variable {δ σ : Type}

/-- What holds of the worker with an index, after what a log says. -/
structure Bench.Booked (config : Config) (past : List (Entry δ)) (index : Nat) (b : Bench δ σ) :
    Prop where
  sound : b.Sound
  homed : b.Homed index
  /-- The connections placed here have the names of the serials. -/
  serials : (Log.placed past).filter (·.worker = index) =
    (List.range b.slot.nextSerial).map fun serial => ⟨index, serial⟩
  /-- The load counts what was placed and not yet reclaimed. -/
  load : b.slot.active + (Log.reclaimed past).countP (·.worker = index) = b.slot.nextSerial
  room : b.slot.active ≤ config.connectionsPerThread

namespace Bench.Booked

variable {config : Config} {past events : List (Entry δ)} {index : Nat} {b : Bench δ σ}

/-- Entries about other workers, and those about requests, do not matter. -/
theorem later (booked : b.Booked config past index)
    (placed : (Log.placed events).filter (·.worker = index) = [])
    (reclaimed : (Log.reclaimed events).countP (·.worker = index) = 0) :
    b.Booked config (past ++ events) index where
  sound := booked.sound
  homed := booked.homed
  serials := by rw [Log.placed_append, List.filter_append, placed, List.append_nil, booked.serials]
  load := by rw [Log.reclaimed_append, List.countP_append, reclaimed, Nat.add_zero, booked.load]
  room := booked.room

/-- A step of the worker. -/
theorem move (booked : b.Booked config past index) (m : Thread.Move) :
    (b.move m).bench.Booked config (past ++ (b.move m).events) index := by
  obtain ⟨placed, reclaimed⟩ := b.entries_move m
  obtain ⟨active, serial, -⟩ := b.slot_move m
  have later : b.Booked config (past ++ (b.move m).events) index :=
    booked.later (by rw [placed]; rfl) (by rw [reclaimed]; rfl)
  obtain ⟨sound, homed, serials, load, room⟩ := later
  constructor
  · exact sound.move m
  · exact homed.move sound m
  · rw [serial]
    exact serials
  · rw [active, serial]
    exact load
  · rw [active]
    exact room

/-- What the manager changes without effect on connections and loads. -/
theorem congr {s s' : Slot δ σ} {thread : Thread δ σ}
    (booked : ({ slot := s, thread } : Bench δ σ).Booked config past index)
    (worker : s'.worker = s.worker) (mail : s'.mailbox.connections = s.mailbox.connections)
    (active : s'.active = s.active) (serial : s'.nextSerial = s.nextSerial) :
    ({ slot := s', thread } : Bench δ σ).Booked config past index := by
  obtain ⟨sound, homed, serials, load, room⟩ := booked
  refine ⟨sound.congr worker mail, fun id present => ?_, ?_, ?_, ?_⟩
  · rw [tally_congr worker mail] at present
    rw [serial]
    exact homed id present
  · rw [serial]
    exact serials
  · rw [active, serial]
    exact load
  · rw [active]
    exact room

/-- A connection is placed here. -/
theorem received (booked : b.Booked config past index) {c : Connection δ σ} (fresh : c.Fresh)
    (name : c.id = ⟨index, b.slot.nextSerial⟩) (room : b.slot.active < config.connectionsPerThread) :
    (b.received c).Booked config (past ++ [.placed c.id]) index where
  sound := booked.sound.received booked.homed fresh name
  homed := booked.homed.received name
  serials := by
    have one : Log.placed ([.placed c.id] : List (Entry δ)) = [c.id] := rfl
    have home : c.id.worker = index := by rw [name]
    rw [Log.placed_append, one, List.filter_append, booked.serials, List.filter_singleton,
      decide_eq_true home, Bench.received, Slot.received, List.range_succ, List.map_append, name]
    rfl
  load := by
    have nothing : Log.reclaimed (past ++ [.placed c.id]) = Log.reclaimed past :=
      (Log.reclaimed_append _ _).trans (List.append_nil _)
    have load := booked.load
    rw [nothing]
    simp only [Bench.received, Slot.received]
    omega
  room := room

/-- Some of the connections placed here are reclaimed. -/
theorem relieved (booked : b.Booked config past index) (placed : Log.placed events = [])
    (enough : (Log.reclaimed events).countP (·.worker = index) ≤ b.slot.active) :
    ({ b with slot := b.slot.relieved ((Log.reclaimed events).countP (·.worker = index)) } :
      Bench δ σ).Booked config (past ++ events) index := by
  obtain ⟨sound, homed, serials, load, room⟩ := booked
  refine ⟨sound.congr rfl rfl, homed, ?_, ?_, Nat.le_trans (Nat.sub_le _ _) room⟩
  · rw [Log.placed_append, placed, List.append_nil]
    exact serials
  · rw [Log.reclaimed_append, List.countP_append]
    simp only [Slot.relieved]
    omega

/-- So many connections were placed here as there are serials. -/
theorem countP_placed (booked : b.Booked config past index) :
    (Log.placed past).countP (·.worker = index) = b.slot.nextSerial := by
  rw [List.countP_eq_length_filter, booked.serials, List.length_map, List.length_range]

end Bench.Booked

namespace Engine

/-- How many connections of a name are with the worker that the name says. -/
def tally (e : Engine δ σ) (id : ConnectionId) : Nat :=
  (e.bench? id.worker).elim 0 (·.tally id)

/-- What holds of an engine, after what a log says. -/
structure Sound (config : Config) (past : List (Entry δ)) (e : Engine δ σ) : Prop where
  configured : e.pool.config = config
  benches : ∀ index b, e.bench? index = some b → b.Booked config past index
  inside : ∀ id ∈ Log.placed past, (e.bench? id.worker).isSome
  /-- What was placed is with its worker, finished, reclaimed or lost. -/
  balance : ∀ id, (Log.placed past).count id =
    e.tally id + (e.pool.finished.map Connection.id).count id + (Log.reclaimed past).count id +
      (Log.lost past).count id

namespace Sound

variable {config : Config} {past : List (Entry δ)} {e : Engine δ σ} {index : Nat} {b : Bench δ σ}

/-- An engine that starts has placed nothing, and its workers have nothing. -/
theorem start (config : Config) (workers : Nat) :
    Sound config [] (.start config workers : Engine δ σ) := by
  refine ⟨rfl, fun index b found => ?_, nofun, fun id => ?_⟩
  · rw [bench?_start found]
    exact ⟨.fresh _, fun id here => absurd (Bench.tally_fresh _ id) here, rfl, rfl, Nat.zero_le _⟩
  · have vacant : (Engine.start config workers : Engine δ σ).tally id = 0 := by
      unfold tally
      cases found : (Engine.start config workers : Engine δ σ).bench? id.worker with
      | none => rfl
      | some b =>
        rw [bench?_start found]
        exact Bench.tally_fresh _ id
    rw [vacant]
    rfl

/-- What is finished or reclaimed was placed. -/
theorem subperm_placed (sound : Sound config past e) :
    (Log.reclaimed past ++ e.pool.finished.map Connection.id).Subperm (Log.placed past) := by
  refine List.subperm_ext_iff.mpr fun id _ => ?_
  have balance := sound.balance id
  rw [List.count_append]
  omega

/-- The load of a worker is enough for all of its connections that are finished. -/
theorem countP_finished (sound : Sound config past e) (found : e.bench? index = some b) :
    (e.pool.finished.map Connection.id).countP (·.worker = index) ≤ b.slot.active := by
  have part := sound.subperm_placed.countP_le (·.worker = index)
  have load := (sound.benches index b found).load
  rw [List.countP_append, (sound.benches index b found).countP_placed] at part
  omega

/-- A step of a worker. -/
theorem worker (sound : Sound config past e) (found : e.bench? index = some b) (m : Thread.Move) :
    Sound config (past ++ (b.move m).events) (e.seat index (b.move m)) := by
  have booked := sound.benches index b found
  obtain ⟨placed, reclaimed⟩ := b.entries_move m
  refine ⟨sound.configured, fun other b' found' => ?_, fun id member => ?_, fun id => ?_⟩
  · rcases bench_of_seat found found' with ⟨rfl, rfl⟩ | ⟨-, found'⟩
    · exact booked.move m
    · exact (sound.benches other b' found').later (by rw [placed]; rfl) (by rw [reclaimed]; rfl)
  · rw [Log.placed_append, placed, List.append_nil] at member
    rw [isSome_bench?_seat]
    exact sound.inside id member
  · have before := sound.balance id
    have kept := booked.sound.conserves m id
    have finished : (e.seat index (b.move m)).pool.finished = e.pool.finished ++ (b.move m).finished :=
      rfl
    rw [Log.placed_append, placed, List.append_nil, Log.reclaimed_append, reclaimed, List.append_nil,
      Log.lost_append, finished, List.map_append, List.count_append, List.count_append]
    unfold tally at before ⊢
    rw [bench?_seat]
    by_cases mine : id.worker = index
    · subst mine
      rw [found] at before ⊢
      simp only [Option.elim_some, if_true, Option.map_some] at before ⊢
      omega
    · -- nothing of another worker's goes through this one
      have absent : b.tally id = 0 :=
        Classical.not_not.mp fun present => mine (booked.homed id present).1
      rw [if_neg mine]
      omega

/-- The manager puts a request into a mailbox, or tells a worker to quit. -/
theorem touch (sound : Sound config past e) {events : List (Entry δ)} {f : Slot δ σ → Slot δ σ}
    (worker : ∀ s, (f s).worker = s.worker)
    (mail : ∀ s, (f s).mailbox.connections = s.mailbox.connections)
    (active : ∀ s, (f s).active = s.active) (serial : ∀ s, (f s).nextSerial = s.nextSerial)
    (placed : Log.placed events = []) (reclaimed : Log.reclaimed events = [])
    (lost : Log.lost events = []) : Sound config (past ++ events) (e.touch index f) := by
  have later {other : Nat} {b : Bench δ σ} (found : e.bench? other = some b) :
      b.Booked config (past ++ events) other :=
    (sound.benches other b found).later (by rw [placed]; rfl) (by rw [reclaimed]; rfl)
  refine ⟨sound.configured, fun other b found => ?_, fun id member => ?_, fun id => ?_⟩
  · obtain ⟨b', there, ⟨rfl, rfl⟩ | ⟨-, rfl⟩⟩ := bench_of_touch found
    · exact (later there).congr (worker _) (mail _) (active _) (serial _)
    · exact later there
  · rw [Log.placed_append, placed, List.append_nil] at member
    rw [isSome_bench?_touch]
    exact sound.inside id member
  · have same : (e.touch index f).tally id = e.tally id := by
      unfold tally
      rw [bench?_touch]
      split
      · rename_i same
        rw [same]
        cases e.bench? index with
        | none => rfl
        | some b => exact Bench.tally_congr (worker b.slot) (mail b.slot) id
      · rfl
    rw [Log.placed_append, placed, Log.reclaimed_append, reclaimed, Log.lost_append, lost,
      List.append_nil, List.append_nil, List.append_nil, same]
    exact sound.balance id

/-- A connection is placed. -/
theorem placed (sound : Sound config past e) {s : Slot δ σ} {c : Connection δ σ}
    (found : e.pool.slots[index]? = some s) (room : s.active < e.pool.config.connectionsPerThread)
    (fresh : c.Fresh) (name : c.id = ⟨index, s.nextSerial⟩) :
    Sound config (past ++ [.placed c.id]) (e.touch index (·.received c)) := by
  have there := bench?_of_slot found
  have home : c.id.worker = index := by rw [name]
  have one : Log.placed ([.placed c.id] : List (Entry δ)) = [c.id] := rfl
  rw [sound.configured] at room
  refine ⟨sound.configured, fun other b found' => ?_, fun id member => ?_, fun id => ?_⟩
  · obtain ⟨b', held, ⟨rfl, rfl⟩ | ⟨different, rfl⟩⟩ := bench_of_touch found'
    · obtain rfl := Option.some.inj (there.symm.trans held)
      exact (sound.benches other _ there).received fresh name room
    · refine (sound.benches other b held).later ?_ rfl
      rw [one, List.filter_singleton, home, decide_eq_false (Ne.symm different)]
      rfl
  · rw [isSome_bench?_touch]
    rw [Log.placed_append, one] at member
    rcases List.mem_append.mp member with member | single
    · exact sound.inside id member
    · rw [List.mem_singleton.mp single, home, there]
      rfl
  · have before := sound.balance id
    have same : (e.touch index (·.received c)).tally id = e.tally id + [c.id].count id := by
      unfold tally
      rw [bench?_touch]
      split
      · rename_i mine
        rw [mine, there]
        exact Bench.tally_received _ c id
      · rename_i different
        have other : c.id ≠ id := fun same => different (same ▸ home)
        simp [other]
    have finished : (e.touch index (·.received c)).pool.finished = e.pool.finished := rfl
    have quiet : Log.reclaimed ([.placed c.id] : List (Entry δ)) = [] ∧
        Log.lost ([.placed c.id] : List (Entry δ)) = [] := ⟨rfl, rfl⟩
    rw [Log.placed_append, one, List.count_append, same, finished, Log.reclaimed_append, quiet.1,
      Log.lost_append, quiet.2, List.append_nil, List.append_nil]
    omega

/-- Reclaiming places and loses nothing, and reclaims exactly what was finished. -/
theorem entries_reclaimed (e : Engine δ σ) :
    Log.placed e.reclaimed.events = [] ∧ Log.lost e.reclaimed.events = [] ∧
      Log.reclaimed e.reclaimed.events = e.pool.finished.map Connection.id := by
  have all (cs : List (Connection δ σ)) :
      Log.placed (cs.map fun c => (.reclaimed c.id : Entry δ)) = [] ∧
        Log.lost (cs.map fun c => (.reclaimed c.id : Entry δ)) = [] ∧
          Log.reclaimed (cs.map fun c => (.reclaimed c.id : Entry δ)) = cs.map Connection.id := by
    induction cs with
    | nil => exact ⟨rfl, rfl, rfl⟩
    | cons c cs ih => exact ⟨ih.1, ih.2.1, congrArg (c.id :: ·) ih.2.2⟩
  exact all e.pool.finished

/-- Everything that is finished is reclaimed. -/
theorem reclaimed (sound : Sound config past e) :
    Sound config (past ++ e.reclaimed.events) e.reclaimed.engine := by
  obtain ⟨placed, lost, names⟩ := entries_reclaimed e
  have configured := (Pool.discharge_all e.pool.finished { e.pool with finished := [] }).1
  refine ⟨configured.trans sound.configured, fun index b found => ?_, fun id member => ?_, fun id => ?_⟩
  · rw [bench?_reclaimed] at found
    obtain ⟨b', there, rfl⟩ := Option.map_eq_some_iff.mp found
    have count : (e.pool.finished.countP fun c => c.id.worker = index) =
        (Log.reclaimed e.reclaimed.events).countP (·.worker = index) := by
      rw [names, List.countP_map]
      rfl
    rw [count]
    refine (sound.benches index b' there).relieved placed ?_
    rw [names]
    exact sound.countP_finished there
  · rw [Log.placed_append, placed, List.append_nil] at member
    rw [bench?_reclaimed, Option.isSome_map]
    exact sound.inside id member
  · have before := sound.balance id
    have same : e.reclaimed.engine.tally id = e.tally id := by
      unfold tally
      rw [bench?_reclaimed]
      cases e.bench? id.worker <;> rfl
    rw [Log.placed_append, Log.reclaimed_append, Log.lost_append, placed, lost, names, same,
      finished_reclaimed, List.append_nil, List.append_nil, List.count_append, List.map_nil,
      List.count_nil]
    omega

/-- Where the manager is does not matter. -/
theorem desk (sound : Sound config past e) (desk : Desk) : Sound config past { e with desk } :=
  ⟨sound.configured, sound.benches, sound.inside, sound.balance⟩

/-- Every step keeps the balance. -/
theorem move (sound : Sound config past e) (m : Move δ σ) :
    Sound config (past ++ (e.move m).events) (e.move m).engine := by
  have effect := e.effect m
  generalize e.move m = moved at effect ⊢
  cases effect with
  | still =>
    rw [List.append_nil]
    exact sound
  | closing | waiting | joined =>
    rw [List.append_nil]
    exact sound.desk _
  | placed receiving found room fresh name => exact sound.placed found room fresh name
  | sent =>
    exact sound.touch (fun _ => rfl) (fun _ => rfl) (fun _ => rfl) (fun _ => rfl) rfl rfl rfl
  | @told next telling =>
    have told : Sound config (past ++ []) (e.touch next fun s => { s with quit := true }) :=
      sound.touch (fun _ => rfl) (fun _ => rfl) (fun _ => rfl) (fun _ => rfl) rfl rfl rfl
    exact told.desk _
  | reclaimed => exact sound.reclaimed
  | closed => exact sound.reclaimed.desk _
  | worked found m => exact sound.worker found m

/-- The balance holds in every run. -/
theorem run (config : Config) (workers : Nat) (moves : List (Move δ σ)) :
    let start : Engine δ σ := .start config workers
    Sound config (start.trace moves) (start.run moves) :=
  run_rule [] (.start config workers) fun _ _ m _ sound => sound.move m

end Sound

end Engine

end Http2
