import Http2.Proofs.Engine.Basic
import Http2.Proofs.Pool.Loads

/-!
# What a worker keeps in its thread

`Bench.Sound` is what holds of a worker and its thread between any two steps of the engine, as far as the
worker and its mailbox go. Every step of the worker keeps it (`Sound.move`), and so does a connection or a
request that the manager puts into the mailbox. No step makes or loses a connection (`Sound.conserves`).
-/

namespace Http2

variable {δ σ : Type}

namespace Bench

/-- What holds of a worker and its thread. -/
structure Sound (b : Bench δ σ) : Prop where
  sited : b.shift.Sited
  tied : b.shift.Tied .close
  /-- What comes to the worker is new to it. -/
  awaits : b.shift.Awaits b.arriving
  /-- After what is due nothing is left of any pass. -/
  rests : (b.shift.run b.thread.due).taken = {}
  idle : b.thread.stage = .waiting ∨ b.thread.stage = .ended →
    b.thread.due = [] ∧ b.thread.released = []

namespace Sound

variable {b : Bench δ σ} {t : Task δ σ} {rest : List (Task δ σ)}

/-- A worker that has not begun is sound. -/
theorem fresh (bufferSize : Nat) :
    ({ slot := { worker := .idle bufferSize } } : Bench δ σ).Sound where
  sited := .idle bufferSize
  tied := .idle bufferSize .close
  awaits :=
    ⟨fun _ member => absurd member List.not_mem_nil, fun _ member => absurd member List.not_mem_nil,
      .nil⟩
  rests := rfl
  idle _ := ⟨rfl, rfl⟩

/-- When nothing is due, the worker has taken no key that it still has to serve. -/
theorem rested (sound : b.Sound) (done : b.thread.due = []) : b.shift.taken = {} := by
  have rests := sound.rests
  rwa [done] at rests

/-- The connections that come with the next task are new to the worker. -/
theorem proper (sound : b.Sound) (due : b.thread.due = t :: rest) :
    (Shift.Step.mk b.shift t).Proper := by
  intro c came
  have member : c ∈ b.arriving := by
    rw [arriving, incoming, due, List.flatMap_cons]
    exact List.mem_append_left _ (List.mem_append_left _ came)
  exact ⟨sound.awaits.fresh c member, sound.awaits.unknown c member⟩

/-- Neither requests nor loads matter. -/
theorem congr {s s' : Slot δ σ} {thread : Thread δ σ}
    (sound : ({ slot := s, thread } : Bench δ σ).Sound) (worker : s'.worker = s.worker)
    (mail : s'.mailbox.connections = s.mailbox.connections) :
    ({ slot := s', thread } : Bench δ σ).Sound := by
  obtain ⟨sited, tied, awaits, rests, idle⟩ := sound
  simp only [shift, arriving, incoming, ← worker, ← mail] at sited tied awaits rests
  exact ⟨sited, tied, awaits, rests, idle⟩

/-! ## The steps of the worker -/

/-- A turn begins without touching what comes to the worker. -/
theorem arriving_begun (sound : b.Sound) (stage : b.thread.stage = .waiting)
    (reports : List (Nat × Readiness)) (failed : Bool) :
    (b.begun reports failed).arriving = b.arriving := by
  rw [Bench.arriving, Bench.arriving, incoming, incoming, (sound.idle (.inl stage)).1]
  exact congrArg (· ++ _) (Shift.newcomers_early _ _)

/-- What was in the mailbox is on the way out of it. -/
theorem arriving_fetched (done : b.thread.due = []) (failed : Bool) :
    (b.fetched failed).bench.arriving = b.arriving := by
  let r := b.round failed
  let closing := b.shift.run (r.middle b.shift)
  have coming : ((r.middle b.shift).tail ++ closing.passTasks .close).flatMap Task.newcomers =
      b.slot.mailbox.connections := by
    rw [List.flatMap_append, Shift.newcomers_passTasks, List.append_nil]
    exact Shift.newcomers_middle r b.shift
  rw [Bench.arriving, Bench.arriving, incoming, incoming, done]
  exact (List.append_nil _).trans coming

/-- A turn may begin when the worker waits: what is due empties the passes it opens. -/
theorem begun (sound : b.Sound) (stage : b.thread.stage = .waiting)
    (reports : List (Nat × Readiness)) (failed : Bool) : (b.begun reports failed).Sound := by
  have done := (sound.idle (.inl stage)).1
  have arriving := sound.arriving_begun stage reports failed
  refine ⟨sound.sited, sound.tied, ?_, (Shift.idle_early _ (sound.rested done)).1, ?_⟩
  · rw [arriving]
    exact sound.awaits
  · rintro (waiting | ended)
    · cases waiting
    · cases ended

/-- A task that is done keeps the worker sound, for it was due. -/
theorem worked (sound : b.Sound) (due : b.thread.due = t :: rest) :
    (b.worked t rest).bench.Sound := by
  have proper := sound.proper due
  have split : b.arriving =
      t.newcomers ++ (rest.flatMap Task.newcomers ++ b.slot.mailbox.connections) := by
    rw [Bench.arriving, incoming, due, List.flatMap_cons, List.append_assoc]
  have awaits := sound.awaits
  have rests := sound.rests
  rw [split] at awaits
  rw [due] at rests
  refine ⟨sound.sited.perform proper, ?_, awaits.perform, rests, ?_⟩
  · exact sound.tied.perform sound.sited proper fun _ => .inl rfl
  · intro still
    have none := (sound.idle still).1
    rw [due] at none
    cases none

/-- Mail may be fetched when nothing is due: what was in the mailbox is then on the way. -/
theorem fetched {failed : Bool} (sound : b.Sound) (done : b.thread.due = []) :
    (b.fetched failed).bench.Sound := by
  let r := b.round failed
  let closing := b.shift.run (r.middle b.shift)
  have arriving := arriving_fetched done failed
  have rested : closing.taken = {} :=
    (congrArg Shift.taken (Shift.run_middle r b.shift).1).trans (sound.rested done)
  refine ⟨sound.sited, sound.tied, ?_, ?_, ?_⟩
  · rw [arriving]
    exact sound.awaits
  · have passed : b.shift.run ((r.middle b.shift).tail ++ closing.passTasks .close) =
        closing.run (closing.passTasks .close) := b.shift.run_append _ _
    exact (congrArg Shift.taken (passed.trans (Shift.run_pass .close (by simp [rested])))).trans rested
  · rintro (waiting | ended)
    · cases waiting
    · cases ended

/-- Delivering what was given up keeps the worker sound. -/
theorem delivered {last : Bool} (sound : b.Sound) (done : b.thread.due = []) :
    (b.delivered last).bench.Sound :=
  ⟨sound.sited, sound.tied, sound.awaits, sound.rests, fun _ => ⟨done, rfl⟩⟩

/-- A dead worker has nothing, and its mailbox is left as it was. -/
theorem died (sound : b.Sound) : b.died.bench.Sound where
  sited := ⟨fun id key => by simp [Bench.died, shift, Worker.slot?, Shift.at?], .fresh⟩
  tied key := by simp [WorkChains.Ties, Bench.died, shift, Shift.flags, Shift.at?]
  awaits :=
    have left := sound.awaits.sublist (List.sublist_append_right b.incoming _)
    ⟨left.fresh, fun _ _ => rfl, left.distinct⟩
  rests := rfl
  idle _ := ⟨rfl, rfl⟩

/-- Every step of the worker keeps it sound. -/
theorem move (sound : b.Sound) (m : Thread.Move) : (b.move m).bench.Sound := by
  have effect := b.effect m
  generalize b.move m = moved at effect ⊢
  cases effect with
  | still => exact sound
  | begun stage => exact sound.begun stage _ _
  | worked due => exact sound.worked due
  | fetched stage done => exact sound.fetched done
  | delivered stage done => exact sound.delivered done
  | stopped stage => exact sound.congr rfl rfl
  | died stage => exact sound.died

end Sound

/-! ## No connection is made or lost -/

/-- How many connections of a name come to the worker or are there. -/
def tally (b : Bench δ σ) (id : ConnectionId) : Nat :=
  (b.arriving.map Connection.id).count id + (b.keeping.map Connection.id).count id

/-- Neither requests nor loads matter. -/
theorem tally_congr {s s' : Slot δ σ} {thread : Thread δ σ} (worker : s'.worker = s.worker)
    (mail : s'.mailbox.connections = s.mailbox.connections) (id : ConnectionId) :
    ({ slot := s', thread } : Bench δ σ).tally id = ({ slot := s, thread } : Bench δ σ).tally id := by
  simp only [tally, arriving, incoming, keeping, shift, worker, mail]

/-- A fresh worker has no connection of any name. -/
theorem tally_fresh (bufferSize : Nat) (id : ConnectionId) :
    ({ slot := { worker := .idle bufferSize } } : Bench δ σ).tally id = 0 := by
  have none : ({ slot := { worker := .idle bufferSize } } : Bench δ σ).keeping = [] :=
    congrArg (· ++ []) (Shift.slab_of_empty rfl)
  rw [tally, none]
  rfl

variable {b : Bench δ σ} {index : Nat}

/-- No task loses a connection. -/
theorem lost_step (x : Shift.Step δ σ) : Log.lost x.events = [] := by
  unfold Shift.Step.events
  split <;> rfl

theorem lost_dropped (entries : List (ConnectionId × Request δ)) :
    Log.lost (entries.map fun entry => .dropped entry.1 entry.2) = [] := by
  induction entries with
  | nil => rfl
  | cons entry entries ih => exact ih

/-- Mail that is discarded is requests, so no connection is lost. -/
theorem lost_fetched (b : Bench δ σ) (failed : Bool) : Log.lost (b.fetched failed).events = [] := by
  rw [fetched]
  split
  · exact lost_dropped _
  · rfl

/-- A worker that dies loses what it has and what is on the way to it, and not what is in the mailbox. -/
theorem lost_died (b : Bench δ σ) :
    Log.lost b.died.events = (b.incoming ++ b.keeping).map Connection.id := by
  have lost (cs : List (Connection δ σ)) :
      Log.lost (cs.map fun c => (.lost c.id : Entry δ)) = cs.map Connection.id := by
    induction cs with
    | nil => rfl
    | cons c cs ih => exact congrArg (c.id :: ·) ih
  rw [died, Log.lost_append, lost, lost_dropped, List.append_nil]

/-- No step of a worker makes or loses a connection: it stays with the worker, is handed to the manager,
or is lost because the worker dies. -/
theorem Sound.conserves (sound : b.Sound) (m : Thread.Move) (id : ConnectionId) :
    b.tally id =
      (b.move m).bench.tally id + ((b.move m).finished.map Connection.id).count id +
        (Log.lost (b.move m).events).count id := by
  have effect := b.effect m
  generalize b.move m = moved at effect ⊢
  cases effect with
  | still | stopped => rfl
  | @begun reports failed stage =>
    rw [tally, tally, sound.arriving_begun stage]
    rfl
  | @worked t rest due =>
    have kept := sound.sited.conserves (sound.proper due) id
    have arriving : b.arriving = t.newcomers ++ (b.worked t rest).bench.arriving := by
      rw [Bench.arriving, Bench.arriving, incoming, incoming, due, List.flatMap_cons, List.append_assoc]
      rfl
    have shift : (b.worked t rest).bench.shift = b.shift.perform t := rfl
    have silent : Log.lost (b.worked t rest).events = [] := lost_step _
    rw [tally, tally, arriving, keeping, keeping, shift, silent]
    simp only [Bench.worked, List.map_append, List.count_append, List.count_nil]
    cases t.collects <;> simp <;> omega
  | @fetched failed stage done =>
    rw [tally, tally, Sound.arriving_fetched done, b.lost_fetched]
    rfl
  | @delivered last stage done =>
    have arriving : (b.delivered last).bench.arriving = b.arriving := rfl
    have kept : b.keeping = (b.delivered last).bench.keeping ++ (b.delivered last).finished :=
      congrArg (· ++ _) (List.append_nil _).symm
    rw [tally, tally, arriving, kept, List.map_append, List.count_append]
    exact (Nat.add_assoc _ _ _).symm
  | died stage =>
    have left : b.arriving = b.incoming ++ b.died.bench.arriving := rfl
    have none : b.died.bench.keeping = [] := by
      exact congrArg (· ++ []) (Shift.slab_of_empty rfl)
    rw [tally, tally, left, none, lost_died]
    simp only [Bench.died, List.map_append, List.count_append, List.map_nil, List.count_nil]
    omega

/-- Nothing is lost as long as the worker does not die. -/
theorem lost_move (b : Bench δ σ) {m : Thread.Move} (lives : m ≠ .die) :
    Log.lost (b.move m).events = [] := by
  have effect := b.effect m
  generalize b.move m = moved at effect ⊢
  cases effect with
  | still | begun | delivered | stopped => rfl
  | worked due => exact lost_step _
  | @fetched failed stage done => exact b.lost_fetched failed
  | died stage => exact absurd rfl lives

/-- A worker writes down what becomes of requests and what it loses. -/
theorem mem_events {b : Bench δ σ} {m : Thread.Move} {x : Entry δ} (member : x ∈ (b.move m).events) :
    (∃ id request, x = .started id request ∨ x = .dropped id request) ∨ ∃ id, x = .lost id := by
  have effect := b.effect m
  generalize b.move m = moved at effect member
  cases effect with
  | still | begun | delivered | stopped => cases member
  | worked due =>
    simp only [worked, Shift.Step.events] at member
    split at member
    · exact .inl ⟨_, _, .inl (List.mem_singleton.mp member)⟩
    · exact .inl ⟨_, _, .inr (List.mem_singleton.mp member)⟩
    · cases member
  | fetched stage done =>
    simp only [fetched] at member
    split at member
    · obtain ⟨entry, -, rfl⟩ := List.mem_map.mp member
      exact .inl ⟨_, _, .inr rfl⟩
    · cases member
  | died stage =>
    rcases List.mem_append.mp member with member | member
    · obtain ⟨c, -, rfl⟩ := List.mem_map.mp member
      exact .inr ⟨_, rfl⟩
    · obtain ⟨entry, -, rfl⟩ := List.mem_map.mp member
      exact .inl ⟨_, _, .inr rfl⟩

/-- The manager alone places and reclaims connections. -/
theorem entries_move (b : Bench δ σ) (m : Thread.Move) :
    Log.placed (b.move m).events = [] ∧ Log.reclaimed (b.move m).events = [] := by
  constructor
  · refine List.filterMap_eq_nil_iff.mpr fun x member => ?_
    rcases mem_events member with ⟨id, request, rfl | rfl⟩ | ⟨id, rfl⟩ <;> rfl
  · refine List.filterMap_eq_nil_iff.mpr fun x member => ?_
    rcases mem_events member with ⟨id, request, rfl | rfl⟩ | ⟨id, rfl⟩ <;> rfl

/-! ## Names -/

/-- What comes to the worker of an index, and what it has, has the names of its serials. -/
def Homed (b : Bench δ σ) (index : Nat) : Prop :=
  ∀ id, b.tally id ≠ 0 → id.worker = index ∧ id.serial < b.slot.nextSerial

/-- The manager alone changes what it keeps about a worker. -/
theorem slot_move (b : Bench δ σ) (m : Thread.Move) :
    (b.move m).bench.slot.active = b.slot.active ∧
      (b.move m).bench.slot.nextSerial = b.slot.nextSerial ∧
        (b.move m).bench.slot.quit = b.slot.quit ∧
          (b.slot.stopped = true → (b.move m).bench.slot.stopped = true) := by
  have effect := b.effect m
  generalize b.move m = moved at effect ⊢
  cases effect with
  | stopped => exact ⟨rfl, rfl, rfl, fun _ => rfl⟩
  | still | begun | worked | fetched | delivered | died => exact ⟨rfl, rfl, rfl, id⟩

/-- A step gives the worker no connections but its own. -/
theorem Homed.move (homed : b.Homed index) (sound : b.Sound) (m : Thread.Move) :
    (b.move m).bench.Homed index := by
  intro id here
  have kept := sound.conserves m id
  rw [(b.slot_move m).2.1]
  exact homed id (by omega)

/-- The bench after a connection came into the mailbox. -/
def received (b : Bench δ σ) (c : Connection δ σ) : Bench δ σ :=
  { b with slot := b.slot.received c }

/-- What is placed comes last. -/
theorem arriving_received (b : Bench δ σ) (c : Connection δ σ) :
    (b.received c).arriving = b.arriving ++ [c] :=
  (List.append_assoc _ _ _).symm

/-- To place a connection is to count it once more. -/
theorem tally_received (b : Bench δ σ) (c : Connection δ σ) (id : ConnectionId) :
    (b.received c).tally id = b.tally id + [c.id].count id := by
  have keeping : (b.received c).keeping = b.keeping := rfl
  rw [tally, tally, arriving_received, keeping, List.map_append, List.count_append, List.map_singleton]
  omega

variable {c : Connection δ σ}

/-- A connection that is placed under the next serial is one of this worker's. -/
theorem Homed.received (homed : b.Homed index) (name : c.id = ⟨index, b.slot.nextSerial⟩) :
    (b.received c).Homed index := by
  intro id here
  rw [tally_received, List.count_singleton] at here
  by_cases same : c.id = id
  · subst same
    rw [name]
    exact ⟨rfl, Nat.lt_succ_self _⟩
  · have before : b.tally id ≠ 0 := by simpa [same] using here
    exact (homed id before).imp_right Nat.lt_succ_of_lt

/-- A fresh connection under the next serial comes into the mailbox. -/
theorem Sound.received (sound : b.Sound) (homed : b.Homed index) (fresh : c.Fresh)
    (name : c.id = ⟨index, b.slot.nextSerial⟩) : (b.received c).Sound := by
  have absent : b.tally c.id = 0 := by
    refine Classical.not_not.mp fun here => ?_
    have below := (homed c.id here).2
    rw [name] at below
    exact absurd below (Nat.lt_irrefl _)
  simp only [tally, keeping, List.map_append, List.count_append, sound.sited.count_slab,
    Nat.add_eq_zero_iff] at absent
  have unknown : b.shift.worker.slot? c.id = none := by simpa using absent.2.1
  refine ⟨sound.sited, sound.tied, ?_, sound.rests, sound.idle⟩
  rw [arriving_received]
  refine ⟨fun other member => ?_, fun other member => ?_, ?_⟩
  · rcases List.mem_append.mp member with member | single
    · exact sound.awaits.fresh other member
    · exact List.mem_singleton.mp single ▸ fresh
  · rcases List.mem_append.mp member with member | single
    · exact sound.awaits.unknown other member
    · rw [List.mem_singleton.mp single]
      exact unknown
  · rw [List.map_append]
    refine List.nodup_append.mpr ⟨sound.awaits.distinct, List.pairwise_singleton _ _, ?_⟩
    rintro id member other single rfl
    rw [List.map_singleton, List.mem_singleton] at single
    exact List.count_eq_zero.mp absent.1 (single ▸ member)

end Bench

end Http2
