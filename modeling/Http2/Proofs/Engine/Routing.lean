import Http2.Proofs.Engine.Balance

/-!
# Requests come to their connections

A worker settles requests in the order in which they were sent: it starts a request on the connection that
it is for, or drops it (`Bench.Routed`, `Routed.settles`). It takes a request out of the mailbox not before
the connection, and starts requests only when what came with them is admitted. So what it drops is a
request for a connection that is gone or waits to be closed, as long as the worker is not told to quit
(`requests_reach_their_connections`).
-/

namespace Http2

variable {δ σ : Type}

namespace Shift.Step

variable {x : Shift.Step δ σ}

/-- Most tasks are not about requests. -/
theorem events_of_other (quiet : x.task.request? = none) : x.events = [] := by
  unfold events
  split
  · rename_i used
    obtain ⟨id, starts⟩ := task_of_start used
    rw [starts] at quiet
    cases quiet
  · rename_i starts
    rw [starts] at quiet
    cases quiet
  · rfl

/-- A request is started on the connection that it is for. It is dropped only if this one is gone or waits
to be closed. -/
theorem events_of_start (sited : x.shift.Sited) {id : ConnectionId} {request : Request δ}
    (starts : x.task = .start id request) :
    x.events = [.started id request] ∨ x.events = [.dropped id request] ∧
      ∀ key c, x.shift.at? key = some c → c.id = id → c.membership.close = true := by
  obtain ⟨s, t⟩ := x
  obtain rfl : t = .start id request := starts
  rcases use?_start sited id request with ⟨c, rfl, used⟩ | ⟨unused, closing⟩
  · left
    rw [events, used]
  · right
    rw [events, unused]
    exact ⟨rfl, closing⟩

end Shift.Step

/-! ## One worker -/

namespace Bench

/-- The requests sent to the worker and not yet settled, in order. -/
def pending (b : Bench δ σ) : List (ConnectionId × Request δ) :=
  b.starts ++ b.slot.mailbox.requests

/-- What holds of the requests for the worker with an index, after what a log says. -/
structure Routed (past : List (Entry δ)) (index : Nat) (b : Bench δ σ) : Prop where
  /-- Requests are settled in the order in which they were sent. -/
  order : (Log.accepted past).filter (·.1.worker = index) =
    (Log.settled past).filter (·.1.worker = index) ++ b.pending
  admits : Shift.AdmitsFirst b.thread.due
  known : ∀ entry ∈ b.pending, entry.1.worker = index ∧ entry.1.serial < b.slot.nextSerial
  /-- A request does not leave the mailbox before its connection. -/
  absent : ∀ entry ∈ b.starts, ∀ c ∈ b.slot.mailbox.connections, c.id ≠ entry.1
  /-- What is lost was lost at the end. -/
  lost : ∀ id ∈ Log.lost past, id.worker = index → b.thread.stage = .ended

variable {past events : List (Entry δ)} {index : Nat} {b : Bench δ σ}

/-- Requests that are dropped are settled, each of them once. -/
theorem settled_dropped (entries : List (ConnectionId × Request δ)) :
    Log.settled (entries.map fun entry => .dropped entry.1 entry.2) = entries := by
  induction entries with
  | nil => rfl
  | cons entry entries ih => exact congrArg (entry :: ·) ih

/-- A connection that is lost settles no request. -/
theorem settled_lost (cs : List (Connection δ σ)) :
    Log.settled (cs.map fun c => (.lost c.id : Entry δ)) = [] := by
  refine List.filterMap_eq_nil_iff.mpr fun x member => ?_
  obtain ⟨c, -, rfl⟩ := List.mem_map.mp member
  rfl

/-- The manager alone sends requests. -/
theorem accepted_move (b : Bench δ σ) (m : Thread.Move) : Log.accepted (b.move m).events = [] := by
  refine List.filterMap_eq_nil_iff.mpr fun x member => ?_
  rcases mem_events member with ⟨id, request, rfl | rfl⟩ | ⟨id, rfl⟩ <;> rfl

/-- Nothing comes after the end of a worker. -/
theorem ended_move (sound : b.Sound) (ended : b.thread.stage = .ended) (m : Thread.Move) :
    (b.move m).bench.thread.stage = .ended := by
  have done := (sound.idle (.inr ended)).1
  have effect := b.effect m
  generalize b.move m = moved at effect ⊢
  cases effect with
  | still | stopped => exact ended
  | died => rfl
  | begun stage => cases ended.symm.trans stage
  | worked due => cases done.symm.trans due
  | fetched stage | delivered stage => cases ended.symm.trans stage

/-- A worker that dies is at its end. -/
theorem ended_of_die (b : Bench δ σ) : (b.move .die).bench.thread.stage = .ended := by
  rw [Bench.move]
  split
  · assumption
  · rfl

/-- What is written down about a task. -/
theorem events_worked (sound : b.Sound) {t : Task δ σ} (rest : List (Task δ σ)) :
    t.request? = none ∧ (b.worked t rest).events = [] ∨
      ∃ id request, t = .start id request ∧
        ((b.worked t rest).events = [.started id request] ∨
          (b.worked t rest).events = [.dropped id request] ∧
            ∀ key c, b.shift.at? key = some c → c.id = id → c.membership.close = true) := by
  let x : Shift.Step δ σ := ⟨b.shift, t⟩
  cases t with
  | start id request => exact .inr ⟨id, request, rfl, x.events_of_start sound.sited rfl⟩
  | sort | take | serve | fetch | handBack | takeOver | pull | doom =>
    exact .inl ⟨rfl, x.events_of_other rfl⟩

namespace Routed

/-- To a fresh worker nothing was sent. -/
theorem fresh (index bufferSize : Nat) :
    Routed [] index ({ slot := { worker := .idle bufferSize } } : Bench δ σ) where
  order := rfl
  admits := .nil
  known _ member := absurd member List.not_mem_nil
  absent _ member := absurd member List.not_mem_nil
  lost _ member := absurd member List.not_mem_nil

/-- Entries about other things do not matter. -/
theorem later (routed : b.Routed past index)
    (accepted : (Log.accepted events).filter (·.1.worker = index) = [])
    (settled : (Log.settled events).filter (·.1.worker = index) = [])
    (lost : ∀ id ∈ Log.lost events, id.worker ≠ index) : b.Routed (past ++ events) index where
  order := by
    rw [Log.accepted_append, Log.settled_append, List.filter_append, List.filter_append, accepted,
      settled, List.append_nil, List.append_nil]
    exact routed.order
  admits := routed.admits
  known := routed.known
  absent := routed.absent
  lost id member home := by
    rw [Log.lost_append] at member
    rcases List.mem_append.mp member with member | member
    · exact routed.lost id member home
    · exact absurd home (lost id member)

/-- What is settled in a step was the first that was pending. -/
theorem settles (sound : b.Sound) (m : Thread.Move) :
    b.pending = Log.settled (b.move m).events ++ (b.move m).bench.pending := by
  have effect := b.effect m
  generalize b.move m = moved at effect ⊢
  cases effect with
  | still | delivered | stopped => rfl
  | @begun reports failed stage =>
    have before : b.starts = [] := by rw [starts, (sound.idle (.inl stage)).1]; rfl
    have after : (b.begun reports failed).starts = [] := Shift.requests_early _ _
    rw [pending, pending, before, after]
    rfl
  | @worked t rest due =>
    have split : b.starts = t.request?.toList ++ (b.worked t rest).bench.starts := by
      rw [starts, due, List.filterMap_cons]
      cases t.request? <;> rfl
    have settled : Log.settled (b.worked t rest).events = t.request?.toList := by
      rcases events_worked sound (t := t) rest with ⟨quiet, silent⟩ | ⟨id, request, rfl, said⟩
      · rw [quiet, silent]
        rfl
      · rcases said with starts | ⟨drops, -⟩
        · rw [starts]
          rfl
        · rw [drops]
          rfl
    rw [pending, pending, split, settled, List.append_assoc]
    rfl
  | @fetched failed stage done =>
    have before : b.starts = [] := by rw [starts, done]; rfl
    have after : (b.fetched failed).bench.starts =
        if b.slot.quit then [] else b.slot.mailbox.requests := by
      have tail : ((b.round failed).middle b.shift).tail.filterMap Task.request? =
          ((b.round failed).middle b.shift).filterMap Task.request? := rfl
      rw [starts, Bench.fetched, List.filterMap_append, Shift.requests_passTasks, List.append_nil, tail,
        Shift.requests_middle]
      rfl
    have mail : (b.fetched failed).bench.slot.mailbox.requests = [] := rfl
    rw [pending, pending, before, after, mail, Bench.fetched]
    cases b.slot.quit with
    | true => simp [settled_dropped]
    | false => simp [Log.settled]
  | died stage =>
    rw [pending, died, Log.settled_append, settled_lost, settled_dropped]
    rfl

/-- What a worker writes down is about its own connections. -/
theorem about_move (routed : b.Routed past index) (sound : b.Sound) (homed : b.Homed index)
    {m : Thread.Move} {x : Entry δ} (member : x ∈ (b.move m).events) : x.id.worker = index := by
  have settles := settles sound m
  have home {id : ConnectionId} {request : Request δ}
      (settled : (id, request) ∈ Log.settled (b.move m).events) : id.worker = index :=
    (routed.known (id, request) (settles ▸ List.mem_append_left _ settled)).1
  rcases mem_events member with ⟨id, request, rfl | rfl⟩ | ⟨id, rfl⟩
  · exact home (List.mem_filterMap.mpr ⟨_, member, rfl⟩)
  · exact home (List.mem_filterMap.mpr ⟨_, member, rfl⟩)
  · have named : id ∈ Log.lost (b.move m).events := List.mem_filterMap.mpr ⟨_, member, rfl⟩
    have kept := sound.conserves m id
    have here := List.count_pos_iff.mpr named
    exact (homed id (by omega)).1

/-- A step of the worker. -/
theorem move (routed : b.Routed past index) (sound : b.Sound) (m : Thread.Move) :
    (b.move m).bench.Routed (past ++ (b.move m).events) index := by
  have settles := settles sound m
  constructor
  · have mine : (Log.settled (b.move m).events).filter (·.1.worker = index) =
        Log.settled (b.move m).events := by
      refine List.filter_eq_self.mpr fun entry member => decide_eq_true ?_
      exact (routed.known entry (settles ▸ List.mem_append_left _ member)).1
    rw [Log.accepted_append, b.accepted_move, List.append_nil, Log.settled_append, List.filter_append,
      mine, routed.order, settles, List.append_assoc]
  · have effect := b.effect m
    generalize b.move m = moved at effect ⊢
    cases effect with
    | still | delivered | stopped => exact routed.admits
    | @begun reports failed stage =>
      have quiet := List.filterMap_eq_nil_iff.mp (Shift.requests_early { reports } b.shift)
      have admits := Shift.AdmitsFirst.of_append quiet fun t (member : t ∈ []) =>
        absurd member List.not_mem_nil
      rw [List.append_nil] at admits
      exact admits
    | worked due =>
      have admits := routed.admits
      rw [due] at admits
      exact admits.of_cons
    | fetched stage done => exact Shift.admitsFirst_middle _ _
    | died stage => exact .nil
  · intro entry member
    rw [(b.slot_move m).2.1]
    refine routed.known entry ?_
    rw [settles]
    exact List.mem_append_right _ member
  · have effect := b.effect m
    generalize b.move m = moved at effect ⊢
    cases effect with
    | still | delivered | stopped => exact routed.absent
    | @begun reports failed stage =>
      have none : (b.begun reports failed).starts = [] := Shift.requests_early _ _
      intro entry member
      rw [none] at member
      cases member
    | @worked t rest due =>
      intro entry member
      refine routed.absent entry ?_
      rw [starts, due]
      exact ((List.sublist_cons_self t rest).filterMap _).subset member
    | fetched stage done => exact fun _ _ _ member => absurd member List.not_mem_nil
    | died stage => exact fun _ member => absurd member List.not_mem_nil
  · intro id member home
    rw [Log.lost_append] at member
    rcases List.mem_append.mp member with member | member
    · exact ended_move sound (routed.lost id member home) m
    · by_cases dies : m = .die
      · rw [dies]
        exact b.ended_of_die
      · rw [b.lost_move dies] at member
        cases member

/-- A connection is placed here. -/
theorem received (routed : b.Routed past index) {c : Connection δ σ}
    (name : c.id = ⟨index, b.slot.nextSerial⟩) :
    (b.received c).Routed (past ++ [.placed c.id]) index := by
  have later : b.Routed (past ++ [.placed c.id]) index := routed.later rfl rfl nofun
  obtain ⟨order, admits, known, absent, lost⟩ := later
  refine ⟨order, admits, fun entry member => ?_, fun entry member c' listed => ?_, lost⟩
  · exact (known entry member).imp_right Nat.lt_succ_of_lt
  · rcases List.mem_append.mp listed with listed | new
    · exact absent entry member c' listed
    · rw [List.mem_singleton.mp new, name]
      intro same
      have below := (known entry (List.mem_append_left _ member)).2
      rw [← same] at below
      exact Nat.lt_irrefl _ below

/-- A request is put into the mailbox. -/
theorem requested (routed : b.Routed past index) {id : ConnectionId} (home : id.worker = index)
    (known : id.serial < b.slot.nextSerial) (request : Request δ) :
    ({ b with slot := b.slot.requested id request } : Bench δ σ).Routed
      (past ++ [.accepted id request]) index where
  order := by
    have settled : Log.settled [.accepted id request] = [] := rfl
    have accepted : Log.accepted [.accepted id request] = [(id, request)] := rfl
    have one : [(id, request)].filter (·.1.worker = index) = [(id, request)] := by simp [home]
    rw [Log.accepted_append, accepted, Log.settled_append, settled, List.append_nil, List.filter_append,
      one, routed.order, List.append_assoc]
    exact congrArg (_ ++ ·) (List.append_assoc _ _ _)
  admits := routed.admits
  known entry member := by
    rcases List.mem_append.mp member with member | member
    · exact routed.known entry (List.mem_append_left _ member)
    · rcases List.mem_append.mp member with member | new
      · exact routed.known entry (List.mem_append_right _ member)
      · rw [List.mem_singleton.mp new]
        exact ⟨home, known⟩
  absent := routed.absent
  lost id member home := by
    rw [Log.lost_append] at member
    exact routed.lost id ((List.mem_append.mp member).resolve_right List.not_mem_nil) home

/-- Loads do not matter, and whether the worker is told to quit does not. -/
theorem congr {s s' : Slot δ σ} {thread : Thread δ σ}
    (routed : ({ slot := s, thread } : Bench δ σ).Routed past index) (mail : s'.mailbox = s.mailbox)
    (serial : s'.nextSerial = s.nextSerial) :
    ({ slot := s', thread } : Bench δ σ).Routed past index := by
  obtain ⟨order, admits, known, absent, lost⟩ := routed
  simp only [pending, ← mail, ← serial] at order known absent
  exact ⟨order, admits, known, absent, lost⟩

/-- A request is dropped because the worker is told to quit or dies, or because its connection waits to be
closed or is gone. It is not on its way to the slab then. -/
theorem dropped (routed : b.Routed past index) (sound : b.Sound) {m : Thread.Move} {id : ConnectionId}
    {request : Request δ} (drops : .dropped id request ∈ (b.move m).events) :
    (b.slot.quit = true ∨ m = .die) ∨
      b.thread.stage ≠ .ended ∧ id ∉ b.arriving.map Connection.id ∧
        ((∃ key c, b.shift.at? key = some c ∧ c.id = id ∧ key ∈ b.shift.waiting .close) ∨
          b.shift.worker.slot? id = none) := by
  have effect := b.effect m
  generalize b.move m = moved at effect drops
  cases effect with
  | still | begun | delivered | stopped => cases drops
  | @worked t rest due =>
    right
    have going : b.thread.stage ≠ .ended := by
      intro ended
      cases due.symm.trans (sound.idle (.inr ended)).1
    rcases events_worked sound (t := t) rest with ⟨quiet, silent⟩ | ⟨id', request', rfl, said⟩
    · rw [silent] at drops
      cases drops
    · rcases said with starts | ⟨dropped, closing⟩
      · rw [starts] at drops
        cases List.mem_singleton.mp drops
      · rw [dropped] at drops
        cases List.mem_singleton.mp drops
        refine ⟨going, fun coming => ?_, ?_⟩
        · have admits := routed.admits
          rw [due] at admits
          have taken : b.incoming = [] := by
            rw [incoming, due, List.flatMap_cons, admits.newcomers rfl]
            rfl
          rw [arriving, taken, List.nil_append] at coming
          obtain ⟨c, listed, named⟩ := List.mem_map.mp coming
          refine routed.absent (id, request) ?_ c listed named
          rw [starts, due]
          exact List.mem_cons_self
        · cases known : b.shift.worker.slot? id with
          | none => exact .inr rfl
          | some key =>
            obtain ⟨c, found, named⟩ := (sound.sited.slots id key).mp known
            refine .inl ⟨key, c, found, named, ?_⟩
            refine (WorkChains.Ties.mem_waiting (sound.tied key)).mpr ?_
            rw [Shift.flags_of_found found]
            exact closing key c found named
  | @fetched failed stage done =>
    rw [Bench.fetched] at drops
    split at drops
    · rename_i quit
      exact .inl (.inl quit)
    · cases drops
  | died stage => exact .inl (.inr rfl)

end Routed

end Bench

/-! ## All of them -/

namespace Engine

/-- What holds of the requests for an engine, after what a log says. -/
structure Routed (past : List (Entry δ)) (e : Engine δ σ) : Prop where
  benches : ∀ index b, e.bench? index = some b → b.Routed past index
  /-- Nothing is sent to a worker that is not there. -/
  vacant : ∀ index, e.bench? index = none →
    (Log.accepted past).filter (·.1.worker = index) = [] ∧
      (Log.settled past).filter (·.1.worker = index) = []

namespace Routed

variable {config : Config} {past events : List (Entry δ)} {e : Engine δ σ} {index : Nat}
  {b : Bench δ σ}

/-- At the start nothing was sent to any worker. -/
theorem start (config : Config) (workers : Nat) :
    Routed [] (.start config workers : Engine δ σ) := by
  refine ⟨fun index b found => ?_, fun _ _ => ⟨rfl, rfl⟩⟩
  rw [bench?_start found]
  exact .fresh index _

/-- A step of a worker. -/
theorem worker (routed : Routed past e) (sound : Sound config past e)
    (found : e.bench? index = some b) (m : Thread.Move) :
    Routed (past ++ (b.move m).events) (e.seat index (b.move m)) := by
  have mine := routed.benches index b found
  have booked := sound.benches index b found
  have accepted := b.accepted_move m
  -- the step says nothing about the connections of other workers
  have away {other : Nat} (different : other ≠ index) {x : Entry δ} (member : x ∈ (b.move m).events) :
      x.id.worker ≠ other := fun home =>
    different (home.symm.trans (mine.about_move booked.sound booked.homed member))
  have settled {other : Nat} (different : other ≠ index) :
      (Log.settled (b.move m).events).filter (·.1.worker = other) = [] := by
    refine List.filter_eq_nil_iff.mpr fun entry member => ?_
    obtain ⟨x, listed, same⟩ := List.mem_filterMap.mp member
    cases x with
    | started id request | dropped id request =>
      cases same
      exact fun home => away different listed (of_decide_eq_true home)
    | placed | reclaimed | lost | accepted => cases same
  have lost {other : Nat} (different : other ≠ index) :
      ∀ id ∈ Log.lost (b.move m).events, id.worker ≠ other := by
    intro id member
    obtain ⟨x, listed, same⟩ := List.mem_filterMap.mp member
    cases x with
    | lost id' =>
      cases same
      exact away different listed
    | placed | reclaimed | accepted | started | dropped => cases same
  constructor
  · intro other b' found'
    rcases bench_of_seat found found' with ⟨rfl, rfl⟩ | ⟨different, found'⟩
    · exact mine.move booked.sound m
    · exact (routed.benches other b' found').later (by rw [accepted]; rfl) (settled different)
        (lost different)
  · intro other gone
    rw [bench?_seat] at gone
    split at gone
    · rw [found] at gone
      cases gone
    · rename_i different
      rw [Log.accepted_append, Log.settled_append, List.filter_append, List.filter_append, accepted,
        settled different, List.append_nil]
      exact ⟨(List.append_nil _).trans (routed.vacant other gone).1, (routed.vacant other gone).2⟩

/-- The manager changes a slot. -/
theorem touch (routed : Routed past e) {f : Slot δ σ → Slot δ σ}
    (mine : ∀ b, e.bench? index = some b →
      ({ b with slot := f b.slot } : Bench δ σ).Routed (past ++ events) index)
    (others : ∀ other, other ≠ index ∨ e.bench? index = none →
      (Log.accepted events).filter (·.1.worker = other) = [])
    (settled : Log.settled events = []) (lost : Log.lost events = []) :
    Routed (past ++ events) (e.touch index f) := by
  constructor
  · intro other b' found
    obtain ⟨b, held, ⟨rfl, rfl⟩ | ⟨different, rfl⟩⟩ := bench_of_touch found
    · exact mine b held
    · refine (routed.benches other b' held).later (others other (.inl different)) ?_ ?_
      · rw [settled]
        rfl
      · rw [lost]
        exact fun _ member => absurd member List.not_mem_nil
  · intro other gone
    have before : e.bench? other = none ∧ (other ≠ index ∨ e.bench? index = none) := by
      rw [bench?_touch] at gone
      split at gone
      · rename_i same
        have none := Option.map_eq_none_iff.mp gone
        exact ⟨same ▸ none, .inr none⟩
      · rename_i different
        exact ⟨gone, .inl different⟩
    rw [Log.accepted_append, Log.settled_append, List.filter_append, List.filter_append,
      others other before.2, settled, List.append_nil]
    exact ⟨(routed.vacant other before.1).1,
      (List.append_nil _).trans (routed.vacant other before.1).2⟩

/-- Everything that is finished is reclaimed. -/
theorem reclaimed (routed : Routed past e) : Routed (past ++ e.reclaimed.events) e.reclaimed.engine := by
  have accepted : Log.accepted e.reclaimed.events = [] := by
    refine List.filterMap_eq_nil_iff.mpr fun x member => ?_
    obtain ⟨c, -, rfl⟩ := List.mem_map.mp member
    rfl
  have settled : Log.settled e.reclaimed.events = [] := by
    refine List.filterMap_eq_nil_iff.mpr fun x member => ?_
    obtain ⟨c, -, rfl⟩ := List.mem_map.mp member
    rfl
  have lost := (Sound.entries_reclaimed e).2.1
  constructor
  · intro index b found
    rw [bench?_reclaimed] at found
    obtain ⟨b', there, rfl⟩ := Option.map_eq_some_iff.mp found
    refine ((routed.benches index b' there).later ?_ ?_ ?_).congr rfl rfl
    · rw [accepted]
      rfl
    · rw [settled]
      rfl
    · rw [lost]
      exact fun _ member => absurd member List.not_mem_nil
  · intro index gone
    rw [bench?_reclaimed, Option.map_eq_none_iff] at gone
    rw [Log.accepted_append, Log.settled_append, accepted, settled, List.append_nil, List.append_nil]
    exact routed.vacant index gone

/-- Every step keeps requests on their way. -/
theorem move (routed : Routed past e) (sound : Sound config past e) (m : Move δ σ) :
    Routed (past ++ (e.move m).events) (e.move m).engine := by
  have effect := e.effect m
  generalize e.move m = moved at effect ⊢
  cases effect with
  | still | closing | waiting | joined =>
    rw [List.append_nil]
    exact ⟨routed.benches, routed.vacant⟩
  | @placed socket handler app index s c receiving found room fresh name =>
    refine routed.touch (fun b held => ?_) (fun _ _ => rfl) rfl rfl
    obtain rfl := Option.some.inj ((slot_of_bench? held).symm.trans found)
    exact (routed.benches index b held).received name
  | @sent id request s receiving found known =>
    refine routed.touch (fun b held => ?_) (fun other away => ?_) rfl rfl
    · obtain rfl := Option.some.inj ((slot_of_bench? held).symm.trans found)
      exact (routed.benches id.worker b held).requested rfl known request
    · have one : Log.accepted [.accepted id request] = [(id, request)] := rfl
      rcases away with different | gone
      · simp [one, Ne.symm different]
      · rw [bench?_of_slot found] at gone
        cases gone
  | @told next telling =>
    have told : Routed (past ++ []) (e.touch next fun s => { s with quit := true }) := by
      refine routed.touch (fun b held => ?_) (fun _ _ => rfl) rfl rfl
      rw [List.append_nil]
      exact (routed.benches next b held).congr rfl rfl
    exact ⟨told.benches, told.vacant⟩
  | reclaimed => exact routed.reclaimed
  | closed =>
    have after := routed.reclaimed
    exact ⟨after.benches, after.vacant⟩
  | worked found m => exact routed.worker sound found m

/-- What a log says was accepted is settled in order, and the rest is pending. -/
theorem settled_prefix (routed : Routed past e) (index : Nat) :
    (Log.settled past).filter (·.1.worker = index) <+: (Log.accepted past).filter (·.1.worker = index) := by
  cases found : e.bench? index with
  | none =>
    rw [(routed.vacant index found).2]
    exact List.nil_prefix
  | some b => exact ⟨b.pending, (routed.benches index b found).order.symm⟩

/-- The requests started on a connection are among those sent for it, and in their order. -/
theorem started_sublist (routed : Routed past e) (id : ConnectionId) :
    (Log.started id past).Sublist (((Log.accepted past).filter (·.1 = id)).map (·.2)) := by
  have home (entries : List (ConnectionId × Request δ)) :
      (entries.filter (·.1.worker = id.worker)).filter (·.1 = id) = entries.filter (·.1 = id) := by
    rw [List.filter_filter]
    refine List.filter_congr fun entry _ => ?_
    by_cases same : entry.1 = id <;> simp [same]
  have part := ((routed.settled_prefix id.worker).sublist.filter (·.1 = id)).map (·.2)
  rw [home, home] at part
  exact (Log.started_sublist id past).trans part

/-- Why a request is dropped. -/
theorem dropped (routed : Routed past e) (sound : Sound config past e) {m : Move δ σ}
    {id : ConnectionId} {request : Request δ} (drops : .dropped id request ∈ (e.move m).events) :
    ∃ b, e.bench? id.worker = some b ∧
      ((b.slot.quit = true ∨ m = .worker id.worker .die) ∨
        id ∉ b.arriving.map Connection.id ∧
          ((∃ key c, b.shift.at? key = some c ∧ c.id = id ∧ key ∈ b.shift.waiting .close) ∨
            id ∈ (b.thread.released ++ e.pool.finished).map Connection.id ++ Log.reclaimed past)) := by
  have effect := e.effect m
  generalize e.move m = moved at effect drops
  cases effect with
  | still | closing | told | waiting | joined => cases drops
  | placed | sent => cases List.mem_singleton.mp drops
  | reclaimed | closed =>
    obtain ⟨c, -, same⟩ := List.mem_map.mp drops
    cases same
  | @worked index b found m =>
    have mine := routed.benches index b found
    have booked := sound.benches index b found
    obtain rfl : id.worker = index := mine.about_move booked.sound booked.homed drops
    refine ⟨b, found, ?_⟩
    rcases mine.dropped booked.sound drops with (told | rfl) | ⟨going, coming, closing | unknown⟩
    · exact .inl (.inl told)
    · exact .inl (.inr rfl)
    · exact .inr ⟨coming, .inl closing⟩
    · refine .inr ⟨coming, .inr ?_⟩
      have listed : (id, request) ∈ Log.settled (b.move m).events :=
        List.mem_filterMap.mpr ⟨_, drops, rfl⟩
      have below := (mine.known (id, request)
        (Bench.Routed.settles booked.sound m ▸ List.mem_append_left _ listed)).2
      have placed : 0 < (Log.placed past).count id := by
        refine List.count_pos_iff.mpr (List.mem_of_mem_filter (p := (·.worker = id.worker)) ?_)
        rw [booked.serials]
        exact List.mem_map.mpr ⟨id.serial, List.mem_range.mpr below, rfl⟩
      have kept : (Log.lost past).count id = 0 :=
        List.count_eq_zero.mpr fun member => going (mine.lost id member rfl)
      have slab : (b.shift.slab.map Connection.id).count id = 0 := by
        rw [booked.sound.sited.count_slab, unknown]
        rfl
      -- so it is with the worker no more, but on the way to the manager or there
      have balance := sound.balance id
      rw [tally, found, Option.elim_some, Bench.tally, List.count_eq_zero.mpr coming, Bench.keeping,
        List.map_append, List.count_append, slab, kept] at balance
      rw [← List.count_pos_iff, List.count_append, List.map_append, List.count_append]
      omega

end Routed

/-- Whatever the manager and the workers do, and whichever of them goes on next: a worker settles the
requests that were sent to it in their order, each once, and what it has not settled yet is on its way. It
settles a request by starting it on the connection that has the name for which it was sent, or by dropping
it. So the requests started on a connection are among those sent for it, in the order in which they were
sent. A request is dropped only if the worker was told to quit or dies in this step, or if its connection is
not on its way to the slab any more and waits to be closed, or was given up. -/
theorem requests_reach_their_connections (config : Config) (workers : Nat) (moves : List (Move δ σ)) :
    let start : Engine δ σ := .start config workers
    let e := start.run moves
    let past := start.trace moves
    (∀ index b, e.bench? index = some b →
      (Log.accepted past).filter (·.1.worker = index) =
        (Log.settled past).filter (·.1.worker = index) ++ b.starts ++ b.slot.mailbox.requests) ∧
      (∀ id, (Log.started id past).Sublist (((Log.accepted past).filter (·.1 = id)).map (·.2))) ∧
      ∀ m id request, .dropped id request ∈ (e.move m).events →
        ∃ b, e.bench? id.worker = some b ∧
          ((b.slot.quit = true ∨ m = .worker id.worker .die) ∨
            id ∉ b.arriving.map Connection.id ∧
              ((∃ key c, b.shift.at? key = some c ∧ c.id = id ∧ key ∈ b.shift.waiting .close) ∨
                id ∈ (b.thread.released ++ e.pool.finished).map Connection.id ++
                  Log.reclaimed past)) := by
  intro start e past
  obtain ⟨sound, routed⟩ : Sound config past e ∧ Routed past e :=
    run_rule (P := fun past e => Sound config past e ∧ Routed past e) []
      ⟨.start config workers, .start config workers⟩
      fun _ _ m _ ⟨sound, routed⟩ => ⟨sound.move m, routed.move sound m⟩
  refine ⟨fun index b found => ?_, routed.started_sublist, fun m id request => routed.dropped sound⟩
  exact (routed.benches index b found).order.trans (List.append_assoc _ _ _).symm

/-- A connection of a client is closed by its peer, and the next connection gets its slot. Of two requests
that are sent then, one for each of them, the first is dropped, and the second is started on the second
connection. -/
theorem requests_reach_their_connections_after_reuse :
    let handler : Handler Unit Unit :=
      { onHeaders := fun _ _ _ _ => .done (), onBody := fun _ _ _ _ => .done () }
    let request : Request Unit := { fields := [{ name := "a", value := "b" }], hasBody := false }
    let turn (moves : List Thread.Move) : List (Move Unit Unit) := moves.map (.worker 0)
    let moves : List (Move Unit Unit) :=
      [.place { incoming := [.endOfStream] } handler ()] ++
        turn [.begin [] false, .fetch, .work, .work, .work, .deliver] ++
        turn [.begin [(0, { readable := true })] false, .work, .work, .work, .work] ++
        turn [.fetch, .work, .work, .work, .deliver] ++
        [.place {} handler (), .request ⟨0, 0⟩ request, .request ⟨0, 1⟩ request] ++
        turn [.begin [] false, .fetch, .work]
    let start : Engine Unit Unit := .start { role := .client, readBufferSize := 1 } 1
    let e := start.run moves
    (e.pool.slots.map fun s => (s.worker.slots, s.quit)) = [([(⟨0, 1⟩, 0)], false)] ∧
      .dropped ⟨0, 0⟩ request ∈ (e.move (.worker 0 .work)).events ∧
        Log.started ⟨0, 1⟩ (start.trace (moves ++ turn [.work, .work])) = [request] ∧
          ∃ b, e.bench? 0 = some b ∧
            (b.slot.quit = true ∨ (⟨0, 0⟩ : ConnectionId) ∉ b.arriving.map Connection.id) := by
  intro handler request turn moves start e
  obtain ⟨-, -, drops⟩ :=
    requests_reach_their_connections { role := .client, readBufferSize := 1 } 1 moves
  have dropped : .dropped ⟨0, 0⟩ request ∈ (e.move (.worker 0 .work)).events := by decide +kernel
  obtain ⟨b, found, (quit | dies) | ⟨away, -⟩⟩ := drops (.worker 0 .work) ⟨0, 0⟩ request dropped
  · exact ⟨by decide +kernel, dropped, by decide +kernel, b, found, .inl quit⟩
  · cases dies
  · exact ⟨by decide +kernel, dropped, by decide +kernel, b, found, .inr away⟩

end Engine

end Http2
