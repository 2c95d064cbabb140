import Http2.Proofs.Pool.Loads
import Http2.Proofs.Worker.Slab
import Http2.Proofs.Worker.Starting

/-!
# The manager and its workers as threads

An `Engine` is a pool whose workers run in threads of their own, between any two steps of any of them.
The manager places a connection, sends a request or reclaims what is finished in one step each: what it
shares with a worker is touched under one lock. A worker goes through its turns task by task (`Shift`). To
fetch the mail, together with the word whether to quit, is one step; so is to deliver what it has given
up. To shut down, the manager tells one worker after the other, waits for one after the other, and reclaims
what is left.

A list of moves is an interleaving. A move that cannot be made then changes nothing, so every list of moves
is one. What happens to connections and requests in a move is written down in entries of a log.
-/

namespace Http2

variable {δ σ : Type}

deriving instance DecidableEq for Request

/-- An entry of the log: what happens to a connection or a request. -/
inductive Entry (δ : Type) where
  /-- A connection is placed on a worker. -/
  | placed (id : ConnectionId)
  /-- The manager has reclaimed a connection. -/
  | reclaimed (id : ConnectionId)
  /-- A connection is lost with the worker that had it. -/
  | lost (id : ConnectionId)
  /-- The manager has sent a request to a worker. -/
  | accepted (id : ConnectionId) (request : Request δ)
  /-- A request is started on the connection of this name. -/
  | started (id : ConnectionId) (request : Request δ)
  /-- A request for a connection is discarded. -/
  | dropped (id : ConnectionId) (request : Request δ)
  deriving DecidableEq

/-- The connection that an entry is about. -/
def Entry.id : Entry δ → ConnectionId
  | placed id | reclaimed id | lost id => id
  | accepted id _ | started id _ | dropped id _ => id

namespace Log

/-- The names of the connections placed, in order. -/
def placed (past : List (Entry δ)) : List ConnectionId :=
  past.filterMap fun | .placed id => some id | _ => none

/-- The names of the connections reclaimed, in order. -/
def reclaimed (past : List (Entry δ)) : List ConnectionId :=
  past.filterMap fun | .reclaimed id => some id | _ => none

/-- The names of the connections lost, in order. -/
def lost (past : List (Entry δ)) : List ConnectionId :=
  past.filterMap fun | .lost id => some id | _ => none

@[simp] theorem placed_append (first second : List (Entry δ)) :
    placed (first ++ second) = placed first ++ placed second :=
  List.filterMap_append

@[simp] theorem reclaimed_append (first second : List (Entry δ)) :
    reclaimed (first ++ second) = reclaimed first ++ reclaimed second :=
  List.filterMap_append

@[simp] theorem lost_append (first second : List (Entry δ)) :
    lost (first ++ second) = lost first ++ lost second :=
  List.filterMap_append

/-- The requests that were sent, in order, with the names of their connections. -/
def accepted (past : List (Entry δ)) : List (ConnectionId × Request δ) :=
  past.filterMap fun | .accepted id request => some (id, request) | _ => none

/-- The requests that were started or dropped, in order, with the names of the connections on which they
were started or for which they were dropped. -/
def settled (past : List (Entry δ)) : List (ConnectionId × Request δ) :=
  past.filterMap fun | .started id request | .dropped id request => some (id, request) | _ => none

/-- The requests started on the connection of a name, in order. -/
def started (id : ConnectionId) (past : List (Entry δ)) : List (Request δ) :=
  past.filterMap fun
    | .started other request => if other = id then some request else none
    | _ => none

@[simp] theorem accepted_append (first second : List (Entry δ)) :
    accepted (first ++ second) = accepted first ++ accepted second :=
  List.filterMap_append

@[simp] theorem settled_append (first second : List (Entry δ)) :
    settled (first ++ second) = settled first ++ settled second :=
  List.filterMap_append

/-- The requests started on the connection of a name are among those settled. -/
theorem started_sublist (id : ConnectionId) (past : List (Entry δ)) :
    (started id past).Sublist (((settled past).filter (·.1 = id)).map (·.2)) := by
  have one (x : Entry δ) :
      (started id [x]).Sublist (((settled [x]).filter (·.1 = id)).map (·.2)) := by
    cases x with
    | started other request => by_cases same : other = id <;> simp [started, settled, same]
    | placed | reclaimed | lost | accepted | dropped => exact List.nil_sublist _
  induction past with
  | nil => exact List.nil_sublist _
  | cons x past ih =>
    have starts : started id (x :: past) = started id [x] ++ started id past :=
      List.filterMap_append (l := [x])
    have settles : settled (x :: past) = settled [x] ++ settled past := settled_append [x] past
    rw [starts, settles, List.filter_append, List.map_append]
    exact (one x).append ih

end Log

/-- What becomes of a request in a step of a worker, if the step is about one. -/
def Shift.Step.events (x : Shift.Step δ σ) : List (Entry δ) :=
  match x.use?, x.task with
  | some { connection, turn := .start request }, _ => [.started connection.id request]
  | none, .start id request => [.dropped id request]
  | _, _ => []

/-- Whether a connection given up in a task is kept until the end of the pass. Others are handed back at
once. -/
def Task.collects : Task δ σ → Bool
  | .serve .close => true
  | _ => false

/-! ## One worker -/

/-- Where a worker is in its turn. -/
inductive Stage where
  /-- It waits for readiness reports. -/
  | waiting
  /-- It has not fetched its mail yet. If waiting for reports failed, this is its last turn. -/
  | serving (failed : Bool)
  /-- It has fetched its mail. -/
  | settling (last : Bool)
  /-- It has come to its end. -/
  | ended
  deriving DecidableEq

/-- The thread of a worker. -/
structure Thread (δ σ : Type) where
  stage : Stage := .waiting
  /-- The keys that passes have taken off the chains and not yet served. -/
  taken : WorkChains := {}
  /-- What the worker is going to do before it fetches its mail, or before its turn is over. -/
  due : List (Task δ σ) := []
  /-- The connections given up in the pass over the close chain. -/
  released : List (Connection δ σ) := []

/-- A step of a worker. -/
inductive Thread.Move where
  /-- A turn begins, with reports or because waiting for them failed. -/
  | begin (reports : List (Nat × Readiness)) (failed : Bool)
  /-- The next task is done. -/
  | work
  /-- The mail is fetched. -/
  | fetch
  /-- The connections given up are delivered to the manager, which ends the turn. -/
  | deliver
  /-- The manager can see from now on that the worker has come to its end. -/
  | stop
  /-- The worker dies, and with it what it has. -/
  | die

/-- A worker with its thread. -/
structure Bench (δ σ : Type) where
  slot : Slot δ σ
  thread : Thread δ σ := {}

namespace Bench

/-- What a step of a worker gave. -/
structure Moved (δ σ : Type) where
  bench : Bench δ σ
  /-- The connections handed to the manager. -/
  finished : List (Connection δ σ) := []
  events : List (Entry δ) := []

variable (b : Bench δ σ)

/-- The worker between two of its tasks. -/
def shift : Shift δ σ where
  worker := b.slot.worker
  taken := b.thread.taken

/-- What comes to the worker if it fetches its mail. -/
def round (failed : Bool) : Round δ σ where
  mail := b.slot.mailbox
  quit := b.slot.quit
  failed := failed

/-- The connections taken out of the mailbox and not yet admitted or handed back. -/
def incoming : List (Connection δ σ) :=
  b.thread.due.flatMap Task.newcomers

/-- The connections in the mailbox, or on the way out of it. -/
def arriving : List (Connection δ σ) :=
  b.incoming ++ b.slot.mailbox.connections

/-- The connections in the slab, or on the way from there to the manager. -/
def keeping : List (Connection δ σ) :=
  b.shift.slab ++ b.thread.released

/-- The requests that the worker is going to start, or to drop if their connections are gone. -/
def starts : List (ConnectionId × Request δ) :=
  b.thread.due.filterMap Task.request?

/-- A turn has begun. -/
def begun (reports : List (Nat × Readiness)) (failed : Bool) : Bench δ σ :=
  { b with thread :=
      { b.thread with
        stage := .serving failed
        due := ({ reports } : Round δ σ).early b.shift } }

/-- A task is done. -/
def worked (t : Task δ σ) (rest : List (Task δ σ)) : Moved δ σ :=
  let s := b.shift.perform t
  let gone := b.shift.finished t
  { bench :=
      { slot := { b.slot with worker := s.worker }
        thread :=
          { b.thread with
            taken := s.taken
            due := rest
            released := b.thread.released ++ if t.collects then gone else [] } }
    finished := if t.collects then [] else gone
    events := (Shift.Step.mk b.shift t).events }

/-- The mail is fetched. Requests are discarded if the worker is told to quit. -/
def fetched (failed : Bool) : Moved δ σ :=
  let r := b.round failed
  let closing := b.shift.run (r.middle b.shift)
  { bench :=
      { slot := { b.slot with mailbox := {} }
        thread :=
          { b.thread with
            stage := .settling r.ends
            due := (r.middle b.shift).tail ++ closing.passTasks .close } }
    events :=
      if b.slot.quit then b.slot.mailbox.requests.map fun entry => .dropped entry.1 entry.2 else [] }

/-- What was given up is delivered, and the turn is over. -/
def delivered (last : Bool) : Moved δ σ where
  bench :=
    { b with thread :=
        { b.thread with
          stage := if last then .ended else .waiting
          released := [] } }
  finished := b.thread.released

/-- The manager can see that the worker has come to its end. -/
def stopped : Bench δ σ :=
  { b with slot := { b.slot with stopped := true } }

/-- The worker is dead. What is in its mailbox stays there. -/
def died : Moved δ σ where
  bench :=
    { slot := { b.slot with worker := {} }
      thread := { stage := .ended } }
  events :=
    (b.incoming ++ b.keeping).map (fun c => .lost c.id) ++
      b.starts.map fun entry => .dropped entry.1 entry.2

/-- A step of the worker. -/
def move : Thread.Move → Moved δ σ
  | .begin reports failed =>
    match b.thread.stage with
    | .waiting => { bench := b.begun reports failed }
    | _ => { bench := b }
  | .work =>
    match b.thread.due with
    | [] => { bench := b }
    | t :: rest => b.worked t rest
  | .fetch =>
    match b.thread.stage, b.thread.due with
    | .serving failed, [] => b.fetched failed
    | _, _ => { bench := b }
  | .deliver =>
    match b.thread.stage, b.thread.due with
    | .settling last, [] => b.delivered last
    | _, _ => { bench := b }
  | .stop =>
    match b.thread.stage with
    | .ended => { bench := b.stopped }
    | _ => { bench := b }
  | .die =>
    match b.thread.stage with
    | .ended => { bench := b }
    | _ => b.died

/-- What a step of a worker can do. -/
inductive Effect : Thread.Move → Moved δ σ → Prop
  | still {m : Thread.Move} : Effect m { bench := b }
  | begun {reports : List (Nat × Readiness)} {failed : Bool} (stage : b.thread.stage = .waiting) :
      Effect (.begin reports failed) { bench := b.begun reports failed }
  | worked {t : Task δ σ} {rest : List (Task δ σ)} (due : b.thread.due = t :: rest) :
      Effect .work (b.worked t rest)
  | fetched {failed : Bool} (stage : b.thread.stage = .serving failed) (done : b.thread.due = []) :
      Effect .fetch (b.fetched failed)
  | delivered {last : Bool} (stage : b.thread.stage = .settling last) (done : b.thread.due = []) :
      Effect .deliver (b.delivered last)
  | stopped (stage : b.thread.stage = .ended) : Effect .stop { bench := b.stopped }
  | died (stage : b.thread.stage ≠ .ended) : Effect .die b.died

/-- A step of a worker does what its stage and its tasks allow, or nothing. -/
theorem effect (m : Thread.Move) : b.Effect m (b.move m) := by
  cases m with
  | begin reports failed =>
    rw [move]
    split
    · exact .begun ‹_›
    · exact .still
  | work =>
    rw [move]
    split
    · exact .still
    · exact .worked ‹_›
  | fetch =>
    rw [move]
    split
    · exact .fetched ‹_› ‹_›
    · exact .still
  | deliver =>
    rw [move]
    split
    · exact .delivered ‹_› ‹_›
    · exact .still
  | stop =>
    rw [move]
    split
    · exact .stopped ‹_›
    · exact .still
  | die =>
    rw [move]
    split
    · exact .still
    · exact .died ‹_›

end Bench

/-! ## All of them -/

/-- Where the manager is. -/
inductive Desk where
  /-- It takes connections and requests. -/
  | receiving
  /-- It is shutting down and about to tell a worker to quit. -/
  | telling (next : Nat)
  /-- It is shutting down and waits for a worker to stop. -/
  | joining (next : Nat)
  /-- It has shut down. -/
  | closed
  deriving DecidableEq

/-- A manager and its workers, each in a thread of its own. -/
structure Engine (δ σ : Type) where
  pool : Pool δ σ
  threads : Nat → Thread δ σ := fun _ => {}
  desk : Desk := .receiving

namespace Engine

/-- A step of the manager or of a worker. -/
inductive Move (δ σ : Type) where
  | place (socket : Socket) (handler : Handler δ σ) (app : σ)
  | request (id : ConnectionId) (request : Request δ)
  | reclaim
  /-- The manager goes on shutting down. -/
  | shutDown
  | worker (index : Nat) (move : Thread.Move)

/-- What a step gave. -/
structure Moved (δ σ : Type) where
  engine : Engine δ σ
  events : List (Entry δ) := []

/-- An engine with so many workers, of which none has a connection. -/
def start (config : Config) (workers : Nat) : Engine δ σ where
  pool := { config, slots := List.replicate workers { worker := .idle config.readBufferSize } }

variable (e : Engine δ σ)

/-- A worker with its thread. -/
def bench? (index : Nat) : Option (Bench δ σ) :=
  e.pool.slots[index]?.map fun slot => { slot, thread := e.threads index }

/-- The engine after a step of a worker. -/
def seat (index : Nat) (moved : Bench.Moved δ σ) : Engine δ σ where
  pool :=
    { e.pool.modifySlot index fun _ => moved.bench.slot with
      finished := e.pool.finished ++ moved.finished }
  threads := fun other => if other = index then moved.bench.thread else e.threads other
  desk := e.desk

/-- Everything that is finished is reclaimed. -/
def reclaimed : Moved δ σ where
  engine := { e with pool := e.pool.reclaim.2 }
  events := e.pool.reclaim.1.map fun c => .reclaimed c.id

/-- The manager tells a worker to quit. After the last one it begins to wait. -/
def tell (next : Nat) : Engine δ σ :=
  if next < e.pool.slots.length then
    { e with
      pool := e.pool.modifySlot next fun s => { s with quit := true }
      desk := .telling (next + 1) }
  else
    { e with desk := .joining 0 }

/-- The manager waits for a worker. After the last one it reclaims what is left. -/
def join (next : Nat) : Moved δ σ :=
  match e.pool.slots[next]? with
  | some s => { engine := if s.stopped then { e with desk := .joining (next + 1) } else e }
  | none => { e.reclaimed with engine := { e.reclaimed.engine with desk := .closed } }

/-- The manager goes on shutting down. -/
def shutDown : Moved δ σ :=
  match e.desk with
  | .receiving => { engine := { e with desk := .telling 0 } }
  | .telling next => { engine := e.tell next }
  | .joining next => e.join next
  | .closed => { engine := e }

/-- A socket is placed on a worker, if one has room. -/
def place (socket : Socket) (handler : Handler δ σ) (app : σ) : Moved δ σ where
  engine := { e with pool := (e.pool.place socket handler app).2 }
  events := (e.pool.place socket handler app).1.toList.map .placed

/-- A request is sent to the worker of a connection, unless it is refused. -/
def send (id : ConnectionId) (request : Request δ) : Moved δ σ :=
  match e.pool.request id request with
  | .ok pool => { engine := { e with pool }, events := [.accepted id request] }
  | .error _ => { engine := e }

/-- What the manager does as long as it is not shutting down. -/
def whileReceiving (moved : Moved δ σ) : Moved δ σ :=
  if e.desk = .receiving then moved else { engine := e }

/-- A step. -/
def move : Move δ σ → Moved δ σ
  | .place socket handler app => e.whileReceiving (e.place socket handler app)
  | .request id request => e.whileReceiving (e.send id request)
  | .reclaim => e.whileReceiving e.reclaimed
  | .shutDown => e.shutDown
  | .worker index move =>
    match e.bench? index with
    | none => { engine := e }
    | some b => { engine := e.seat index (b.move move), events := (b.move move).events }

/-- The engine after any number of steps. -/
def run (e : Engine δ σ) : List (Move δ σ) → Engine δ σ
  | [] => e
  | m :: moves => (e.move m).engine.run moves

/-- What happens in any number of steps, in order. -/
def trace (e : Engine δ σ) : List (Move δ σ) → List (Entry δ)
  | [] => []
  | m :: moves => (e.move m).events ++ (e.move m).engine.trace moves

/-- What every step keeps, of the events so far and the engine that they lead to, holds throughout. -/
theorem run_rule {P : List (Entry δ) → Engine δ σ → Prop} {e : Engine δ σ} {moves : List (Move δ σ)}
    (past : List (Entry δ)) (start : P past e)
    (keeps : ∀ past e, ∀ m ∈ moves, P past e → P (past ++ (e.move m).events) (e.move m).engine) :
    P (past ++ e.trace moves) (e.run moves) := by
  induction moves generalizing e past with
  | nil => rwa [trace, List.append_nil]
  | cons m moves ih =>
    have later := ih (past ++ (e.move m).events) (keeps past e m List.mem_cons_self start)
      fun past e m member => keeps past e m (List.mem_cons_of_mem _ member)
    rwa [List.append_assoc] at later

/-! ## What a step can do -/

/-- The engine after the manager changed one slot. -/
def touch (e : Engine δ σ) (index : Nat) (f : Slot δ σ → Slot δ σ) : Engine δ σ :=
  { e with pool := e.pool.modifySlot index f }

/-- What a step can do to an engine. -/
inductive Effect (e : Engine δ σ) : Move δ σ → Moved δ σ → Prop
  | still {m : Move δ σ} : Effect e m { engine := e }
  | placed {socket : Socket} {handler : Handler δ σ} {app : σ} {index : Nat} {s : Slot δ σ}
      {c : Connection δ σ} (receiving : e.desk = .receiving) (found : e.pool.slots[index]? = some s)
      (room : s.active < e.pool.config.connectionsPerThread) (fresh : c.Fresh)
      (name : c.id = ⟨index, s.nextSerial⟩) :
      Effect e (.place socket handler app)
        { engine := e.touch index (·.received c), events := [.placed c.id] }
  | sent {id : ConnectionId} {request : Request δ} {s : Slot δ σ} (receiving : e.desk = .receiving)
      (found : e.pool.slots[id.worker]? = some s) (known : id.serial < s.nextSerial) :
      Effect e (.request id request)
        { engine := e.touch id.worker (·.requested id request), events := [.accepted id request] }
  | reclaimed (receiving : e.desk = .receiving) : Effect e .reclaim e.reclaimed
  | closing (receiving : e.desk = .receiving) :
      Effect e .shutDown { engine := { e with desk := .telling 0 } }
  | told {next : Nat} (telling : e.desk = .telling next) :
      Effect e .shutDown
        { engine :=
            { e.touch next fun s => { s with quit := true } with desk := .telling (next + 1) } }
  | waiting {next : Nat} (telling : e.desk = .telling next) :
      Effect e .shutDown { engine := { e with desk := .joining 0 } }
  | joined {next : Nat} {s : Slot δ σ} (joining : e.desk = .joining next)
      (found : e.pool.slots[next]? = some s) (stopped : s.stopped = true) :
      Effect e .shutDown { engine := { e with desk := .joining (next + 1) } }
  | closed {next : Nat} (joining : e.desk = .joining next) (beyond : e.pool.slots[next]? = none) :
      Effect e .shutDown
        { e.reclaimed with engine := { e.reclaimed.engine with desk := .closed } }
  | worked {index : Nat} {b : Bench δ σ} (found : e.bench? index = some b) (m : Thread.Move) :
      Effect e (.worker index m)
        { engine := e.seat index (b.move m), events := (b.move m).events }

/-- While the manager is receiving, a step does what it does; otherwise it does nothing. -/
theorem effect_whileReceiving {e : Engine δ σ} {m : Move δ σ} {moved : Moved δ σ}
    (after : e.desk = .receiving → e.Effect m moved) : e.Effect m (e.whileReceiving moved) := by
  unfold whileReceiving
  split
  · exact after ‹_›
  · exact .still

/-- Shutting down moves the manager one worker on, or waits. -/
theorem effect_shutDown (e : Engine δ σ) : e.Effect .shutDown e.shutDown := by
  unfold shutDown
  split
  · exact .closing ‹_›
  · rename_i next telling
    unfold tell
    split
    · exact .told telling
    · exact .waiting telling
  · rename_i next joining
    unfold join
    split
    · split
      · exact .joined joining ‹_› ‹_›
      · exact .still
    · exact .closed joining ‹_›
  · exact .still

/-- Every step has one of the effects. -/
theorem effect (e : Engine δ σ) (m : Move δ σ) : e.Effect m (e.move m) := by
  cases m with
  | place socket handler app =>
    refine effect_whileReceiving fun receiving => ?_
    have placing := e.pool.placing socket handler app
    unfold place
    generalize e.pool.place socket handler app = result at placing ⊢
    cases placing with
    | refused => exact .still
    | placed found runs room fresh name => exact .placed receiving found room fresh name
  | request id request =>
    refine effect_whileReceiving fun receiving => ?_
    unfold send
    split
    · rename_i sent
      obtain ⟨s, found, known, -, rfl⟩ := Pool.slots_of_request sent
      exact .sent receiving found known
    · exact .still
  | reclaim => exact effect_whileReceiving .reclaimed
  | shutDown => exact e.effect_shutDown
  | worker index m =>
    rw [move]
    cases found : e.bench? index with
    | none => exact .still
    | some b => exact .worked found m

/-! ## Which workers a step is about -/

variable {e : Engine δ σ} {index : Nat} {b : Bench δ σ} {s : Slot δ σ}

/-- Every slot makes a worker with its thread. -/
theorem bench?_of_slot (found : e.pool.slots[index]? = some s) :
    e.bench? index = some { slot := s, thread := e.threads index } := by
  rw [bench?, found, Option.map_some]

theorem slot_of_bench? (found : e.bench? index = some b) : e.pool.slots[index]? = some b.slot := by
  obtain ⟨s, there, rfl⟩ := Option.map_eq_some_iff.mp found
  exact there

/-- At the start every worker is idle, with an empty mailbox. -/
theorem bench?_start {config : Config} {workers : Nat}
    (found : (Engine.start config workers).bench? index = some b) :
    b = { slot := { worker := .idle config.readBufferSize } } := by
  obtain ⟨s, there, rfl⟩ := Option.map_eq_some_iff.mp found
  have listed : (List.replicate workers
      ({ worker := .idle config.readBufferSize } : Slot δ σ))[index]? = some s := there
  rw [(List.mem_replicate.mp (List.mem_of_getElem? listed)).2]
  rfl

/-- A step of a worker is about this worker only. -/
theorem bench?_seat (e : Engine δ σ) (index : Nat) (moved : Bench.Moved δ σ) (other : Nat) :
    (e.seat index moved).bench? other =
      if other = index then (e.bench? index).map fun _ => moved.bench else e.bench? other := by
  unfold bench? seat Pool.modifySlot
  rw [List.getElem?_modify]
  by_cases same : other = index
  · subst same
    cases e.pool.slots[other]? <;> simp
  · cases e.pool.slots[other]? <;> simp [same, Ne.symm same]

/-- A change to one slot is a change to one worker, whose thread is left alone. -/
theorem bench?_touch (e : Engine δ σ) (index : Nat) (f : Slot δ σ → Slot δ σ) (other : Nat) :
    (e.touch index f).bench? other =
      if other = index then (e.bench? index).map fun b => { b with slot := f b.slot }
      else e.bench? other := by
  unfold bench? touch Pool.modifySlot
  rw [List.getElem?_modify]
  by_cases same : other = index
  · subst same
    cases e.pool.slots[other]? <;> simp
  · cases e.pool.slots[other]? <;> simp [same, Ne.symm same]

/-- A step of a worker neither adds a worker nor removes one. -/
theorem isSome_bench?_seat (e : Engine δ σ) (index : Nat) (moved : Bench.Moved δ σ) (other : Nat) :
    ((e.seat index moved).bench? other).isSome = (e.bench? other).isSome := by
  rw [bench?_seat]
  split
  · rename_i same
    rw [Option.isSome_map, same]
  · rfl

/-- A change to a slot neither adds a worker nor removes one. -/
theorem isSome_bench?_touch (e : Engine δ σ) (index : Nat) (f : Slot δ σ → Slot δ σ) (other : Nat) :
    ((e.touch index f).bench? other).isSome = (e.bench? other).isSome := by
  rw [bench?_touch]
  split
  · rename_i same
    rw [Option.isSome_map, same]
  · rfl

/-- After a step of a worker, another worker is as it was. -/
theorem bench_of_seat {other : Nat} {b' : Bench δ σ} {moved : Bench.Moved δ σ}
    (found : e.bench? index = some b) (there : (e.seat index moved).bench? other = some b') :
    other = index ∧ b' = moved.bench ∨ other ≠ index ∧ e.bench? other = some b' := by
  rw [bench?_seat] at there
  split at there
  · rename_i same
    rw [found, Option.map_some] at there
    exact .inl ⟨same, (Option.some.inj there).symm⟩
  · exact .inr ⟨‹_›, there⟩

/-- After the manager changed a slot, another worker is as it was. -/
theorem bench_of_touch {other : Nat} {b' : Bench δ σ} {f : Slot δ σ → Slot δ σ}
    (there : (e.touch index f).bench? other = some b') :
    ∃ b, e.bench? other = some b ∧
      (other = index ∧ b' = { b with slot := f b.slot } ∨ other ≠ index ∧ b' = b) := by
  rw [bench?_touch] at there
  split at there
  · rename_i same
    subst same
    obtain ⟨b, found, rfl⟩ := Option.map_eq_some_iff.mp there
    exact ⟨b, found, .inl ⟨rfl, rfl⟩⟩
  · exact ⟨b', there, .inr ⟨‹_›, rfl⟩⟩

/-- Reclaiming takes from the load of each worker the connections that it had. -/
theorem bench?_reclaimed (e : Engine δ σ) (index : Nat) :
    e.reclaimed.engine.bench? index = (e.bench? index).map fun b =>
      { b with slot := b.slot.relieved (e.pool.finished.countP fun c => c.id.worker = index) } := by
  obtain ⟨-, -, -, slots⟩ := Pool.discharge_all e.pool.finished { e.pool with finished := [] }
  simp only [bench?, reclaimed, Pool.reclaim_eq, slots]
  cases e.pool.slots[index]? <;> rfl

/-- Nothing that was finished is left to reclaim. -/
theorem finished_reclaimed (e : Engine δ σ) : e.reclaimed.engine.pool.finished = [] := by
  rw [reclaimed, Pool.reclaim_eq]
  exact (Pool.discharge_all e.pool.finished { e.pool with finished := [] }).2.1

end Engine

end Http2
