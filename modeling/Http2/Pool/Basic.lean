import Http2.Config
import Http2.Worker.Basic

/-!
# The pool of workers

The manager places each connection on the least-loaded worker that still runs and has room, sends
requests to the worker of their connection, and reclaims the connections that workers have given up.
A connection counts as load from its placement until it is reclaimed.
-/

namespace Http2

/-- Why the pool refuses something. -/
inductive PoolError where
  | badConfig (fault : ConfigError)
  /-- The system refused a socket, for a reason in words. -/
  | system (reason : String)
  | unknownConnection (id : ConnectionId)
  | workerStopped (index : Nat)
  deriving DecidableEq, Repr

/-- The text of a refusal. -/
def PoolError.message : PoolError → String
  | badConfig fault => "invalid configuration: " ++ fault.message
  | system reason => "I/O error: " ++ reason
  | unknownConnection id => "connection " ++ id.text ++ " is not known to the manager"
  | workerStopped index => "worker " ++ toString index ++ " has stopped"

/-- A worker and what the manager keeps about it. -/
structure Slot (δ σ : Type) where
  worker : Worker δ σ
  mailbox : Mailbox δ σ := {}
  /-- Connections placed here and not yet reclaimed. -/
  active : Nat := 0
  nextSerial : Nat := 0
  /-- The worker is told to quit. -/
  quit : Bool := false
  /-- The worker does not run any more. -/
  stopped : Bool := false

/-- The load of one worker. -/
structure WorkerStats where
  index : Nat
  active : Nat
  capacity : Nat
  deriving DecidableEq, Repr

/-- A load shown by its fields. -/
def WorkerStats.describe (s : WorkerStats) : String :=
  Text.describe "WorkerStats" [
    ("index", toString s.index),
    ("active", toString s.active),
    ("capacity", toString s.capacity)]

/-- A pool of workers and its manager. -/
structure Pool (δ σ : Type) where
  config : Config
  slots : List (Slot δ σ)
  /-- Connections that workers have given up, not yet reclaimed. -/
  finished : List (Connection δ σ) := []

namespace Pool

variable {δ σ : Type}

/-- A pool with a worker for each thread, if the configuration allows. -/
def create? (config : Config) : Except PoolError (Pool δ σ) :=
  match config.fault? with
  | some fault => .error (.badConfig fault)
  | none =>
    .ok { config, slots := List.replicate config.threads { worker := .idle config.readBufferSize } }

/-- The load of every worker. -/
def stats (p : Pool δ σ) : List WorkerStats :=
  p.slots.mapIdx fun index s =>
    { index, active := s.active, capacity := p.config.connectionsPerThread }

/-- Connections placed and not yet reclaimed. -/
def active (p : Pool δ σ) : Nat :=
  p.slots.foldr (fun s others => s.active + others) 0

/-- A pool shown by its configuration and loads. -/
def describe (p : Pool δ σ) : String :=
  Text.describe "ConnectionManager" [
    ("config", p.config.describe),
    ("workers", Text.listing (p.stats.map WorkerStats.describe))]

/-- Changes one slot. -/
def modifySlot (p : Pool δ σ) (index : Nat) (f : Slot δ σ → Slot δ σ) : Pool δ σ :=
  { p with slots := p.slots.modify index f }

/-- The slots that can take a connection, with their indices. -/
def candidates (p : Pool δ σ) : List (Nat × Nat) :=
  (p.slots.mapIdx fun index s => (index, s)).filterMap fun (index, s) =>
    if !s.stopped && s.active < p.config.connectionsPerThread then some (index, s.active) else none

/-- The first pair with the least second part. -/
def leastLoaded : List (Nat × Nat) → Option Nat
  | [] => none
  | first :: rest =>
    some (rest.foldl (fun best next => if next.2 < best.2 then next else best) first).1

/-- The worker for the next connection: the least-loaded one, the first of several. -/
def pick? (p : Pool δ σ) : Option Nat :=
  leastLoaded p.candidates

/-- Places a socket on a worker. Without room anywhere the pool is unchanged. -/
def place (p : Pool δ σ) (socket : Socket) (handler : Handler δ σ) (app : σ) :
    Option ConnectionId × Pool δ σ :=
  match p.pick?.bind fun index => p.slots[index]?.map fun s => (index, s) with
  | none => (none, p)
  | some (index, s) =>
    let id : ConnectionId := { worker := index, serial := s.nextSerial }
    let codec := Codec.create p.config.role p.config.maxFrameSize
    let c : Connection δ σ := { id, socket, handler, endpoint := { codec, app } }
    (some id, p.modifySlot index fun s =>
      { s with
        active := s.active + 1
        nextSerial := s.nextSerial + 1
        mailbox := { s.mailbox with connections := s.mailbox.connections ++ [c] } })

/-- Sends a request to the worker of a connection that was placed there at some time. -/
def request (p : Pool δ σ) (id : ConnectionId) (request : Request δ) :
    Except PoolError (Pool δ σ) :=
  match p.slots[id.worker]? with
  | none => .error (.unknownConnection id)
  | some s =>
    if s.nextSerial ≤ id.serial then .error (.unknownConnection id)
    else if s.stopped then .error (.workerStopped id.worker)
    else .ok (p.modifySlot id.worker fun s =>
      { s with mailbox := { s.mailbox with requests := s.mailbox.requests ++ [(id, request)] } })

/-- Reclaims every connection that workers have given up. -/
def reclaim (p : Pool δ σ) : List (Connection δ σ) × Pool δ σ :=
  (p.finished, p.finished.foldl
    (fun p c => p.modifySlot c.id.worker fun s => { s with active := s.active - 1 })
    { p with finished := [] })

/-- One turn of a worker that still runs. A worker told to quit stops after it. -/
def runWorker (p : Pool δ σ) (index : Nat) (reports : List (Nat × Readiness)) : Pool δ σ :=
  match p.slots[index]? with
  | none => p
  | some s =>
    if s.stopped then p
    else
      let turn := s.worker.turn reports s.mailbox s.quit
      let p := p.modifySlot index fun s =>
        { s with worker := turn.worker, mailbox := {}, stopped := s.quit }
      { p with finished := p.finished ++ turn.finished }

/-- Tells every worker to quit. -/
def signalQuit (p : Pool δ σ) : Pool δ σ :=
  { p with slots := p.slots.map fun s => { s with quit := true } }

/-- Stops every worker, waits for the last turn of each, and reclaims what they gave up. -/
def shutdown (p : Pool δ σ) : List (Connection δ σ) × Pool δ σ :=
  let p := p.signalQuit
  ((List.range p.slots.length).foldl (fun p index => p.runWorker index []) p).reclaim

/-- A worker dies: it stops at once, and the connections it had admitted are lost. -/
def crash (p : Pool δ σ) (index : Nat) : Pool δ σ :=
  p.modifySlot index fun s => { s with worker := {}, stopped := true }

end Pool

end Http2
