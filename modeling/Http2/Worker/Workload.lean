import Http2.Connection.Requests
import Http2.Connection.Write
import Http2.Worker.Arena

/-!
# Passes over the work chains

A workload is the connections of a worker, the chains on which they wait, and the buffer that all
reads and body pulls share. A pass takes a whole chain and serves each connection on it once.
Connections that wait to be closed are not served. Reading may schedule writes; writing schedules
nothing but the next turn of an interrupted write.
-/

namespace Http2

/-- The connections of a worker and what is to be done with them. -/
structure Workload (δ σ : Type) where
  connections : Arena (Connection δ σ) := {}
  chains : WorkChains := {}
  /-- The buffer shared by all connections. -/
  buffer : Bytes := []

namespace Workload

variable {δ σ : Type}

/-- Stores the new value of a connection. -/
def put (w : Workload δ σ) (key : Nat) (c : Connection δ σ) : Workload δ σ :=
  { w with connections := w.connections.put key c }

/-- Stores a connection and queues it on a chain unless it is there. -/
def putOn (w : Workload δ σ) (chain : Chain) (key : Nat) (c : Connection δ σ) : Workload δ σ :=
  let (chains, membership) := w.chains.enqueue chain key c.membership
  { w.put key { c with membership } with chains }

/-- Stores a connection that leaves a chain. -/
def putOff (w : Workload δ σ) (chain : Chain) (key : Nat) (c : Connection δ σ) : Workload δ σ :=
  w.put key { c with membership := c.membership.remove chain }

/-- Stores a connection after its callbacks, and queues it for writing if they queued frames. -/
def putSignalled (w : Workload δ σ) (key : Nat) (c : Connection δ σ) : Workload δ σ :=
  let (signal, c) := c.takeWriteSignal
  if signal then w.putOn .write key c else w.put key c

/-- Puts a key that stays a member of a chain back on it. -/
def relink (w : Workload δ σ) (chain : Chain) (key : Nat) : Workload δ σ :=
  { w with chains := w.chains.relink chain key }

/-- Changes the connection in a slot. -/
def modify (w : Workload δ σ) (key : Nat)
    (f : Workload δ σ → Connection δ σ → Workload δ σ) : Workload δ σ :=
  match w.connections.get? key with
  | none => w
  | some c => f w c

/-- Takes a connection off a chain for good and queues it for closing. -/
def retire (w : Workload δ σ) (chain : Chain) (key : Nat) : Workload δ σ :=
  w.modify key fun w c =>
    w.putOn .close key { c with membership := c.membership.remove chain }

/-- Serves one connection of the read chain. -/
def readOne (w : Workload δ σ) (key : Nat) : Workload δ σ :=
  w.modify key fun w c =>
    if c.membership.close then
      w.putOff .read key c
    else
      let result := c.readAvailable w.buffer
      let w := { w with buffer := result.buffer }.putSignalled key result.connection
      match result.outcome with
      | .drained => w.modify key fun w c => w.putOff .read key c
      | .interrupted => w.relink .read key
      | .closed => w.retire .read key

/-- Serves one connection of the write chain. -/
def writeOne (w : Workload δ σ) (key : Nat) : Workload δ σ :=
  w.modify key fun w c =>
    if c.membership.close then
      w.putOff .write key c
    else
      let result := c.writePending
      let w := w.put key result.connection
      match result.outcome with
      | .flushed | .blocked => w.modify key fun w c => w.putOff .write key c
      | .interrupted => w.relink .write key
      | .closed => w.retire .write key

/-- Takes the keys of a chain. -/
def detach (w : Workload δ σ) (chain : Chain) : List Nat × Workload δ σ :=
  let (keys, chains) := w.chains.detach chain
  (keys, { w with chains })

/-- One pass over the read chain. -/
def readPass (w : Workload δ σ) : Workload δ σ :=
  let (keys, w) := w.detach .read
  keys.foldl readOne w

/-- One pass over the write chain. -/
def writePass (w : Workload δ σ) : Workload δ σ :=
  let (keys, w) := w.detach .write
  keys.foldl writeOne w

/-- Pulls bodies for one connection, unless it has output that is not written yet. -/
def advanceOne (w : Workload δ σ) (key : Nat) : Workload δ σ :=
  w.modify key fun w c =>
    if !c.hasRequestsInProgress || c.hasPendingOutput || c.membership.close then
      w
    else
      let (c, buffer) := c.pullBodies w.buffer
      { w with buffer }.putSignalled key c

/-- Pulls bodies for every connection, in ascending order of keys. -/
def advance (w : Workload δ σ) : Workload δ σ :=
  w.connections.keys.foldl advanceOne w

/-- Queues a connection on the chains that a readiness report calls for. -/
def schedule (w : Workload δ σ) (key : Nat) (report : Readiness) : Workload δ σ :=
  w.modify key fun w c =>
    let (chains, membership) := w.chains.schedule key report c.membership
    { w.put key { c with membership } with chains }

/-- Queues every connection for closing. -/
def closeAll (w : Workload δ σ) : Workload δ σ :=
  w.connections.keys.foldl (fun w key => w.modify key fun w c => w.putOn .close key c) w

/-- How many interruptions the scripts of all sockets still hold. -/
def interruptions (w : Workload δ σ) : Nat :=
  w.connections.toList.foldr
    (fun (_, c) others => c.socket.incoming.countP (· = .failure .interrupted)
      + c.socket.outgoing.countP (· = .failure .interrupted) + others) 0

/-- Whether no connection waits to be read or written. -/
def isIdle (w : Workload δ σ) : Bool :=
  w.chains.read.isEmpty && w.chains.write.isEmpty

/-- At most so many rounds of a read pass and a write pass, fewer if nothing is left to do. -/
def rounds : Nat → Workload δ σ → Workload δ σ
  | 0, w => w
  | n + 1, w => if w.isIdle then w else rounds n w.readPass.writePass

/-- Reads and writes until nothing is left to do. A connection comes back on a chain only after an
interruption, so one round more than there are interruptions is enough. -/
def pump (w : Workload δ σ) : Workload δ σ :=
  w.rounds (1 + w.interruptions)

end Workload

end Http2
