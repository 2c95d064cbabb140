import Http2.Pool.Basic

/-!
# A pool and its peers in one memory

The other end of every socket of the pool is a peer. Peers are numbered in the order in which they
came; a peer whose connection was refused keeps its number. What a peer does reaches the script of
the socket together with the readiness report that the system would give, and `settle` lets all
workers run until nothing more can happen. A connection that the pool has dropped is kept aside, so
that its peer can still read what was written before the end.
-/

namespace Http2

/-- The far end of one socket. -/
structure Peer where
  /-- The connection, unless it was refused. -/
  id : Option ConnectionId
  /-- How many of the bytes written to it the peer has read. -/
  bytesRead : Nat := 0
  deriving DecidableEq, Repr

/-- A pool and its peers. -/
structure Loopback (δ σ : Type) where
  pool : Pool δ σ
  /-- Why no peer can be reached, if so. -/
  unreachable : Option String := none
  peers : List Peer := []
  /-- Readiness reports on their way to the workers. -/
  reports : List (ConnectionId × Readiness) := []
  /-- Connections that the pool has dropped. -/
  dropped : List (Connection δ σ) := []
  /-- Whether the pool is shut down. -/
  ended : Bool := false

namespace Loopback

variable {δ σ : Type}

/-- The connections of a worker, admitted or not. -/
def slotConnections (s : Slot δ σ) : List (Connection δ σ) :=
  s.mailbox.connections ++ s.worker.work.connections.toList.map (·.2)

/-- A connection, wherever it is. -/
def find? (l : Loopback δ σ) (id : ConnectionId) : Option (Connection δ σ) :=
  (l.pool.slots.flatMap slotConnections ++ l.pool.finished ++ l.dropped).find? (·.id = id)

/-- Changes a connection, wherever it is. -/
def modify (l : Loopback δ σ) (id : ConnectionId) (f : Connection δ σ → Connection δ σ) :
    Loopback δ σ :=
  let change := fun c : Connection δ σ => if c.id = id then f c else c
  let inSlot := fun s : Slot δ σ =>
    let worker := s.worker.work.connections.toList.foldl
      (fun w (key, c) => { w with work := w.work.put key (change c) }) s.worker
    { s with worker, mailbox := { s.mailbox with connections := s.mailbox.connections.map change } }
  { l with
    pool := { l.pool with
      slots := l.pool.slots.map inSlot
      finished := l.pool.finished.map change }
    dropped := l.dropped.map change }

/-- Whether this side has closed the socket of a peer. -/
def isClosedFor (l : Loopback δ σ) (peer : Peer) : Bool :=
  match peer.id with
  | none => true
  | some id => l.ended || l.dropped.any (·.id = id)

/-- Whether a connection has a body to be pulled now. -/
def canAdvance (c : Connection δ σ) : Bool :=
  c.hasRequestsInProgress && !c.hasPendingOutput && !c.membership.close

/-- The reports for the admitted connections of a worker, by slot, and the other reports. -/
def reportsFor (l : Loopback δ σ) (w : Worker δ σ) :
    List (Nat × Readiness) × List (ConnectionId × Readiness) :=
  (l.reports.filterMap fun (id, report) => (w.slot? id).map fun key => (key, report),
    l.reports.filter fun (id, _) => (w.slot? id).isNone)

/-- Whether a turn of a worker can make something happen. -/
def isBusy (l : Loopback δ σ) (s : Slot δ σ) : Bool :=
  !s.stopped &&
    (!s.mailbox.connections.isEmpty || !s.mailbox.requests.isEmpty
      || !(l.reportsFor s.worker).1.isEmpty
      || !s.worker.work.isIdle || !s.worker.work.chains.close.isEmpty
      || s.worker.work.connections.toList.any fun (_, c) => canAdvance c)

/-- Whether an application behind a worker has failed. -/
def hasFailed (failed : σ → Bool) (w : Worker δ σ) : Bool :=
  w.work.connections.toList.any fun (_, c) => failed c.endpoint.app

/-- The connections of a dead worker. What its last turn would have written is not written. -/
def wreck (before after : Worker δ σ) : List (Connection δ σ) :=
  after.work.connections.toList.map fun (key, c) =>
    match before.work.connections.get? key with
    | some old => { c with socket := { c.socket with taken := old.socket.taken } }
    | none => c

/-- One turn of a worker. The worker dies if an application behind it fails. -/
def turn (failed : σ → Bool) (l : Loopback δ σ) (index : Nat) (s : Slot δ σ) : Loopback δ σ :=
  let (reports, others) := l.reportsFor s.worker
  let served := s.worker.serve reports
  if hasFailed failed served then
    { l with
      pool := l.pool.crash index
      reports := others
      dropped := l.dropped ++ wreck s.worker served }
  else
    let next := { l with pool := l.pool.runWorker index reports, reports := others }
    match next.pool.slots[index]? with
    | none => next
    | some after =>
      if hasFailed failed after.worker then
        { next with
          pool := next.pool.crash index
          dropped := next.dropped ++ after.worker.work.connections.toList.map (·.2) }
      else
        next

/-- Lets workers run until nothing more can happen, for at most so many turns. -/
def settle (failed : σ → Bool) : Nat → Loopback δ σ → Loopback δ σ
  | 0, l => l
  | turns + 1, l =>
    match (l.pool.slots.mapIdx fun index s => (index, s)).find? fun (_, s) => l.isBusy s with
    | none => l
    | some (index, s) => settle failed turns (l.turn failed index s)

/-- A new peer comes, and its socket is given to the pool. -/
def join (l : Loopback δ σ) (handler : Handler δ σ) (app : σ) :
    Except String (Option ConnectionId × Loopback δ σ) :=
  match l.unreachable with
  | some reason => .error reason
  | none =>
    let (id, pool) := l.pool.place {} handler app
    let reports := id.toList.map fun id => (id, ({ writable := true } : Readiness))
    .ok (id, { l with pool, peers := l.peers ++ [{ id }], reports := l.reports ++ reports })

/-- Something arrives from a peer. -/
def arrive (l : Loopback δ σ) (number : Nat) (steps : List Incoming) (report : Readiness) :
    Loopback δ σ :=
  match l.peers[number]?.bind (·.id) with
  | none => l
  | some id =>
    let arrived := l.modify id fun c =>
      { c with socket := { c.socket with incoming := c.socket.incoming ++ steps } }
    { arrived with reports := arrived.reports ++ [(id, report)] }

/-- A peer sends bytes. -/
def send (l : Loopback δ σ) (number : Nat) (bytes : Bytes) : Loopback δ σ :=
  if bytes.isEmpty then l
  else l.arrive number [.data bytes] { readable := true, writable := true }

/-- A peer closes its sending side. -/
def hangUp (l : Loopback δ σ) (number : Nat) : Loopback δ σ :=
  l.arrive number [.endOfStream] { readable := true, writable := true, readClosed := true }

/-- A peer reads at most `count` frames. The answer says whether the stream ended before that. -/
def readFrames (l : Loopback δ σ) (number count : Nat) :
    Option (List Frame × Bool × Loopback δ σ) :=
  l.peers[number]?.map fun peer =>
    let unread := match peer.id.bind l.find? with
      | none => []
      | some c => c.socket.output.drop peer.bytesRead
    let frames := (({ limit := maxFrameLength } : Assembler).feed unread).frames.take count
    let size := (frames.flatMap Frame.toBytes).length
    (frames, frames.length < count && l.isClosedFor peer,
      { l with peers := l.peers.set number { peer with bytesRead := peer.bytesRead + size } })

/-- The manager reclaims what workers have given up. -/
def reclaim (l : Loopback δ σ) : Nat × Loopback δ σ :=
  let (gone, pool) := l.pool.reclaim
  (gone.length, { l with pool, dropped := l.dropped ++ gone })

/-- The manager shuts the pool down. -/
def shutdown (l : Loopback δ σ) : Loopback δ σ :=
  let (gone, pool) := l.pool.shutdown
  { l with pool, dropped := l.dropped ++ gone, ended := true }

end Loopback

end Http2
