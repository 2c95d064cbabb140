import Http2.Worker.Workload

/-!
# Workers

A worker owns a workload and knows in which slot each of its connections is. The manager of the pool
reaches it only through a mailbox. One turn of a worker sorts the readiness reports onto the chains,
reads and writes until nothing is left to do, takes its mail once, pulls request bodies, and gives up
the connections that wait to be closed.
-/

namespace Http2

/-- What the manager has sent to a worker and the worker has not yet taken. -/
structure Mailbox (δ σ : Type) where
  connections : List (Connection δ σ) := []
  requests : List (ConnectionId × Request δ) := []

/-- One worker. -/
structure Worker (δ σ : Type) where
  work : Workload δ σ := {}
  /-- The slot of each admitted connection. -/
  slots : List (ConnectionId × Nat) := []

namespace Worker

variable {δ σ : Type}

/-- The worker with no connections and a buffer of so many bytes. -/
def idle (bufferSize : Nat) : Worker δ σ where
  work := { buffer := List.replicate bufferSize 0 }

/-- The slot of a connection. -/
def slot? (w : Worker δ σ) (id : ConnectionId) : Option Nat :=
  (w.slots.find? (·.1 = id)).map (·.2)

/-- Sorts one readiness report onto the chains. A report for a free slot is stale and dropped. -/
def classify (w : Worker δ σ) (key : Nat) (report : Readiness) : Worker δ σ :=
  let noted := w.work.modify key fun work c =>
    let c := c.noteReport report
    match report.isFatal, c.socket.pendingError with
    | true, some error => work.put key (c.noteError error)
    | _, _ => work.put key c
  { w with work := noted.schedule key report }

/-- Sorts all reports of one wait, then reads and writes until nothing is left to do. -/
def serve (w : Worker δ σ) (reports : List (Nat × Readiness)) : Worker δ σ :=
  let w := reports.foldl (fun w (key, report) => w.classify key report) w
  { w with work := w.work.pump }

/-- Takes over one connection. If readiness reports cannot be had for its socket, the connection is
handed back. -/
def takeOver (w : Worker δ σ) (c : Connection δ σ) : Worker δ σ × Option (Connection δ σ) :=
  match c.socket.registration with
  | some error => (w, some (c.noteError error))
  | none =>
    let c := if c.socket.peerKnown then c.markConnected else c
    let (key, connections) := w.work.connections.insert c
    ({ work := { w.work with connections }, slots := (c.id, key) :: w.slots }, none)

/-- Starts a request on the connection it names, unless that one is gone or waits to be closed. -/
def startRequest (w : Worker δ σ) (id : ConnectionId) (request : Request δ) : Worker δ σ :=
  match w.slot? id with
  | none => w
  | some key =>
    { w with work := w.work.modify key fun work c =>
        if c.membership.close then work
        else work.putSignalled key (c.startRequest request).2 }

/-- Takes the mail: admits the connections in order, then starts the requests in order. The answer
holds the connections handed back. -/
def takeMail (w : Worker δ σ) (mail : Mailbox δ σ) : Worker δ σ × List (Connection δ σ) :=
  let (w, refused) := mail.connections.foldl (fun (w, refused) c =>
    let (w, back) := w.takeOver c
    (w, refused ++ back.toList)) (w, [])
  (mail.requests.foldl (fun w (id, request) => w.startRequest id request) w, refused)

/-- Pulls request bodies. -/
def advance (w : Worker δ σ) : Worker δ σ :=
  { w with work := w.work.advance }

/-- Queues every connection for closing. -/
def closeAll (w : Worker δ σ) : Worker δ σ :=
  { w with work := w.work.closeAll }

/-- Gives up one connection and frees its slot. -/
def release (w : Worker δ σ) (key : Nat) : Worker δ σ × Option (Connection δ σ) :=
  match w.work.connections.remove? key with
  | none => (w, none)
  | some (c, connections) =>
    ({ work := { w.work with connections }, slots := w.slots.filter (·.1 ≠ c.id) },
      some { c with membership := {}, inProgress := [] })

/-- Gives up every connection on the close chain, in order. -/
def releaseClosed (w : Worker δ σ) : Worker δ σ × List (Connection δ σ) :=
  let (keys, work) := w.work.detach .close
  keys.foldl (fun (w, released) key =>
    let (w, gone) := w.release key
    (w, released ++ gone.toList)) ({ w with work }, [])

/-- What one turn of a worker gave. -/
structure Turn (δ σ : Type) where
  worker : Worker δ σ
  /-- The connections given up, in order. -/
  finished : List (Connection δ σ)

/-- One turn. A worker told to quit admits nothing more and gives up all it has. -/
def turn (w : Worker δ σ) (reports : List (Nat × Readiness)) (mail : Mailbox δ σ) (quit : Bool) :
    Turn δ σ :=
  let w := w.serve reports
  if quit then
    let (w, released) := w.advance.closeAll.releaseClosed
    { worker := w, finished := mail.connections ++ released }
  else
    let (w, refused) := w.takeMail mail
    let (w, released) := w.advance.releaseClosed
    { worker := w, finished := refused ++ released }

end Worker

end Http2
