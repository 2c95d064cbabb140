import Http2.Proofs.Connection.History
import Http2.Proofs.Worker.Arena
import Http2.Proofs.Worker.Chain
import Http2.Worker.Basic

/-!
# Visits of a worker to its connections

Whatever a worker does with a connection that it has admitted, it does on an errand: it reads it, writes
it, pulls its bodies, starts a request, notes a report, or dooms it to be closed. A `Worker.Visit` is
the outcome of an errand: the turn that the connection is given, if it is given one at all (`turn_visit`),
and what becomes of the chains. The operations of the worker are these visits (`readOne_eq` and so on), so that
what the turns do not do is not done. A connection that waits to be closed is given no turn
(`visit_of_closing`), and every visit only moves its key (`moves_visit`), so that chains and memberships
go on agreeing.
-/

namespace Http2

variable {δ σ : Type}

/-! ## What turns leave alone -/

namespace Connection

/-- A turn changes neither the name of a connection nor the chains that it is on. -/
theorem place_turn (c : Connection δ σ) (t : Turn δ σ) :
    (c.turn t).id = c.id ∧ (c.turn t).membership = c.membership := by
  cases t with
  | read buffer =>
    obtain ⟨endpoint, socket, health, read⟩ := c.exists_readAvailable buffer
    rw [turn, read]
    exact ⟨rfl, rfl⟩
  | write =>
    obtain ⟨outbound, sending, socket, health, wrote⟩ := c.takeWriteSignal.2.exists_writeLoop
    rw [turn, writePending, wrote]
    exact ⟨rfl, rfl⟩
  | start request =>
    rw [turn, startRequest_eq]
    exact ⟨rfl, rfl⟩
  | pull buffer =>
    obtain ⟨endpoint, inProgress, pulled⟩ := c.exists_pullBodies buffer
    rw [turn, pulled]
    exact ⟨rfl, rfl⟩
  | abandon | deed | meet => exact ⟨rfl, rfl⟩

/-- The connection after the worker gave it a turn, or none. The worker takes the write signal after a
turn in which frames may have been queued. -/
def attend (c : Connection δ σ) : Option (Turn δ σ) → Connection δ σ
  | none => c
  | some .write => c.turn .write
  | some (.meet socket health) => c.turn (.meet socket health)
  | some turn => (c.turn turn).takeWriteSignal.2

theorem id_attend (c : Connection δ σ) (turn : Option (Turn δ σ)) : (c.attend turn).id = c.id := by
  unfold attend
  split
  · rfl
  · exact (c.place_turn .write).1
  · rfl
  · exact (c.place_turn _).1

/-- What is known about a connection once a report about its socket was noted. -/
def healthAfter (c : Connection δ σ) (report : Readiness) : Health :=
  match report.isFatal, c.socket.pendingError with
  | true, some error => ((c.noteReport report).noteError error).health
  | _, _ => (c.noteReport report).health

end Connection

/-! ## Visits -/

/-- What a worker does with a connection in one go. -/
structure Worker.Visit (δ σ : Type) where
  /-- The turn that the connection is given, if it is given one. -/
  turn : Option (Connection.Turn δ σ) := none
  /-- The chains that it is on afterwards, as it says. -/
  membership : Membership
  chains : WorkChains
  buffer : Bytes

namespace Worker.Visit

/-- The connection leaves a chain. -/
def leave (v : Worker.Visit δ σ) (chain : Chain) : Worker.Visit δ σ :=
  { v with membership := v.membership.remove chain }

/-- The connection comes back on a chain that its membership never left. -/
def stay (v : Worker.Visit δ σ) (key : Nat) (chain : Chain) : Worker.Visit δ σ :=
  { v with chains := v.chains.relink chain key }

/-- The connection joins a chain unless it is there. -/
def join (v : Worker.Visit δ σ) (key : Nat) (chain : Chain) : Worker.Visit δ σ :=
  let (chains, membership) := v.chains.enqueue chain key v.membership
  { v with chains, membership }

end Worker.Visit

/-- What a worker comes to a connection for. -/
inductive Errand (δ : Type) where
  | read
  | write
  | pull
  | start (request : Request δ)
  /-- To note a readiness report and sort the connection onto the chains. -/
  | sort (report : Readiness)
  /-- To queue it for closing. -/
  | doom

/-- The chain whose front the worker serves on an errand. -/
def Errand.chain? : Errand δ → Option Chain
  | .read => some .read
  | .write => some .write
  | _ => none

namespace Connection

/-- The connection after a visit. -/
def visited (c : Connection δ σ) (v : Worker.Visit δ σ) : Connection δ σ :=
  { c.attend v.turn with membership := v.membership }

@[simp] theorem id_visited (c : Connection δ σ) (v : Worker.Visit δ σ) : (c.visited v).id = c.id :=
  c.id_attend v.turn

variable (c : Connection δ σ) (key : Nat) (chains : WorkChains) (buffer : Bytes)

/-- A visit in which the connection is given no turn. -/
def idleVisit : Worker.Visit δ σ :=
  { membership := c.membership, chains, buffer }

/-- A visit with a turn in which frames may be queued. If some were, the connection joins the write
chain. -/
def busyVisit (turn : Turn δ σ) : Worker.Visit δ σ :=
  let visit : Worker.Visit δ σ := { turn := some turn, membership := c.membership, chains, buffer }
  if (c.turn turn).codec.writeSignal then visit.join key .write else visit

/-- A visit for reading. -/
def readVisit : Worker.Visit δ σ :=
  if c.membership.close then
    (c.idleVisit chains buffer).leave .read
  else
    let result := c.readAvailable buffer
    let visit := c.busyVisit key chains result.buffer (.read buffer)
    match result.outcome with
    | .drained => visit.leave .read
    | .interrupted => visit.stay key .read
    | .closed => (visit.leave .read).join key .close

/-- A visit for writing. -/
def writeVisit : Worker.Visit δ σ :=
  if c.membership.close then
    (c.idleVisit chains buffer).leave .write
  else
    let visit : Worker.Visit δ σ := { turn := some .write, membership := c.membership, chains, buffer }
    match c.writePending.outcome with
    | .flushed | .blocked => visit.leave .write
    | .interrupted => visit.stay key .write
    | .closed => (visit.leave .write).join key .close

/-- A visit for pulling bodies. -/
def pullVisit : Worker.Visit δ σ :=
  if !c.hasRequestsInProgress || c.hasPendingOutput || c.membership.close then
    c.idleVisit chains buffer
  else
    c.busyVisit key chains (c.pullBodies buffer).2 (.pull buffer)

/-- A visit for starting a request. -/
def startVisit (request : Request δ) : Worker.Visit δ σ :=
  if c.membership.close then
    c.idleVisit chains buffer
  else
    c.busyVisit key chains buffer (.start request)

/-- A visit with a report. -/
def sortVisit (report : Readiness) : Worker.Visit δ σ :=
  let (chains, membership) := chains.schedule key report c.membership
  { turn := some (.meet c.socket (c.healthAfter report)), membership, chains, buffer }

/-- A visit on any errand. -/
def visit : Errand δ → Worker.Visit δ σ
  | .read => c.readVisit key chains buffer
  | .write => c.writeVisit key chains buffer
  | .pull => c.pullVisit key chains buffer
  | .start request => c.startVisit key chains buffer request
  | .sort report => c.sortVisit key chains buffer report
  | .doom => (c.idleVisit chains buffer).join key .close

end Connection

/-! ## The operations of a worker are visits -/

namespace Workload

variable {w : Workload δ σ} {key : Nat} {c : Connection δ σ} {v : Worker.Visit δ σ}

/-- The workload after a visit. -/
def visited (w : Workload δ σ) (key : Nat) (c : Connection δ σ) (v : Worker.Visit δ σ) :
    Workload δ σ where
  connections := w.connections.put key (c.visited v)
  chains := v.chains
  buffer := v.buffer

/-- What is done to a slot is done to the connection in it. -/
theorem modify_of_found (found : w.connections.get? key = some c)
    (f : Workload δ σ → Connection δ σ → Workload δ σ) : w.modify key f = f w c := by
  rw [modify, found]

theorem modify_of_vacant (vacant : w.connections.get? key = none)
    (f : Workload δ σ → Connection δ σ → Workload δ σ) : w.modify key f = w := by
  rw [modify, vacant]

/-- What is in the visited slot afterwards. -/
theorem get?_visited (w : Workload δ σ) (key : Nat) (c : Connection δ σ) (v : Worker.Visit δ σ) :
    (w.visited key c v).connections.get? key = some (c.visited v) :=
  w.connections.get?_put_self key _

/-- A visit without a turn changes nothing. -/
theorem visited_idle (found : w.connections.get? key = some c) :
    w.visited key c (c.idleVisit w.chains w.buffer) = w := by
  have same : w.connections.put key c = w.connections := by
    refine Arena.ext_get? (fun other => ?_) rfl rfl
    rw [Arena.get?_put]
    split
    · subst other
      exact found.symm
    · rfl
  exact congrArg (fun connections => { w with connections }) same

/-- To put a connection off a chain after a visit is a visit that leaves the chain. -/
theorem visited_leave (chain : Chain) :
    (w.visited key c v).modify key (fun w c => w.putOff chain key c) =
      w.visited key c (v.leave chain) := by
  rw [modify_of_found (w.get?_visited key c v)]
  simp only [putOff, put, visited, Connection.visited, Arena.put_put, Worker.Visit.leave]

/-- To retire a connection after a visit is a visit that leaves the chain for the close chain. -/
theorem visited_retire (chain : Chain) :
    (w.visited key c v).retire chain key = w.visited key c ((v.leave chain).join key .close) := by
  rw [retire, modify_of_found (w.get?_visited key c v)]
  simp only [putOn, put, visited, Connection.visited, Arena.put_put, Worker.Visit.join,
    Worker.Visit.leave]

/-- Storing a connection after its callbacks ends a visit that the write signal decides. -/
theorem putSignalled_eq (w : Workload δ σ) (key : Nat) (c : Connection δ σ)
    (turn : Connection.Turn δ σ) (buffer : Bytes)
    (attended : c.attend (some turn) = (c.turn turn).takeWriteSignal.2) :
    ({ w with buffer } : Workload δ σ).putSignalled key (c.turn turn) =
      w.visited key c (c.busyVisit key w.chains buffer turn) := by
  have place := (c.place_turn turn).2
  have signal : (c.turn turn).takeWriteSignal.1 = (c.turn turn).codec.writeSignal := rfl
  have membership : (c.turn turn).takeWriteSignal.2.membership = c.membership := place
  simp only [putSignalled, signal, Connection.busyVisit]
  split
  · simp only [putOn, put, visited, Connection.visited, Worker.Visit.join, attended, membership]
  · simp only [put, visited, Connection.visited, attended, ← membership]

/-- Reading the connection in a slot is visiting it for reading. -/
theorem readOne_eq (found : w.connections.get? key = some c) :
    w.readOne key = w.visited key c (c.visit key w.chains w.buffer .read) := by
  rw [readOne, modify_of_found found, Connection.visit, Connection.readVisit]
  split
  · rfl
  · have signalled := putSignalled_eq w key c (.read w.buffer) (c.readAvailable w.buffer).buffer rfl
    simp only [Connection.turn] at signalled
    simp only [signalled]
    cases (c.readAvailable w.buffer).outcome with
    | drained => exact visited_leave .read
    | interrupted => rfl
    | closed => exact visited_retire .read

/-- Writing the connection in a slot is visiting it for writing. -/
theorem writeOne_eq (found : w.connections.get? key = some c) :
    w.writeOne key = w.visited key c (c.visit key w.chains w.buffer .write) := by
  rw [writeOne, modify_of_found found, Connection.visit, Connection.writeVisit]
  split
  · rfl
  · have stored : w.put key c.writePending.connection = w.visited key c
        { turn := some .write, membership := c.membership, chains := w.chains
          buffer := w.buffer } := by
      have place : c.writePending.connection.membership = c.membership :=
        (c.place_turn .write).2
      rw [← place]
      rfl
    simp only [stored]
    cases c.writePending.outcome with
    | flushed | blocked => exact visited_leave .write
    | interrupted => rfl
    | closed => exact visited_retire .write

/-- Pulling the bodies of the connection in a slot is visiting it for pulling. -/
theorem advanceOne_eq (found : w.connections.get? key = some c) :
    w.advanceOne key = w.visited key c (c.visit key w.chains w.buffer .pull) := by
  rw [advanceOne, modify_of_found found, Connection.visit, Connection.pullVisit]
  split
  · exact (visited_idle found).symm
  · exact putSignalled_eq w key c (.pull w.buffer) _ rfl

/-- Queueing one connection for closing is a visit. -/
theorem doom_eq (found : w.connections.get? key = some c) :
    (w.modify key fun w c => w.putOn .close key c) =
      w.visited key c (c.visit key w.chains w.buffer .doom) := by
  rw [modify_of_found found]
  rfl

end Workload

namespace Worker

variable {w : Worker δ σ} {key : Nat} {c : Connection δ σ}

/-- The worker after a visit. -/
def visited (w : Worker δ σ) (key : Nat) (c : Connection δ σ) (v : Worker.Visit δ σ) : Worker δ σ :=
  { w with work := w.work.visited key c v }

/-- Starting a request on a known connection is visiting it for that. -/
theorem startRequest_eq {id : ConnectionId} (known : w.slot? id = some key)
    (found : w.work.connections.get? key = some c) (request : Request δ) :
    w.startRequest id request =
      w.visited key c (c.visit key w.work.chains w.work.buffer (.start request)) := by
  simp only [startRequest, known, Workload.modify_of_found found, Connection.visit,
    Connection.startVisit, visited]
  split
  · rw [Workload.visited_idle found]
  · exact congrArg (fun work => { w with work })
      (Workload.putSignalled_eq w.work key c (.start request) w.work.buffer rfl)

/-- Sorting a report is visiting the connection that it is about. -/
theorem classify_eq (found : w.work.connections.get? key = some c) (report : Readiness) :
    w.classify key report =
      w.visited key c (c.visit key w.work.chains w.work.buffer (.sort report)) := by
  have noted : w.classify key report =
      { w with work :=
          (w.work.put key { c with health := c.healthAfter report }).schedule key report } := by
    have same : (c.noteReport report).socket.pendingError = c.socket.pendingError := rfl
    rw [classify, Workload.modify_of_found found, Connection.healthAfter]
    simp only [same]
    cases report.isFatal with
    | false => rfl
    | true => cases c.socket.pendingError <;> rfl
  rw [noted, Workload.schedule, Workload.modify_of_found (w.work.connections.get?_put_self key _)]
  simp only [Workload.put, visited, Workload.visited, Connection.visited, Arena.put_put,
    Connection.visit, Connection.sortVisit, Connection.attend, Connection.turn]

end Worker

/-! ## Connections that wait to be closed -/

namespace WorkChains

variable (chains : WorkChains) (key : Nat)

/-- Sorting takes no chain out of a membership. -/
theorem contains_schedule (report : Readiness) {m : Membership} (chain : Chain)
    (set : m.contains chain = true) : (chains.schedule key report m).2.contains chain = true := by
  unfold schedule
  split
  · simp [contains_enqueue, set]
  · simp only
    split <;> split <;> simp [contains_enqueue, set]

end WorkChains

/-- The worker takes a key off the chain that its errand is for, and off no other. -/
def Errand.Takes (errand : Errand δ) (key : Nat) (taken taken' : WorkChains) : Prop :=
  match errand.chain? with
  | none => taken' = taken
  | some chain => ∃ rest, taken.keys chain = key :: rest ∧ taken' = taken.assign chain rest

namespace Connection

variable {c : Connection δ σ} {key : Nat} {chains taken : WorkChains} {buffer : Bytes}

/-- A connection that waits to be closed goes on waiting, and it is given no turn, apart from what a
report says about its socket. -/
theorem visit_of_closing (closing : c.membership.close = true) (key : Nat) (chains : WorkChains)
    (buffer : Bytes) (errand : Errand δ) :
    (c.visit key chains buffer errand).membership.close = true ∧
      ((c.visit key chains buffer errand).turn = none ∨
        ∃ health, (c.visit key chains buffer errand).turn = some (.meet c.socket health)) := by
  cases errand with
  | read =>
    rw [visit, readVisit, if_pos closing]
    exact ⟨closing, .inl rfl⟩
  | write =>
    rw [visit, writeVisit, if_pos closing]
    exact ⟨closing, .inl rfl⟩
  | pull =>
    rw [visit, pullVisit, if_pos (by simp [closing])]
    exact ⟨closing, .inl rfl⟩
  | start request =>
    rw [visit, startVisit, if_pos closing]
    exact ⟨closing, .inl rfl⟩
  | sort report =>
    exact ⟨chains.contains_schedule key report .close closing, .inr ⟨_, rfl⟩⟩
  | doom =>
    have waits := chains.contains_enqueue .close key c.membership .close
    rw [show c.membership.contains .close = true from closing, Bool.or_true] at waits
    exact ⟨waits, .inl rfl⟩

/-! ## What visits do to the chains -/

/-- A busy visit gives its turn. -/
theorem turn_busyVisit {turn : Turn δ σ} :
    (c.busyVisit key chains buffer turn).turn = some turn := by
  unfold busyVisit
  split <;> rfl

/-- The turn that a worker gives to a connection, as it comes for this. -/
def turnFor (c : Connection δ σ) (buffer : Bytes) : Errand δ → Option (Turn δ σ)
  | .read => if c.membership.close then none else some (.read buffer)
  | .write => if c.membership.close then none else some .write
  | .pull =>
    if !c.hasRequestsInProgress || c.hasPendingOutput || c.membership.close then none
    else some (.pull buffer)
  | .start request => if c.membership.close then none else some (.start request)
  | .sort report => some (.meet c.socket (c.healthAfter report))
  | .doom => none

/-- The turn that a visit gives depends on what the worker comes for, and not on the chains. -/
theorem turn_visit (errand : Errand δ) :
    (c.visit key chains buffer errand).turn = c.turnFor buffer errand := by
  cases errand with
  | read =>
    rw [visit, readVisit, turnFor]
    split
    · rfl
    · simp only
      split <;> exact turn_busyVisit
  | write =>
    rw [visit, writeVisit, turnFor]
    split
    · rfl
    · simp only
      split <;> rfl
  | pull =>
    rw [visit, pullVisit, turnFor]
    split
    · rfl
    · exact turn_busyVisit
  | start request =>
    rw [visit, startVisit, turnFor]
    split
    · rfl
    · exact turn_busyVisit
  | sort | doom => rfl

open WorkChains (Moves)

/-- In a busy visit, the key is queued for writing or stays as it is. -/
theorem moves_busyVisit (c : Connection δ σ) (key : Nat) (taken chains : WorkChains)
    (buffer : Bytes) (turn : Turn δ σ) :
    Moves key ⟨taken, chains, c.membership⟩
      ⟨taken, (c.busyVisit key chains buffer turn).chains,
        (c.busyVisit key chains buffer turn).membership⟩ := by
  unfold busyVisit
  split
  · exact .enqueue ⟨taken, chains, c.membership⟩ .write
  · exact .refl _

/-- A visit moves its key, counting the key as taken off the chain that it comes from. -/
theorem moves_visit (c : Connection δ σ) (chains : WorkChains) (buffer : Bytes) (errand : Errand δ)
    {taken' : WorkChains} (takes : errand.Takes key taken taken') :
    Moves key ⟨taken, chains, c.membership⟩
      ⟨taken', (c.visit key chains buffer errand).chains,
        (c.visit key chains buffer errand).membership⟩ := by
  cases errand with
  | read =>
    obtain ⟨rest, front, rfl⟩ := takes
    rw [visit, readVisit]
    split
    · exact .leave front
    · have busy := c.moves_busyVisit key taken chains (c.readAvailable buffer).buffer (.read buffer)
      simp only
      split
      · exact busy.trans (.leave front)
      · exact busy.trans (.stay front)
      · exact (busy.trans (.leave front)).trans (.enqueue _ .close)
  | write =>
    obtain ⟨rest, front, rfl⟩ := takes
    rw [visit, writeVisit]
    split
    · exact .leave front
    · simp only
      split
      · exact .leave front
      · exact .leave front
      · exact .stay front
      · exact (Moves.leave front).trans (.enqueue _ .close)
  | pull =>
    obtain rfl : taken' = taken := takes
    rw [visit, pullVisit]
    split
    · exact .refl _
    · exact c.moves_busyVisit key _ chains _ _
  | start request =>
    obtain rfl : taken' = taken := takes
    rw [visit, startVisit]
    split
    · exact .refl _
    · exact c.moves_busyVisit key _ chains _ _
  | sort report =>
    obtain rfl : taken' = taken := takes
    exact .schedule ⟨taken', chains, c.membership⟩ report
  | doom =>
    obtain rfl : taken' = taken := takes
    exact .enqueue ⟨taken', chains, c.membership⟩ .close

end Connection

end Http2
