import Http2.Proofs.Worker.Visit

/-!
# A worker, task by task

A turn of a worker is many small tasks: it sorts one report, takes a chain for a pass, serves the key at
the front of what it took, admits one connection, and so on. A `Shift` is a worker between two tasks, and
`Round.tasks` lists the tasks of one turn in order; done one after the other they are `Worker.turn`
(`run_tasks`). `Effect` says once what a task can do to a shift: every invariant of workers is proved from
it.
-/

namespace Http2

variable {δ σ : Type}

/-- A worker between two of its tasks. -/
structure Shift (δ σ : Type) where
  worker : Worker δ σ
  /-- The keys that passes have taken off the chains and not yet served. -/
  taken : WorkChains := {}

/-- One thing that a worker does. -/
inductive Task (δ σ : Type) where
  /-- It sorts a readiness report onto the chains. -/
  | sort (key : Nat) (report : Readiness)
  /-- It takes a chain for a pass. -/
  | take (chain : Chain)
  /-- It serves the first of the keys taken off a chain. -/
  | serve (chain : Chain)
  /-- It empties its mailbox. -/
  | fetch
  /-- It hands a connection back that it does not admit. -/
  | handBack (c : Connection δ σ)
  /-- It takes a connection over. -/
  | takeOver (c : Connection δ σ)
  /-- It starts a request on the connection that it is for. -/
  | start (id : ConnectionId) (request : Request δ)
  /-- It pulls the bodies of a connection. -/
  | pull (key : Nat)
  /-- It queues a connection for closing. -/
  | doom (key : Nat)

/-- The connection as it is admitted, with the note that it is connected if that shows. -/
def Connection.welcomed (c : Connection δ σ) : Connection δ σ :=
  if c.socket.peerKnown then c.markConnected else c

/-- The worker with one more connection. -/
def Worker.admitted (w : Worker δ σ) (c : Connection δ σ) : Worker δ σ :=
  let (key, connections) := w.work.connections.insert c
  { work := { w.work with connections }, slots := (c.id, key) :: w.slots }

/-- Serves one key that was taken off a chain. -/
def Worker.serveOne (w : Worker δ σ) (key : Nat) : Chain → Worker δ σ
  | .read => { w with work := w.work.readOne key }
  | .write => { w with work := w.work.writeOne key }
  | .close => (w.release key).1

namespace Shift

/-- The connection in a slot. -/
def at? (s : Shift δ σ) (key : Nat) : Option (Connection δ σ) :=
  s.worker.work.connections.get? key

/-- The keys on a chain, and those taken off it and not yet served. -/
def waiting (s : Shift δ σ) (chain : Chain) : List Nat :=
  WorkChains.waiting s.taken s.worker.work.chains chain

/-- The chains on which the connection in a slot is, as it says itself. -/
def flags (s : Shift δ σ) (key : Nat) : Membership :=
  (s.at? key).elim {} Connection.membership

/-- The shift after a task. -/
def perform (s : Shift δ σ) : Task δ σ → Shift δ σ
  | .sort key report => { s with worker := s.worker.classify key report }
  | .take chain =>
    let (keys, work) := s.worker.work.detach chain
    { worker := { s.worker with work }
      taken := s.taken.assign chain (s.taken.keys chain ++ keys) }
  | .serve chain =>
    match s.taken.keys chain with
    | [] => s
    | key :: rest => { worker := s.worker.serveOne key chain, taken := s.taken.assign chain rest }
  | .fetch => s
  | .handBack _ => s
  | .takeOver c => { s with worker := (s.worker.takeOver c).1 }
  | .start id request => { s with worker := s.worker.startRequest id request }
  | .pull key => { s with worker := { s.worker with work := s.worker.work.advanceOne key } }
  | .doom key =>
    let work := s.worker.work.modify key fun w c => w.putOn .close key c
    { s with worker := { s.worker with work } }

/-- The connections given up in a task. -/
def finished (s : Shift δ σ) : Task δ σ → List (Connection δ σ)
  | .serve .close =>
    match s.taken.close with
    | [] => []
    | key :: _ => (s.worker.release key).2.toList
  | .handBack c => [c]
  | .takeOver c => (s.worker.takeOver c).2.toList
  | _ => []

/-- The slot that a task is about, and what the worker comes there for. -/
def errand? (s : Shift δ σ) : Task δ σ → Option (Nat × Errand δ)
  | .sort key report => some (key, .sort report)
  | .serve .read => s.taken.read.head?.map fun key => (key, .read)
  | .serve .write => s.taken.write.head?.map fun key => (key, .write)
  | .start id request => (s.worker.slot? id).map fun key => (key, .start request)
  | .pull key => some (key, .pull)
  | .doom key => some (key, .doom)
  | _ => none

/-- A task, and the shift just before it. -/
structure Step (δ σ : Type) where
  shift : Shift δ σ
  task : Task δ σ

/-- A turn that a worker gives to a connection. -/
structure Use (δ σ : Type) where
  /-- The connection just before the turn. -/
  connection : Connection δ σ
  turn : Connection.Turn δ σ

namespace Step

/-- The turn given to a connection in a step, if one is given. -/
def use? (x : Step δ σ) : Option (Use δ σ) :=
  match x.shift.errand? x.task with
  | none => none
  | some (key, errand) =>
    (x.shift.at? key).bind fun c =>
      (c.visit key x.shift.worker.work.chains x.shift.worker.work.buffer errand).turn.map (⟨c, ·⟩)

/-- The shift after the step. -/
def next (x : Step δ σ) : Shift δ σ :=
  x.shift.perform x.task

/-- The connections given up in the step. -/
def finished (x : Step δ σ) : List (Connection δ σ) :=
  x.shift.finished x.task

end Step

/-- The shift after any number of tasks. -/
def run (s : Shift δ σ) : List (Task δ σ) → Shift δ σ
  | [] => s
  | task :: tasks => (s.perform task).run tasks

/-- The steps of any number of tasks, in order. -/
def steps (s : Shift δ σ) : List (Task δ σ) → List (Step δ σ)
  | [] => []
  | task :: tasks => ⟨s, task⟩ :: (s.perform task).steps tasks

theorem run_append (s : Shift δ σ) (first second : List (Task δ σ)) :
    s.run (first ++ second) = (s.run first).run second := by
  induction first generalizing s with
  | nil => rfl
  | cons task tasks ih => exact ih (s.perform task)

theorem steps_append (s : Shift δ σ) (first second : List (Task δ σ)) :
    s.steps (first ++ second) = s.steps first ++ (s.run first).steps second := by
  induction first generalizing s with
  | nil => rfl
  | cons task tasks ih => exact congrArg (_ :: ·) (ih (s.perform task))

/-- Each step is about one of the tasks. -/
theorem task_of_mem {s : Shift δ σ} {tasks : List (Task δ σ)} {x : Step δ σ}
    (member : x ∈ s.steps tasks) : x.task ∈ tasks := by
  induction tasks generalizing s with
  | nil => cases member
  | cons task tasks ih =>
    rcases List.mem_cons.mp member with rfl | member
    · exact List.mem_cons_self
    · exact List.mem_cons_of_mem _ (ih member)

/-- What follows a point of a run are the steps of the tasks left there. -/
theorem steps_of_split {s : Shift δ σ} {tasks : List (Task δ σ)} {before after : List (Step δ σ)}
    {x : Step δ σ} (split : s.steps tasks = before ++ x :: after) :
    ∃ left, x.shift.steps left = x :: after := by
  induction tasks generalizing s before with
  | nil => simp [steps] at split
  | cons task tasks ih =>
    cases before with
    | nil =>
      obtain ⟨rfl, rfl⟩ := List.cons.inj split
      exact ⟨task :: tasks, rfl⟩
    | cons y before => exact ih (List.cons.inj split).2

/-- What every step keeps, of the steps so far and the shift that they lead to, holds throughout. -/
theorem steps_rule {P : List (Step δ σ) → Shift δ σ → Prop} {s : Shift δ σ}
    {tasks : List (Task δ σ)} (past : List (Step δ σ)) (start : P past s)
    (keeps : ∀ past, ∀ x ∈ s.steps tasks, P past x.shift → P (past ++ [x]) x.next) :
    (∀ before x after, s.steps tasks = before ++ x :: after → P (past ++ before) x.shift) ∧
      P (past ++ s.steps tasks) (s.run tasks) := by
  induction tasks generalizing s past with
  | nil =>
    refine ⟨fun before x after split => by simp [steps] at split, ?_⟩
    rwa [steps, List.append_nil]
  | cons task tasks ih =>
    have first := keeps past ⟨s, task⟩ List.mem_cons_self start
    obtain ⟨middle, last⟩ := ih (past ++ [⟨s, task⟩]) first fun past x member =>
      keeps past x (List.mem_cons_of_mem _ member)
    refine ⟨fun before x after split => ?_, ?_⟩
    · cases before with
      | nil =>
        obtain ⟨rfl, -⟩ := List.cons.inj split
        rwa [List.append_nil]
      | cons y before =>
        obtain ⟨rfl, later⟩ := List.cons.inj split
        have here := middle before x after later
        rwa [List.append_assoc] at here
    · rwa [List.append_assoc] at last

/-- What every step keeps of the shift holds throughout. -/
theorem steps_keep {P : Shift δ σ → Prop} {s : Shift δ σ} {tasks : List (Task δ σ)} (start : P s)
    (keeps : ∀ x ∈ s.steps tasks, P x.shift → P x.next) :
    (∀ x ∈ s.steps tasks, P x.shift) ∧ P (s.run tasks) := by
  obtain ⟨along, last⟩ := steps_rule (P := fun _ => P) [] start fun _ => keeps
  refine ⟨fun x member => ?_, last⟩
  obtain ⟨before, after, split⟩ := List.append_of_mem member
  exact along before x after split

/-! ## What a task can do -/

/-- What a task can do to a shift. -/
inductive Effect (s : Shift δ σ) : Task δ σ → Shift δ σ → Prop
  /-- The worker visits the connection in a slot. -/
  | visit {t : Task δ σ} {key : Nat} {errand : Errand δ} {c : Connection δ σ} {taken : WorkChains}
      (goes : s.errand? t = some (key, errand)) (found : s.at? key = some c)
      (takes : errand.Takes key s.taken taken) :
      Effect s t
        ⟨s.worker.visited key c (c.visit key s.worker.work.chains s.worker.work.buffer errand), taken⟩
  /-- Nothing is done. -/
  | idle {t : Task δ σ} (unused : (Step.mk s t).use? = none) : Effect s t s
  /-- The slot of a key that was taken off a chain is empty. -/
  | miss {chain : Chain} {key : Nat} {rest : List Nat} (front : s.taken.keys chain = key :: rest)
      (vacant : s.at? key = none) (unused : (Step.mk s (.serve chain)).use? = none) :
      Effect s (.serve chain) { s with taken := s.taken.assign chain rest }
  | take (chain : Chain) :
      Effect s (.take chain)
        { worker := { s.worker with work := (s.worker.work.detach chain).2 }
          taken := s.taken.assign chain (s.taken.keys chain ++ s.worker.work.chains.keys chain) }
  /-- A connection gets a slot. -/
  | takeOver (c : Connection δ σ) :
      Effect s (.takeOver c) { s with worker := s.worker.admitted c.welcomed }
  /-- A connection is given up. -/
  | release {key : Nat} {rest : List Nat} {c : Connection δ σ} {connections : Arena (Connection δ σ)}
      (front : s.taken.close = key :: rest)
      (removed : s.worker.work.connections.remove? key = some (c, connections)) :
      Effect s (.serve .close)
        { worker :=
            { work := { s.worker.work with connections }
              slots := s.worker.slots.filter (·.1 ≠ c.id) }
          taken := s.taken.assign .close rest }

/-- A task that finds its slot empty gives no turn. -/
theorem use?_of_vacant {s : Shift δ σ} {t : Task δ σ} {key : Nat} {errand : Errand δ}
    (goes : s.errand? t = some (key, errand)) (vacant : s.at? key = none) :
    (Step.mk s t).use? = none := by
  simp only [Step.use?, goes, vacant, Option.bind_none]

/-- A task that finds a connection gives it the turn of the visit, if that has one. -/
theorem use?_of_visit {s : Shift δ σ} {t : Task δ σ} {key : Nat} {errand : Errand δ}
    {c : Connection δ σ} (goes : s.errand? t = some (key, errand)) (found : s.at? key = some c) :
    (Step.mk s t).use? =
      (c.visit key s.worker.work.chains s.worker.work.buffer errand).turn.map (⟨c, ·⟩) := by
  simp only [Step.use?, goes, found, Option.bind_some]

/-- A turn is given on an errand, to the connection in the slot that the errand is about. -/
theorem errand_of_use {x : Step δ σ} {u : Use δ σ} (used : x.use? = some u) :
    ∃ key errand, x.shift.errand? x.task = some (key, errand) ∧
      x.shift.at? key = some u.connection ∧
        u.connection.turnFor x.shift.worker.work.buffer errand = some u.turn := by
  obtain ⟨s, t⟩ := x
  cases goes : s.errand? t with
  | none => simp [Step.use?, goes] at used
  | some entry =>
    obtain ⟨key, errand⟩ := entry
    cases found : s.at? key with
    | none => simp [use?_of_vacant goes found] at used
    | some c =>
      rw [use?_of_visit goes found, Connection.turn_visit] at used
      obtain ⟨turn, given, rfl⟩ := Option.map_eq_some_iff.mp used
      exact ⟨key, errand, rfl, found, given⟩

/-- Every task is a visit, a task of the chains or the slots, or nothing. -/
theorem effect (s : Shift δ σ) (t : Task δ σ) : Effect s t (s.perform t) := by
  cases t with
  | sort key report =>
    rw [perform]
    cases found : s.at? key with
    | none =>
      have same : s.worker.classify key report = s.worker := by
        rw [Worker.classify, Workload.modify_of_vacant found, Workload.schedule,
          Workload.modify_of_vacant found]
      rw [same]
      exact .idle (use?_of_vacant rfl found)
    | some c =>
      rw [Worker.classify_eq found]
      exact .visit rfl found rfl
  | take chain => exact .take chain
  | serve chain =>
    rw [perform]
    cases front : s.taken.keys chain with
    | nil =>
      refine .idle ?_
      cases chain <;> simp only [WorkChains.keys] at front <;> simp [Step.use?, errand?, front]
    | cons key rest =>
      cases chain with
      | read =>
        have goes : s.errand? (.serve .read) = some (key, .read) := by
          simp only [WorkChains.keys] at front
          simp [errand?, front]
        cases found : s.at? key with
        | none =>
          simp only [Worker.serveOne, Workload.readOne, Workload.modify_of_vacant found]
          exact .miss front found (use?_of_vacant goes found)
        | some c =>
          simp only [Worker.serveOne, Workload.readOne_eq found]
          exact .visit goes found ⟨rest, front, rfl⟩
      | write =>
        have goes : s.errand? (.serve .write) = some (key, .write) := by
          simp only [WorkChains.keys] at front
          simp [errand?, front]
        cases found : s.at? key with
        | none =>
          simp only [Worker.serveOne, Workload.writeOne, Workload.modify_of_vacant found]
          exact .miss front found (use?_of_vacant goes found)
        | some c =>
          simp only [Worker.serveOne, Workload.writeOne_eq found]
          exact .visit goes found ⟨rest, front, rfl⟩
      | close =>
        simp only [Worker.serveOne, Worker.release]
        cases removed : s.worker.work.connections.remove? key with
        | none => exact .miss front (Arena.remove?_eq_none.mp removed) rfl
        | some found => exact .release front removed
  | fetch => exact .idle rfl
  | handBack c => exact .idle rfl
  | takeOver c =>
    rw [perform, Worker.takeOver]
    cases c.socket.registration with
    | some error => exact .idle rfl
    | none => exact .takeOver c
  | start id request =>
    rw [perform]
    cases known : s.worker.slot? id with
    | none =>
      simp only [Worker.startRequest, known]
      exact .idle (by simp [Step.use?, errand?, known])
    | some key =>
      have goes : s.errand? (.start id request) = some (key, .start request) := by
        simp [errand?, known]
      cases found : s.at? key with
      | none =>
        simp only [Worker.startRequest, known, Workload.modify_of_vacant found]
        exact .idle (use?_of_vacant goes found)
      | some c =>
        rw [Worker.startRequest_eq known found]
        exact .visit goes found rfl
  | pull key =>
    rw [perform]
    cases found : s.at? key with
    | none =>
      rw [Workload.advanceOne, Workload.modify_of_vacant found]
      exact .idle (use?_of_vacant rfl found)
    | some c =>
      rw [Workload.advanceOne_eq found]
      exact .visit rfl found rfl
  | doom key =>
    rw [perform]
    cases found : s.at? key with
    | none =>
      rw [Workload.modify_of_vacant found]
      exact .idle (use?_of_vacant rfl found)
    | some c =>
      rw [Workload.doom_eq found]
      exact .visit rfl found rfl

end Shift

end Http2
