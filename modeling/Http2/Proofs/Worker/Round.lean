import Http2.Proofs.Worker.Shift

/-!
# The tasks of a turn

What comes to a worker for one turn is a `Round`: the readiness reports, the mail, whether it is told to
quit, and whether waiting for the reports failed. `Round.tasks` lists what the worker then does, in order.
Its passes are the passes of the workload (`run_pass`), and all tasks together are `Worker.turn`
(`run_tasks`).
-/

namespace Http2

variable {δ σ : Type}

/-- What comes to a worker for one turn. -/
structure Round (δ σ : Type) where
  reports : List (Nat × Readiness) := []
  mail : Mailbox δ σ := {}
  /-- The worker is told to quit. -/
  quit : Bool := false
  /-- Waiting for reports failed, which ends the worker too. -/
  failed : Bool := false

namespace Shift

variable (s : Shift δ σ)

/-- The tasks of one pass over a chain. -/
def passTasks (chain : Chain) : List (Task δ σ) :=
  .take chain :: List.replicate (s.worker.work.chains.keys chain).length (.serve chain)

/-- The tasks of a read pass and a write pass after it. -/
def bothPasses : List (Task δ σ) :=
  s.passTasks .read ++ (s.run (s.passTasks .read)).passTasks .write

/-- The tasks of at most so many rounds of passes, fewer if nothing is left to do. -/
def pumpTasks : Nat → Shift δ σ → List (Task δ σ)
  | 0, _ => []
  | n + 1, s =>
    if s.worker.work.isIdle then [] else s.bothPasses ++ pumpTasks n (s.run s.bothPasses)

/-- The connections given up in a number of tasks, in order. -/
def gaveUp (tasks : List (Task δ σ)) : List (Connection δ σ) :=
  (s.steps tasks).flatMap Step.finished

end Shift

namespace Round

variable (r : Round δ σ) (s : Shift δ σ)

/-- Whether the worker stops after this turn. -/
def ends : Bool :=
  r.quit || r.failed

/-- The tasks of sorting the reports. -/
def sorting : List (Task δ σ) :=
  r.reports.map fun (key, report) => .sort key report

/-- The tasks up to the point where the mail is fetched: sorting the reports, and passes until nothing is
left to read or write. -/
def early : List (Task δ σ) :=
  let sorted := s.run r.sorting
  r.sorting ++ sorted.pumpTasks (1 + sorted.worker.work.interruptions)

/-- The tasks that the mail calls for. -/
def mailing : List (Task δ σ) :=
  if r.quit then
    r.mail.connections.map .handBack
  else
    r.mail.connections.map .takeOver ++ r.mail.requests.map fun entry => .start entry.1 entry.2

/-- The tasks of pulling the bodies of all connections. -/
def pulling : List (Task δ σ) :=
  s.worker.work.connections.keys.map .pull

/-- The tasks of queueing all connections for closing, if the worker stops. -/
def dooming : List (Task δ σ) :=
  if r.ends then s.worker.work.connections.keys.map .doom else []

/-- The tasks from the mail up to where the close chain is taken. -/
def middle : List (Task δ σ) :=
  let mailed := s.run (.fetch :: r.mailing)
  let pulled := mailed.run (pulling mailed)
  .fetch :: r.mailing ++ pulling mailed ++ r.dooming pulled

/-- The tasks of one turn, in order. -/
def tasks : List (Task δ σ) :=
  let pumped := s.run (r.early s)
  let closing := pumped.run (r.middle pumped)
  r.early s ++ r.middle pumped ++ closing.passTasks .close

end Round

/-! ## The tasks are the turn -/

namespace WorkChains

@[simp] theorem assign_assign (chains : WorkChains) (chain : Chain) (first second : List Nat) :
    (chains.assign chain first).assign chain second = chains.assign chain second := by
  cases chain <;> rfl

@[simp] theorem assign_keys (chains : WorkChains) (chain : Chain) :
    chains.assign chain (chains.keys chain) = chains := by
  cases chain <;> rfl

end WorkChains

namespace Shift

variable {s : Shift δ σ} {w : Worker δ σ}

theorem gaveUp_append (s : Shift δ σ) (first second : List (Task δ σ)) :
    s.gaveUp (first ++ second) = s.gaveUp first ++ (s.run first).gaveUp second := by
  rw [gaveUp, steps_append, List.flatMap_append]
  rfl

theorem gaveUp_cons (s : Shift δ σ) (t : Task δ σ) (tasks : List (Task δ σ)) :
    s.gaveUp (t :: tasks) = s.finished t ++ (s.perform t).gaveUp tasks :=
  List.flatMap_cons

/-- Serving the keys taken off a chain, one after the other. -/
theorem run_serve {chain : Chain} {keys : List Nat} (front : s.taken.keys chain = keys) :
    s.run (List.replicate keys.length (.serve chain)) =
      { worker := keys.foldl (fun w key => w.serveOne key chain) s.worker
        taken := s.taken.assign chain [] } := by
  induction keys generalizing s with
  | nil =>
    rw [← front, WorkChains.assign_keys]
    simp [run, front]
  | cons key rest ih =>
    have served : s.perform (.serve chain) =
        { worker := s.worker.serveOne key chain, taken := s.taken.assign chain rest } := by
      simp only [perform, front]
    rw [List.length_cons, List.replicate_succ, run, served, ih (by simp)]
    simp

/-- A pass serves the keys that are on its chain. -/
theorem run_pass (chain : Chain) (idle : s.taken.keys chain = []) :
    s.run (s.passTasks chain) =
      { worker := (s.worker.work.chains.keys chain).foldl (fun w key => w.serveOne key chain)
          { s.worker with work := (s.worker.work.detach chain).2 }
        taken := s.taken } := by
  have taken : (s.perform (.take chain)).taken.keys chain = s.worker.work.chains.keys chain := by
    simp [perform, Workload.detach, WorkChains.detach, idle]
  rw [passTasks, run, run_serve taken]
  simp only [perform, Workload.detach, WorkChains.detach, WorkChains.assign_assign]
  rw [← idle, WorkChains.assign_keys]

/-- What changes only the work of a worker, time after time, is done to the work. -/
theorem foldl_work {α : Type} (f : Workload δ σ → α → Workload δ σ) (as : List α) (w : Worker δ σ) :
    as.foldl (fun w a => { w with work := f w.work a }) w = { w with work := as.foldl f w.work } := by
  induction as generalizing w with
  | nil => rfl
  | cons a as ih => exact ih _

/-- The tasks of a read pass and a write pass do what the two passes do. -/
theorem run_bothPasses (rested : s.taken = {}) :
    s.run s.bothPasses =
      { s with worker := { s.worker with work := s.worker.work.readPass.writePass } } := by
  have reading := run_pass (s := s) .read (by simp [rested])
  have read := foldl_work Workload.readOne (s.worker.work.chains.keys .read)
    { s.worker with work := (s.worker.work.detach .read).2 }
  have passed : s.run (s.passTasks .read) =
      { s with worker := { s.worker with work := s.worker.work.readPass } } :=
    reading.trans (congrArg (Shift.mk · s.taken) read)
  have writing := run_pass (s := s.run (s.passTasks .read)) .write (by simp [passed, rested])
  rw [bothPasses, run_append, writing, passed]
  exact congrArg (Shift.mk · s.taken) (foldl_work Workload.writeOne _ _)

/-- The tasks of pumping do what the rounds of passes do. -/
theorem run_pumpTasks (n : Nat) (rested : s.taken = {}) :
    s.run (s.pumpTasks n) =
      { s with worker := { s.worker with work := s.worker.work.rounds n } } := by
  induction n generalizing s with
  | zero => rfl
  | succ n ih =>
    rw [pumpTasks, Workload.rounds]
    split
    · rfl
    · have passed := run_bothPasses rested
      rw [run_append, ih (by rw [passed, rested]), passed]

/-- Tasks of one kind, one after the other, of which each only changes the worker. -/
theorem run_map {α : Type} {f : α → Task δ σ} {g : Worker δ σ → α → Worker δ σ}
    (each : ∀ (s : Shift δ σ) a, s.perform (f a) = { s with worker := g s.worker a })
    (quiet : ∀ (s : Shift δ σ) a, s.finished (f a) = []) (as : List α) (s : Shift δ σ) :
    s.run (as.map f) = { s with worker := as.foldl g s.worker } ∧ s.gaveUp (as.map f) = [] := by
  induction as generalizing s with
  | nil => exact ⟨rfl, rfl⟩
  | cons a as ih =>
    obtain ⟨rest, nobody⟩ := ih { s with worker := g s.worker a }
    constructor
    · rw [List.map_cons, run, each]
      exact rest
    · rw [List.map_cons, gaveUp_cons, quiet, each]
      exact nobody

/-- The tasks of sorting do what sorting one report after the other does. -/
theorem run_sorting (r : Round δ σ) (s : Shift δ σ) :
    s.run r.sorting =
      { s with worker := r.reports.foldl (fun w (key, report) => w.classify key report) s.worker } :=
  (run_map (fun _ _ => rfl) (fun _ _ => rfl) r.reports s).1

/-- The tasks before the mail are `Worker.serve`. -/
theorem run_early (r : Round δ σ) (rested : s.taken = {}) :
    s.run (r.early s) = { s with worker := s.worker.serve r.reports } := by
  have sorted := run_sorting r s
  rw [Round.early, run_append, run_pumpTasks _ (by rw [sorted, rested]), sorted]
  rfl

/-- Admitting connections, one after the other. -/
theorem run_admits (cs : List (Connection δ σ)) (s : Shift δ σ) (before : List (Connection δ σ)) :
    cs.foldl (fun (w, refused) c =>
        let (w, back) := w.takeOver c
        (w, refused ++ back.toList)) (s.worker, before) =
      ((s.run (cs.map .takeOver)).worker, before ++ s.gaveUp (cs.map .takeOver)) ∧
    (s.run (cs.map .takeOver)).taken = s.taken := by
  induction cs generalizing s before with
  | nil => exact ⟨congrArg (_, ·) (List.append_nil before).symm, rfl⟩
  | cons c cs ih =>
    obtain ⟨rest, taken⟩ := ih (s.perform (.takeOver c)) (before ++ s.finished (.takeOver c))
    refine ⟨?_, taken⟩
    rw [List.map_cons, gaveUp_cons, ← List.append_assoc]
    exact rest

/-- The tasks of starting requests do what starting one after the other does, and give up nothing. -/
theorem run_starts (requests : List (ConnectionId × Request δ)) (s : Shift δ σ) :
    let starts : List (Task δ σ) := requests.map fun entry => .start entry.1 entry.2
    s.run starts =
        { s with worker :=
            requests.foldl (fun w (id, request) => w.startRequest id request) s.worker } ∧
      s.gaveUp starts = [] :=
  run_map (fun _ _ => rfl) (fun _ _ => rfl) requests s

/-- The tasks that pull bodies are `Worker.advance`. -/
theorem run_pulling (s : Shift δ σ) :
    s.run (Round.pulling s) = { s with worker := s.worker.advance } ∧
      s.gaveUp (Round.pulling s) = [] := by
  have pulled := run_map (δ := δ) (σ := σ) (f := .pull)
    (g := fun w key => { w with work := w.work.advanceOne key }) (fun _ _ => rfl) (fun _ _ => rfl)
    s.worker.work.connections.keys s
  rw [foldl_work] at pulled
  exact pulled

/-- The tasks that queue for closing are `Worker.closeAll`, if the worker stops. -/
theorem run_dooming (r : Round δ σ) (s : Shift δ σ) :
    s.run (r.dooming s) = { s with worker := if r.ends then s.worker.closeAll else s.worker } ∧
      s.gaveUp (r.dooming s) = [] := by
  unfold Round.dooming
  split
  · have doomed := run_map (δ := δ) (σ := σ) (f := .doom)
      (g := fun w key =>
        { w with work := w.work.modify key fun work c => work.putOn .close key c })
      (fun _ _ => rfl) (fun _ _ => rfl) s.worker.work.connections.keys s
    rw [foldl_work (fun work key => work.modify key fun work c => work.putOn .close key c)] at doomed
    exact doomed
  · exact ⟨rfl, rfl⟩

/-- To hand connections back is to give up those, in order, and nothing else. -/
theorem run_handBacks (cs : List (Connection δ σ)) (s : Shift δ σ) :
    s.run (cs.map .handBack) = s ∧ s.gaveUp (cs.map .handBack) = cs := by
  induction cs with
  | nil => exact ⟨rfl, rfl⟩
  | cons c cs ih => exact ⟨ih.1, (gaveUp_cons s _ _).trans (congrArg (c :: ·) ih.2)⟩

/-- Giving up the connections of the keys taken off the close chain, one after the other. -/
theorem run_releases (keys : List Nat) (s : Shift δ σ) (before : List (Connection δ σ))
    (front : s.taken.close = keys) :
    keys.foldl (fun (w, released) key =>
        let (w, gone) := w.release key
        (w, released ++ gone.toList)) (s.worker, before) =
      ((s.run (List.replicate keys.length (.serve .close))).worker,
        before ++ s.gaveUp (List.replicate keys.length (.serve .close))) := by
  induction keys generalizing s before with
  | nil => exact congrArg (_, ·) (List.append_nil before).symm
  | cons key rest ih =>
    have served : s.perform (.serve .close) =
        { worker := (s.worker.release key).1, taken := s.taken.assign .close rest } := by
      simp only [perform, WorkChains.keys, front, Worker.serveOne]
    have gone : s.finished (.serve .close) = (s.worker.release key).2.toList := by
      simp only [finished, front]
    have later := ih (s.perform (.serve .close)) (before ++ s.finished (.serve .close)) (by
      rw [served]
      rfl)
    rw [List.length_cons, List.replicate_succ, gaveUp_cons, ← List.append_assoc]
    rw [served, gone] at later
    rw [run, served, gone]
    exact later

/-- The close pass is `Worker.releaseClosed`. -/
theorem run_closing (rested : s.taken = {}) :
    ((s.run (s.passTasks .close)).worker, s.gaveUp (s.passTasks .close)) =
      s.worker.releaseClosed := by
  have front : (s.perform (.take .close)).taken.close = s.worker.work.chains.close := by
    simp [perform, Workload.detach, WorkChains.detach, rested, WorkChains.keys, WorkChains.assign]
  have released := run_releases _ (s.perform (.take .close)) [] front
  rw [passTasks, run, gaveUp_cons]
  exact released.symm

/-- Tasks in which no connection is given up. -/
theorem gaveUp_of_quiet {tasks : List (Task δ σ)}
    (quiet : ∀ t ∈ tasks, ∀ s : Shift δ σ, s.finished t = []) : s.gaveUp tasks = [] := by
  induction tasks generalizing s with
  | nil => rfl
  | cons t tasks ih =>
    rw [gaveUp_cons, quiet t List.mem_cons_self,
      ih fun t member => quiet t (List.mem_cons_of_mem _ member)]
    rfl

/-- A pass takes its chain and serves it. -/
theorem mem_passTasks {t : Task δ σ} {chain : Chain} (member : t ∈ s.passTasks chain) :
    t = .take chain ∨ t = .serve chain :=
  (List.mem_cons.mp member).imp_right fun member => (List.mem_replicate.mp member).2

/-- Pumping is passes over the read chain and the write chain. -/
theorem mem_pumpTasks {t : Task δ σ} {n : Nat} (member : t ∈ s.pumpTasks n) :
    ∃ chain, chain ≠ .close ∧ (t = .take chain ∨ t = .serve chain) := by
  induction n generalizing s with
  | zero => cases member
  | succ n ih =>
    rw [pumpTasks] at member
    split at member
    · cases member
    · rcases List.mem_append.mp member with member | member
      · rcases List.mem_append.mp member with member | member
        · exact ⟨.read, nofun, mem_passTasks member⟩
        · exact ⟨.write, nofun, mem_passTasks member⟩
      · exact ih member

/-- Before the mail, reports are sorted and passes go over the read chain and the write chain. -/
theorem mem_early {t : Task δ σ} {r : Round δ σ} (member : t ∈ r.early s) :
    (∃ key report, t = .sort key report) ∨
      ∃ chain, chain ≠ .close ∧ (t = .take chain ∨ t = .serve chain) := by
  rcases List.mem_append.mp member with member | member
  · obtain ⟨report, -, same⟩ := List.mem_map.mp member
    exact .inl ⟨_, _, same.symm⟩
  · exact .inr (mem_pumpTasks member)

/-- Sorting, reading and writing give up no connection. -/
theorem gaveUp_early (r : Round δ σ) : s.gaveUp (r.early s) = [] := by
  refine gaveUp_of_quiet fun t member => ?_
  rcases mem_early member with ⟨key, report, rfl⟩ | ⟨chain, different, rfl | rfl⟩
  · exact fun _ => rfl
  · exact fun _ => rfl
  · cases chain with
    | read | write => exact fun _ => rfl
    | close => exact absurd rfl different

end Shift

namespace Round

/-- What the mail leaves behind, and the connections that it hands back. -/
def mailed (r : Round δ σ) (w : Worker δ σ) : Worker δ σ × List (Connection δ σ) :=
  if r.quit then (w, r.mail.connections) else w.takeMail r.mail

/-- The worker just before it gives up the connections that wait for that. -/
def advanced (r : Round δ σ) (w : Worker δ σ) : Worker δ σ :=
  let w := (r.mailed w).1.advance
  if r.ends then w.closeAll else w

end Round

namespace Shift

variable {s : Shift δ σ}

/-- The tasks of the mail do what taking it does, and give up what it hands back. -/
theorem run_mailing (r : Round δ σ) (s : Shift δ σ) :
    s.run r.mailing = { s with worker := (r.mailed s.worker).1 } ∧
      s.gaveUp r.mailing = (r.mailed s.worker).2 := by
  unfold Round.mailing Round.mailed
  split
  · exact run_handBacks r.mail.connections s
  · obtain ⟨admitted, taken⟩ := run_admits r.mail.connections s []
    obtain ⟨started, silent⟩ :=
      run_starts r.mail.requests (s.run (r.mail.connections.map .takeOver))
    rw [run_append, gaveUp_append, started, silent, List.append_nil, taken, Worker.takeMail, admitted]
    exact ⟨rfl, rfl⟩

/-- What the tasks from the mail to the close chain do. -/
theorem run_middle (r : Round δ σ) (s : Shift δ σ) :
    s.run (r.middle s) = { s with worker := r.advanced s.worker } ∧
      s.gaveUp (r.middle s) = (r.mailed s.worker).2 := by
  obtain ⟨mailing, back⟩ := run_mailing r s
  have fetched : s.run (.fetch :: r.mailing) = { s with worker := (r.mailed s.worker).1 } := mailing
  have fetch : s.gaveUp (.fetch :: r.mailing) = s.gaveUp r.mailing := gaveUp_cons s .fetch r.mailing
  constructor
  · rw [Round.middle, run_append, run_append, fetched, (run_pulling _).1, (run_dooming r _).1]
    rfl
  · rw [Round.middle, gaveUp_append, gaveUp_append, run_append, (run_dooming r _).2, fetched,
      (run_pulling _).2, fetch, back, List.append_nil, List.append_nil]

/-- The tasks of a turn, one after the other, are the turn, if waiting for reports did not fail. -/
theorem run_tasks (r : Round δ σ) (worked : r.failed = false) (w : Worker δ σ) :
    let s : Shift δ σ := { worker := w }
    let turn := w.turn r.reports r.mail r.quit
    s.run (r.tasks s) = { worker := turn.worker } ∧ s.gaveUp (r.tasks s) = turn.finished := by
  intro s turn
  have turned : turn =
      let closing := (r.advanced (w.serve r.reports)).releaseClosed
      { worker := closing.1, finished := (r.mailed (w.serve r.reports)).2 ++ closing.2 } := by
    simp only [turn, Worker.turn, Round.advanced, Round.mailed, Round.ends, worked, Bool.or_false]
    cases r.quit <;> rfl
  have served : s.run (r.early s) = { s with worker := w.serve r.reports } := run_early r rfl
  obtain ⟨middle, back⟩ := run_middle r { s with worker := w.serve r.reports }
  have closing := run_closing (s := { s with worker := r.advanced (w.serve r.reports) }) rfl
  obtain ⟨worker, released⟩ := Prod.mk.inj closing
  have passed := run_pass (s := { s with worker := r.advanced (w.serve r.reports) }) .close rfl
  rw [turned, Round.tasks]
  simp only [run_append, gaveUp_append, served, middle, back, gaveUp_early, List.nil_append]
  refine ⟨?_, congrArg (_ ++ ·) released⟩
  rw [passed] at worker ⊢
  exact congrArg (Shift.mk · {}) worker

/-- After the tasks of a turn, nothing is left of any pass. -/
theorem taken_tasks (r : Round δ σ) (rested : s.taken = {}) : (s.run (r.tasks s)).taken = {} := by
  have early := run_early r rested
  have middle := (run_middle r (s.run (r.early s))).1
  rw [Round.tasks, run_append, run_append, middle, early, run_pass .close (by simp [rested])]
  exact rested

/-! ## Runs -/

/-- The tasks of any number of turns, in order. -/
def tasks (s : Shift δ σ) : List (Round δ σ) → List (Task δ σ)
  | [] => []
  | r :: rounds => r.tasks s ++ (s.run (r.tasks s)).tasks rounds

/-- The steps of any number of turns, in order. -/
def history (s : Shift δ σ) (rounds : List (Round δ σ)) : List (Step δ σ) :=
  s.steps (s.tasks rounds)

/-- What every step keeps of the shift holds throughout. -/
theorem history_keep {P : Shift δ σ → Prop} {rounds : List (Round δ σ)} (start : P s)
    (keeps : ∀ x ∈ s.history rounds, P x.shift → P x.next) : ∀ x ∈ s.history rounds, P x.shift :=
  (steps_keep start keeps).1

/-- What every step keeps, of the steps so far and the shift that they lead to, holds throughout. -/
theorem history_keep_past {P : List (Step δ σ) → Shift δ σ → Prop} {rounds : List (Round δ σ)}
    (start : P [] s)
    (keeps : ∀ past, ∀ x ∈ s.history rounds, P past x.shift → P (past ++ [x]) x.next) :
    ∀ before x after, s.history rounds = before ++ x :: after → P before x.shift :=
  (steps_rule [] start keeps).1

theorem history_cons (s : Shift δ σ) (r : Round δ σ) (rounds : List (Round δ σ)) :
    s.history (r :: rounds) = s.steps (r.tasks s) ++ (s.run (r.tasks s)).history rounds :=
  s.steps_append _ _

theorem tasks_append (s : Shift δ σ) (first second : List (Round δ σ)) :
    s.tasks (first ++ second) = s.tasks first ++ (s.run (s.tasks first)).tasks second := by
  induction first generalizing s with
  | nil => rfl
  | cons r rounds ih => rw [List.cons_append, tasks, tasks, ih, run_append, List.append_assoc]

theorem history_append (s : Shift δ σ) (first second : List (Round δ σ)) :
    s.history (first ++ second) = s.history first ++ (s.run (s.tasks first)).history second := by
  rw [history, tasks_append, steps_append]
  rfl

/-- After any number of turns, nothing is left of any pass. -/
theorem taken_rounds (rounds : List (Round δ σ)) (rested : s.taken = {}) :
    (s.run (s.tasks rounds)).taken = {} := by
  induction rounds generalizing s with
  | nil => exact rested
  | cons r rounds ih =>
    rw [tasks, run_append]
    exact ih (taken_tasks r rested)

end Shift

end Http2
