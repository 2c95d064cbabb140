import Http2.Pool.Basic
import Http2.Proofs.Worker.Linking

/-!
# What the workers of a pool get

The manager of a pool makes each connection anew and sends it to a worker under that worker's next
serial. So whatever happens to a pool, the connections that ever reach one worker are fresh and have the
names of its serials, in order, and a worker that still runs is in the state that its turns lead to,
starting from nothing (`served_of_created`). Hence what holds of workers that start with nothing and get
fresh connections of different names holds of the workers of a pool; for one thing, their slots and
chains are in order (`linked_of_created`).
-/

namespace Http2

variable {δ σ : Type}

namespace Pool

/-- What can happen to a pool. Shutting it down is telling the workers to quit, a turn of each, and
reclaiming. -/
inductive Act (δ σ : Type) where
  | place (socket : Socket) (handler : Handler δ σ) (app : σ)
  | request (id : ConnectionId) (request : Request δ)
  | reclaim
  | run (index : Nat) (reports : List (Nat × Readiness))
  | quit
  | crash (index : Nat)

/-- The pool after something happened to it. -/
def act (p : Pool δ σ) : Act δ σ → Pool δ σ
  | .place socket handler app => (p.place socket handler app).2
  | .request id request =>
    match p.request id request with
    | .error _ => p
    | .ok p => p
  | .reclaim => p.reclaim.2
  | .run index reports => p.runWorker index reports
  | .quit => p.signalQuit
  | .crash index => p.crash index

/-- What comes to a worker if it has a turn then. -/
def round? (p : Pool δ σ) (index : Nat) : Act δ σ → Option (Round δ σ)
  | .run other reports =>
    if other = index then
      p.slots[index]?.bind fun s =>
        if s.stopped then none else some { reports, mail := s.mailbox, quit := s.quit }
    else
      none
  | .place .. | .request .. | .reclaim | .quit | .crash _ => none

/-- The pool after any number of things. -/
def after (p : Pool δ σ) (acts : List (Act δ σ)) : Pool δ σ :=
  acts.foldl act p

/-- What comes to a worker in its turns, in order. -/
def rounds (p : Pool δ σ) (index : Nat) : List (Act δ σ) → List (Round δ σ)
  | [] => []
  | a :: acts => (p.round? index a).toList ++ (p.act a).rounds index acts

/-- Modifying a slot leaves the others as they are. -/
theorem getElem?_modifySlot (p : Pool δ σ) (index other : Nat) (f : Slot δ σ → Slot δ σ) :
    (p.modifySlot index f).slots[other]? =
      if index = other then p.slots[other]?.map f else p.slots[other]? := by
  rw [modifySlot, List.getElem?_modify]
  split <;> simp

end Pool

/-! ## What came to one worker -/

namespace Slot

/-- The connections that ever came to the worker of a slot are fresh and have the names of its serials,
and unless it has stopped the worker is what its turns lead to. -/
structure Served (s : Slot δ σ) (index bufferSize : Nat) (rounds : List (Round δ σ)) : Prop where
  fresh : ∀ c ∈ Round.sent rounds ++ s.mailbox.connections, c.Fresh
  names : (Round.sent rounds ++ s.mailbox.connections).map Connection.id =
    (List.range s.nextSerial).map fun serial => ⟨index, serial⟩
  worker : s.stopped = false →
    s.worker = ((Shift.idle bufferSize).run ((Shift.idle bufferSize).tasks rounds)).worker
  lasting : s.stopped = false → ∀ r ∈ rounds, r.ends = false

namespace Served

variable {s s' : Slot δ σ} {index bufferSize : Nat} {rounds : List (Round δ σ)}

/-- A worker that has had no turn is served. -/
theorem idle (index bufferSize : Nat) :
    ({ worker := .idle bufferSize } : Slot δ σ).Served index bufferSize [] where
  fresh _ member := absurd member List.not_mem_nil
  names := rfl
  worker _ := rfl
  lasting _ _ member := absurd member List.not_mem_nil

/-- Neither requests nor loads nor the word to quit matter, and a worker may stop. -/
theorem congr (served : s.Served index bufferSize rounds)
    (mail : s'.mailbox.connections = s.mailbox.connections) (serial : s'.nextSerial = s.nextSerial)
    (running : s'.stopped = false → s.stopped = false ∧ s'.worker = s.worker) :
    s'.Served index bufferSize rounds := by
  refine ⟨?_, ?_, fun goes => ?_, fun goes => served.lasting (running goes).1⟩
  · rw [mail]
    exact served.fresh
  · rw [mail, serial]
    exact served.names
  · exact (running goes).2.trans (served.worker (running goes).1)

/-- A fresh connection under the next serial. -/
theorem place (served : s.Served index bufferSize rounds) {c : Connection δ σ} (fresh : c.Fresh)
    (named : c.id = ⟨index, s.nextSerial⟩) {active : Nat} :
    ({ s with
        active
        nextSerial := s.nextSerial + 1
        mailbox := { s.mailbox with connections := s.mailbox.connections ++ [c] } } :
      Slot δ σ).Served index bufferSize rounds := by
  refine ⟨?_, ?_, served.worker, served.lasting⟩
  · intro other member
    rw [← List.append_assoc] at member
    rcases List.mem_append.mp member with member | member
    · exact served.fresh other member
    · exact List.mem_singleton.mp member ▸ fresh
  · rw [← List.append_assoc, List.map_append, served.names, List.range_succ, List.map_append,
      List.map_singleton, List.map_singleton, named]

/-- A turn of a worker that still runs. -/
theorem run (served : s.Served index bufferSize rounds) (runs : s.stopped = false)
    (reports : List (Nat × Readiness)) :
    let turn := s.worker.turn reports s.mailbox s.quit
    ({ s with worker := turn.worker, mailbox := {}, stopped := s.quit } : Slot δ σ).Served index
      bufferSize (rounds ++ [{ reports, mail := s.mailbox, quit := s.quit }]) := by
  intro turn
  have sent : Round.sent (rounds ++ [{ reports, mail := s.mailbox, quit := s.quit }]) =
      Round.sent rounds ++ s.mailbox.connections := by
    simp [Round.sent]
  refine ⟨?_, ?_, fun goes => ?_, fun goes r member => ?_⟩
  · rw [sent, List.append_nil]
    exact served.fresh
  · rw [sent, List.append_nil]
    exact served.names
  · have rested := Shift.taken_rounds (s := (Shift.idle bufferSize : Shift δ σ)) rounds rfl
    have reached : (Shift.idle bufferSize : Shift δ σ).run
        ((Shift.idle bufferSize : Shift δ σ).tasks rounds) = { worker := s.worker } := by
      rw [served.worker runs, ← rested]
    have turned := Shift.run_tasks { reports, mail := s.mailbox, quit := s.quit } rfl s.worker
    rw [Shift.tasks_append, Shift.run_append, reached, Shift.tasks, Shift.tasks, List.append_nil,
      turned.1]
  · rcases List.mem_append.mp member with member | member
    · exact served.lasting runs r member
    · have quit : s.quit = false := goes
      rw [List.mem_singleton.mp member, Round.ends, quit]
      rfl

end Served

end Slot

namespace Pool

variable {p : Pool δ σ} {config : Config} {index bufferSize : Nat} {rounds : List (Round δ σ)}

/-- The slot of a worker, and what came to the worker. -/
def Serves (p : Pool δ σ) (index bufferSize : Nat) (rounds : List (Round δ σ)) : Prop :=
  ∀ s, p.slots[index]? = some s → s.Served index bufferSize rounds

/-- A slot may be modified if the worker whose slot it is stays served. -/
theorem serves_modifySlot (serves : p.Serves index bufferSize rounds) (other : Nat)
    {f : Slot δ σ → Slot δ σ}
    (keeps : ∀ s : Slot δ σ, p.slots[index]? = some s → other = index →
      (f s).Served index bufferSize rounds) :
    (p.modifySlot other f).Serves index bufferSize rounds := by
  intro s found
  rw [getElem?_modifySlot] at found
  split at found
  · rename_i same
    obtain ⟨before, there, rfl⟩ := Option.map_eq_some_iff.mp found
    exact keeps before there same
  · exact serves s found

/-- Reclaiming changes loads only. -/
theorem serves_reclaim (serves : p.Serves index bufferSize rounds) :
    p.reclaim.2.Serves index bufferSize rounds := by
  have start : ({ p with finished := [] } : Pool δ σ).Serves index bufferSize rounds := serves
  unfold reclaim
  generalize ({ p with finished := [] } : Pool δ σ) = q at start
  induction p.finished generalizing q with
  | nil => exact start
  | cons c finished ih =>
    refine ih _ (serves_modifySlot start c.id.worker fun s found _ => ?_)
    exact (start s found).congr rfl rfl fun goes => ⟨goes, rfl⟩

/-- A connection that is placed gets the next serial, wherever it is placed. -/
theorem serves_place (serves : p.Serves index bufferSize rounds) (socket : Socket)
    (handler : Handler δ σ) (app : σ) :
    (p.place socket handler app).2.Serves index bufferSize rounds := by
  unfold place
  split
  · exact serves
  · rename_i other s chosen
    refine serves_modifySlot serves other ?_
    rintro before there rfl
    have same : s = before := by
      obtain ⟨_, -, listed⟩ := Option.bind_eq_some_iff.mp chosen
      obtain ⟨slot, found, pair⟩ := Option.map_eq_some_iff.mp listed
      cases pair
      exact Option.some.inj (found.symm.trans there)
    subst same
    exact (serves s there).place ⟨_, socket, handler, p.config.role, p.config.maxFrameSize, app, rfl⟩
      rfl

/-- A request that is sent brings no connection to a worker. -/
theorem serves_request (serves : p.Serves index bufferSize rounds) {id : ConnectionId}
    {request : Request δ} {p' : Pool δ σ} (sent : p.request id request = .ok p') :
    p'.Serves index bufferSize rounds := by
  unfold Pool.request at sent
  split at sent
  · cases sent
  · split at sent
    · cases sent
    · split at sent
      · cases sent
      · cases sent
        exact serves_modifySlot serves _ fun s found _ =>
          (serves s found).congr rfl rfl fun goes => ⟨goes, rfl⟩

/-- A turn of a worker brings it what its mailbox held, and other workers nothing. -/
theorem serves_runWorker (serves : p.Serves index bufferSize rounds) (other : Nat)
    (reports : List (Nat × Readiness)) :
    (p.runWorker other reports).Serves index bufferSize
      (rounds ++ (p.round? index (.run other reports)).toList) := by
  cases found : p.slots[other]? with
  | none =>
    have silent : p.round? index (.run other reports) = none := by
      simp only [round?]
      split
      · rename_i same
        rw [← same, found, Option.bind_none]
      · rfl
    rw [silent, Option.toList_none, List.append_nil, runWorker, found]
    exact serves
  | some s =>
    cases halted : s.stopped with
    | true =>
      have silent : p.round? index (.run other reports) = none := by
        simp only [round?]
        split
        · rename_i same
          rw [← same, found, Option.bind_some, if_pos halted]
        · rfl
      rw [silent, Option.toList_none, List.append_nil, runWorker, found]
      simp only [halted, if_true]
      exact serves
    | false =>
      rw [runWorker, found]
      simp only [halted, Bool.false_eq_true, if_false]
      by_cases same : other = index
      · subst same
        have came : p.round? other (.run other reports) =
            some { reports, mail := s.mailbox, quit := s.quit } := by
          simp only [round?, if_true, found, Option.bind_some, halted, Bool.false_eq_true, if_false]
        rw [came, Option.toList_some]
        intro after there
        have turned := (serves s found).run halted reports
        rw [getElem?_modifySlot, if_pos rfl, found] at there
        cases there
        exact turned
      · have silent : p.round? index (.run other reports) = none := by
          simp only [round?, if_neg same]
        rw [silent, Option.toList_none, List.append_nil]
        exact serves_modifySlot serves other fun _ _ here => absurd here same

/-- Whatever happens to a pool, its workers are served. -/
theorem serves_act (serves : p.Serves index bufferSize rounds) (a : Act δ σ) :
    (p.act a).Serves index bufferSize (rounds ++ (p.round? index a).toList) := by
  cases a with
  | run other reports => exact serves_runWorker serves other reports
  | place socket handler app =>
    rw [round?, Option.toList_none, List.append_nil]
    exact serves_place serves socket handler app
  | request id request =>
    rw [round?, Option.toList_none, List.append_nil, act]
    cases sent : p.request id request with
    | error fault => exact serves
    | ok p' => exact serves_request serves sent
  | reclaim =>
    rw [round?, Option.toList_none, List.append_nil]
    exact serves_reclaim serves
  | quit =>
    rw [round?, Option.toList_none, List.append_nil]
    intro s found
    rw [act, signalQuit, List.getElem?_map] at found
    obtain ⟨before, there, rfl⟩ := Option.map_eq_some_iff.mp found
    exact (serves before there).congr rfl rfl fun goes => ⟨goes, rfl⟩
  | crash other =>
    rw [round?, Option.toList_none, List.append_nil]
    exact serves_modifySlot serves other fun s found _ =>
      (serves s found).congr rfl rfl fun goes => by cases goes

/-- The connections that ever come to a worker of a pool are fresh and have the names of its serials, in
order, and a worker that runs is what its turns lead to from nothing. -/
theorem served_of_created (made : create? config = .ok p) (acts : List (Act δ σ)) (index : Nat) :
    (p.after acts).Serves index config.readBufferSize (p.rounds index acts) := by
  have run : ∀ (p : Pool δ σ) before, p.Serves index config.readBufferSize before →
      (p.after acts).Serves index config.readBufferSize (before ++ p.rounds index acts) := by
    induction acts with
    | nil =>
      intro p before serves
      rw [Pool.rounds, List.append_nil]
      exact serves
    | cons a acts ih =>
      intro p before serves
      rw [Pool.rounds, ← List.append_assoc]
      exact ih (p.act a) _ (serves_act serves a)
  refine run p [] ?_
  unfold create? at made
  split at made
  · cases made
  · cases made
    intro s found
    rw [List.getElem?_replicate] at found
    split at found
    · cases found
      exact .idle index config.readBufferSize
    · cases found

/-- Between the turns of a worker of a pool that runs, the slots and the chains of the worker are in
order. -/
theorem linked_of_created (made : create? config = .ok p) (acts : List (Act δ σ)) (index : Nat)
    (s : Slot δ σ) (found : (p.after acts).slots[index]? = some s) (runs : s.stopped = false) :
    ({ worker := s.worker } : Shift δ σ).Linked := by
  have served := served_of_created made acts index s found
  have fresh : ∀ c ∈ Round.sent (p.rounds index acts), c.Fresh := fun c member =>
    served.fresh c (List.mem_append_left _ member)
  have distinct : ((Round.sent (p.rounds index acts)).map Connection.id).Nodup := by
    have all : (Round.sent (p.rounds index acts) ++ s.mailbox.connections).Pairwise
        (fun c c' => c.id ≠ c'.id) := by
      refine List.pairwise_map.mp ?_
      rw [served.names]
      exact List.pairwise_map.mpr (List.nodup_range.imp fun different same => by
        cases same
        exact different rfl)
    exact List.pairwise_map.mpr (List.pairwise_append.mp all).1
  have awaits := Shift.awaits_idle config.readBufferSize fresh distinct
  have linked := (Shift.linked_rounds (served.lasting runs) (.idle config.readBufferSize) rfl
    (Shift.proper_history awaits)).2
  have rested := Shift.taken_rounds (s := (Shift.idle config.readBufferSize : Shift δ σ))
    (p.rounds index acts) rfl
  rw [served.worker runs, ← rested]
  exact linked

end Pool

end Http2
