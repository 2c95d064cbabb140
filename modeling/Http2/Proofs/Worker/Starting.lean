import Http2.Proofs.Worker.Linking

/-!
# Requests that a worker starts

A worker gives a connection the turn of starting a request only in a task that is for this request and
for this connection, and in such a task it does, unless the connection is gone or waits to be closed
(`use?_start`, `task_of_start`). The requests that come with the mail are started in order, and only
when all connections that came with it are admitted (`requests_middle`, `admitsFirst_middle`).
-/

namespace Http2

variable {δ σ : Type}

/-- The request that a task is to start, with the name of its connection. -/
def Task.request? : Task δ σ → Option (ConnectionId × Request δ)
  | .start id request => some (id, request)
  | _ => none

/-! ## The turn of starting a request -/

namespace Connection

variable {c : Connection δ σ} {buffer : Bytes}

/-- Only on one errand is a request started. -/
theorem errand_of_start {errand : Errand δ} {request : Request δ}
    (starts : c.turnFor buffer errand = some (.start request)) : errand = .start request := by
  cases errand with
  | start other =>
    obtain ⟨-, same⟩ := Option.ite_none_left_eq_some.mp starts
    rw [Turn.start.inj (Option.some.inj same)]
  | read | write | pull =>
    obtain ⟨-, same⟩ := Option.ite_none_left_eq_some.mp starts
    cases same
  | sort | doom => cases starts

end Connection

namespace Shift

variable {s : Shift δ σ} {t : Task δ σ} {x : Step δ σ}

/-- A request is started on the connection that it is for, unless this one is gone or waits to be
closed. -/
theorem use?_start (sited : s.Sited) (id : ConnectionId) (request : Request δ) :
    (∃ c, c.id = id ∧ (Step.mk s (.start id request)).use? = some ⟨c, .start request⟩) ∨
      (Step.mk s (.start id request)).use? = none ∧
        ∀ key c, s.at? key = some c → c.id = id → c.membership.close = true := by
  cases known : s.worker.slot? id with
  | none =>
    refine .inr ⟨by simp [Step.use?, errand?, known], fun key c found named => ?_⟩
    rw [(sited.slots id key).mpr ⟨c, found, named⟩] at known
    cases known
  | some key =>
    obtain ⟨c, found, named⟩ := (sited.slots id key).mp known
    have goes : s.errand? (.start id request) = some (key, .start request) := by
      simp [errand?, known]
    rw [use?_of_visit goes found, Connection.turn_visit, Connection.turnFor]
    cases closing : c.membership.close with
    | false => exact .inl ⟨c, named, rfl⟩
    | true =>
      refine .inr ⟨rfl, fun other c' there same => ?_⟩
      obtain rfl := sited.eq_of_id there found (same.trans named.symm)
      rw [Option.some.inj (there.symm.trans found)]
      exact closing

/-- A request is started only in a task that is to start it. -/
theorem task_of_start {c : Connection δ σ} {request : Request δ}
    (used : x.use? = some ⟨c, .start request⟩) : ∃ id, x.task = .start id request := by
  obtain ⟨s, t⟩ := x
  obtain ⟨key, errand, goes, -, given⟩ := errand_of_use used
  obtain rfl := Connection.errand_of_start given
  cases t with
  | start id other =>
    obtain ⟨_, -, same⟩ := Option.map_eq_some_iff.mp goes
    cases same
    exact ⟨id, rfl⟩
  | serve chain => cases chain <;> simp [errand?] at goes
  | sort | take | fetch | handBack | takeOver | pull | doom => cases goes

/-! ## The order of tasks -/

/-- Sorting and passes start no request. -/
theorem requests_early (r : Round δ σ) (s : Shift δ σ) :
    (r.early s).filterMap Task.request? = [] := by
  refine List.filterMap_eq_nil_iff.mpr fun t member => ?_
  rcases mem_early member with ⟨key, report, rfl⟩ | ⟨chain, -, rfl | rfl⟩ <;> rfl

/-- A pass starts no request. -/
theorem requests_passTasks (s : Shift δ σ) (chain : Chain) :
    (s.passTasks chain).filterMap Task.request? = [] := by
  refine List.filterMap_eq_nil_iff.mpr fun t member => ?_
  rcases mem_passTasks member with rfl | rfl <;> rfl

/-- The requests that came with the mail are to be started in order, if the worker is not told to quit. -/
theorem requests_middle (r : Round δ σ) (s : Shift δ σ) :
    (r.middle s).filterMap Task.request? = if r.quit then [] else r.mail.requests := by
  have none {α : Type} {f : α → Task δ σ} (quiet : ∀ a, (f a).request? = none) (as : List α) :
      (as.map f).filterMap Task.request? = [] := by
    refine List.filterMap_eq_nil_iff.mpr fun t member => ?_
    obtain ⟨a, -, rfl⟩ := List.mem_map.mp member
    exact quiet a
  have dooming (s : Shift δ σ) : (r.dooming s).filterMap Task.request? = [] := by
    unfold Round.dooming
    split
    · exact none (fun _ => rfl) _
    · rfl
  have starts (requests : List (ConnectionId × Request δ)) :
      (requests.map fun entry => (.start entry.1 entry.2 : Task δ σ)).filterMap Task.request? =
        requests := by
    rw [List.filterMap_map]
    exact List.filterMap_some
  have mailing : r.mailing.filterMap (Task.request? (δ := δ) (σ := σ)) =
      if r.quit then [] else r.mail.requests := by
    unfold Round.mailing
    split
    · exact none (fun _ => rfl) _
    · rw [List.filterMap_append, none fun _ => rfl, starts, List.nil_append]
  rw [Round.middle, List.filterMap_append, List.filterMap_append, dooming, Round.pulling,
    none fun _ => rfl, List.append_nil, List.append_nil]
  exact mailing

/-- Whether no connection is admitted or handed back after a request was started. -/
def AdmitsFirst (tasks : List (Task δ σ)) : Prop :=
  tasks.Pairwise fun t later => t.request?.isSome → later.newcomers = []

/-- Tasks that start nothing may be followed by tasks with which no connection comes. -/
theorem AdmitsFirst.of_append {first rest : List (Task δ σ)} (quiet : ∀ t ∈ first, t.request? = none)
    (still : ∀ t ∈ rest, t.newcomers = []) : AdmitsFirst (first ++ rest) := by
  have silent {t : Task δ σ} (member : t ∈ first) (starts : t.request?.isSome) : False := by
    rw [quiet t member] at starts
    cases starts
  refine List.pairwise_append.mpr ⟨?_, ?_, ?_⟩
  · exact List.pairwise_of_forall_mem_list fun t member _ _ starts => (silent member starts).elim
  · exact List.pairwise_of_forall_mem_list fun _ _ t member _ => still t member
  · exact fun t member _ _ starts => (silent member starts).elim

/-- When a request is started, all connections that came with it are admitted or handed back. -/
theorem AdmitsFirst.newcomers {rest : List (Task δ σ)} (admits : AdmitsFirst (t :: rest))
    (starts : t.request?.isSome) : rest.flatMap Task.newcomers = [] :=
  List.flatMap_eq_nil_iff.mpr fun later member => (List.pairwise_cons.mp admits).1 later member starts

/-- In a turn, connections are admitted or handed back before requests are started. -/
theorem admitsFirst_middle (r : Round δ σ) (s : Shift δ σ) :
    AdmitsFirst ((r.middle s).tail ++ (s.run (r.middle s)).passTasks .close) := by
  let mailed := s.run (.fetch :: r.mailing)
  let rest : List (Task δ σ) :=
    Round.pulling mailed ++ r.dooming (mailed.run (Round.pulling mailed)) ++
      (s.run (r.middle s)).passTasks .close
  have still : ∀ t ∈ rest, t.newcomers = [] := by
    intro t member
    rcases List.mem_append.mp member with member | member
    · rcases List.mem_append.mp member with member | member
      · obtain ⟨key, -, rfl⟩ := List.mem_map.mp member
        rfl
      · unfold Round.dooming at member
        split at member
        · obtain ⟨key, -, rfl⟩ := List.mem_map.mp member
          rfl
        · cases member
    · rcases mem_passTasks member with rfl | rfl <;> rfl
  have split : (r.middle s).tail ++ (s.run (r.middle s)).passTasks .close = r.mailing ++ rest := by
    simp only [Round.middle, List.cons_append, List.tail_cons, List.append_assoc, rest, mailed]
  rw [split, Round.mailing]
  split
  · refine .of_append (fun t member => ?_) still
    obtain ⟨c, -, rfl⟩ := List.mem_map.mp member
    rfl
  · rw [List.append_assoc]
    refine .of_append (fun t member => ?_) fun t member => ?_
    · obtain ⟨c, -, rfl⟩ := List.mem_map.mp member
      rfl
    · rcases List.mem_append.mp member with member | member
      · obtain ⟨entry, -, rfl⟩ := List.mem_map.mp member
        rfl
      · exact still t member

end Shift

end Http2
