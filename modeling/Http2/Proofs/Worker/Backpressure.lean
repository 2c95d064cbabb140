import Http2.Proofs.Connection.Holding
import Http2.Proofs.Connection.Uploading
import Http2.Proofs.Worker.Isolation
import Http2.Proofs.Worker.Stalling

/-!
# A slow socket holds bodies back

A worker pulls the bodies of a connection only if nothing is left to write on it, and in between nothing
makes more of them wait (`Connection.stays_turn`). So what waits on a connection is never more than one
buffer for each body that was in progress when they were last pulled (`Shift.Throttled`). A connection on
which nothing waits is not forgotten either: the next time that the worker pulls bodies, it gives this one
exactly one turn (`Shift.usesOf_pulls`).
-/

namespace Http2

variable {δ σ : Type}

namespace Connection

variable {c : Connection δ σ} {buffer : Bytes}

/-! ## What visits leave -/

/-- Bodies are pulled only on one errand, through the buffer of the worker, and if nothing is pending. -/
theorem errand_of_pull {errand : Errand δ} {buffer' : Bytes}
    (pulls : c.turnFor buffer errand = some (.pull buffer')) :
    errand = .pull ∧ buffer' = buffer ∧ c.hasPendingOutput = false := by
  cases errand with
  | pull =>
    obtain ⟨free, same⟩ := Option.ite_none_left_eq_some.mp pulls
    simp only [Bool.or_eq_true, not_or, Bool.not_eq_true] at free
    exact ⟨rfl, (Turn.pull.inj (Option.some.inj same)).symm, free.1.2⟩
  | read | write | start =>
    obtain ⟨-, same⟩ := Option.ite_none_left_eq_some.mp pulls
    cases same
  | sort | doom => cases pulls

/-- What waits after a turn, waits after the worker has looked at the write signal. -/
theorem unsentBody_visited (c : Connection δ σ) (v : Worker.Visit δ σ) :
    (c.visited v).unsentBody = (v.turn.elim c c.turn).unsentBody := by
  change (c.attend v.turn).unsentBody = _
  cases v.turn with
  | none => rfl
  | some turn => cases turn <;> rfl

/-- Being ready is up to the codec and the bodies in progress. -/
theorem Ready.alike {c' : Connection δ σ} {role : Role} {size : Nat} (ready : c.Ready role size)
    (sound : c'.Sound) (counter : c'.codec.nextStreamId = c.codec.nextStreamId)
    (limit : c'.codec.maxFrameSize = c.codec.maxFrameSize) (bodies : c'.inProgress = c.inProgress) :
    c'.Ready role size where
  sound := sound
  counted := counter ▸ ready.counted
  size := limit.trans ready.size
  given := by
    rw [counter, bodies]
    exact ready.given

/-- A visit is a turn at most, so a connection that is ready stays so. -/
theorem Ready.visited {role : Role} {size : Nat} (ready : c.Ready role size)
    (v : Worker.Visit δ σ) : (c.visited v).Ready role size := by
  have attended : (c.attend v.turn).Ready role size := by
    cases v.turn with
    | none => exact ready
    | some turn =>
      have after := ready.turn turn
      cases turn with
      | write | meet => exact after
      | read | start | pull | abandon | deed =>
        exact after.alike after.sound.takeWriteSignal rfl rfl rfl
  exact attended.alike (sound_visited ready.sound v) rfl rfl rfl

/-- A connection that is just admitted is ready. -/
theorem Fresh.ready (fresh : c.Fresh) : ∃ role size, c.welcomed.Ready role size := by
  have sound := fresh.welcomed.1
  obtain ⟨id, socket, handler, role, maxFrameSize, app, rfl⟩ := fresh
  have ready : Ready role (Codec.create role maxFrameSize : Codec δ).maxFrameSize
      ({ id, socket, handler, endpoint := ⟨.create role maxFrameSize, app⟩ } : Connection δ σ) :=
    .fresh
  refine ⟨role, _, ready.alike sound ?_ ?_ ?_⟩ <;> unfold Connection.welcomed <;> split <;> rfl

end Connection

namespace Shift

variable {s : Shift δ σ} {x : Step δ σ} {past : List (Step δ σ)} {size : Nat}

/-! ## How much waits -/

/-- How many bodies are in progress on the connection of this name, if they are pulled. -/
def Use.pulled? (id : ConnectionId) (u : Use δ σ) : Option Nat :=
  match u.turn with
  | .pull _ => if u.connection.id = id then some u.connection.inProgress.length else none
  | _ => none

/-- How many bodies were in progress on the connection of this name when they were last pulled. It is none if
they never were. -/
def lastPulled (id : ConnectionId) (past : List (Step δ σ)) : Nat :=
  (past.filterMap fun x => x.use?.bind (Use.pulled? id)).getLast?.getD 0

/-- The last pull is the one in the last step, if there was one in that. -/
theorem lastPulled_concat (id : ConnectionId) (past : List (Step δ σ)) (x : Step δ σ) :
    lastPulled id (past ++ [x]) = (x.use?.bind (Use.pulled? id)).getD (lastPulled id past) := by
  rw [lastPulled, List.filterMap_append]
  cases pulled : x.use?.bind (Use.pulled? id) with
  | none => simp [pulled, lastPulled]
  | some count => simp [pulled]

/-- A turn of another connection does not count. -/
theorem lastPulled_of_other {id : ConnectionId} (other : ∀ u ∈ x.use?, u.connection.id ≠ id) :
    lastPulled id (past ++ [x]) = lastPulled id past := by
  have none : x.use?.bind (Use.pulled? id) = none := by
    refine Option.bind_eq_none_iff.mpr fun u used => ?_
    unfold Use.pulled?
    split
    · exact if_neg (other u used)
    · rfl
  rw [lastPulled_concat, none, Option.getD_none]

/-- What waits on a connection is at most one buffer of this size for each body that was last pulled. -/
def Held (size : Nat) (past : List (Step δ σ)) (c : Connection δ σ) : Prop :=
  c.unsentBody ≤ lastPulled c.id past * size

/-- A worker whose shared buffer has this size, after these steps. -/
structure Throttled (size : Nat) (past : List (Step δ σ)) (s : Shift δ σ) : Prop where
  sited : s.Sited
  room : s.worker.work.buffer.length = size
  held : ∀ key c, s.at? key = some c → (∃ role limit, c.Ready role limit) ∧ Held size past c

namespace Throttled

/-- A worker with no connections holds nothing back. -/
theorem idle (size : Nat) : Throttled size [] (Shift.idle size : Shift δ σ) :=
  ⟨.idle size, List.length_replicate, fun key c found => by cases found⟩

/-- What waits before a turn, and what the turn may ask for, are within the bound. -/
theorem demand (throttled : Throttled size past x.shift) {u : Use δ σ} (used : x.use? = some u) :
    u.connection.unsentBody + u.connection.demand u.turn ≤
      lastPulled u.connection.id (past ++ [x]) * size := by
  obtain ⟨key, errand, -, found, given⟩ := errand_of_use used
  have few := (throttled.held key u.connection found).2
  rw [lastPulled_concat, used, Option.bind_some]
  obtain ⟨c, turn⟩ := u
  cases turn with
  | pull buffer =>
    obtain ⟨-, rfl, flushed⟩ := Connection.errand_of_pull given
    simp only [Use.pulled?, if_true, Option.getD_some, Connection.demand]
    rw [Connection.unsentBody_of_flushed flushed, throttled.room, Nat.zero_add]
  | read | write | start | abandon | deed | meet => exact few

/-- All through a turn, and after it, no more waits than one buffer for each body that was last pulled. -/
theorem stays (throttled : Throttled size past x.shift) {u : Use δ σ} (used : x.use? = some u)
    (quiet : u.connection.QuietIn u.turn) :
    Outflow.Stays (lastPulled u.connection.id (past ++ [x]) * size) (u.connection.instants u.turn)
      (u.connection.turn u.turn).outflow := by
  obtain ⟨key, errand, -, found, -⟩ := errand_of_use used
  obtain ⟨⟨role, limit, ready⟩, -⟩ := throttled.held key u.connection found
  exact (Connection.stays_turn ready.sound quiet).mono (throttled.demand used)

end Throttled

/-- Every task keeps the length of the buffer that the connections share. -/
theorem length_perform (s : Shift δ σ) (t : Task δ σ) :
    (s.perform t).worker.work.buffer.length = s.worker.work.buffer.length := by
  have effect := s.effect t
  generalize s.perform t = s' at effect ⊢
  cases effect with
  | @visit _ key errand c taken goes found takes => exact c.length_visit key _ _ errand
  | idle | miss | take | takeOver | release => rfl

/-- Every step of a worker keeps it throttled, if the application queues nothing itself. -/
theorem Throttled.step (throttled : Throttled size past x.shift) (proper : x.Proper)
    (quiet : ∀ u ∈ x.use?, u.connection.QuietIn u.turn) : Throttled size (past ++ [x]) x.next := by
  refine ⟨throttled.sited.perform proper, (length_perform x.shift x.task).trans throttled.room, ?_⟩
  intro key held found
  cases origin found with
  | kept found apart =>
    rw [Held, lastPulled_of_other (throttled.sited.apart found apart)]
    exact throttled.held key held found
  | @admitted c came =>
    have fresh := (proper c came).1
    refine ⟨fresh.ready, ?_⟩
    rw [Held, Connection.unsentBody_of_flushed fresh.welcomed.2.2]
    exact Nat.zero_le _
  | @visited c errand taken goes here takes =>
    have use := use?_of_visit goes here
    obtain ⟨⟨role, limit, ready⟩, few⟩ := throttled.held key c here
    refine ⟨⟨role, limit, ready.visited _⟩, ?_⟩
    rw [Held, Connection.unsentBody_visited, Connection.id_visited]
    generalize (c.visit key _ _ errand).turn = turn at use
    cases turn with
    | none =>
      have unused : x.use? = none := use
      rw [lastPulled_of_other (by simp [unused])]
      exact few
    | some turn => exact (throttled.stays use (quiet _ use)).2

/-! ## Pulling the bodies of all connections -/

/-- The turns that the connection of this name is given in these tasks. -/
def usesOf (id : ConnectionId) (s : Shift δ σ) (tasks : List (Task δ σ)) : List (Use δ σ) :=
  ((s.steps tasks).filterMap Step.use?).filter (·.connection.id = id)

/-- The turns of a connection in some tasks are that of the first task, if it is given one, and those of
the rest. -/
theorem usesOf_cons (id : ConnectionId) (s : Shift δ σ) (t : Task δ σ) (tasks : List (Task δ σ)) :
    usesOf id s (t :: tasks) =
      (Step.mk s t).use?.toList.filter (·.connection.id = id) ++ usesOf id (s.perform t) tasks := by
  rw [usesOf, steps, List.filterMap_cons]
  cases (Step.mk s t).use? with
  | none => rfl
  | some u => exact List.filter_append [u] _

/-- Pulling the bodies of one connection leaves the slots of others alone, and it is its only turn. -/
theorem pull_elsewhere (sited : s.Sited) {key other : Nat} {c : Connection δ σ}
    (found : s.at? key = some c) (different : other ≠ key) :
    (s.perform (.pull other)).at? key = some c ∧
      (Step.mk s (.pull other)).use?.toList.filter (·.connection.id = c.id) = [] := by
  constructor
  · have effect := s.effect (.pull other)
    generalize s.perform (.pull other) = s' at effect ⊢
    cases effect with
    | idle => exact found
    | visit goes here takes =>
      obtain ⟨rfl, rfl⟩ := Prod.mk.inj (Option.some.inj goes)
      rw [at?_visited, if_neg different]
      exact found
  · refine List.filter_eq_nil_iff.mpr fun u member same => different ?_
    have used := Option.mem_toList.mp member
    obtain ⟨-, errand, goes, -⟩ := sited.errand_of_id found used (of_decide_eq_true same)
    exact congrArg Prod.fst (Option.some.inj goes)

/-- Pulling brings the worker no connection. -/
theorem Sited.pull (sited : s.Sited) (key : Nat) : (s.perform (.pull key)).Sited :=
  sited.perform fun _ came => absurd came List.not_mem_nil

/-- A connection is given no turn while the bodies of others are pulled. -/
theorem usesOf_pulls_elsewhere (sited : s.Sited) {key : Nat} {c : Connection δ σ}
    (found : ∃ c', s.at? key = some c' ∧ c'.id = c.id) {keys : List Nat} (absent : key ∉ keys) :
    usesOf c.id s (keys.map .pull) = [] := by
  induction keys generalizing s with
  | nil => rfl
  | cons other keys ih =>
    obtain ⟨c', there, named⟩ := found
    obtain ⟨different, absent⟩ := List.ne_and_not_mem_of_not_mem_cons absent
    obtain ⟨kept, none⟩ := pull_elsewhere sited there different.symm
    rw [List.map_cons, usesOf_cons, ← named, none, List.nil_append, named]
    exact ih (sited.pull other) ⟨c', kept, named⟩ absent

/-- When the bodies of some connections are pulled, one of them, that is free for it, is given one turn, as it
was before the first of them was pulled. -/
theorem usesOf_pulls (sited : s.Sited) {key : Nat} {c : Connection δ σ} (found : s.at? key = some c)
    (free : c.hasRequestsInProgress ∧ c.hasPendingOutput = false ∧ c.membership.close = false)
    {keys : List Nat} (once : keys.Nodup) (listed : key ∈ keys) :
    ∃ buffer : Bytes, buffer.length = s.worker.work.buffer.length ∧
      usesOf c.id s (keys.map .pull) = [⟨c, .pull buffer⟩] := by
  induction keys generalizing s with
  | nil => cases listed
  | cons other keys ih =>
    obtain ⟨absent, once⟩ := List.nodup_cons.mp once
    rw [List.map_cons, usesOf_cons]
    by_cases here : other = key
    · subst here
      obtain ⟨busy, flushed, running⟩ := free
      have use : (Step.mk s (.pull other)).use? = some ⟨c, .pull s.worker.work.buffer⟩ := by
        rw [use?_of_visit (t := .pull other) rfl found, Connection.turn_visit, Connection.turnFor, busy,
          flushed, running]
        rfl
      have after : (s.perform (.pull other)).at? other =
          some (c.visited (c.visit other s.worker.work.chains s.worker.work.buffer .pull)) := by
        rw [perform, at?, Workload.advanceOne_eq found]
        exact s.worker.work.get?_visited other c _
      have rest := usesOf_pulls_elsewhere (sited.pull other) ⟨_, after, c.id_visited _⟩ absent
      refine ⟨s.worker.work.buffer, rfl, ?_⟩
      rw [use, rest]
      simp
    · obtain ⟨kept, none⟩ := pull_elsewhere sited found here
      have later : key ∈ keys := (List.mem_cons.mp listed).resolve_left (Ne.symm here)
      obtain ⟨buffer, room, uses⟩ := ih (sited.pull other) kept once later
      rw [none, uses]
      exact ⟨buffer, room.trans (length_perform s _), rfl⟩

/-- What a worker does about the bodies of a connection in one of its slots, after these steps. -/
structure Backpressure (size : Nat) (past : List (Step δ σ)) (s : Shift δ σ) (c : Connection δ σ) :
    Prop where
  /-- No more waits than one buffer for each body that was last pulled. -/
  bounded : c.unsentBody ≤ lastPulled c.id past * size
  /-- If nothing waits, the bodies are pulled when the worker next pulls bodies: it gives the connection one
  turn for it, with a buffer of the worker's size, in which every body is asked for once, in order. -/
  pulled : c.hasPendingOutput = false → c.inProgress ≠ [] → c.membership.close = false →
    ∃ buffer : Bytes, buffer.length = size ∧
      usesOf c.id s (Round.pulling s) = [⟨c, .pull buffer⟩] ∧
        (c.asksIn (.pull buffer)).map Asked.id = c.inProgress ∧ c.inProgress.Nodup

/-- A connection of a throttled worker is bounded, and pulled when nothing waits on it. -/
theorem Throttled.backpressure (throttled : Throttled size past s) {key : Nat} {c : Connection δ σ}
    (found : s.at? key = some c) : Backpressure size past s c := by
  obtain ⟨⟨role, limit, ready⟩, few⟩ := throttled.held key c found
  refine ⟨few, fun flushed some running => ?_⟩
  have busy : c.hasRequestsInProgress = true := by
    rw [Connection.hasRequestsInProgress, List.isEmpty_eq_false_iff.mpr some, Bool.not_false]
  have listed : key ∈ s.worker.work.connections.keys :=
    Arena.mem_keys.mpr (Option.isSome_of_eq_some found)
  obtain ⟨buffer, same, uses⟩ := usesOf_pulls throttled.sited found ⟨busy, flushed, running⟩
    s.worker.work.connections.slots.nodup_keys listed
  exact ⟨buffer, same.trans throttled.room, uses, c.map_id_asksIn_pull buffer, ready.given.nodup⟩

/-- Only connections on which nothing waits are asked for more of their bodies. -/
theorem flushed_of_asked {u : Use δ σ} (used : x.use? = some u)
    (asked : u.connection.asksIn u.turn ≠ []) : u.connection.hasPendingOutput = false := by
  obtain ⟨-, errand, -, -, given⟩ := errand_of_use used
  obtain ⟨c, turn⟩ := u
  cases turn with
  | pull buffer => exact (Connection.errand_of_pull given).2.2
  | read | write | start | abandon | deed | meet => exact absurd rfl asked

end Shift

/-- However a worker runs, with any sockets and with applications that queue nothing themselves: no more of
the bodies of a connection waits to be taken by the socket, between two tasks or at any instant of a turn,
than one buffer for each body that was in progress when its bodies were last pulled. A connection with
output that is not taken is never asked for more. One on which nothing waits, that has bodies in progress
and is not to be closed, is asked for each of them exactly once when the worker next pulls bodies. -/
theorem uploads_are_held_back (bufferSize : Nat) (tasks : List (Task δ σ))
    (fresh : ∀ c ∈ tasks.flatMap Task.newcomers, c.Fresh)
    (distinct : ((tasks.flatMap Task.newcomers).map Connection.id).Nodup)
    (quiet : ∀ x ∈ (Shift.idle bufferSize : Shift δ σ).steps tasks, ∀ u ∈ x.use?,
      u.connection.QuietIn u.turn) :
    (∀ earlier later, tasks = earlier ++ later →
      let s := (Shift.idle bufferSize).run earlier
      ∀ key c, s.at? key = some c →
        Shift.Backpressure bufferSize ((Shift.idle bufferSize).steps earlier) s c) ∧
      ∀ (before : List (Shift.Step δ σ)) (x : Shift.Step δ σ) (after : List (Shift.Step δ σ)),
        (Shift.idle bufferSize : Shift δ σ).steps tasks = before ++ x :: after → ∀ u ∈ x.use?,
          (∀ i ∈ u.connection.instants u.turn,
            i.unsentBody ≤ Shift.lastPulled u.connection.id (before ++ [x]) * bufferSize) ∧
          (u.connection.asksIn u.turn ≠ [] → u.connection.hasPendingOutput = false) := by
  have proper := Shift.proper_steps (Shift.awaits_idle bufferSize fresh distinct)
  have keeps : ∀ past, ∀ x ∈ (Shift.idle bufferSize : Shift δ σ).steps tasks,
      Shift.Throttled bufferSize past x.shift → Shift.Throttled bufferSize (past ++ [x]) x.next :=
    fun past x member throttled => throttled.step (proper x member) (quiet x member)
  refine ⟨?_, fun before x after split u used => ?_⟩
  · rintro earlier later rfl s key c found
    rw [Shift.steps_append] at keeps
    have throttled := (Shift.steps_rule [] (.idle bufferSize) fun past x member =>
      keeps past x (List.mem_append_left _ member)).2
    exact throttled.backpressure found
  · have throttled := (Shift.steps_rule [] (.idle bufferSize) keeps).1 before x after split
    have member : x ∈ (Shift.idle bufferSize : Shift δ σ).steps tasks :=
      split ▸ List.mem_append_right _ List.mem_cons_self
    exact ⟨(throttled.stays used (quiet x member u used)).1, Shift.flushed_of_asked used⟩

/-- A client with two bodies that never end, whose socket takes the requests and then three bytes of the
first body. Once five bytes of one body and eight of the other wait, the worker asks for no more. -/
theorem uploads_are_held_back_when_blocked :
    let c : Connection Unit Unit :=
      { id := ⟨0, 0⟩
        socket := { outgoing := [.accept 9, .accept 9, .accept 12], blocking := true }
        endpoint := ⟨.create .client 16384, ()⟩
        handler :=
          { onHeaders := fun _ _ _ _ => .done ()
            onBody := fun _ _ _ _ => .done ()
            onDataNeeded := fun _ _ _ => .done
              { app := (), stored := [1, 2, 3], chunk := { written := 8, finished := false } } } }
    let requests : List (Task Unit Unit) := [.takeOver c, .start ⟨0, 0⟩ {}, .start ⟨0, 0⟩ {}]
    let passes : List (Task Unit Unit) := [.take .write, .serve .write, .pull 0]
    let tasks := requests ++ passes ++ passes
    let s : Shift Unit Unit := .idle 8
    ((s.run tasks).at? 0).map Connection.unsentBody = some 13 ∧
      (Shift.usesOf ⟨0, 0⟩ s tasks).countP (fun u => !(u.connection.asksIn u.turn).isEmpty) = 1 ∧
        ∀ count c, (s.run (tasks.take count)).at? 0 = some c →
          Shift.Backpressure 8 (s.steps (tasks.take count)) (s.run (tasks.take count)) c := by
  intro c requests passes tasks s
  have holds := uploads_are_held_back 8 tasks
    (by
      intro c' member
      rw [List.mem_singleton.mp member]
      exact ⟨_, _, _, .client, 16384, (), rfl⟩)
    (by decide) (by decide +kernel)
  refine ⟨by decide +kernel, by decide +kernel, fun count c found => ?_⟩
  exact holds.1 (tasks.take count) (tasks.drop count) (List.take_append_drop count tasks).symm 0 c found

end Http2
