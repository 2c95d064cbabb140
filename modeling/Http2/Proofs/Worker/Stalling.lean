import Http2.Proofs.Connection.Signalling
import Http2.Proofs.Worker.Linking

/-!
# No output is stalled

A worker hears of a writable socket only once, so a connection with frames to write must be on the
write chain, or its last write must have been blocked, in which case the socket will be reported again.
Whatever queues a frame sets the write signal, and the worker looks at the signal after every turn in
which that can happen (`unstalled_visit`).
-/

namespace Http2

variable {δ σ : Type}

/-- A use in which the connection is not written and nothing is queued on it. -/
def Shift.Use.Quiet (u : Shift.Use δ σ) : Prop :=
  u.turn ≠ .write ∧ ∀ i ∈ u.connection.instants u.turn, i.queued = []

namespace Connection

variable {c : Connection δ σ} {key : Nat} {chains : WorkChains} {buffer : Bytes} {owed : Prop}

/-- After a visit, either nothing is left to write, or the connection is on a chain that takes care of it,
or a write was blocked, now or before. `owed` says that one was blocked before. -/
structure Unstalled (c : Connection δ σ) (v : Worker.Visit δ σ) (owed : Prop) : Prop where
  sound : (c.visited v).Sound
  signal : (c.visited v).codec.writeSignal = false
  output : (c.visited v).hasPendingOutput = true →
    v.membership.close = true ∨ v.membership.write = true ∨
      (v.turn = some .write ∧ c.writePending.outcome = .blocked) ∨
        (owed ∧ ∀ turn, v.turn = some turn → (Shift.Use.mk c turn).Quiet)

/-- The turn of a visit keeps the connection sound. -/
theorem sound_attend (sound : c.Sound) (turn : Option (Turn δ σ)) : (c.attend turn).Sound := by
  unfold attend
  split
  · exact sound
  · exact sound.turn .write
  · exact sound.turn _
  · exact (sound.turn _).takeWriteSignal

/-- A visit keeps the connection sound. -/
theorem sound_visited (sound : c.Sound) (v : Worker.Visit δ σ) : (c.visited v).Sound :=
  (sound_attend sound v.turn).of_reachable (sound_attend sound v.turn).reachable rfl

theorem codec_visited (c : Connection δ σ) (v : Worker.Visit δ σ) :
    (c.visited v).codec = (c.attend v.turn).codec := rfl

theorem pending_visited (c : Connection δ σ) (v : Worker.Visit δ σ) :
    (c.visited v).hasPendingOutput = (c.attend v.turn).hasPendingOutput := rfl

namespace Unstalled

variable {v : Worker.Visit δ σ}

/-- A connection may be put on more chains. -/
theorem mono {v' : Worker.Visit δ σ} (unstalled : c.Unstalled v owed) (turn : v'.turn = v.turn)
    (close : v.membership.close = true → v'.membership.close = true)
    (write : v.membership.write = true → v'.membership.write = true) : c.Unstalled v' owed := by
  obtain ⟨sound, signal, output⟩ := unstalled
  rw [codec_visited, ← turn] at signal
  rw [pending_visited, ← turn] at output
  unfold visited at sound
  rw [← turn] at sound
  refine ⟨sound.of_reachable sound.reachable rfl, signal, fun pending => ?_⟩
  exact (output pending).imp close (Or.imp_left write)

/-- To leave the read chain is no matter to what is waiting to be written. -/
theorem leave_read (unstalled : c.Unstalled v owed) : c.Unstalled (v.leave .read) owed :=
  unstalled.mono rfl (fun set => set) fun set => set

/-- To join the close chain is to be taken care of. -/
theorem join_close (unstalled : c.Unstalled v owed) (key : Nat) :
    c.Unstalled (v.join key .close) owed := by
  have kept := v.chains.contains_enqueue .close key v.membership
  refine unstalled.mono rfl (fun _ => ?_) fun set => ?_
  · exact (kept .close).trans rfl
  · exact (kept .write).trans set

end Unstalled

/-- A connection that waits to be closed is taken care of. -/
theorem unstalled_of_closing (sound : c.Sound) (off : c.codec.writeSignal = false)
    (closing : c.membership.close = true) (errand : Errand δ) :
    c.Unstalled (c.visit key chains buffer errand) owed := by
  obtain ⟨waits, silent⟩ := visit_of_closing closing key chains buffer errand
  refine ⟨sound_visited sound _, ?_, fun _ => .inl waits⟩
  rw [codec_visited]
  rcases silent with none | ⟨health, met⟩
  · rw [none]
    exact off
  · rw [met]
    exact off

/-- After a busy turn the signal decides. -/
theorem unstalled_busyVisit {t : Turn δ σ} (sound : c.Sound) (busy : t.Busy)
    (heard : ∀ i ∈ c.instants t, i.takesSignal = false)
    (output : c.hasPendingOutput = true →
      c.membership.close = true ∨ c.membership.write = true ∨ owed) :
    c.Unstalled (c.busyVisit key chains buffer t) owed := by
  have attended : c.attend (some t) = (c.turn t).takeWriteSignal.2 := by
    cases t with
    | read | start | pull => rfl
    | write | abandon | deed | meet => cases busy
  unfold busyVisit
  split
  · refine ⟨sound_visited sound _, ?_, fun _ => .inr (.inl ?_)⟩
    · rw [codec_visited, Worker.Visit.join, attended]
      rfl
    · exact chains.contains_enqueue .write key c.membership .write
  · rename_i off
    have off : (c.turn t).codec.writeSignal = false := by simpa using off
    refine ⟨sound_visited sound _, ?_, fun pending => ?_⟩
    · rw [codec_visited, attended]
      rfl
    · rw [pending_visited, attended] at pending
      rcases output (pending_of_quiet sound busy heard off pending) with close | write | owed
      · exact .inl close
      · exact .inr (.inl write)
      · refine .inr (.inr (.inr ⟨owed, ?_⟩))
        rintro turn ⟨⟩
        refine ⟨?_, (quiets_turn sound busy heard off).2.1⟩
        rintro rfl
        cases busy

/-- Writing ends with nothing to write, or blocked, or it goes on, or the connection is closed. -/
theorem unstalled_of_written {v : Worker.Visit δ σ} (sound : c.Sound) (turn : v.turn = some .write)
    (goesOn : c.writePending.outcome = .interrupted → v.membership.write = true)
    (closes : c.writePending.outcome = .closed → v.membership.close = true) : c.Unstalled v owed := by
  have silent : c.writePending.connection.codec.writeSignal = false :=
    c.takeWriteSignal.2.signal_writeLoop
  refine ⟨sound_visited sound v, ?_, fun pending => ?_⟩
  · rw [codec_visited, turn]
    exact silent
  · rw [pending_visited, turn] at pending
    cases outcome : c.writePending.outcome with
    | flushed =>
      have none : c.writePending.connection.hasPendingOutput = false :=
        (pending_writeLoop c.takeWriteSignal.2).mp outcome
      exact absurd (none.symm.trans pending) Bool.noConfusion
    | blocked => exact .inr (.inr (.inl ⟨turn, rfl⟩))
    | interrupted => exact .inr (.inl (goesOn outcome))
    | closed => exact .inl (closes outcome)

/-- After a write, the connection is flushed, blocked, still on the write chain, or waiting to be closed.
-/
theorem unstalled_writeVisit (sound : c.Sound) (running : ¬c.membership.close = true)
    (listed : c.membership.write = true) : c.Unstalled (c.writeVisit key chains buffer) owed := by
  rw [writeVisit, if_neg running]
  refine unstalled_of_written sound ?_ (fun outcome => ?_) fun outcome => ?_
  · cases c.writePending.outcome <;> rfl
  · rw [outcome]
    exact listed
  · rw [outcome]
    exact chains.contains_enqueue .close key _ .close

/-- Whatever a worker comes for, no output is stalled when it goes. -/
theorem unstalled_visit (key : Nat) (chains : WorkChains) (buffer : Bytes) (errand : Errand δ)
    (sound : c.Sound) (off : c.codec.writeSignal = false)
    (listed : errand = .write → c.membership.write = true)
    (heard : ∀ turn, (c.visit key chains buffer errand).turn = some turn →
      ∀ i ∈ c.instants turn, i.takesSignal = false)
    (output : c.hasPendingOutput = true →
      c.membership.close = true ∨ c.membership.write = true ∨ owed) :
    c.Unstalled (c.visit key chains buffer errand) owed := by
  by_cases closing : c.membership.close = true
  · exact unstalled_of_closing sound off closing errand
  have idle : c.Unstalled (c.idleVisit chains buffer) owed := by
    refine ⟨sound, off, fun pending => ?_⟩
    refine (output pending).imp_right (Or.imp_right fun owed => .inr ⟨owed, fun turn given => ?_⟩)
    have none : (c.idleVisit chains buffer).turn = none := rfl
    rw [none] at given
    cases given
  cases errand with
  | read =>
    rw [visit, readVisit, if_neg closing] at heard ⊢
    simp only at heard ⊢
    have read : c.Unstalled
        (c.busyVisit key chains (c.readAvailable buffer).buffer (.read buffer)) owed := by
      refine unstalled_busyVisit sound trivial (heard _ ?_) output
      cases (c.readAvailable buffer).outcome <;> exact turn_busyVisit
    cases (c.readAvailable buffer).outcome with
    | drained => exact read.leave_read
    | interrupted => exact read.mono rfl (fun set => set) fun set => set
    | closed => exact read.leave_read.join_close key
  | write => exact unstalled_writeVisit sound closing (listed rfl)
  | pull =>
    rw [visit, pullVisit] at heard ⊢
    split
    · exact idle
    · rename_i pulls
      rw [if_neg pulls] at heard
      exact unstalled_busyVisit sound trivial (heard _ turn_busyVisit) output
  | start request =>
    rw [visit, startVisit, if_neg closing] at heard ⊢
    exact unstalled_busyVisit sound trivial (heard _ turn_busyVisit) output
  | sort report =>
    refine ⟨sound_visited sound _, off, fun pending => ?_⟩
    rcases output pending with close | write | owed
    · exact .inl (chains.contains_schedule key report .close close)
    · exact .inr (.inl (chains.contains_schedule key report .write write))
    · refine .inr (.inr (.inr ⟨owed, ?_⟩))
      rintro turn ⟨⟩
      exact ⟨(fun same => by cases same), fun i member => by cases member⟩
  | doom => exact idle.join_close key

end Connection

/-! ## Runs -/

namespace Connection

/-- A connection that is just admitted has nothing to write. -/
theorem Fresh.welcomed {c : Connection δ σ} (fresh : c.Fresh) :
    c.welcomed.Sound ∧ c.welcomed.codec.writeSignal = false ∧ c.welcomed.hasPendingOutput = false := by
  obtain ⟨id, socket, handler, role, maxFrameSize, app, rfl⟩ := fresh
  unfold Connection.welcomed
  split
  · exact ⟨(Sound.fresh (.create role maxFrameSize)).meet _ _, rfl, rfl⟩
  · exact ⟨.fresh (.create role maxFrameSize), rfl, rfl⟩

end Connection

namespace Shift

/-- The last write of a connection was blocked, and nothing was queued on it since. -/
def Owed (id : ConnectionId) (past : List (Step δ σ)) : Prop :=
  ∃ before x after c, past = before ++ x :: after ∧ x.use? = some ⟨c, .write⟩ ∧ c.id = id ∧
    c.writePending.outcome = .blocked ∧
      ∀ y ∈ after, ∀ u ∈ y.use?, u.connection.id = id → u.Quiet

/-- What a blocked write owes stays owed while the connection is left quiet. -/
theorem Owed.concat {id : ConnectionId} {past : List (Step δ σ)} (owed : Owed id past) {x : Step δ σ}
    (quiet : ∀ u ∈ x.use?, u.connection.id = id → u.Quiet) : Owed id (past ++ [x]) := by
  obtain ⟨before, write, after, c, rfl, use, same, blocked, later⟩ := owed
  refine ⟨before, write, after ++ [x], c, by simp, use, same, blocked, fun y member => ?_⟩
  rcases List.mem_append.mp member with member | member
  · exact later y member
  · rw [List.mem_singleton.mp member]
    exact quiet

/-- No connection of the worker is stalled, after these steps. -/
def Flowing (past : List (Step δ σ)) (s : Shift δ σ) : Prop :=
  ∀ key c, s.at? key = some c →
    c.Sound ∧ c.codec.writeSignal = false ∧
      (c.hasPendingOutput = true →
        c.membership.close = true ∨ c.membership.write = true ∨ Owed c.id past)

/-- Only keys taken off the write chain are written. -/
theorem serve_of_write {s : Shift δ σ} {t : Task δ σ} {key : Nat}
    (goes : s.errand? t = some (key, .write)) : t = .serve .write := by
  cases t with
  | serve chain =>
    cases chain with
    | read =>
      obtain ⟨front, -, same⟩ := Option.map_eq_some_iff.mp goes
      cases same
    | write => rfl
    | close => cases goes
  | start id request =>
    obtain ⟨found, -, same⟩ := Option.map_eq_some_iff.mp goes
    cases same
  | sort | take | fetch | handBack | takeOver | pull | doom => cases goes

/-- Every step leaves output flowing, if nobody but the worker takes the write signal. -/
theorem Flowing.step {past : List (Step δ σ)} {x : Step δ σ} (flowing : Flowing past x.shift)
    (sited : x.shift.Sited) (tied : x.task = .serve .write → x.shift.Tied .write) (proper : x.Proper)
    (heard : ∀ u ∈ x.use?, ∀ i ∈ u.connection.instants u.turn, i.takesSignal = false) :
    Flowing (past ++ [x]) x.next := by
  obtain ⟨s, t⟩ := x
  intro key held found
  cases origin found with
  | kept found apart =>
    obtain ⟨sound, off, output⟩ := flowing key held found
    refine ⟨sound, off, fun pending => (output pending).imp_right (Or.imp_right fun owed => ?_)⟩
    exact owed.concat fun u used same => absurd same (sited.apart found apart u used)
  | @admitted c came =>
    obtain ⟨sound, off, none⟩ := (proper c came).1.welcomed
    exact ⟨sound, off, fun pending => absurd (none.symm.trans pending) Bool.noConfusion⟩
  | @visited c errand taken goes here takes =>
    have use := use?_of_visit goes here
    obtain ⟨sound, off, output⟩ := flowing key c here
    have listed : errand = .write → c.membership.write = true := by
      rintro rfl
      obtain ⟨rest, front, -⟩ := takes
      exact flags_of_found here ▸ ((tied (serve_of_write goes)).found front).1
    obtain ⟨sound, off, output⟩ := Connection.unstalled_visit key s.worker.work.chains
      s.worker.work.buffer errand sound off listed
      (fun turn given => heard ⟨c, turn⟩ (by rw [use, given]; rfl)) output
    refine ⟨sound, off, fun pending => (output pending).imp_right (Or.imp_right fun owed => ?_)⟩
    rw [Connection.id_visited]
    rcases owed with ⟨written, blocked⟩ | ⟨owed, quiet⟩
    · exact ⟨past, ⟨s, t⟩, [], c, rfl, by rw [use, written]; rfl, rfl, blocked,
        fun y member => absurd member List.not_mem_nil⟩
    · refine owed.concat fun u used same => ?_
      rw [use] at used
      obtain ⟨turn, given, rfl⟩ := Option.map_eq_some_iff.mp used
      exact quiet turn given

end Shift

/-- However a worker runs, between any two of its steps, up to and including the turn in which it stops,
every connection has its write signal off; and one with output to write that is not on the close chain is
on the write chain, or its last write was blocked and nothing was queued on it since. Applications may
queue whatever they like, but must leave the write signal to the worker. -/
theorem pending_output_is_not_stalled (bufferSize : Nat) (rounds : List (Round δ σ)) (last : Round δ σ)
    (lasting : ∀ r ∈ rounds, r.ends = false)
    (fresh : ∀ c ∈ Round.sent (rounds ++ [last]), c.Fresh)
    (distinct : ((Round.sent (rounds ++ [last])).map Connection.id).Nodup)
    (heard : ∀ x ∈ (Shift.idle bufferSize : Shift δ σ).history (rounds ++ [last]), ∀ u ∈ x.use?,
      ∀ i ∈ u.connection.instants u.turn, i.takesSignal = false) :
    ∀ (before : List (Shift.Step δ σ)) (x : Shift.Step δ σ) (after : List (Shift.Step δ σ)),
      (Shift.idle bufferSize : Shift δ σ).history (rounds ++ [last]) = before ++ x :: after →
        x.shift.taken = {} → ∀ key c, x.shift.at? key = some c →
          c.codec.writeSignal = false ∧
            (c.hasPendingOutput = true → key ∉ x.shift.worker.work.chains.close →
              key ∈ x.shift.worker.work.chains.write ∨ Shift.Owed c.id before) := by
  have proper := Shift.proper_history (Shift.awaits_idle bufferSize fresh distinct)
  have linked := Shift.linked_history lasting (.idle bufferSize) rfl proper
  have releases : ∀ x ∈ (Shift.idle bufferSize : Shift δ σ).history (rounds ++ [last]),
      x.task = .serve .close → x.shift.taken ≠ {} :=
    Shift.history_rule rfl fun r s => Shift.taken_of_release r
  have sited : ∀ x ∈ (Shift.idle bufferSize : Shift δ σ).history (rounds ++ [last]), x.shift.Sited :=
    Shift.history_keep (.idle bufferSize) fun x member sited => sited.perform (proper x member)
  have flowing := Shift.history_keep_past (P := Shift.Flowing) (fun key c found => by cases found)
    fun past x member flowing => flowing.step (sited x member)
      (fun write => (linked x member (by simp [write])).tied .write) (proper x member)
      (heard x member)
  intro before x after split rested key c found
  have member : x ∈ (Shift.idle bufferSize : Shift δ σ).history (rounds ++ [last]) := by
    rw [split]
    exact List.mem_append_right _ List.mem_cons_self
  have linked := linked x member fun release => releases x member release rested
  obtain ⟨-, off, output⟩ := flowing before x after split key c found
  have listed : ∀ chain, key ∈ x.shift.worker.work.chains.keys chain ↔
      c.membership.contains chain = true := by
    intro chain
    rw [← Shift.flags_of_found found, ← WorkChains.Ties.mem_waiting (linked.tied chain key),
      WorkChains.waiting, rested, WorkChains.keys_empty, List.nil_append]
  refine ⟨off, fun pending away => ?_⟩
  rcases output pending with close | write | owed
  · exact absurd ((listed .close).mpr close) away
  · exact .inl ((listed .write).mpr write)
  · exact .inr owed

/-- A client whose socket takes four bytes of a request and then no more. Three times the worker has
output for it and nothing on the write chain. -/
theorem pending_output_is_not_stalled_when_blocked :
    let c : Connection Unit Unit :=
      { id := ⟨0, 0⟩, socket := { outgoing := [.accept 4, .failure .wouldBlock] }
        endpoint := ⟨.create .client 16384, ()⟩
        handler := { onHeaders := fun _ _ _ _ => .done (), onBody := fun _ _ _ _ => .done () } }
    let request : Request Unit := { fields := [{ name := "a", value := "b" }], hasBody := false }
    let s : Shift Unit Unit := .idle 8
    let rounds : List (Round Unit Unit) :=
      [{ mail := { connections := [c], requests := [(⟨0, 0⟩, request)] } }]
    let last : Round Unit Unit := { reports := [(0, { writable := true })] }
    (s.history (rounds ++ [last])).countP (fun x =>
        (x.shift.at? 0).any (·.hasPendingOutput) && x.shift.waiting .write == []) = 3 ∧
      ∀ (before : List (Shift.Step Unit Unit)) (x : Shift.Step Unit Unit) (after),
        s.history (rounds ++ [last]) = before ++ x :: after → x.shift.taken = {} →
          ∀ c, x.shift.at? 0 = some c → c.hasPendingOutput = true →
            0 ∉ x.shift.worker.work.chains.close →
              0 ∈ x.shift.worker.work.chains.write ∨ Shift.Owed c.id before := by
  intro c request s rounds last
  have holds := pending_output_is_not_stalled 8 rounds last (by decide)
    (by
      rintro c' member
      rw [List.mem_singleton.mp member]
      exact ⟨_, _, _, .client, 16384, (), rfl⟩)
    (by decide) (by decide +kernel)
  refine ⟨by decide +kernel, fun before x after split rested c found pending => ?_⟩
  exact (holds before x after split rested 0 c found).2 pending

end Http2
