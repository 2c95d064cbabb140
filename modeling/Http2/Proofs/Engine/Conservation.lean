import Http2.Proofs.Engine.Balance

/-!
# No connection is lost or doubled between the threads

If no worker dies and no wait for reports fails, then a worker that has come to its end was told to quit
and has nothing left, and when the manager has shut down all workers have come to their end
(`Engine.Orderly`). With the balance of the engine this says where each connection is at every moment of
every interleaving, and that in the end everything is reclaimed (`connections_are_conserved`).
-/

namespace Http2

variable {δ σ : Type}

/-- A step in which the worker does not die, and waiting for reports does not fail. -/
def Thread.Move.isOrderly : Thread.Move → Bool
  | .die => false
  | .begin _ failed => !failed
  | _ => true

/-! ## One worker -/

namespace Bench

/-- What holds of a worker that does not die, as long as waiting for reports never fails. -/
structure Orderly (b : Bench δ σ) : Prop where
  wakes : b.thread.stage ≠ .serving true
  /-- A worker in its last turn was told to quit. Nothing comes to it any more, and after what is due
  nothing is left in its slab. -/
  ends : b.thread.stage = .settling true ∨ b.thread.stage = .ended →
    b.slot.quit = true ∧ b.slot.mailbox.connections = [] ∧
      ∀ key, (b.shift.run b.thread.due).at? key = none
  stops : b.slot.stopped = true → b.thread.stage = .ended

namespace Orderly

variable {b : Bench δ σ} {m : Thread.Move}

/-- A worker that has not begun keeps to order. -/
theorem fresh (bufferSize : Nat) :
    ({ slot := { worker := .idle bufferSize } } : Bench δ σ).Orderly where
  wakes := nofun
  ends last := last.elim nofun nofun
  stops := nofun

/-- Order is a matter of the worker, the mail and the flags, not of the load. -/
theorem congr {s s' : Slot δ σ} {thread : Thread δ σ}
    (orderly : ({ slot := s, thread } : Bench δ σ).Orderly) (worker : s'.worker = s.worker)
    (mail : s'.mailbox.connections = s.mailbox.connections) (quit : s.quit = true → s'.quit = true)
    (stopped : s'.stopped = s.stopped) : ({ slot := s', thread } : Bench δ σ).Orderly := by
  obtain ⟨wakes, ends, stops⟩ := orderly
  refine ⟨wakes, fun last => ?_, fun gone => stops (stopped ▸ gone)⟩
  obtain ⟨told, empty, left⟩ := ends last
  refine ⟨quit told, mail.trans empty, ?_⟩
  simpa only [shift, worker] using left

/-- A connection comes only to a worker that was not told to quit. -/
theorem received (orderly : b.Orderly) (c : Connection δ σ) (running : b.slot.quit = false) :
    (b.received c).Orderly where
  wakes := orderly.wakes
  ends last := by
    have told := (orderly.ends last).1
    rw [running] at told
    cases told
  stops := orderly.stops

/-- A step that is orderly keeps a worker orderly. -/
theorem move (orderly : b.Orderly) (sound : b.Sound) (fine : m.isOrderly = true) :
    (b.move m).bench.Orderly := by
  have running {stage : Stage} (here : b.thread.stage = stage) (going : stage ≠ .ended) :
      b.slot.stopped ≠ true := fun gone => going (here.symm.trans (orderly.stops gone))
  have effect := b.effect m
  generalize b.move m = moved at effect ⊢
  cases effect with
  | still => exact orderly
  | @begun reports failed stage =>
    have woken : failed = false := by simpa [Thread.Move.isOrderly] using fine
    subst woken
    refine ⟨by rintro ⟨⟩, ?_, fun gone => absurd gone (running stage (by rintro ⟨⟩))⟩
    exact fun last => last.elim (by rintro ⟨⟩) (by rintro ⟨⟩)
  | @worked t rest due =>
    refine ⟨orderly.wakes, fun last => ?_, orderly.stops⟩
    obtain ⟨told, empty, left⟩ := orderly.ends last
    rw [due] at left
    exact ⟨told, empty, left⟩
  | @fetched failed stage done =>
    have woken : failed = false := by
      cases failed with
      | false => rfl
      | true => exact absurd stage orderly.wakes
    subst woken
    refine ⟨by rintro ⟨⟩, fun last => ?_, fun gone => absurd gone (running stage (by rintro ⟨⟩))⟩
    have ends : (b.round false).ends = true := last.elim Stage.settling.inj (by rintro ⟨⟩)
    have quit : b.slot.quit = true := by simpa [Round.ends, round] using ends
    have mail : b.arriving = b.slot.mailbox.connections := by
      rw [arriving, incoming, done]
      rfl
    refine ⟨quit, rfl, fun key => ?_⟩
    have empty := Shift.at?_last_turn ends sound.sited sound.tied (sound.rested done)
      (mail ▸ sound.awaits) key
    have passed := b.shift.run_append ((b.round false).middle b.shift).tail
      ((b.shift.run ((b.round false).middle b.shift)).passTasks .close)
    exact (congrArg (·.at? key) passed).trans empty
  | @delivered last stage done =>
    refine ⟨?_, fun ended => ?_, fun gone => absurd gone (running stage (by rintro ⟨⟩))⟩
    · cases last <;> rintro ⟨⟩
    · cases last with
      | true => exact orderly.ends (.inl stage)
      | false => exact ended.elim (by rintro ⟨⟩) (by rintro ⟨⟩)
  | stopped stage => exact ⟨orderly.wakes, orderly.ends, fun _ => stage⟩
  | died stage => cases fine

/-- A worker that has come to its end has nothing left. -/
theorem tally_ended (orderly : b.Orderly) (sound : b.Sound) (ended : b.thread.stage = .ended)
    (id : ConnectionId) : b.tally id = 0 := by
  obtain ⟨done, released⟩ := sound.idle (.inr ended)
  obtain ⟨-, mail, left⟩ := orderly.ends (.inr ended)
  rw [done] at left
  have slab : b.shift.slab = [] := by
    refine List.eq_nil_iff_forall_not_mem.mpr fun c member => ?_
    obtain ⟨key, found⟩ := Shift.mem_slab.mp member
    cases (left key).symm.trans found
  rw [tally, arriving, incoming, keeping, done, mail, slab, released]
  rfl

/-- A worker that has come to its end hands nothing over. -/
theorem finished_ended (orderly : b.Orderly) (sound : b.Sound) (ended : b.thread.stage = .ended)
    (m : Thread.Move) : (b.move m).finished = [] := by
  refine List.eq_nil_iff_forall_not_mem.mpr fun c member => ?_
  have kept := sound.conserves m c.id
  have present := List.count_pos_iff.mpr (List.mem_map_of_mem (f := Connection.id) member)
  rw [orderly.tally_ended sound ended] at kept
  omega

end Orderly

end Bench

/-! ## All of them -/

namespace Engine

/-- A step in which no worker dies, and waiting for reports does not fail. -/
def Move.isOrderly : Move δ σ → Bool
  | .worker _ m => m.isOrderly
  | _ => true

/-- What holds of an engine in which no worker dies, as long as waiting for reports never fails. -/
structure Orderly (e : Engine δ σ) : Prop where
  benches : ∀ index b, e.bench? index = some b → b.Orderly
  told : e.desk = .receiving → ∀ index b, e.bench? index = some b → b.slot.quit = false
  joined : ∀ next, e.desk = .joining next →
    ∀ index b, index < next → e.bench? index = some b → b.slot.stopped = true
  closed : e.desk = .closed →
    (∀ index b, e.bench? index = some b → b.slot.stopped = true) ∧ e.pool.finished = []

namespace Orderly

variable {config : Config} {past : List (Entry δ)} {e : Engine δ σ} {index : Nat} {b : Bench δ σ}

/-- At the start the manager is receiving, and no worker has stopped. -/
theorem start (config : Config) (workers : Nat) :
    (Engine.start config workers : Engine δ σ).Orderly := by
  refine ⟨fun index b found => ?_, fun _ index b found => ?_, nofun, nofun⟩
  · rw [bench?_start found]
    exact .fresh _
  · rw [bench?_start found]

/-- A step of a worker. -/
theorem worker (orderly : e.Orderly) (sound : Sound config past e) (found : e.bench? index = some b)
    {m : Thread.Move} (fine : m.isOrderly = true) : (e.seat index (b.move m)).Orderly := by
  have before := orderly.benches index b found
  have here := (sound.benches index b found).sound
  obtain ⟨-, -, quit, stays⟩ := b.slot_move m
  have there {P : Bench δ σ → Prop} (mine : P b → P (b.move m).bench) {other : Nat} {b' : Bench δ σ}
      (found' : (e.seat index (b.move m)).bench? other = some b')
      (all : ∀ b', e.bench? other = some b' → P b') : P b' := by
    rcases bench_of_seat found found' with ⟨rfl, rfl⟩ | ⟨-, found'⟩
    · exact mine (all b found)
    · exact all b' found'
  constructor
  · exact fun other b' found' =>
      there (fun orderly => orderly.move here fine) found' (orderly.benches other)
  · exact fun receiving other b' found' =>
      there (P := fun b => b.slot.quit = false) (fun running => quit.trans running) found'
        (orderly.told receiving other)
  · exact fun next joining other b' below found' =>
      there (P := fun b => b.slot.stopped = true) stays found' fun b' =>
        orderly.joined next joining other b' below
  · intro closed
    obtain ⟨gone, empty⟩ := orderly.closed closed
    refine ⟨fun other b' found' =>
      there (P := fun b => b.slot.stopped = true) stays found' (gone other), ?_⟩
    have none := before.finished_ended here (before.stops (gone index b found)) m
    exact (congrArg₂ (· ++ ·) empty none).trans rfl

/-- The manager changes a slot, before it has shut down. -/
theorem touch (orderly : e.Orderly) {f : Slot δ σ → Slot δ σ} (unclosed : e.desk ≠ .closed)
    (mine : ∀ b, e.bench? index = some b → ({ b with slot := f b.slot } : Bench δ σ).Orderly)
    (told : ∀ s, e.desk = .receiving → s.quit = false → (f s).quit = false)
    (stopped : ∀ s, (f s).stopped = s.stopped) : (e.touch index f).Orderly := by
  have there {P : Bench δ σ → Prop}
      (mine : ∀ b, e.bench? index = some b → P b → P { b with slot := f b.slot })
      {other : Nat} {b' : Bench δ σ} (found : (e.touch index f).bench? other = some b')
      (all : ∀ b', e.bench? other = some b' → P b') : P b' := by
    obtain ⟨b, held, ⟨rfl, rfl⟩ | ⟨-, rfl⟩⟩ := bench_of_touch found
    · exact mine b held (all b held)
    · exact all b' held
  constructor
  · exact fun other b' found => there (fun b held _ => mine b held) found (orderly.benches other)
  · exact fun receiving other b' found =>
      there (P := fun b => b.slot.quit = false) (fun b _ => told b.slot receiving) found
        (orderly.told receiving other)
  · exact fun next joining other b' below found =>
      there (P := fun b => b.slot.stopped = true) (fun b _ => (stopped b.slot).trans) found
        fun b' => orderly.joined next joining other b' below
  · exact fun closed => absurd closed unclosed

/-- Everything that is finished is reclaimed. -/
theorem reclaimed (orderly : e.Orderly) : e.reclaimed.engine.Orderly := by
  have there {P : Bench δ σ → Prop}
      (mine : ∀ (b : Bench δ σ) count, P b → P { b with slot := b.slot.relieved count })
      {other : Nat} {b' : Bench δ σ} (found : e.reclaimed.engine.bench? other = some b')
      (all : ∀ b', e.bench? other = some b' → P b') : P b' := by
    rw [bench?_reclaimed] at found
    obtain ⟨b, held, rfl⟩ := Option.map_eq_some_iff.mp found
    exact mine b _ (all b held)
  constructor
  · exact fun other b' found =>
      there (fun b _ orderly => orderly.congr rfl rfl id rfl) found (orderly.benches other)
  · exact fun receiving other b' found =>
      there (P := fun b => b.slot.quit = false) (fun _ _ => id) found (orderly.told receiving other)
  · exact fun next joining other b' below found =>
      there (P := fun b => b.slot.stopped = true) (fun _ _ => id) found
        fun b' => orderly.joined next joining other b' below
  · exact fun closed => ⟨fun other b' found =>
      there (P := fun b => b.slot.stopped = true) (fun _ _ => id) found
        ((orderly.closed closed).1 other), e.finished_reclaimed⟩

/-- Every step in which no worker dies and no wait fails keeps order. -/
theorem move (orderly : e.Orderly) (sound : Sound config past e) {m : Move δ σ}
    (fine : m.isOrderly = true) : (e.move m).engine.Orderly := by
  have effect := e.effect m
  generalize e.move m = moved at effect ⊢
  cases effect with
  | still => exact orderly
  | placed receiving found room fresh name =>
    refine orderly.touch (by simp [receiving]) (fun b held => ?_) (fun _ _ => id) fun _ => rfl
    exact (orderly.benches _ b held).received _ (orderly.told receiving _ b held)
  | sent receiving found known =>
    exact orderly.touch (by simp [receiving])
      (fun b held => (orderly.benches _ b held).congr rfl rfl id rfl) (fun _ _ => id) fun _ => rfl
  | reclaimed receiving => exact orderly.reclaimed
  | closing receiving => exact ⟨orderly.benches, nofun, nofun, nofun⟩
  | @told next telling =>
    have told : (e.touch next fun s => { s with quit := true }).Orderly :=
      orderly.touch (by simp [telling])
        (fun b held => (orderly.benches _ b held).congr rfl rfl (fun _ => rfl) rfl)
        (fun _ receiving => by simp [telling] at receiving) fun _ => rfl
    exact ⟨told.benches, nofun, nofun, nofun⟩
  | waiting telling =>
    refine ⟨orderly.benches, nofun, fun next joining index _ below => ?_, nofun⟩
    cases joining
    exact absurd below (Nat.not_lt_zero index)
  | @joined next s joining found stopped =>
    refine ⟨orderly.benches, nofun, fun next' joining' index b below held => ?_, nofun⟩
    cases joining'
    rcases Nat.lt_succ_iff_lt_or_eq.mp below with below | rfl
    · exact orderly.joined next joining index b below held
    · rw [slot_of_bench? held] at found
      exact Option.some.inj found ▸ stopped
  | @closed next joining beyond =>
    have after := orderly.reclaimed
    refine ⟨after.benches, nofun, nofun, fun _ => ⟨fun index b held => ?_, e.finished_reclaimed⟩⟩
    refine after.joined next joining index b ?_ held
    have kept := (bench?_reclaimed e index).symm.trans held
    obtain ⟨b', held', -⟩ := Option.map_eq_some_iff.mp kept
    have inside := (List.getElem?_eq_some_iff.mp (slot_of_bench? held')).1
    exact Nat.lt_of_lt_of_le inside (List.getElem?_eq_none_iff.mp beyond)
  | worked found m => exact orderly.worker sound found fine

/-- Nothing is lost as long as no worker dies. -/
theorem lost_move (e : Engine δ σ) {m : Move δ σ} (fine : m.isOrderly = true) :
    Log.lost (e.move m).events = [] := by
  have effect := e.effect m
  generalize e.move m = moved at effect ⊢
  cases effect with
  | still | placed | sent | closing | told | waiting | joined => rfl
  | reclaimed | closed => exact (Sound.entries_reclaimed e).2.1
  | @worked index b found m =>
    refine b.lost_move ?_
    rintro rfl
    cases fine

/-- In a run in which no worker dies and no wait fails, order is kept and nothing is lost. -/
theorem run (config : Config) (workers : Nat) {moves : List (Move δ σ)}
    (orderly : ∀ m ∈ moves, m.isOrderly = true) :
    let start : Engine δ σ := .start config workers
    (start.run moves).Orderly ∧ Log.lost (start.trace moves) = [] := by
  obtain ⟨-, kept, lost⟩ := run_rule
    (P := fun past e => Sound config past e ∧ e.Orderly ∧ Log.lost past = []) []
    ⟨.start config workers, .start config workers, rfl⟩
    fun past e m member ⟨sound, here, lost⟩ =>
      ⟨sound.move m, here.move sound (orderly m member),
        by rw [Log.lost_append, lost, lost_move e (orderly m member), List.append_nil]⟩
  exact ⟨kept, lost⟩

/-- When the manager has shut down, no worker has a connection. -/
theorem tally_closed (orderly : e.Orderly) (sound : Sound config past e) (closed : e.desk = .closed)
    (id : ConnectionId) : e.tally id = 0 := by
  unfold tally
  cases found : e.bench? id.worker with
  | none => rfl
  | some b =>
    have mine := orderly.benches id.worker b found
    have ended := mine.stops ((orderly.closed closed).1 id.worker b found)
    exact mine.tally_ended (sound.benches id.worker b found).sound ended id

end Orderly

namespace Sound

variable {config : Config} {past : List (Entry δ)} {e : Engine δ σ}

/-- No name is given twice. -/
theorem nodup_placed (sound : Sound config past e) : (Log.placed past).Nodup := by
  refine List.nodup_iff_count_le_one.mpr fun id => ?_
  by_cases member : id ∈ Log.placed past
  · obtain ⟨b, found⟩ := Option.isSome_iff_exists.mp (sound.inside id member)
    have serials := (sound.benches id.worker b found).serials
    have distinct : ((List.range b.slot.nextSerial).map fun serial =>
        (⟨id.worker, serial⟩ : ConnectionId)).Nodup :=
      List.nodup_range.map fun _ _ same => (ConnectionId.mk.inj same).2
    rw [← List.count_filter (p := (·.worker = id.worker)) (decide_eq_true rfl), serials]
    exact List.nodup_iff_count_le_one.mp distinct id
  · rw [List.count_eq_zero.mpr member]
    exact Nat.zero_le 1

/-- A connection that was placed is in one place only. -/
theorem whereabouts (sound : Sound config past e) (lost : Log.lost past = []) {id : ConnectionId}
    (member : id ∈ Log.placed past) :
    ∃ b, e.bench? id.worker = some b ∧
      (b.arriving.map Connection.id).count id + (b.keeping.map Connection.id).count id +
        (e.pool.finished.map Connection.id).count id + (Log.reclaimed past).count id = 1 := by
  obtain ⟨b, found⟩ := Option.isSome_iff_exists.mp (sound.inside id member)
  have balance := sound.balance id
  rw [List.count_eq_one_of_mem sound.nodup_placed member, lost, tally, found] at balance
  exact ⟨b, found, balance.symm⟩

/-- What is with a worker was placed there. -/
theorem mem_placed (sound : Sound config past e) {index : Nat} {b : Bench δ σ}
    (found : e.bench? index = some b) {c : Connection δ σ} (member : c ∈ b.arriving ++ b.keeping) :
    c.id ∈ Log.placed past ∧ c.id.worker = index := by
  have here : 0 < b.tally c.id := by
    rw [Bench.tally, ← List.count_append, ← List.map_append]
    exact List.count_pos_iff.mpr (List.mem_map_of_mem member)
  obtain ⟨home, -⟩ := (sound.benches index b found).homed c.id (Nat.ne_of_gt here)
  have balance := sound.balance c.id
  rw [tally, home, found, Option.elim_some] at balance
  exact ⟨List.count_pos_iff.mp (by omega), home⟩

/-- When what is finished is reclaimed, each connection is still on the load of its worker. -/
theorem discharges (sound : Sound config past e) {before after : List (Connection δ σ)}
    {c : Connection δ σ} (split : e.pool.finished = before ++ c :: after) :
    ∃ s, (before.foldl Pool.discharge { e.pool with finished := [] }).slots[c.id.worker]? = some s ∧
      0 < s.active := by
  have named : c.id ∈ Log.reclaimed past ++ e.pool.finished.map Connection.id :=
    List.mem_append_right _ (List.mem_map_of_mem (split ▸ by simp))
  obtain ⟨b, found⟩ := Option.isSome_iff_exists.mp
    (sound.inside c.id (sound.subperm_placed.subset named))
  have enough := sound.countP_finished found
  rw [split, List.map_append, List.map_cons, List.countP_append, List.countP_cons, List.countP_map,
    if_pos (decide_eq_true rfl)] at enough
  obtain ⟨-, -, -, slots⟩ := Pool.discharge_all before { e.pool with finished := [] }
  refine ⟨_, (slots c.id.worker).trans (congrArg _ (slot_of_bench? found)), ?_⟩
  refine Nat.sub_pos_of_lt (Nat.lt_of_lt_of_le ?_ enough)
  exact Nat.lt_of_lt_of_le (Nat.lt_succ_of_le (Nat.le_add_right _ _)) (Nat.le_of_eq (by rfl))

end Sound

/-- Whatever the manager and the workers do, and whichever of them goes on next, as long as no worker dies
and no wait for reports fails: each connection that was placed is in one place, once, which is the mailbox
of its worker or the way out of it, the slab of its worker or the way out of it, what is finished, or what
is reclaimed. Each has a name of its own, and there are no others. The load of a worker is the number of
connections placed there and not reclaimed, it stays within the limit, and is never lowered below zero.
When the manager has shut down, what was placed is reclaimed, each connection once. -/
theorem connections_are_conserved (config : Config) (workers : Nat) (moves : List (Move δ σ))
    (orderly : ∀ m ∈ moves, m.isOrderly = true) :
    let start : Engine δ σ := .start config workers
    let e := start.run moves
    let placed := Log.placed (start.trace moves)
    let reclaimed := Log.reclaimed (start.trace moves)
    let finished := e.pool.finished.map Connection.id
    placed.Nodup ∧
      (∀ id ∈ placed, ∃ b, e.bench? id.worker = some b ∧
        (b.arriving.map Connection.id).count id + (b.keeping.map Connection.id).count id +
          finished.count id + reclaimed.count id = 1) ∧
      (∀ index b, e.bench? index = some b → ∀ c ∈ b.arriving ++ b.keeping,
        c.id ∈ placed ∧ c.id.worker = index) ∧
      reclaimed ++ finished ⊆ placed ∧
      (∀ index s, e.pool.slots[index]? = some s →
        s.active + reclaimed.countP (·.worker = index) = placed.countP (·.worker = index) ∧
          s.active ≤ config.connectionsPerThread) ∧
      (∀ before c after, e.pool.finished = before ++ c :: after →
        ∃ s, (before.foldl Pool.discharge { e.pool with finished := [] }).slots[c.id.worker]? = some s ∧
          0 < s.active) ∧
      (e.desk = .closed → placed.Perm reclaimed) := by
  intro start e placed reclaimed finished
  have sound : Sound config (start.trace moves) e := .run config workers moves
  obtain ⟨order, lost⟩ : e.Orderly ∧ Log.lost (start.trace moves) = [] :=
    Orderly.run config workers orderly
  refine ⟨sound.nodup_placed, fun id => sound.whereabouts lost, fun index b found c => ?_,
    sound.subperm_placed.subset, fun index s found => ?_, fun before c after => sound.discharges,
    fun closed => ?_⟩
  · exact sound.mem_placed found
  · have booked := sound.benches index _ (bench?_of_slot found)
    exact ⟨booked.load.trans booked.countP_placed.symm, booked.room⟩
  · refine List.perm_iff_count.mpr fun id => ?_
    have balance := sound.balance id
    rw [order.tally_closed sound closed, (order.closed closed).2, lost] at balance
    simpa using balance

/-- A pool of one worker, with room for two connections. The first of two sockets cannot be registered, and
the worker hands it back. When it is reclaimed there is room for a third one, but the manager begins to
shut down before the worker has looked. In its last turn the worker hands the third one back and closes the
second one. -/
theorem connections_are_conserved_at_shutdown :
    let handler : Handler Unit Unit :=
      { onHeaders := fun _ _ _ _ => .done (), onBody := fun _ _ _ _ => .done () }
    let turn (moves : List Thread.Move) : List (Move Unit Unit) := moves.map (.worker 0)
    let moves : List (Move Unit Unit) :=
      [.place { registration := some (.hard "Other") } handler (), .place {} handler ()] ++
        turn [.begin [] false, .fetch, .work, .work, .work, .work, .deliver] ++
        [.reclaim, .place {} handler (), .shutDown, .shutDown] ++
        turn [.begin [] false, .fetch, .work, .work, .work, .work, .work, .deliver, .stop] ++
        [.shutDown, .shutDown, .shutDown]
    let start : Engine Unit Unit := .start { connectionsPerThread := 2, readBufferSize := 1 } 1
    (∀ m ∈ moves, m.isOrderly = true) ∧ (start.run moves).desk = .closed ∧
      Log.placed (start.trace moves) = [⟨0, 0⟩, ⟨0, 1⟩, ⟨0, 2⟩] ∧
        (Log.placed (start.trace moves)).Perm (Log.reclaimed (start.trace moves)) := by
  intro handler turn moves start
  obtain ⟨-, -, -, -, -, -, last⟩ :=
    connections_are_conserved { connectionsPerThread := 2, readBufferSize := 1 } 1 moves (by decide)
  exact ⟨by decide, by decide +kernel, by decide +kernel, last (by decide +kernel)⟩

end Engine

end Http2
