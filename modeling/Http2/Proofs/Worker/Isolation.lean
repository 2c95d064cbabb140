import Http2.Proofs.Connection.Reading
import Http2.Proofs.Worker.Visit
import Mathlib.Data.List.Nodup

/-!
# Connections of a worker are apart

All connections of a worker read, and pull bodies, through one buffer. Reading hands on what was just read,
so that what it gives depends on the length of the buffer only (`readAvailable_alike`). Pulling a body sends
as many bytes from the front of the buffer as the application counts. If it counts no more than it stored,
this does not depend on what the buffer held before either, and passes over the connections of two workers
that have one connection in common keep it the same (`connections_are_isolated`). An application that counts
more sends what was read from others (`not_isolated_of_overcounting`).
-/

namespace Http2

variable {δ σ : Type}

/-- What an application answers when it is asked for a piece of a body does not depend on what the buffer
held before. -/
def Handler.Blind (h : Handler δ σ) : Prop :=
  ∀ app id (buffer buffer' : Bytes), buffer.length = buffer'.length →
    h.onDataNeeded app id buffer = h.onDataNeeded app id buffer'

/-- The bytes that an application counts, as far as they fit the buffer, are bytes that it stored. -/
def Handler.Stores (h : Handler δ σ) : Prop :=
  ∀ app id (buffer : Bytes) (codec : Codec δ),
    let reply := ((h.onDataNeeded app id buffer).run codec).1
    min reply.chunk.written buffer.length ≤ reply.stored.length

/-- What was stored is at the front of the buffer. -/
theorem take_overlay {buffer front : Bytes} {count : Nat} (stored : count ≤ front.length)
    (fits : count ≤ buffer.length) : (overlay buffer front).take count = front.take count := by
  rw [overlay, List.take_append_of_le_length, List.take_take, Nat.min_eq_left fits]
  rw [List.length_take]
  omega

namespace Connection

/-! ## Reading -/

/-- What one read does. -/
theorem readAvailable_step (c : Connection δ σ) (buffer : Bytes) :
    c.readAvailable buffer =
      match c.socket.read buffer.length with
      | (.ok bytes, socket) =>
        if bytes = [] then
          { connection := { c with socket, health := { c.health with hungUp := true } }
            buffer
            outcome := .closed }
        else
          match ({ c with socket } : Connection δ σ).takeIn bytes with
          | (connection, none) => connection.readAvailable (overlay buffer bytes)
          | (connection, some _) =>
            { connection, buffer := overlay buffer bytes, outcome := .closed }
      | (.error .wouldBlock, socket) => { connection := { c with socket }, buffer, outcome := .drained }
      | (.error .interrupted, socket) =>
        { connection := { c with socket }, buffer, outcome := .interrupted }
      | (.error (.hard name), socket) =>
        { connection := ({ c with socket } : Connection δ σ).noteError (.hard name)
          buffer
          outcome := .closed } := by
  fun_cases readAvailable c buffer with
  | case1 socket c' found => simp [found, c']
  | case2 bytes socket found c' some connection fed =>
    simp only [found, if_neg some]
    rw [fed]
  | case3 bytes socket found c' some connection fault fed =>
    simp only [found, if_neg some]
    rw [fed]
  | case4 socket found => simp [found]
  | case5 socket found => simp [found]
  | case6 name socket found => simp [found]

/-- What comes of reading depends on the length of the buffer only. -/
theorem readAvailable_alike (c : Connection δ σ) (buffer : Bytes) :
    ∀ buffer' : Bytes, buffer.length = buffer'.length →
      (c.readAvailable buffer).connection = (c.readAvailable buffer').connection ∧
        (c.readAvailable buffer).outcome = (c.readAvailable buffer').outcome ∧
          (c.readAvailable buffer).buffer.length = (c.readAvailable buffer').buffer.length := by
  induction c, buffer using readAvailable.induct_unfolding with
  | case1 c buffer socket c' found =>
    intro buffer' room
    rw [readAvailable_step, ← room, found]
    exact ⟨rfl, rfl, room⟩
  | case2 c buffer bytes socket found c' some connection fed ih =>
    intro buffer' room
    rw [readAvailable_step c buffer', ← room, found]
    simp only [if_neg some]
    rw [fed]
    exact ih _ (by rw [length_overlay, length_overlay, room])
  | case3 c buffer bytes socket found c' some connection fault fed =>
    intro buffer' room
    rw [readAvailable_step, ← room, found]
    simp only [if_neg some]
    rw [fed]
    exact ⟨rfl, rfl, by rw [length_overlay, length_overlay, room]⟩
  | case4 c buffer socket found | case5 c buffer socket found | case6 c buffer name socket found =>
    intro buffer' room
    rw [readAvailable_step, ← room, found]
    exact ⟨rfl, rfl, room⟩

/-! ## Pulling bodies -/

/-- The bytes that an application counts do not depend on what the buffer held before. -/
theorem piece_alike {buffer buffer' : Bytes} (room : buffer.length = buffer'.length)
    {reply : BodyReply σ} (enough : min reply.chunk.written buffer.length ≤ reply.stored.length) :
    let filled := overlay buffer reply.stored
    let filled' := overlay buffer' reply.stored
    filled.take (min reply.chunk.written filled.length) =
      filled'.take (min reply.chunk.written filled'.length) := by
  intro filled filled'
  have within : min reply.chunk.written buffer.length ≤ buffer.length := Nat.min_le_right _ _
  have size : filled.length = buffer.length := length_overlay buffer reply.stored
  have size' : filled'.length = buffer.length := (length_overlay buffer' reply.stored).trans room.symm
  rw [size, size', take_overlay enough within, take_overlay enough (room ▸ within)]

/-- What comes of pulling one body depends on the length of the buffer only. -/
theorem pullBody_alike (c : Connection δ σ) {buffer buffer' : Bytes} (id : UInt32)
    (room : buffer.length = buffer'.length) (blind : c.handler.Blind) (stores : c.handler.Stores) :
    (c.pullBody buffer id).1 = (c.pullBody buffer' id).1 ∧
      (c.pullBody buffer id).2.length = (c.pullBody buffer' id).2.length := by
  have asked := blind c.endpoint.app id buffer buffer' room
  have enough := stores c.endpoint.app id buffer c.codec
  unfold pullBody
  rw [← asked]
  generalize (c.handler.onDataNeeded c.endpoint.app id buffer).run c.codec = answer at enough ⊢
  obtain ⟨reply, codec⟩ := answer
  have lengths : (overlay buffer reply.stored).length = (overlay buffer' reply.stored).length := by
    rw [length_overlay, length_overlay, room]
  simp only [piece_alike room enough]
  rcases codec.pushData id _ reply.chunk.finished with ⟨fault | ⟨⟩, queued⟩
  · exact ⟨rfl, lengths⟩
  · exact ⟨rfl, lengths⟩

/-- What comes of pulling bodies depends on the length of the buffer only. -/
theorem pullBodies_alike (c : Connection δ σ) {buffer buffer' : Bytes}
    (room : buffer.length = buffer'.length) (blind : c.handler.Blind) (stores : c.handler.Stores) :
    (c.pullBodies buffer).1 = (c.pullBodies buffer').1 ∧
      (c.pullBodies buffer).2.length = (c.pullBodies buffer').2.length := by
  have all (ids : List UInt32) : ∀ (c : Connection δ σ) (buffer buffer' : Bytes),
      buffer.length = buffer'.length → c.handler.Blind → c.handler.Stores →
        let pull := fun (pulled : Connection δ σ × Bytes) id => pulled.1.pullBody pulled.2 id
        (ids.foldl pull (c, buffer)).1 = (ids.foldl pull (c, buffer')).1 ∧
          (ids.foldl pull (c, buffer)).2.length = (ids.foldl pull (c, buffer')).2.length := by
    induction ids with
    | nil => exact fun c buffer buffer' room _ _ => ⟨rfl, room⟩
    | cons id ids ih =>
      intro c buffer buffer' room blind stores pull
      obtain ⟨same, left⟩ := c.pullBody_alike id room blind stores
      have blindNext : (c.pullBody buffer id).1.handler.Blind := by rwa [handler_pullBody]
      have storesNext : (c.pullBody buffer id).1.handler.Stores := by rwa [handler_pullBody]
      have pulled : pull (c, buffer') id = ((c.pullBody buffer id).1, (c.pullBody buffer' id).2) := by
        rw [same]
      rw [List.foldl_cons, List.foldl_cons, pulled]
      exact ih (c.pullBody buffer id).1 _ _ left blindNext storesNext
  exact all c.inProgress { c with inProgress := [] } buffer buffer' room blind stores

end Connection

/-! ## Visits -/

/-- Two visits to a connection, with other keys on the chains and other bytes in the buffer, that make no
difference to it. -/
structure Worker.Visit.Alike (c : Connection δ σ) (key : Nat) (v v' : Worker.Visit δ σ) : Prop where
  attended : c.attend v.turn = c.attend v'.turn
  membership : v.membership = v'.membership
  listed : ∀ chain, (v.chains.keys chain).count key = (v'.chains.keys chain).count key
  room : v.buffer.length = v'.buffer.length

namespace Worker.Visit.Alike

variable {c : Connection δ σ} {key : Nat} {v v' : Worker.Visit δ σ}

/-- Visits that are alike stay so if both leave a chain. -/
theorem leave (alike : Alike c key v v') (chain : Chain) :
    Alike c key (v.leave chain) (v'.leave chain) :=
  ⟨alike.attended, congrArg (·.remove chain) alike.membership, alike.listed, alike.room⟩

/-- Visits that are alike stay so if both come back on a chain. -/
theorem stay (alike : Alike c key v v') (chain : Chain) :
    Alike c key (v.stay key chain) (v'.stay key chain) := by
  refine ⟨alike.attended, alike.membership, fun line => ?_, alike.room⟩
  simp only [Worker.Visit.stay, WorkChains.keys_relink]
  split
  · rw [List.count_append, List.count_append, alike.listed chain]
  · exact alike.listed line

/-- Visits that are alike stay so if both join a chain. -/
theorem join (alike : Alike c key v v') (chain : Chain) :
    Alike c key (v.join key chain) (v'.join key chain) := by
  obtain ⟨turn, membership, chains, buffer⟩ := v
  obtain ⟨turn', membership', chains', buffer'⟩ := v'
  obtain ⟨attended, same, listed, room⟩ := alike
  obtain rfl : membership = membership' := same
  unfold Worker.Visit.join WorkChains.enqueue
  by_cases there : membership.contains chain = true
  · simp only [if_pos there]
    exact ⟨attended, rfl, listed, room⟩
  · simp only [if_neg there]
    refine ⟨attended, rfl, fun line => ?_, room⟩
    simp only [WorkChains.keys_relink]
    split
    · rw [List.count_append, List.count_append, listed chain]
    · exact listed line

end Worker.Visit.Alike

namespace Connection

open Worker.Visit (Alike)

variable (c : Connection δ σ) {key : Nat} {chains chains' : WorkChains} {buffer buffer' : Bytes}

/-- A turn that does the same to a connection makes visits that are alike. -/
theorem alike_busyVisit (turn turn' : Turn δ σ) (same : c.turn turn = c.turn turn')
    (attended : c.attend (some turn) = c.attend (some turn'))
    (listed : ∀ chain, (chains.keys chain).count key = (chains'.keys chain).count key)
    (room : buffer.length = buffer'.length) :
    Alike c key (c.busyVisit key chains buffer turn) (c.busyVisit key chains' buffer' turn') := by
  have visited : Alike c key
      { turn := some turn, membership := c.membership, chains, buffer }
      { turn := some turn', membership := c.membership, chains := chains', buffer := buffer' } :=
    ⟨attended, rfl, listed, room⟩
  unfold busyVisit
  rw [same]
  split
  · exact visited.join .write
  · exact visited

/-- What comes of a visit in a pass depends neither on the other keys on the chains nor on what the buffer
held before. -/
theorem visit_alike (blind : c.handler.Blind) (stores : c.handler.Stores)
    (listed : ∀ chain, (chains.keys chain).count key = (chains'.keys chain).count key)
    (room : buffer.length = buffer'.length) {errand : Errand δ}
    (passing : errand = .read ∨ errand = .write ∨ errand = .pull) :
    Alike c key (c.visit key chains buffer errand) (c.visit key chains' buffer' errand) := by
  have idle : Alike c key (c.idleVisit chains buffer) (c.idleVisit chains' buffer') :=
    ⟨rfl, rfl, listed, room⟩
  rcases passing with rfl | rfl | rfl
  · obtain ⟨same, outcome, left⟩ := c.readAvailable_alike buffer buffer' room
    rw [visit, visit, readVisit, readVisit]
    split
    · exact idle.leave .read
    · have busy := c.alike_busyVisit (.read buffer) (.read buffer') same
        (congrArg (·.takeWriteSignal.2) same) listed left
      simp only [outcome]
      split
      · exact busy.leave .read
      · exact busy.stay .read
      · exact (busy.leave .read).join .close
  · rw [visit, visit, writeVisit, writeVisit]
    split
    · exact idle.leave .write
    · have busy : Alike c key
          { turn := some .write, membership := c.membership, chains, buffer }
          { turn := some .write, membership := c.membership, chains := chains', buffer := buffer' } :=
        ⟨rfl, rfl, listed, room⟩
      simp only
      split
      · exact busy.leave .write
      · exact busy.leave .write
      · exact busy.stay .write
      · exact (busy.leave .write).join .close
  · obtain ⟨same, left⟩ := c.pullBodies_alike room blind stores
    rw [visit, visit, pullVisit, pullVisit]
    split
    · exact idle
    · exact c.alike_busyVisit (.pull buffer) (.pull buffer') same
        (congrArg (·.takeWriteSignal.2) same) listed left

/-! ## What visits to others leave alone -/

/-- A read gives the buffer back with the length it had. -/
theorem length_readAvailable (buffer : Bytes) : (c.readAvailable buffer).buffer.length = buffer.length := by
  induction c, buffer using readAvailable.induct_unfolding with
  | case2 c buffer bytes socket found c' some connection fed ih =>
    rw [ih, length_overlay]
  | case3 c buffer bytes socket found c' some connection fault fed => exact length_overlay buffer bytes
  | case1 | case4 | case5 | case6 => rfl

/-- A pull gives the buffer back with the length it had. -/
theorem length_pullBodies (buffer : Bytes) : (c.pullBodies buffer).2.length = buffer.length := by
  have all (ids : List UInt32) : ∀ pulled : Connection δ σ × Bytes,
      (ids.foldl (fun pulled id => pulled.1.pullBody pulled.2 id) pulled).2.length =
        pulled.2.length := by
    induction ids with
    | nil => exact fun _ => rfl
    | cons id ids ih =>
      intro pulled
      have one : (pulled.1.pullBody pulled.2 id).2.length = pulled.2.length := by
        rw [pullBody_eq, length_overlay]
      exact (ih _).trans one
  exact all c.inProgress _

/-- The shared buffer keeps its length. -/
theorem length_visit (key : Nat) (chains : WorkChains) (buffer : Bytes) (errand : Errand δ) :
    (c.visit key chains buffer errand).buffer.length = buffer.length := by
  have busy (buffer : Bytes) (turn : Turn δ σ) :
      (c.busyVisit key chains buffer turn).buffer = buffer := by
    unfold busyVisit
    split <;> rfl
  cases errand with
  | read =>
    rw [visit, readVisit]
    split
    · rfl
    · simp only
      split
      all_goals exact (congrArg List.length (busy _ _)).trans (c.length_readAvailable buffer)
  | write =>
    rw [visit, writeVisit]
    split
    · rfl
    · simp only
      split <;> rfl
  | pull =>
    rw [visit, pullVisit]
    split
    · rfl
    · exact (congrArg List.length (busy _ _)).trans (c.length_pullBodies buffer)
  | start request =>
    rw [visit, startVisit]
    split
    · rfl
    · exact congrArg List.length (busy _ _)
  | sort | doom => rfl

/-- No visit changes the handler. -/
theorem handler_visited (v : Worker.Visit δ σ) : (c.visited v).handler = c.handler := by
  change (c.attend v.turn).handler = c.handler
  unfold attend
  split
  · rfl
  · exact c.handler_turn .write
  · rfl
  · exact c.handler_turn _

end Connection

/-- A key can be taken off the chain that an errand is for. -/
theorem Errand.exists_takes (errand : Errand δ) (key : Nat) :
    ∃ taken taken', errand.Takes key taken taken' := by
  unfold Takes
  split
  · exact ⟨{}, {}, rfl⟩
  · rename_i chain _
    exact ⟨({} : WorkChains).assign chain [key], _, [], by simp, rfl⟩

/-! ## Passes -/

namespace Workload

/-- A pass of a worker over its connections. -/
inductive Pass where
  | read
  | write
  | advance

variable (w : Workload δ σ)

/-- The workload after a pass. -/
def pass : Pass → Workload δ σ
  | .read => w.readPass
  | .write => w.writePass
  | .advance => w.advance

/-- The workload after any number of passes. -/
def passes (passes : List Pass) : Workload δ σ :=
  passes.foldl pass w

variable {w} {w' w'' : Workload δ σ} {key : Nat} {h : Handler δ σ}

/-- Two workloads that have the same connection in a slot, equally often on the chains, and buffers of the
same length. The other connections may differ, and what is in the buffers. -/
structure Alike (key : Nat) (h : Handler δ σ) (w w' : Workload δ σ) : Prop where
  mine : ∃ c, c.handler = h ∧ w.connections.get? key = some c ∧ w'.connections.get? key = some c
  listed : ∀ chain, (w.chains.keys chain).count key = (w'.chains.keys chain).count key
  room : w.buffer.length = w'.buffer.length

namespace Alike

protected theorem symm (alike : Alike key h w w') : Alike key h w' w := by
  obtain ⟨⟨c, handler, found, found'⟩, listed, room⟩ := alike
  exact ⟨⟨c, handler, found', found⟩, fun chain => (listed chain).symm, room.symm⟩

protected theorem trans (first : Alike key h w w') (second : Alike key h w' w'') : Alike key h w w'' := by
  obtain ⟨⟨c, handler, found, there⟩, listed, room⟩ := first
  obtain ⟨⟨c', -, there', found'⟩, listed', room'⟩ := second
  obtain rfl := Option.some.inj (there.symm.trans there')
  exact ⟨⟨c, handler, found, found'⟩, fun chain => (listed chain).trans (listed' chain),
    room.trans room'⟩

end Alike

/-- Whether a step of the workload is a visit on an errand, if there is a connection in the slot. -/
def Serves (step : Workload δ σ → Nat → Workload δ σ) (errand : Errand δ) : Prop :=
  ∀ w key, (w.connections.get? key = none → step w key = w) ∧
    ∀ c, w.connections.get? key = some c →
      step w key = w.visited key c (c.visit key w.chains w.buffer errand)

/-- The read pass visits each of its connections for reading. -/
theorem serves_readOne : Serves (readOne (δ := δ) (σ := σ)) .read := fun _ _ =>
  ⟨fun vacant => modify_of_vacant vacant _, fun _ => readOne_eq⟩

/-- The write pass visits each of its connections for writing. -/
theorem serves_writeOne : Serves (writeOne (δ := δ) (σ := σ)) .write := fun _ _ =>
  ⟨fun vacant => modify_of_vacant vacant _, fun _ => writeOne_eq⟩

/-- Advancing visits each connection for pulling its bodies. -/
theorem serves_advanceOne : Serves (advanceOne (δ := δ) (σ := σ)) .pull := fun _ _ =>
  ⟨fun vacant => modify_of_vacant vacant _, fun _ => advanceOne_eq⟩

namespace Alike

variable {step : Workload δ σ → Nat → Workload δ σ} {errand : Errand δ}

/-- Serving another connection makes no difference. -/
theorem other (alike : Alike key h w w') (serves : Serves step errand) {other : Nat}
    (different : other ≠ key) : Alike key h (step w other) w' := by
  obtain ⟨vacant, visits⟩ := serves w other
  cases there : w.connections.get? other with
  | none =>
    rw [vacant there]
    exact alike
  | some c =>
    rw [visits c there]
    obtain ⟨⟨mine, handler, found, found'⟩, listed, room⟩ := alike
    obtain ⟨taken, taken', takes⟩ := errand.exists_takes other
    have moves := c.moves_visit w.chains w.buffer errand takes
    refine ⟨⟨mine, handler, ?_, found'⟩, fun chain => ?_, (c.length_visit _ _ _ _).trans room⟩
    · exact (Arena.get?_put_of_ne _ _ (Ne.symm different)).trans found
    · exact (moves.sameBut.2 chain key (Ne.symm different)).trans (listed chain)

/-- Serving the connection makes no difference either, if the application stores what it counts. -/
theorem own (alike : Alike key h w w') (serves : Serves step errand)
    (passing : errand = .read ∨ errand = .write ∨ errand = .pull) (blind : h.Blind)
    (stores : h.Stores) : Alike key h (step w key) (step w' key) := by
  obtain ⟨⟨c, rfl, found, found'⟩, listed, room⟩ := alike
  rw [(serves w key).2 c found, (serves w' key).2 c found']
  obtain ⟨attended, membership, listed, room⟩ :=
    c.visit_alike blind stores listed room passing
  have same : c.visited (c.visit key w'.chains w'.buffer errand) =
      c.visited (c.visit key w.chains w.buffer errand) := by
    rw [Connection.visited, Connection.visited, attended, membership]
  refine ⟨⟨_, c.handler_visited _, w.get?_visited key c _, ?_⟩, listed, room⟩
  rw [← same]
  exact w'.get?_visited key c _

/-- Serving the keys of a pass makes no difference, whichever other keys there are. -/
theorem foldl (alike : Alike key h w w') (serves : Serves step errand)
    (passing : errand = .read ∨ errand = .write ∨ errand = .pull) (blind : h.Blind)
    (stores : h.Stores) {keys keys' : List Nat} (times : keys.count key = keys'.count key) :
    Alike key h (keys.foldl step w) (keys'.foldl step w') := by
  -- either pass serves the connection so often, and nothing else matters
  have alone (keys : List Nat) : ∀ {w w' : Workload δ σ}, Alike key h w w' →
      Alike key h (keys.foldl step w) ((List.replicate (keys.count key) key).foldl step w') := by
    induction keys with
    | nil => exact id
    | cons other keys ih =>
      intro w w' alike
      by_cases mine : other = key
      · subst mine
        rw [List.count_cons_self, List.replicate_succ]
        exact ih (alike.own serves passing blind stores)
      · rw [List.count_cons_of_ne mine]
        exact ih (alike.other serves mine)
  have first := alone keys alike
  have second := alone keys' (alike.symm.trans alike)
  rw [← times] at second
  exact first.trans second.symm

/-- A pass makes no difference. -/
theorem pass (alike : Alike key h w w') (blind : h.Blind) (stores : h.Stores) (p : Pass) :
    Alike key h (w.pass p) (w'.pass p) := by
  obtain ⟨mine, listed, room⟩ := alike
  have detached (chain : Chain) : Alike key h (w.detach chain).2 (w'.detach chain).2 := by
    refine ⟨mine, fun line => ?_, room⟩
    simp only [detach, WorkChains.detach, WorkChains.keys_assign]
    split
    · rfl
    · exact listed line
  cases p with
  | read => exact (detached .read).foldl serves_readOne (.inl rfl) blind stores (listed .read)
  | write =>
    exact (detached .write).foldl serves_writeOne (.inr (.inl rfl)) blind stores (listed .write)
  | advance =>
    obtain ⟨c, handler, found, found'⟩ := mine
    have once {w : Workload δ σ} (found : w.connections.get? key = some c) :
        w.connections.keys.count key = 1 := by
      refine List.count_eq_one_of_mem w.connections.slots.nodup_keys (Arena.mem_keys.mpr ?_)
      rw [found]
      rfl
    have all : Alike key h w w' := ⟨⟨c, handler, found, found'⟩, listed, room⟩
    exact all.foldl serves_advanceOne (.inr (.inr rfl)) blind stores
      ((once found).trans (once found').symm)

end Alike

end Workload

/-- Two workloads have the same connection in a slot. What else they have may differ: the other connections
with their applications and the bytes of their peers, the other keys on the chains, and what the shared
buffer holds. If the application of the connection does not look at what the buffer held before, and stores
the bytes that it counts, then the connection is the same in both after the same passes, with what it has
read and written and with the state of its application, which may keep all calls. -/
theorem connections_are_isolated {w w' : Workload δ σ} {key : Nat} {h : Handler δ σ}
    (alike : w.Alike key h w') (blind : h.Blind) (stores : h.Stores) (passes : List Workload.Pass) :
    ∃ c, (w.passes passes).connections.get? key = some c ∧
      (w'.passes passes).connections.get? key = some c := by
  have after : (w.passes passes).Alike key h (w'.passes passes) := by
    induction passes generalizing w w' with
    | nil => exact alike
    | cons p passes ih => exact ih (alike.pass blind stores p)
  obtain ⟨c, -, found, found'⟩ := after.mine
  exact ⟨c, found, found'⟩

/-- A workload of two connections. The peer of the first one sends a byte three times, and the second one
has a request in progress. -/
def Workload.ofTwo (h : Handler Unit Unit) (byte : UInt8) : Workload Unit Unit :=
  let first : Connection Unit Unit :=
    { id := ⟨0, 0⟩
      socket := { incoming := [.data [byte, byte, byte]] }
      handler := h
      endpoint := ⟨.create .client 16384, ()⟩
      membership := { read := true } }
  let second : Connection Unit Unit :=
    { id := ⟨0, 1⟩, socket := {}, handler := h, endpoint := ⟨.create .client 16384, ()⟩
      membership := { write := true } }
  { connections := (({} : Arena _).insert first).2.insert (second.startRequest {}).2 |>.2
    chains := { read := [0], write := [1] }
    buffer := [0, 0, 0, 0] }

/-- The two workloads differ in what the first connection receives, and that is nothing to the second. -/
theorem Workload.alike_ofTwo (h : Handler Unit Unit) (byte byte' : UInt8) :
    (Workload.ofTwo h byte).Alike 1 h (Workload.ofTwo h byte') := by
  refine ⟨⟨_, ?_, Arena.get?_insert _ _ 1, Arena.get?_insert _ _ 1⟩, fun _ => rfl, rfl⟩
  rfl

/-- An application that stores two bytes and counts them is sent for as it should be, whatever the peer of
the other connection sends. -/
theorem connections_are_isolated_of_two :
    let h : Handler Unit Unit :=
      { onHeaders := fun _ _ _ _ => .done (), onBody := fun _ _ _ _ => .done ()
        onDataNeeded := fun app _ _ =>
          .done { app, stored := [7, 7], chunk := { written := 2, finished := true } } }
    let after (byte : UInt8) := (Workload.ofTwo h byte).passes [.write, .read, .advance, .write]
    (Workload.ofTwo h 1).Alike 1 h (Workload.ofTwo h 2) ∧ h.Blind ∧ h.Stores ∧
      (∃ c, (after 1).connections.get? 1 = some c ∧ (after 2).connections.get? 1 = some c) ∧
        ((after 1).connections.get? 1).map (·.socket.output.drop 9) =
          some [0, 0, 2, 0, 1, 0, 0, 0, 1, 7, 7] := by
  intro h after
  have blind : h.Blind := fun _ _ _ _ _ => rfl
  have stores : h.Stores := fun _ _ _ _ => Nat.min_le_left _ _
  have alike := Workload.alike_ofTwo h 1 2
  exact ⟨alike, blind, stores,
    connections_are_isolated alike blind stores [.write, .read, .advance, .write], by decide +kernel⟩

/-- An application that counts three bytes and stores none sends what was read from the other connection. -/
theorem not_isolated_of_overcounting :
    let h : Handler Unit Unit :=
      { onHeaders := fun _ _ _ _ => .done (), onBody := fun _ _ _ _ => .done ()
        onDataNeeded := fun app _ _ => .done { app, chunk := { written := 3, finished := true } } }
    let after (byte : UInt8) := (Workload.ofTwo h byte).passes [.write, .read, .advance, .write]
    (Workload.ofTwo h 1).Alike 1 h (Workload.ofTwo h 2) ∧ h.Blind ∧
      ((after 1).connections.get? 1).map (·.socket.output.drop 9) =
          some [0, 0, 3, 0, 1, 0, 0, 0, 1, 1, 1, 1] ∧
        ((after 2).connections.get? 1).map (·.socket.output.drop 9) =
          some [0, 0, 3, 0, 1, 0, 0, 0, 1, 2, 2, 2] :=
  ⟨Workload.alike_ofTwo _ 1 2, fun _ _ _ _ _ => rfl, by decide +kernel, by decide +kernel⟩

end Http2
