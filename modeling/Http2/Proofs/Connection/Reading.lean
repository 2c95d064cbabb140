import Http2.Connection.Read
import Http2.Proofs.Codec.Reachable
import Http2.Proofs.Codec.Trace

/-!
# Reading does not see how bytes arrive

`Socket.arriving` is what the read script of a socket yields up to the point where reading ends, and
`Socket.ending` is how it ends there; neither depends on where the script is cut into pieces or
interrupted. `readThrough` reads again after every interruption. `readThrough_eq` says that the bytes
arriving are processed as one byte string, through buffers of any sizes.
-/

namespace Http2

variable {δ σ : Type}

namespace Socket

/-- The bytes that a read script yields before reading ends. -/
def arriving : List Incoming → Bytes
  | .data (byte :: bytes) :: rest => byte :: bytes ++ arriving rest
  | .failure .interrupted :: rest => arriving rest
  | _ => []

/-- How reading a script ends if no frame is faulty. A read that finds no bytes has met the end of
the stream. -/
def ending : List Incoming → ReadOutcome
  | .data (_ :: _) :: rest => ending rest
  | .failure .interrupted :: rest => ending rest
  | [] => .drained
  | .failure .wouldBlock :: _ => .drained
  | _ => .closed

/-- An interruption anywhere in a script is not seen. -/
theorem arriving_ending_interrupted (front back : List Incoming) :
    arriving (front ++ .failure .interrupted :: back) = arriving (front ++ back) ∧
      ending (front ++ .failure .interrupted :: back) = ending (front ++ back) := by
  induction front with
  | nil => simp [arriving, ending]
  | cons step front ih =>
    rcases step with ⟨_ | ⟨byte, bytes⟩⟩ | _ | ⟨_ | _ | _⟩ <;>
      simp [arriving, ending, ih]

/-- A cut anywhere in a script is not seen. -/
theorem arriving_ending_cut (front back : List Incoming) {bytes more : Bytes}
    (some : bytes ≠ []) (someMore : more ≠ []) :
    arriving (front ++ .data bytes :: .data more :: back) =
        arriving (front ++ .data (bytes ++ more) :: back) ∧
      ending (front ++ .data bytes :: .data more :: back) =
        ending (front ++ .data (bytes ++ more) :: back) := by
  obtain ⟨byte, bytes, rfl⟩ := List.exists_cons_of_ne_nil some
  obtain ⟨next, more, rfl⟩ := List.exists_cons_of_ne_nil someMore
  induction front with
  | nil => simp [arriving, ending]
  | cons step front ih =>
    rcases step with ⟨_ | ⟨byte, bytes⟩⟩ | _ | ⟨_ | _ | _⟩ <;>
      simp [arriving, ending, ih]

/-- What the answer to a read says about a script, of which `rest` is left. -/
def Answers (script rest : List Incoming) : Except SocketError Bytes → Prop
  | .ok [] => arriving script = [] ∧ ending script = .closed
  | .ok (byte :: bytes) =>
    arriving script = byte :: bytes ++ arriving rest ∧ ending script = ending rest
  | .error .wouldBlock => arriving script = [] ∧ ending script = .drained
  | .error .interrupted => arriving script = arriving rest ∧ ending script = ending rest
  | .error (.hard _) => arriving script = [] ∧ ending script = .closed

/-- What a read yields is the front of what the script has. -/
theorem Answers.of_some {script rest : List Incoming} {bytes : Bytes}
    (answers : Answers script rest (.ok bytes)) (some : bytes ≠ []) :
    arriving script = bytes ++ arriving rest ∧ ending script = ending rest := by
  cases bytes with
  | nil => exact absurd rfl some
  | cons byte bytes => exact answers

/-- A read of at least one byte answers as its script has it. -/
theorem answers_read (s : Socket) {room : Nat} (some : 0 < room) :
    Answers s.incoming (s.read room).2.incoming (s.read room).1 := by
  cases script : s.incoming with
  | nil => simp [read, script, Answers, arriving, ending]
  | cons step rest =>
    cases step with
    | endOfStream => simp [read, script, Answers, arriving, ending]
    | failure error => cases error <;> simp [read, script, Answers, arriving, ending]
    | data content =>
      cases content with
      | nil => simp [read, script, Answers, arriving, ending]
      | cons byte bytes =>
        obtain ⟨count, rfl⟩ : ∃ count, room = count + 1 := ⟨room - 1, by omega⟩
        simp only [read, script, List.take_succ_cons, List.drop_succ_cons, Answers]
        cases left : bytes.drop count with
        | nil =>
          have all : bytes.take count = bytes :=
            List.take_of_length_le (List.drop_eq_nil_iff.mp left)
          simp [arriving, ending, all]
        | cons next later =>
          -- the unread part of the step is never empty, so it does not end the stream
          have joined : byte :: bytes.take count ++ next :: later = byte :: bytes := by
            rw [← left, List.cons_append, List.take_append_drop]
          simp only [List.isEmpty_cons, Bool.false_eq_true, if_false, arriving, ending, and_true]
          rw [← List.append_assoc, joined]

/-- A read that is interrupted uses up a step of the script. -/
theorem incomingWeight_interrupted {s s' : Socket} {room : Nat}
    (found : s.read room = (.error .interrupted, s')) : s'.incomingWeight < s.incomingWeight := by
  unfold read at found
  split at found
  · simp at found
  · simp at found
  · rename_i error rest script
    cases found
    simp [incomingWeight, script, Incoming.weight]
  · simp at found

end Socket

namespace Connection

/-- A call that was interrupted used up a step of the read script. -/
theorem incomingWeight_readAvailable (c : Connection δ σ) (buffer : Bytes)
    (outcome : (c.readAvailable buffer).outcome = .interrupted) :
    (c.readAvailable buffer).connection.socket.incomingWeight < c.socket.incomingWeight := by
  induction c, buffer using readAvailable.induct_unfolding with
  | case1 c buffer socket found => simp at outcome
  | case2 c buffer bytes socket found c' some connection fed ih =>
    have same := socket_takeIn c' bytes
    rw [fed] at same
    have used := Socket.incomingWeight_read found some
    have later := ih outcome
    rw [same] at later
    exact Nat.lt_trans later used
  | case3 c buffer bytes socket found c' some connection fault fed => simp at outcome
  | case4 c buffer socket found => simp at outcome
  | case5 c buffer socket found => exact Socket.incomingWeight_interrupted found
  | case6 c buffer name socket found => simp at outcome

/-- Reads again after every interruption, each time into another buffer. -/
def readThrough (c : Connection δ σ) (buffers : Nat → Bytes) : Connection δ σ × ReadOutcome :=
  let result := c.readAvailable (buffers 0)
  if _again : result.outcome = .interrupted then
    readThrough result.connection fun i => buffers (i + 1)
  else
    (result.connection, result.outcome)
termination_by c.socket.incomingWeight
decreasing_by exact incomingWeight_readAvailable c (buffers 0) _again

/-- Endpoint and outcome after all arriving bytes are processed as one byte string. -/
def reading (c : Connection δ σ) : Endpoint δ σ × ReadOutcome :=
  let received := c.endpoint.process c.handler (Socket.arriving c.socket.incoming)
  (received.endpoint,
    if received.fault.isSome then .closed else Socket.ending c.socket.incoming)

/-- If nothing arrives, reading leaves the endpoint as it is and ends as the script does. -/
theorem reading_of_arriving_nil {c : Connection δ σ} (framed : c.codec.Framed)
    (none : Socket.arriving c.socket.incoming = []) :
    c.reading = (c.endpoint, Socket.ending c.socket.incoming) := by
  simp only [reading, none, Endpoint.process_nil framed, Option.isSome_none, Bool.false_eq_true,
    if_false]

/-- Bytes that cause no fault leave the same to come, once they are processed. -/
theorem reading_takeIn {c connection : Connection δ σ} {socket : Socket} {bytes : Bytes}
    (fed : ({ c with socket } : Connection δ σ).takeIn bytes = (connection, none))
    (arriving : Socket.arriving c.socket.incoming = bytes ++ Socket.arriving socket.incoming)
    (ending : Socket.ending c.socket.incoming = Socket.ending socket.incoming) :
    connection.reading = c.reading := by
  simp only [takeIn, Prod.mk.injEq] at fed
  obtain ⟨rfl, fine⟩ := fed
  simp only [reading, arriving, ending, Endpoint.process_append, Received.andThen_of_none fine]

/-- After bytes that cause a fault nothing is to come. -/
theorem reading_takeIn_fault {c connection : Connection δ σ} {socket : Socket} {bytes : Bytes}
    {fault : FrameError}
    (fed : ({ c with socket } : Connection δ σ).takeIn bytes = (connection, some fault))
    (arriving : Socket.arriving c.socket.incoming = bytes ++ Socket.arriving socket.incoming) :
    c.reading = (connection.endpoint, .closed) := by
  simp only [takeIn, Prod.mk.injEq] at fed
  obtain ⟨rfl, failed⟩ := fed
  simp only [reading, arriving, Endpoint.process_append, Received.andThen_of_some failed, failed,
    Option.isSome_some, if_true]

/-- A connection that takes in bytes stays framed. -/
theorem framed_takeIn {c : Connection δ σ} (framed : c.codec.Framed) (bytes : Bytes) :
    (c.takeIn bytes).1.codec.Framed :=
  Endpoint.framed_process c.handler c.endpoint bytes framed

/-- A buffer keeps its length, whatever is stored in it. -/
theorem length_overlay (buffer front : Bytes) : (overlay buffer front).length = buffer.length := by
  simp only [overlay, List.length_append, List.length_take, List.length_drop]
  omega

/-- One call gets all of `c.reading`, or is interrupted and leaves the rest of it to later calls. -/
theorem follows_readAvailable {c : Connection δ σ} {buffer : Bytes} (framed : c.codec.Framed)
    (room : 0 < buffer.length) :
    if (c.readAvailable buffer).outcome = .interrupted then
      (c.readAvailable buffer).connection.codec.Framed ∧
        (c.readAvailable buffer).connection.reading = c.reading
    else
      ((c.readAvailable buffer).connection.endpoint, (c.readAvailable buffer).outcome) =
        c.reading := by
  have answers := Socket.answers_read c.socket room
  induction c, buffer using readAvailable.induct_unfolding with
  | case1 c buffer socket c' found =>
    rw [found] at answers
    simp [reading_of_arriving_nil framed answers.1, answers.2, c']
  | case2 c buffer bytes socket found c' some connection fed ih =>
    rw [found] at answers
    obtain ⟨arriving, ending⟩ := answers.of_some some
    have framedNext : connection.codec.Framed := by
      have taken := framed_takeIn (c := c') framed bytes
      rwa [fed] at taken
    have roomNext : 0 < (overlay buffer bytes).length := by rwa [length_overlay]
    rw [← reading_takeIn fed arriving ending]
    exact ih framedNext roomNext (Socket.answers_read connection.socket roomNext)
  | case3 c buffer bytes socket found c' some connection fault fed =>
    rw [found] at answers
    simp [reading_takeIn_fault fed (answers.of_some some).1]
  | case4 c buffer socket found =>
    rw [found] at answers
    simp [reading_of_arriving_nil framed answers.1, answers.2]
  | case5 c buffer socket found =>
    rw [found] at answers
    simp only [if_true, reading, answers.1, answers.2, and_true]
    exact framed
  | case6 c buffer name socket found =>
    rw [found] at answers
    simp [reading_of_arriving_nil framed answers.1, answers.2, noteError]

/-- Reading again after every interruption processes the arriving bytes as one byte string. -/
theorem readThrough_eq {c : Connection δ σ} {buffers : Nat → Bytes} (framed : c.codec.Framed)
    (room : ∀ i, 0 < (buffers i).length) :
    ((c.readThrough buffers).1.endpoint, (c.readThrough buffers).2) = c.reading := by
  induction c, buffers using readThrough.induct_unfolding with
  | case1 c buffers result again ih =>
    have follows := follows_readAvailable framed (room 0)
    rw [if_pos again] at follows
    rw [← follows.2]
    exact ih follows.1 fun i => room (i + 1)
  | case2 c buffers result settled =>
    have follows := follows_readAvailable framed (room 0)
    rwa [if_neg settled] at follows

end Connection

/-! ## Boundaries are invisible -/

/-- Nothing depends on where the bytes given to an endpoint are cut: neither cutting them into
chunks, nor reading them from a socket that yields them in pieces of any sizes, through buffers of
any sizes, with any interruptions. -/
def Endpoint.IgnoresBoundaries (h : Handler δ σ) (e : Endpoint δ σ) : Prop :=
  (∀ chunks : List Bytes, e.processAll h chunks = e.process h chunks.flatten) ∧
    ∀ (c c' : Connection δ σ) (buffers buffers' : Nat → Bytes),
      c.endpoint = e → c'.endpoint = e → c.handler = h → c'.handler = h →
      Socket.arriving c.socket.incoming = Socket.arriving c'.socket.incoming →
      Socket.ending c.socket.incoming = Socket.ending c'.socket.incoming →
      (∀ i, 1 ≤ (buffers i).length) → (∀ i, 1 ≤ (buffers' i).length) →
      (c.readThrough buffers).1.endpoint = (c'.readThrough buffers').1.endpoint ∧
        (c.readThrough buffers).2 = (c'.readThrough buffers').2

/-- An endpoint between frames ignores boundaries, whatever its handler does. -/
theorem Endpoint.ignoresBoundaries (h : Handler δ σ) {e : Endpoint δ σ} (framed : e.codec.Framed) :
    e.IgnoresBoundaries h := by
  refine ⟨processAll_eq h framed, ?_⟩
  intro c c' buffers buffers' endpoint endpoint' handler handler' arriving ending room room'
  have framedHere : c.codec.Framed := by rwa [Connection.codec, endpoint]
  have framedThere : c'.codec.Framed := by rwa [Connection.codec, endpoint']
  have same : c.reading = c'.reading := by
    simp only [Connection.reading, endpoint, endpoint', handler, handler', arriving, ending]
  rw [← Connection.readThrough_eq framedHere room,
    ← Connection.readThrough_eq framedThere room'] at same
  exact Prod.mk.inj same

/-- Boundaries in the received bytes change neither the endpoint, nor the outcome, nor the history of
callbacks and of what they did. -/
theorem boundaries_are_invisible {c : Codec δ} (reachable : c.Reachable) (h : Handler δ σ)
    (app : σ) :
    Endpoint.IgnoresBoundaries h { codec := c, app } ∧
      Endpoint.IgnoresBoundaries h.traced { codec := c, app := (app, []) } :=
  ⟨Endpoint.ignoresBoundaries h reachable.framed,
    Endpoint.ignoresBoundaries h.traced reachable.framed⟩

/-- Holds of a fresh server whose application counts body bytes. -/
theorem boundaries_are_invisible_to_counter :
    (Codec.create .server 16384 : Codec Unit).Reachable ∧
      Endpoint.IgnoresBoundaries
        ({ onHeaders := fun total _ _ _ => .done total
           onBody := fun total _ data _ => .done (total + data.length) } : Handler Unit Nat)
        { codec := Codec.create .server 16384, app := 0 } :=
  ⟨.create .server 16384, (boundaries_are_invisible (.create .server 16384) _ 0).1⟩

end Http2
