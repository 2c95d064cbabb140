import Http2.Connection.Requests
import Http2.Connection.Write
import Http2.Proofs.Codec.Bounded
import Http2.Proofs.Codec.History
import Http2.Proofs.Connection.Reading

/-!
# Connections in use

A connection is used in turns: it is read, written, given requests and asked for their bodies, while
the application acts on its codec and the world changes its socket. `Connection.Sound` is what every
turn keeps: the codec is one that comes about by use, and the cursor is inside a frame that fits its
length field. It holds of a fresh connection, so it holds throughout: `Sound.serve`.
-/

namespace Http2

variable {δ σ : Type}

/-! ## Sockets report no more than they were given -/

namespace Socket

/-- A read finds no more bytes than the buffer has room for. -/
theorem length_of_read {s s' : Socket} {room : Nat} {bytes : Bytes}
    (found : s.read room = (.ok bytes, s')) : bytes.length ≤ room := by
  unfold read at found
  split at found
  · cases found
  · cases found
    exact Nat.zero_le _
  · cases found
  · cases found
    exact List.length_take_le _ _

/-- A write takes no more bytes than it is given. -/
theorem length_of_write {s s' : Socket} {bytes : Bytes} {count : Nat}
    (written : s.write bytes = (.ok count, s')) : count ≤ bytes.length := by
  unfold write at written
  split at written
  · split at written <;> cases written
    exact Nat.le_refl _
  · cases written
    exact Nat.min_le_right _ _
  · cases written

/-- What is written from a position on does not pass the end. -/
theorem add_le_of_write {s s' : Socket} {bytes : Bytes} {position count : Nat}
    (inside : position ≤ bytes.length) (written : s.write (bytes.drop position) = (.ok count, s')) :
    position + count ≤ bytes.length := by
  have taken := length_of_write written
  rw [List.length_drop] at taken
  omega

end Socket

/-! ## Turns -/

namespace Connection

/-- What is done to a connection in one turn. -/
inductive Turn (δ σ : Type) where
  /-- It is read, through a buffer with these contents. -/
  | read (buffer : Bytes)
  /-- Its queued frames are written. -/
  | write
  /-- A request is started on it. -/
  | start (request : Request δ)
  /-- The bodies in progress are pulled, through a buffer with these contents. -/
  | pull (buffer : Bytes)
  /-- The bodies in progress are given up. -/
  | abandon
  /-- Something is done to its endpoint, past the socket. -/
  | deed (deed : Deed δ σ)
  /-- The world changes: from here on the socket does something else. -/
  | meet (socket : Socket) (health : Health)

/-- The connection after one turn, however the turn ended. -/
def turn (c : Connection δ σ) : Turn δ σ → Connection δ σ
  | .read buffer => (c.readAvailable buffer).connection
  | .write => c.writePending.connection
  | .start request => (c.startRequest request).2
  | .pull buffer => (c.pullBodies buffer).1
  | .abandon => c.abandonRequests
  | .deed deed => { c with endpoint := c.endpoint.after c.handler deed }
  | .meet socket health => { c with socket, health }

/-- The connection after any number of turns. -/
def serve (c : Connection δ σ) : List (Turn δ σ) → Connection δ σ
  | [] => c
  | turn :: turns => (c.turn turn).serve turns

/-! ## What every turn keeps -/

/-- The codec is reachable, and the cursor is inside a frame that fits its length field. -/
structure Sound (c : Connection δ σ) : Prop where
  reachable : c.codec.Reachable
  cursor : ∀ frame cursor, c.sending = some (frame, cursor) →
    frame.length ≤ maxFrameLength ∧ cursor ≤ frame.toBytes.length

namespace Sound

variable {c : Connection δ σ}

/-- Nothing is being written on a fresh connection. -/
theorem fresh {id : ConnectionId} {socket : Socket} {handler : Handler δ σ} {e : Endpoint δ σ}
    (reachable : e.codec.Reachable) :
    ({ id, socket, handler, endpoint := e } : Connection δ σ).Sound :=
  ⟨reachable, by simp⟩

/-- What leaves the frame being written alone needs only to reach its codec. -/
theorem of_reachable (sound : c.Sound) {c' : Connection δ σ} (reachable : c'.codec.Reachable)
    (same : c'.sending = c.sending) : c'.Sound :=
  ⟨reachable, same ▸ sound.cursor⟩

/-- What the socket will do, and what is known about it, do not matter. -/
theorem meet (sound : c.Sound) (socket : Socket) (health : Health) :
    ({ c with socket, health } : Connection δ σ).Sound :=
  ⟨sound.reachable, sound.cursor⟩

/-! ## Reading -/

/-- Taking in bytes keeps a connection sound, whether they end in a fault or not. -/
theorem takeIn (sound : c.Sound) (bytes : Bytes) : (c.takeIn bytes).1.Sound :=
  sound.of_reachable (sound.reachable.process c.handler c.endpoint.app bytes) rfl

/-- Reading keeps a connection sound, however it ends. -/
theorem readAvailable (sound : c.Sound) (buffer : Bytes) :
    (c.readAvailable buffer).connection.Sound := by
  induction c, buffer using Connection.readAvailable.induct_unfolding with
  | case1 c buffer socket c' found => exact sound.meet _ _
  | case2 c buffer bytes socket found c' some connection fed ih =>
    have taken : (c'.takeIn bytes).1.Sound := (sound.meet socket c.health).takeIn bytes
    rw [fed] at taken
    exact ih taken
  | case3 c buffer bytes socket found c' some connection fault fed =>
    have taken : (c'.takeIn bytes).1.Sound := (sound.meet socket c.health).takeIn bytes
    rwa [fed] at taken
  | case4 c buffer socket found => exact sound.meet _ _
  | case5 c buffer socket found => exact sound.meet _ _
  | case6 c buffer name socket found => exact sound.meet _ _

/-! ## Writing -/

/-- The next frame to be written comes from the queue, with the cursor at its first byte, or it is
being written already. -/
theorem nextToSend (sound : c.Sound) {next : Frame × Nat} {c' : Connection δ σ}
    (found : c.nextToSend = some (next, c')) : c'.Sound := by
  unfold Connection.nextToSend at found
  split at found
  · cases found
    exact sound
  · split at found
    · cases found
    · rename_i frame codec popped
      cases found
      have reachable : codec.Reachable := by
        have after := sound.reachable.perform .popOutbound
        simp only [Codec.perform, popped] at after
        exact after
      have queued : frame ∈ c.codec.outbound := by
        unfold Codec.popOutbound at popped
        split at popped <;> cases popped
        rename_i queue
        rw [queue]
        exact List.mem_cons_self
      refine ⟨reachable, fun frame' cursor sending => ?_⟩
      cases sending
      exact ⟨sound.reachable.bounded.queued frame queued, Nat.zero_le _⟩

/-- The cursor stays inside its frame when the socket takes no more than it was offered. -/
theorem advance (sound : c.Sound) {frame : Frame} {cursor count : Nat}
    (sending : c.sending = some (frame, cursor)) (inside : cursor + count ≤ frame.toBytes.length) :
    (c.advance frame cursor count).Sound := by
  refine ⟨sound.reachable, fun frame' cursor' now => ?_⟩
  simp only [Connection.advance] at now
  split at now
  · cases now
  · cases now
    exact ⟨(sound.cursor frame cursor sending).1, inside⟩

/-- Writing keeps a connection sound, however it ends. -/
theorem writeLoop (sound : c.Sound) : c.writeLoop.connection.Sound := by
  induction c using Connection.writeLoop.induct_unfolding with
  | case1 c none => exact sound
  | case2 c frame cursor loaded next socket written =>
    exact (sound.nextToSend next).meet _ _
  | case3 c frame cursor loaded next count socket written stuck ih =>
    have ready := sound.nextToSend next
    have sending := (nextToSend_eq next).2.2
    have inside := Socket.add_le_of_write (ready.cursor frame cursor sending).2 written
    exact ih ((ready.meet socket loaded.health).advance sending inside)
  | case4 c frame cursor loaded next socket written =>
    exact (sound.nextToSend next).meet _ _
  | case5 c frame cursor loaded next socket written =>
    exact (sound.nextToSend next).meet _ _
  | case6 c frame cursor loaded next name socket written =>
    exact (sound.nextToSend next).meet _ _

/-- To take the signal is an operation of the codec, which stays reachable. -/
theorem takeWriteSignal (sound : c.Sound) : c.takeWriteSignal.2.Sound :=
  sound.of_reachable (sound.reachable.perform .takeWriteSignal) rfl

/-! ## Requests -/

/-- Starting a request keeps a connection sound, also when the request is rejected. -/
theorem startRequest (sound : c.Sound) (request : Request δ) : (c.startRequest request).2.Sound := by
  have opens := sound.reachable.perform .openStream
  simp only [Codec.perform] at opens
  unfold Connection.startRequest
  split
  · rename_i codec refused
    rw [refused] at opens
    exact sound.of_reachable opens rfl
  · rename_i id opened accepted
    rw [accepted] at opens
    simp only
    split
    · rename_i codec refused
      have reached : codec.Reachable := by
        split at refused
        · cases refused
        · exact opens.left (.setUserData id _) refused
      exact sound.of_reachable reached rfl
    · rename_i ready attached
      have stored : ready.Reachable := by
        split at attached
        · cases attached
          exact opens
        · exact opens.left (.setUserData id _) attached
      have pushing {answer : Except SendError Unit} {queued : Codec δ}
          (pushed : ready.pushHeaders id request.fields (!request.hasBody) = (answer, queued)) :
          queued.Reachable :=
        stored.left (.pushHeaders id _ _) pushed
      split
      · rename_i refused
        exact sound.of_reachable (pushing refused) rfl
      · rename_i queued pushed
        split <;> exact sound.of_reachable (pushing pushed) rfl

/-- Pulling a body keeps a connection sound, whatever the application stores and reports. -/
theorem pullBody (sound : c.Sound) (buffer : Bytes) (id : UInt32) :
    (c.pullBody buffer id).1.Sound := by
  have answered := sound.reachable.run (c.handler.onDataNeeded c.endpoint.app id buffer)
  unfold Connection.pullBody
  simp only
  split
  · rename_i refused
    exact sound.of_reachable (answered.left (.pushData id _ _) refused) rfl
  · rename_i accepted
    have reached := answered.left (.pushData id _ _) accepted
    simp only
    split <;> exact sound.of_reachable reached rfl

/-- Pulling all bodies keeps a connection sound. -/
theorem pullBodies (sound : c.Sound) (buffer : Bytes) : (c.pullBodies buffer).1.Sound := by
  unfold Connection.pullBodies
  have emptied : ({ c with inProgress := [] } : Connection δ σ).Sound :=
    sound.of_reachable sound.reachable rfl
  generalize ({ c with inProgress := [] } : Connection δ σ) = current at emptied
  induction c.inProgress generalizing current buffer with
  | nil => exact emptied
  | cons id ids ih => exact ih _ _ (emptied.pullBody buffer id)

/-! ## All turns -/

/-- Every turn keeps a connection sound. -/
theorem turn (sound : c.Sound) (t : Turn δ σ) : (c.turn t).Sound := by
  cases t with
  | read buffer => exact sound.readAvailable buffer
  | write => exact sound.takeWriteSignal.writeLoop
  | start request => exact sound.startRequest request
  | pull buffer => exact sound.pullBodies buffer
  | abandon => exact sound.of_reachable sound.reachable rfl
  | deed deed => exact sound.of_reachable (Endpoint.reachable_after sound.reachable c.handler deed) rfl
  | meet socket health => exact sound.meet socket health

/-- A sound connection stays sound in use. -/
theorem serve (sound : c.Sound) (turns : List (Turn δ σ)) : (c.serve turns).Sound := by
  induction turns generalizing c with
  | nil => exact sound
  | cons t turns ih => exact ih (sound.turn t)

end Sound

end Connection

end Http2
