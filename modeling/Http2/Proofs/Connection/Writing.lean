import Http2.Proofs.Connection.History

/-!
# The written bytes are the queued frames

At every instant of a run, the bytes that the socket has taken, the rest of the frame being written and
the frames in the queue are, one after the other, all the bytes of all frames that were ever queued:
`Outflow.Balanced`. The codec keeps it because what it queues comes at the end (`queue_perform`), loading
a frame keeps it because the frame comes off the front, and a write keeps it because the cursor moves by
what the socket has taken. `Accounted` carries it along the instants of a turn.
-/

namespace Http2

variable {δ σ : Type}

namespace Socket

/-- A read takes nothing. -/
theorem output_read (s : Socket) (room : Nat) : (s.read room).2.output = s.output := by
  unfold read
  split <;> rfl

/-- What a write takes comes behind what was taken before. -/
theorem output_write {s s' : Socket} {bytes : Bytes} {count : Nat}
    (written : s.write bytes = (.ok count, s')) : s'.output = s.output ++ bytes.take count := by
  unfold write at written
  split at written
  · split at written <;> cases written
    simp [output]
  · cases written
    simp [output, List.take_eq_take_iff]
  · cases written

/-- A write that fails takes nothing. -/
theorem output_write_error {s s' : Socket} {bytes : Bytes} {error : SocketError}
    (failed : s.write bytes = (.error error, s')) : s'.output = s.output := by
  unfold write at failed
  split at failed
  · split at failed <;> cases failed
    rfl
  · cases failed
  · cases failed
    rfl

end Socket

namespace Outflow

/-- The unsent rest of the frame being written. -/
def rest (o : Outflow δ) : Bytes :=
  match o.sending with
  | none => []
  | some (frame, cursor) => frame.toBytes.drop cursor

/-- Everything that was queued is taken by the socket, or being written, or in the queue. -/
structure Balanced (o : Outflow δ) (queued : List Frame) : Prop where
  bytes : queued.flatMap Frame.toBytes =
    o.socket.output ++ o.rest ++ o.codec.outbound.flatMap Frame.toBytes
  written : o.written = o.socket.output.length
  cursor : ∀ frame cursor, o.sending = some (frame, cursor) → cursor < frame.toBytes.length

variable {o : Outflow δ} {queued : List Frame}

/-- A socket that has taken the same is as good. -/
theorem Balanced.meet (balanced : o.Balanced queued) {socket : Socket}
    (output : socket.output = o.socket.output) :
    ({ o with socket } : Outflow δ).Balanced queued := by
  refine ⟨?_, ?_, balanced.cursor⟩
  · rw [show ({ o with socket } : Outflow δ).socket.output = o.socket.output from output]
    exact balanced.bytes
  · rw [show ({ o with socket } : Outflow δ).socket.output = o.socket.output from output]
    exact balanced.written

/-- What happens at the codec changes the balance only by what it does to the queue. -/
theorem Balanced.withCodec (balanced : o.Balanced queued) {codec : Codec δ} {new : List Frame}
    (queue : codec.outbound = o.codec.outbound ++ new) :
    ({ o with codec } : Outflow δ).Balanced (queued ++ new) where
  bytes := by
    rw [queue, List.flatMap_append, List.flatMap_append, balanced.bytes, List.append_assoc]
    rfl
  written := balanced.written
  cursor := balanced.cursor

end Outflow

/-! ## What operations do to the queue -/

namespace Codec

/-- What is taken off the queue was at its front, and what is queued comes at its end. -/
theorem queue_perform (c : Codec δ) (op : Op δ) :
    Moment.popped ⟨c, .performed op (c.perform op).1⟩ ++ (c.perform op).2.outbound =
      c.outbound ++ Moment.queued ⟨c, .performed op (c.perform op).1⟩ := by
  by_cases evicts : op = .evictClosed
  · subst evicts
    simp [Moment.popped, Moment.queued, Moment.next, perform, evictClosed]
  · obtain ⟨bundles, performs⟩ := exists_performs c evicts
    rw [performs.popped, performs.queued]

/-- Only `popOutbound` takes a frame off the queue. -/
theorem popped_eq_nil (c : Codec δ) {op : Op δ} (kept : op ≠ .popOutbound) :
    Moment.popped ⟨c, .performed op (c.perform op).1⟩ = [] := by
  cases op <;> first | rfl | exact absurd rfl kept

/-- Only a pop takes anything off the queue. -/
theorem outbound_perform (c : Codec δ) {op : Op δ} (kept : op ≠ .popOutbound) :
    (c.perform op).2.outbound = c.outbound ++ Moment.queued ⟨c, .performed op (c.perform op).1⟩ := by
  rw [← queue_perform, popped_eq_nil c kept, List.nil_append]

end Codec

/-! ## Balance along instants -/

/-- The balance holds at each of the instants, in order, and at the outflow that they lead to. -/
def Accounted (queued : List Frame) : List (Instant δ) → Outflow δ → Prop
  | [], last => last.Balanced queued
  | i :: later, last => i.Balanced queued ∧ Accounted (queued ++ i.queued) later last

namespace Accounted

variable {queued : List Frame} {first second : List (Instant δ)} {middle last last' : Outflow δ}

/-- After instants that keep the balance, it holds with all that was queued in them. -/
theorem balanced_last (accounted : Accounted queued first last) :
    last.Balanced (queued ++ first.flatMap Instant.queued) := by
  induction first generalizing queued with
  | nil => simpa [Accounted] using accounted
  | cons i later ih =>
    rw [List.flatMap_cons, ← List.append_assoc]
    exact ih accounted.2

/-- The balance holds throughout two stretches of which the second begins where the first ends. -/
theorem append (accounted : Accounted queued first middle)
    (further : Accounted (queued ++ first.flatMap Instant.queued) second last) :
    Accounted queued (first ++ second) last := by
  induction first generalizing queued with
  | nil => simpa using further
  | cons i later ih =>
    rw [List.flatMap_cons, ← List.append_assoc] at further
    exact ⟨accounted.1, ih accounted.2 further⟩

/-- What stands at a split of the instants. -/
theorem balanced_at (accounted : Accounted queued (first ++ second) last) :
    ∀ i later, second = i :: later → i.Balanced (queued ++ first.flatMap Instant.queued) := by
  rintro i later rfl
  induction first generalizing queued with
  | nil => simpa using accounted.1
  | cons j between ih =>
    rw [List.flatMap_cons, ← List.append_assoc]
    exact ih accounted.2

/-- One more instant, which stands at the outflow reached so far. -/
theorem concat (accounted : Accounted queued first middle) {i : Instant δ}
    (here : i.toOutflow = middle)
    (later : last.Balanced (queued ++ first.flatMap Instant.queued ++ i.queued)) :
    Accounted queued (first ++ [i]) last :=
  accounted.append ⟨here ▸ accounted.balanced_last, later⟩

/-- The outflow that instants lead to may be exchanged for one that is balanced too. -/
theorem exchange (accounted : Accounted queued first last)
    (balances : ∀ frames, last.Balanced frames → last'.Balanced frames) :
    Accounted queued first last' := by
  induction first generalizing queued with
  | nil => exact balances _ accounted
  | cons i later ih => exact ⟨accounted.1, ih accounted.2⟩

end Accounted

namespace Connection

variable {c : Connection δ σ} {queued : List Frame}

/-- The account of what happens at the codec. -/
theorem accounted_during {codec : Codec δ} {log : List (Moment δ)} {due : Option (Moment δ)}
    (balanced : c.outflow.Balanced queued) (leads : Codec.Leads c.codec log due codec)
    (kept : ∀ i ∈ c.during log, i.pops = false) :
    Accounted queued (c.during log) { c.outflow with codec } := by
  induction leads with
  | nil => exact balanced
  | @perform log codec before op ih =>
    simp only [during, List.map_append, List.map_singleton] at kept ⊢
    have accounted := ih fun i member => kept i (List.mem_append_left _ member)
    have allowed : op ≠ .popOutbound := by
      rintro rfl
      exact absurd (kept _ (List.mem_append_right _ List.mem_cons_self)) Bool.noConfusion
    exact accounted.concat rfl
      (accounted.balanced_last.withCodec (Codec.outbound_perform codec allowed))
  | @receive log codec next f callback fault before outcome ih =>
    simp only [during, List.map_append, List.map_singleton] at kept ⊢
    have accounted := ih fun i member => kept i (List.mem_append_left _ member)
    refine accounted.concat rfl ?_
    have nothing : Instant.queued { c.outflow with codec, happening := .codec (.received f) } = [] :=
      Codec.queued_of_received
    exact accounted.balanced_last.withCodec (by rw [nothing, List.append_nil]; exact outcome.outbound_eq)
  | fail before astray ih =>
    exact (ih kept).exchange fun frames balanced =>
      List.append_nil frames ▸ balanced.withCodec (List.append_nil _).symm
  | @call log codec m before ih =>
    obtain ⟨-, arrival, f, callback, rfl⟩ := before.follows_of_due
    simp only [during, List.map_append, List.map_singleton] at kept ⊢
    have accounted := ih fun i member => kept i (List.mem_append_left _ member)
    refine accounted.concat rfl ?_
    have nothing : Instant.queued
        { c.outflow with codec, happening := .codec (.called arrival f callback) } = [] :=
      Codec.queued_of_called
    rw [nothing, List.append_nil]
    exact accounted.balanced_last
  | reassemble before a ih =>
    exact (ih kept).exchange fun frames balanced =>
      List.append_nil frames ▸ balanced.withCodec (List.append_nil _).symm

/-! ## Reading -/

/-- A read that meets the end of the stream is no instant. -/
theorem readInstants_of_empty {buffer : Bytes} {socket : Socket}
    (found : c.socket.read buffer.length = (.ok [], socket)) : c.readInstants buffer = [] := by
  rw [readInstants.eq_def]
  split <;> simp_all

/-- A read that fails is no instant. -/
theorem readInstants_of_error {buffer : Bytes} {error : SocketError} {socket : Socket}
    (found : c.socket.read buffer.length = (.error error, socket)) : c.readInstants buffer = [] := by
  rw [readInstants.eq_def]
  split <;> simp_all

/-- The instants of a read that finds bytes, and of the reads after it. -/
theorem readInstants_of_bytes {buffer bytes : Bytes} {socket : Socket}
    (found : c.socket.read buffer.length = (.ok bytes, socket)) (some : bytes ≠ []) :
    c.readInstants buffer =
      ({ c with socket } : Connection δ σ).during (c.endpoint.moments c.handler bytes) ++
        match ({ c with socket } : Connection δ σ).takeIn bytes with
        | (connection, none) => connection.readInstants (overlay buffer bytes)
        | (_, .some _) => [] := by
  rw [readInstants.eq_def]
  split
  · rename_i bytes' socket' found'
    rw [found] at found'
    cases found'
    rw [dif_neg some]
    rcases fed : ({ c with socket } : Connection δ σ).takeIn bytes with ⟨connection, _ | fault⟩
    all_goals
      simp only
      split <;> simp_all
  · simp_all

/-- A read changes what the socket has to give, never what it has taken. -/
theorem balanced_read {socket : Socket} {room : Nat} {answer : Except SocketError Bytes}
    (balanced : c.outflow.Balanced queued) (found : c.socket.read room = (answer, socket)) :
    ({ c with socket } : Connection δ σ).outflow.Balanced queued := by
  have same := c.socket.output_read room
  rw [found] at same
  exact balanced.meet same

/-- The account of what processing bytes does. -/
theorem accounted_takeIn (sound : c.Sound) (balanced : c.outflow.Balanced queued) (bytes : Bytes)
    (kept : ∀ i ∈ c.during (c.endpoint.moments c.handler bytes), i.pops = false) :
    Accounted queued (c.during (c.endpoint.moments c.handler bytes)) (c.takeIn bytes).1.outflow :=
  accounted_during balanced
    (Endpoint.leads_moments sound.reachable.consistent c.handler bytes) kept

/-- Reading keeps the balance if the application takes no frame off the queue. -/
theorem accounted_read {buffer : Bytes} (sound : c.Sound)
    (kept : ∀ i ∈ c.readInstants buffer, i.pops = false) :
    ∀ queued, c.outflow.Balanced queued →
      Accounted queued (c.readInstants buffer) (c.readAvailable buffer).connection.outflow := by
  induction c, buffer using readAvailable.induct_unfolding with
  | case1 c buffer socket c' found =>
    intro queued balanced
    have silent := balanced_read balanced found
    rw [readInstants_of_empty found]
    exact silent
  | case2 c buffer bytes socket found c' some connection fed ih =>
    intro queued balanced
    rw [readInstants_of_bytes found some, fed] at kept ⊢
    have arrived : c'.Sound := sound.meet socket c.health
    have account := accounted_takeIn arrived (balanced_read balanced found) bytes fun i member =>
      kept i (List.mem_append_left _ member)
    have taken := arrived.takeIn bytes
    rw [fed] at account taken
    exact account.append
      (ih taken (fun i member => kept i (List.mem_append_right _ member)) _ account.balanced_last)
  | case3 c buffer bytes socket found c' some connection fault fed =>
    intro queued balanced
    rw [readInstants_of_bytes found some, fed] at kept ⊢
    have arrived : c'.Sound := sound.meet socket c.health
    have account := accounted_takeIn arrived (balanced_read balanced found) bytes fun i member =>
      kept i (List.mem_append_left _ member)
    rw [fed] at account
    rwa [List.append_nil]
  | case4 c buffer socket found | case5 c buffer socket found =>
    intro queued balanced
    rw [readInstants_of_error found]
    exact balanced_read balanced found
  | case6 c buffer name socket found =>
    intro queued balanced
    have silent := balanced_read balanced found
    rw [readInstants_of_error found]
    exact silent

/-! ## Writing -/

/-- The next frame to be written leaves the queue and is written from its first byte. -/
theorem balanced_nextToSend {frame : Frame} {cursor : Nat} {loaded : Connection δ σ}
    (balanced : c.outflow.Balanced queued) (next : c.nextToSend = some ((frame, cursor), loaded)) :
    loaded.outflow.Balanced queued := by
  rcases nextToSend_cases next with ⟨-, rfl⟩ | ⟨idle, rfl, rest, front, rfl⟩
  · exact balanced
  · refine ⟨?_, balanced.written, ?_⟩
    · have bytes := balanced.bytes
      simp only [outflow, Outflow.rest, idle, front, List.flatMap_cons, List.append_nil] at bytes
      simpa [outflow, Outflow.rest, withCodec, Connection.codec] using bytes
    · rintro frame cursor started
      cases started
      have header : 0 < frameHeaderSize := by decide
      rw [Frame.length_toBytes]
      exact Nat.add_pos_left header _

/-- The cursor moves by what the socket has taken. -/
theorem balanced_advance {frame : Frame} {cursor count : Nat} {socket : Socket}
    (balanced : c.outflow.Balanced queued) (sending : c.sending = some (frame, cursor))
    (written : c.socket.write (frame.toBytes.drop cursor) = (.ok count, socket)) :
    (({ c with socket } : Connection δ σ).advance frame cursor count).outflow.Balanced queued := by
  have inside := Socket.add_le_of_write (Nat.le_of_lt (balanced.cursor frame cursor sending)) written
  have output := Socket.output_write written
  have bytes := balanced.bytes
  have counted := balanced.written
  simp only [outflow, Outflow.rest, sending] at bytes counted
  have moved : frame.toBytes.drop cursor =
      (frame.toBytes.drop cursor).take count ++ frame.toBytes.drop (cursor + count) := by
    rw [← List.drop_drop, List.take_append_drop]
  refine ⟨?_, ?_, ?_⟩
  · rw [moved] at bytes
    simp only [outflow, advance, Outflow.rest, output]
    split
    · rename_i ended
      split at ended
      · rename_i whole
        rw [whole, List.drop_length, List.append_nil] at bytes
        rw [List.append_nil, bytes]
        rfl
      · cases ended
    · rename_i frame' cursor' more
      split at more
      · cases more
      · cases more
        rw [bytes, ← List.append_assoc]
        rfl
  · simp only [outflow, advance, output, counted, List.length_append, List.length_take,
      List.length_drop]
    omega
  · rintro frame' cursor' now
    simp only [outflow, advance] at now
    split at now
    · cases now
    · cases now
      omega

/-- If nothing is left to send, no instant is spent on writing. -/
theorem writeInstants_of_idle (next : c.nextToSend = none) : c.writeInstants = [] := by
  rw [writeInstants.eq_def]
  split <;> simp_all

/-- The instants of a call that the socket answers, and of the calls after it. -/
theorem writeInstants_of_next {frame : Frame} {cursor : Nat} {loaded : Connection δ σ}
    {answer : Except SocketError Nat} {socket : Socket}
    (next : c.nextToSend = some ((frame, cursor), loaded))
    (written : loaded.socket.write (frame.toBytes.drop cursor) = (answer, socket)) :
    c.writeInstants =
      (if c.sending.isNone then [{ c.outflow with happening := .load }] else []) ++
        { loaded.outflow with happening := .offer (frame.toBytes.drop cursor) } ::
          match answer with
          | .ok 0 => []
          | .ok (count + 1) =>
            (({ loaded with socket } : Connection δ σ).advance frame cursor (count + 1)).writeInstants
          | .error _ => [] := by
  rw [writeInstants.eq_def]
  split
  · simp_all
  · rename_i frame' cursor' loaded' next'
    rw [next] at next'
    cases next'
    refine congrArg (_ ++ ·) (congrArg (_ :: ·) ?_)
    split
    · rename_i count socket' written'
      rw [written] at written'
      cases written'
      cases count <;> simp
    · rename_i error socket' written'
      rw [written] at written'
      cases written'
      rfl

/-- The account of loading a frame, if that is due, and of giving its bytes to the socket. -/
theorem accounted_offer {frame : Frame} {cursor : Nat} {loaded : Connection δ σ} {last : Outflow δ}
    {later : List (Instant δ)} (balanced : c.outflow.Balanced queued)
    (next : c.nextToSend = some ((frame, cursor), loaded)) (further : Accounted queued later last) :
    Accounted queued
      ((if c.sending.isNone then [{ c.outflow with happening := .load }] else []) ++
        { loaded.outflow with happening := .offer (frame.toBytes.drop cursor) } :: later) last := by
  have offered : Accounted queued
      ({ loaded.outflow with happening := .offer (frame.toBytes.drop cursor) } :: later) last :=
    ⟨balanced_nextToSend balanced next, by rwa [Instant.queued, List.append_nil]⟩
  split
  · exact ⟨balanced, by rwa [Instant.queued, List.append_nil]⟩
  · exact offered

/-- Writing keeps the balance at each offer to the socket, whatever the socket takes. -/
theorem accounted_write : ∀ queued, c.outflow.Balanced queued →
    Accounted queued c.writeInstants c.writeLoop.connection.outflow := by
  induction c using writeLoop.induct_unfolding with
  | case1 c next =>
    intro queued balanced
    rw [writeInstants_of_idle next]
    exact balanced
  | case2 c frame cursor loaded next socket written =>
    intro queued balanced
    rw [writeInstants_of_next next written]
    refine accounted_offer balanced next ?_
    have output := Socket.output_write written
    rw [List.take_zero, List.append_nil] at output
    exact (balanced_nextToSend balanced next).meet output
  | case3 c frame cursor loaded next count socket written some ih =>
    intro queued balanced
    rw [writeInstants_of_next next written]
    obtain ⟨fewer, rfl⟩ := Nat.exists_eq_succ_of_ne_zero some
    refine accounted_offer balanced next (ih queued ?_)
    exact balanced_advance (balanced_nextToSend balanced next) (nextToSend_eq next).2.2 written
  | case4 c frame cursor loaded next socket written
  | case5 c frame cursor loaded next socket written =>
    intro queued balanced
    rw [writeInstants_of_next next written]
    refine accounted_offer balanced next ?_
    exact (balanced_nextToSend balanced next).meet (Socket.output_write_error written)
  | case6 c frame cursor loaded next name socket written =>
    intro queued balanced
    rw [writeInstants_of_next next written]
    refine accounted_offer balanced next ?_
    exact (balanced_nextToSend balanced next).meet (Socket.output_write_error written)

/-! ## Requests and bodies -/

/-- Starting a request keeps the balance, also when the request is rejected. -/
theorem accounted_start {request : Request δ} (balanced : c.outflow.Balanced queued)
    (kept : ∀ i ∈ c.during (request.script.moments c.codec), i.pops = false) :
    Accounted queued (c.during (request.script.moments c.codec))
      (c.startRequest request).2.outflow := by
  rw [startRequest_eq]
  exact accounted_during balanced (request.script.leads c.codec) kept

/-- The account of one body, and of those after it. -/
theorem accounted_pull {ids : List UInt32} {buffer : Bytes}
    (kept : ∀ i ∈ c.pullInstants buffer ids, i.pops = false) (balanced : c.outflow.Balanced queued) :
    Accounted queued (c.pullInstants buffer ids)
      (ids.foldl (fun (c, buffer) id => c.pullBody buffer id) (c, buffer)).1.outflow := by
  induction ids generalizing c buffer queued with
  | nil => exact balanced
  | cons id ids ih =>
    rw [pullInstants] at kept ⊢
    have account := accounted_during balanced ((c.pullScript buffer id).leads c.codec)
      fun i member => kept i (List.mem_append_left _ member)
    have pulled : (c.pullBody buffer id).1.outflow =
        { c.outflow with codec := ((c.pullScript buffer id).run c.codec).2 } := by
      rw [pullBody_eq]
      rfl
    rw [← pulled] at account
    exact account.append
      (ih (fun i member => kept i (List.mem_append_right _ member)) account.balanced_last)

/-! ## Turns and runs -/

/-- The world leaves what the socket has taken, and the count of it, as they are. -/
def Turn.Spares (c : Connection δ σ) : Turn δ σ → Prop
  | .meet socket health =>
    socket.taken = c.socket.taken ∧ health.bytesWritten = c.health.bytesWritten
  | _ => True

/-- The world does so in every one of the turns. -/
def Spared (c : Connection δ σ) : List (Turn δ σ) → Prop
  | [] => True
  | turn :: turns => turn.Spares c ∧ (c.turn turn).Spared turns

/-- The account of one turn. -/
theorem accounted_turn {t : Turn δ σ} (sound : c.Sound) (balanced : c.outflow.Balanced queued)
    (spares : t.Spares c) (kept : ∀ i ∈ c.instants t, i.pops = false) :
    Accounted queued (c.instants t) (c.turn t).outflow := by
  cases t with
  | read buffer => exact accounted_read sound kept queued balanced
  | write =>
    have looked : c.takeWriteSignal.2.outflow.Balanced queued :=
      List.append_nil queued ▸ balanced.withCodec (List.append_nil _).symm
    exact accounted_write queued looked
  | start request => exact accounted_start balanced kept
  | pull buffer => exact accounted_pull (c := { c with inProgress := [] }) kept balanced
  | abandon => exact balanced
  | deed deed =>
    exact accounted_during balanced
      (Endpoint.leads_momentsOf sound.reachable.consistent c.handler deed) kept
  | meet socket health =>
    obtain ⟨taken, counted⟩ := spares
    have output : socket.output = c.socket.output := congrArg (·.reverse.flatten) taken
    have met := balanced.meet output
    refine ⟨met.bytes, ?_, met.cursor⟩
    exact counted.trans met.written

/-- The account of a run. -/
theorem accounted_history {turns : List (Turn δ σ)} (sound : c.Sound)
    (balanced : c.outflow.Balanced queued) (spared : c.Spared turns)
    (kept : ∀ i ∈ c.history turns, i.pops = false) :
    Accounted queued (c.history turns) (c.serve turns).outflow := by
  induction turns generalizing c queued with
  | nil => exact balanced
  | cons t turns ih =>
    have first := accounted_turn sound balanced spared.1 fun i member =>
      kept i (List.mem_append_left _ member)
    exact first.append (ih (sound.turn t) first.balanced_last spared.2 fun i member =>
      kept i (List.mem_append_right _ member))

/-! ## How writing ends -/

/-- Writing ends with nothing pending if it says so, and else with a frame that it could not write. -/
theorem pending_writeLoop (c : Connection δ σ) :
    c.writeLoop.outcome = .flushed ↔ c.writeLoop.connection.hasPendingOutput = false := by
  induction c using writeLoop.induct_unfolding with
  | case1 c next => exact iff_of_true rfl (nextToSend_eq_none next)
  | case2 c frame cursor loaded next socket written =>
    have sending := (nextToSend_eq next).2.2
    simp [noteError, hasPendingOutput, sending]
  | case3 c frame cursor loaded next count socket written some ih => exact ih
  | case4 c frame cursor loaded next socket written
  | case5 c frame cursor loaded next socket written =>
    have sending := (nextToSend_eq next).2.2
    simp [hasPendingOutput, sending]
  | case6 c frame cursor loaded next name socket written =>
    have sending := (nextToSend_eq next).2.2
    simp [noteError, hasPendingOutput, sending]

/-- Taking the next frame changes nothing that is known about the socket. -/
theorem health_nextToSend {frame : Frame} {cursor : Nat} {loaded : Connection δ σ}
    (next : c.nextToSend = some ((frame, cursor), loaded)) : loaded.health = c.health := by
  rcases nextToSend_cases next with ⟨-, rfl⟩ | ⟨-, -, rest, -, rfl⟩ <;> rfl

/-- Writing notes an error when it ends with a failure, and at no other end. -/
theorem error_writeLoop (c : Connection δ σ) :
    let written := c.writeLoop
    (written.outcome = .closed → ∃ name, written.connection.health.error = some (.hard name)) ∧
      (written.outcome ≠ .closed → written.connection.health.error = c.health.error) := by
  induction c using writeLoop.induct_unfolding with
  | case1 c next => exact ⟨(fun closed => by cases closed), fun _ => rfl⟩
  | case2 c frame cursor loaded next socket written =>
    exact ⟨fun _ => ⟨_, rfl⟩, fun running => absurd rfl running⟩
  | case3 c frame cursor loaded next count socket written some ih =>
    refine ⟨ih.1, fun running => (ih.2 running).trans ?_⟩
    rw [← health_nextToSend next]
    rfl
  | case4 c frame cursor loaded next socket written
  | case5 c frame cursor loaded next socket written =>
    refine ⟨(fun closed => by cases closed), fun _ => ?_⟩
    rw [← health_nextToSend next]
  | case6 c frame cursor loaded next name socket written =>
    exact ⟨fun _ => ⟨_, rfl⟩, fun running => absurd rfl running⟩

/-- However a connection is used and whatever its socket does, at every instant what was queued so far,
in order, is what the socket has taken, the rest of the frame being written and the frames in the queue;
as many bytes are counted as were taken, and the cursor is inside the frame. Writing ends with nothing
pending if and only if it says so, and it notes an error if and only if it closes. Nobody else takes
frames off the queue. -/
theorem written_bytes_are_queued_frames (role : Role) (size : Nat) (id : ConnectionId)
    (socket : Socket) (untaken : socket.taken = []) (h : Handler δ σ) (app : σ)
    (turns : List (Turn δ σ)) :
    let c : Connection δ σ := { id, socket, handler := h, endpoint := ⟨.create role size, app⟩ }
    c.Spared turns → (∀ i ∈ c.history turns, i.pops = false) →
      (∀ before i after, c.history turns = before ++ i :: after →
          i.Balanced (before.flatMap Instant.queued)) ∧
        (c.serve turns).outflow.Balanced ((c.history turns).flatMap Instant.queued) ∧
          ∀ earlier later, turns = earlier ++ .write :: later →
            let current := c.serve earlier
            let written := current.writePending
            (written.outcome = .flushed ↔ written.connection.hasPendingOutput = false) ∧
              (written.outcome = .closed →
                ∃ name, written.connection.health.error = some (.hard name)) ∧
              (written.outcome ≠ .closed →
                written.connection.health.error = current.health.error) := by
  intro c spared kept
  have start : c.outflow.Balanced [] := by
    refine ⟨?_, ?_, nofun⟩
    · simp [c, outflow, Outflow.rest, Connection.codec, Codec.create, Socket.output, untaken]
    · simp [c, outflow, Socket.output, untaken]
  have account := accounted_history (Sound.fresh (.create role size)) start spared kept
  refine ⟨?_, ?_, ?_⟩
  · intro before i after split
    rw [split] at account
    exact account.balanced_at i after rfl
  · exact account.balanced_last
  · intro earlier later _ current written
    exact ⟨pending_writeLoop _, error_writeLoop _⟩

/-- A client whose socket takes four bytes of a request, is interrupted, and takes the rest. -/
theorem written_bytes_are_queued_frames_of_client :
    let socket : Socket :=
      { outgoing := [.accept 4, .failure .interrupted, .accept 2, .failure .wouldBlock] }
    let c : Connection Unit Unit :=
      { id := ⟨0, 0⟩, socket, endpoint := ⟨.create .client 16384, ()⟩
        handler := { onHeaders := fun _ _ _ _ => .done (), onBody := fun _ _ _ _ => .done () } }
    let request : Request Unit := { fields := [{ name := "a", value := "b" }], hasBody := false }
    let turns := [.start request, .write, .write, .write]
    (c.history turns).length = 8 ∧ (c.serve turns).hasPendingOutput = false ∧
      (c.serve turns).outflow.Balanced ((c.history turns).flatMap Instant.queued) := by
  intro socket c request turns
  have kept : ∀ i ∈ c.history turns, i.pops = false := by decide +kernel
  have holds := written_bytes_are_queued_frames .client 16384 ⟨0, 0⟩ socket rfl c.handler ()
    turns ⟨trivial, trivial, trivial, trivial, trivial⟩ kept
  exact ⟨by decide +kernel, by decide +kernel, holds.2.1⟩

end Connection

end Http2
