import Http2.Bytes

/-!
# Sockets

What a socket will do is a script: a queue of what reads will find, and a queue of what writes will
meet. Every behaviour of a non-blocking socket over finitely many calls is such a script. When the
read script is used up a read would block; when the write script is used up a write takes everything,
or would block if the socket is set so.
-/

namespace Http2

/-- Why a socket call failed. -/
inductive SocketError where
  /-- Nothing can be done now; readiness is reported later. -/
  | wouldBlock
  /-- The call was interrupted and may be made again at once. -/
  | interrupted
  /-- Any other error, by its name. It ends the connection. -/
  | hard (name : String)
  deriving DecidableEq, Repr

namespace SocketError

/-- The name of an error. -/
def name : SocketError → String
  | wouldBlock => "WouldBlock"
  | interrupted => "Interrupted"
  | hard name => name

/-- The error with a name. -/
def ofName (name : String) : SocketError :=
  if name = "WouldBlock" then wouldBlock
  else if name = "Interrupted" then interrupted
  else hard name

/-- A write took no byte although there were some. -/
def writeZero : SocketError :=
  hard "WriteZero"

end SocketError

/-- What a read will find. -/
inductive Incoming where
  | data (bytes : Bytes)
  /-- The peer has closed its side. -/
  | endOfStream
  | failure (error : SocketError)
  deriving DecidableEq, Repr

/-- One more than the number of bytes that a step holds. -/
def Incoming.weight : Incoming → Nat
  | data bytes => 1 + bytes.length
  | _ => 1

/-- What a write will meet. -/
inductive Outgoing where
  /-- At most this many bytes are taken. -/
  | accept (limit : Nat)
  | failure (error : SocketError)
  deriving DecidableEq, Repr

/-- A socket as the script of what its calls will do. -/
structure Socket where
  incoming : List Incoming := []
  outgoing : List Outgoing := []
  /-- Whether writes block once the script is used up. -/
  blocking : Bool := false
  /-- The pieces taken by writes so far, newest first. -/
  taken : List Bytes := []
  /-- The error that asking for readiness reports ends with, if it fails. -/
  registration : Option SocketError := none
  /-- Whether the peer's address is known. -/
  peerKnown : Bool := true
  /-- The error that a failed socket gives as its reason. -/
  pendingError : Option SocketError := none
  deriving DecidableEq, Repr

namespace Socket

/-- All bytes taken by writes so far, in order. -/
def output (s : Socket) : Bytes :=
  s.taken.reverse.flatten

/-- How much the read script can still yield; every read that finds something lowers it. -/
def incomingWeight (s : Socket) : Nat :=
  s.incoming.foldr (fun step later => step.weight + later) 0

/-- Reads into a buffer with a number of free bytes. No bytes means that the stream has ended. -/
def read (s : Socket) (room : Nat) : Except SocketError Bytes × Socket :=
  match s.incoming with
  | [] => (.error .wouldBlock, s)
  | .endOfStream :: rest => (.ok [], { s with incoming := rest })
  | .failure error :: rest => (.error error, { s with incoming := rest })
  | .data bytes :: rest =>
    let left := bytes.drop room
    (.ok (bytes.take room),
      { s with incoming := if left.isEmpty then rest else .data left :: rest })

/-- Writes bytes; the answer is how many were taken. -/
def write (s : Socket) (bytes : Bytes) : Except SocketError Nat × Socket :=
  match s.outgoing with
  | [] =>
    if s.blocking then (.error .wouldBlock, s)
    else (.ok bytes.length, { s with taken := bytes :: s.taken })
  | .accept limit :: rest =>
    (.ok (min limit bytes.length), { s with outgoing := rest, taken := bytes.take limit :: s.taken })
  | .failure error :: rest => (.error error, { s with outgoing := rest })

/-- Every read that yields bytes takes weight off what the socket will still deliver. -/
theorem incomingWeight_read {s t : Socket} {room : Nat} {bytes : Bytes}
    (found : s.read room = (.ok bytes, t)) (some : bytes ≠ []) :
    t.incomingWeight < s.incomingWeight := by
  unfold read at found
  split at found
  · simp at found
  · simp only [Prod.mk.injEq, Except.ok.injEq] at found
    exact absurd found.1.symm some
  · simp at found
  · rename_i content rest script
    simp only [Prod.mk.injEq, Except.ok.injEq] at found
    obtain ⟨taken, rfl⟩ := found
    have long : 0 < bytes.length := List.length_pos_iff.mpr some
    rw [← taken, List.length_take] at long
    by_cases used : (content.drop room).isEmpty
    · simp only [incomingWeight, script, used, if_true, List.foldr_cons, Incoming.weight]
      omega
    · simp only [incomingWeight, script, used, Bool.false_eq_true, if_false, List.foldr_cons,
        Incoming.weight, List.length_drop]
      omega

/-- A write uses up the script by one step, or takes every byte. -/
theorem write_progress {s t : Socket} {bytes : Bytes} {count : Nat}
    (taken : s.write bytes = (.ok count, t)) :
    t.outgoing.length < s.outgoing.length ∨
      (t.outgoing = s.outgoing ∧ count = bytes.length) := by
  unfold write at taken
  split at taken
  · split at taken
    · simp at taken
    · simp only [Prod.mk.injEq, Except.ok.injEq] at taken
      obtain ⟨rfl, rfl⟩ := taken
      exact Or.inr ⟨rfl, rfl⟩
  · rename_i limit rest script
    simp only [Prod.mk.injEq, Except.ok.injEq] at taken
    obtain ⟨rfl, rfl⟩ := taken
    simp [script]
  · simp at taken

end Socket

end Http2
