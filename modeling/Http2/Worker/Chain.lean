/-!
# Work chains

A worker keeps three queues of connection keys: connections to read, connections to write, and
connections to close. Each connection knows on which chains it is, so it is queued at most once on
each.
-/

namespace Http2

/-- One of the three queues. -/
inductive Chain where
  | read
  | write
  | close
  deriving DecidableEq, Repr

/-- The chains that one connection is on. -/
structure Membership where
  read : Bool := false
  write : Bool := false
  close : Bool := false
  deriving DecidableEq, Repr

namespace Membership

/-- Whether a chain is set. -/
def contains (m : Membership) : Chain → Bool
  | .read => m.read
  | .write => m.write
  | .close => m.close

/-- Sets or clears a chain. -/
def assign (m : Membership) (chain : Chain) (value : Bool) : Membership :=
  match chain with
  | .read => { m with read := value }
  | .write => { m with write := value }
  | .close => { m with close := value }

/-- Sets a chain. -/
def insert (m : Membership) (chain : Chain) : Membership :=
  m.assign chain true

/-- Clears a chain. -/
def remove (m : Membership) (chain : Chain) : Membership :=
  m.assign chain false

/-- Whether no chain is set. -/
def isEmpty (m : Membership) : Bool :=
  !(m.read || m.write || m.close)

/-- The number whose bits, from the lowest, are the chains in order. -/
def bits (m : Membership) : Nat :=
  m.read.toNat + 2 * m.write.toNat + 4 * m.close.toNat

end Membership

/-- The three queues of a worker. -/
structure WorkChains where
  read : List Nat := []
  write : List Nat := []
  close : List Nat := []
  deriving DecidableEq, Repr

namespace WorkChains

/-- The keys on a chain, in order. -/
def keys (w : WorkChains) : Chain → List Nat
  | .read => w.read
  | .write => w.write
  | .close => w.close

/-- Replaces the keys on a chain. -/
def assign (w : WorkChains) (chain : Chain) (keys : List Nat) : WorkChains :=
  match chain with
  | .read => { w with read := keys }
  | .write => { w with write := keys }
  | .close => { w with close := keys }

/-- Puts a key at the end of a chain, whatever its membership says. -/
def relink (w : WorkChains) (chain : Chain) (key : Nat) : WorkChains :=
  w.assign chain (w.keys chain ++ [key])

/-- Takes the whole chain for one pass. The members keep their flags until the pass clears them. -/
def detach (w : WorkChains) (chain : Chain) : List Nat × WorkChains :=
  (w.keys chain, w.assign chain [])

/-- Queues a key unless its membership says that it is on the chain. -/
def enqueue (w : WorkChains) (chain : Chain) (key : Nat) (m : Membership) :
    WorkChains × Membership :=
  if m.contains chain then (w, m) else (w.relink chain key, m.insert chain)

end WorkChains

/-- What the system reports about a socket. -/
structure Readiness where
  readable : Bool := false
  writable : Bool := false
  readClosed : Bool := false
  writeClosed : Bool := false
  error : Bool := false
  deriving DecidableEq, Repr

/-- Whether nothing more can come of a socket: it failed, or both directions are closed. -/
def Readiness.isFatal (r : Readiness) : Bool :=
  r.error || (r.readClosed && r.writeClosed)

/-- Queues a key on the chains that a report calls for. A fatal report leads to the close chain only;
a closed read side alone still calls for a read, so that buffered bytes are not lost. -/
def WorkChains.schedule (w : WorkChains) (key : Nat) (r : Readiness) (m : Membership) :
    WorkChains × Membership :=
  if r.isFatal then
    w.enqueue .close key m
  else
    let (w, m) := if r.readable || r.readClosed then w.enqueue .read key m else (w, m)
    if r.writable then w.enqueue .write key m else (w, m)

end Http2
