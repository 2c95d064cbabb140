import Http2.Worker.Chain

/-!
# Chains and memberships agree

The keys on a chain and the memberships of the connections say the same thing twice. `WorkChains.Ties`
says that they agree about one key: it is on a chain once if its membership has the chain set, and not at
all otherwise. A pass takes the keys off a chain before it serves them, while their memberships stay set;
so the keys that are taken and not yet served count too. Each thing that a worker does with a key keeps
the ties of that key, and leaves the other keys where they are (`WorkChains.SameBut`): it is one of a few
moves (`WorkChains.Moves`).
-/

namespace Http2

/-! ## Memberships -/

namespace Membership

variable (m : Membership) (chain other : Chain)

@[simp] theorem contains_empty : ({} : Membership).contains chain = false := by
  cases chain <;> rfl

@[simp] theorem contains_insert :
    (m.insert chain).contains other = (decide (chain = other) || m.contains other) := by
  cases chain <;> cases other <;> simp [insert, assign, contains]

@[simp] theorem contains_remove :
    (m.remove chain).contains other = (!decide (chain = other) && m.contains other) := by
  cases chain <;> cases other <;> simp [remove, assign, contains]

end Membership

/-! ## Chains -/

namespace WorkChains

variable {chains taken : WorkChains} {m : Membership} {key : Nat}

@[simp] theorem keys_empty (chain : Chain) : ({} : WorkChains).keys chain = [] := by
  cases chain <;> rfl

@[simp] theorem keys_assign (chains : WorkChains) (chain other : Chain) (keys : List Nat) :
    (chains.assign chain keys).keys other = if chain = other then keys else chains.keys other := by
  cases chain <;> cases other <;> rfl

/-- To link a key again is to put it at the end of the chain. -/
@[simp] theorem keys_relink (chains : WorkChains) (chain other : Chain) (key : Nat) :
    (chains.relink chain key).keys other =
      if chain = other then chains.keys chain ++ [key] else chains.keys other := by
  rw [relink, keys_assign]

/-- Two sets of chains hold the same keys, `key` apart. -/
def SameBut (key : Nat) (chains chains' : WorkChains) : Prop :=
  ∀ chain other, other ≠ key → (chains'.keys chain).count other = (chains.keys chain).count other

namespace SameBut

protected theorem refl (key : Nat) (chains : WorkChains) : SameBut key chains chains :=
  fun _ _ _ => rfl

protected theorem trans {chains' chains'' : WorkChains} (first : SameBut key chains chains')
    (second : SameBut key chains' chains'') : SameBut key chains chains'' :=
  fun chain other different => (second chain other different).trans (first chain other different)

/-- To link a key again is no matter to the other keys. -/
theorem relink (chains : WorkChains) (chain : Chain) (key : Nat) :
    SameBut key chains (chains.relink chain key) := by
  intro line other different
  rw [keys_relink]
  split
  · subst line
    rw [List.count_append, List.count_singleton, if_neg (by simpa using different.symm), Nat.add_zero]
  · rfl

/-- To queue a key is no matter to the other keys. -/
theorem enqueue (chains : WorkChains) (chain : Chain) (key : Nat) (m : Membership) :
    SameBut key chains (chains.enqueue chain key m).1 := by
  unfold WorkChains.enqueue
  split
  · exact .refl key chains
  · exact relink chains chain key

/-- The key at the front of a chain is taken off. -/
theorem assign {chain : Chain} {rest : List Nat} (front : chains.keys chain = key :: rest) :
    SameBut key chains (chains.assign chain rest) := by
  intro line other different
  rw [keys_assign]
  split
  · subst line
    rw [front, List.count_cons, if_neg (by simpa using different.symm), Nat.add_zero]
  · rfl

end SameBut

/-- The key is on a chain, or taken off it for a pass, once or not at all, as its membership says. -/
def Ties (taken chains : WorkChains) (key : Nat) (m : Membership) (chain : Chain) : Prop :=
  (taken.keys chain).count key + (chains.keys chain).count key = (m.contains chain).toNat

/-- The keys that are on a chain or were taken off it for a pass. -/
def waiting (taken chains : WorkChains) (chain : Chain) : List Nat :=
  taken.keys chain ++ chains.keys chain

namespace Ties

variable {line : Chain}

/-- Ties depend only on how often the key is there. -/
theorem congr {taken' chains' : WorkChains} {m' : Membership} (ties : Ties taken chains key m line)
    (same : m'.contains line = m.contains line)
    (away : (taken'.keys line).count key = (taken.keys line).count key)
    (there : (chains'.keys line).count key = (chains.keys line).count key) :
    Ties taken' chains' key m' line := by
  rw [Ties, away, there, same]
  exact ties

/-- A key that is queued is on the chain once, and says so, whether it was there before or not. -/
theorem enqueue (ties : Ties taken chains key m line) (chain : Chain) :
    Ties taken (chains.enqueue chain key m).1 key (chains.enqueue chain key m).2 line := by
  unfold WorkChains.enqueue
  split
  · exact ties
  · rename_i absent
    unfold Ties at ties ⊢
    simp only [keys_relink, Membership.contains_insert]
    by_cases same : chain = line
    · subst same
      simp only [absent, Bool.toNat_false, Nat.add_eq_zero_iff] at ties
      simp [ties]
    · simpa [same] using ties

/-- A key that was taken off a chain is on it no more. -/
theorem leave {chain : Chain} {rest : List Nat} (ties : Ties taken chains key m line)
    (front : taken.keys chain = key :: rest) :
    Ties (taken.assign chain rest) chains key (m.remove chain) line := by
  unfold Ties at ties ⊢
  simp only [keys_assign, Membership.contains_remove]
  by_cases same : chain = line
  · subst same
    have atMost := (m.contains chain).toNat_le
    rw [front, List.count_cons_self] at ties
    simp only [if_true, decide_true, Bool.not_true, Bool.false_and, Bool.toNat_false]
    omega
  · simpa [same] using ties

/-- A key that was taken off a chain comes back on it. -/
theorem stay {chain : Chain} {rest : List Nat} (ties : Ties taken chains key m line)
    (front : taken.keys chain = key :: rest) :
    Ties (taken.assign chain rest) (chains.relink chain key) key m line := by
  unfold Ties at ties ⊢
  simp only [keys_assign, keys_relink]
  by_cases same : chain = line
  · subst same
    rw [front, List.count_cons_self] at ties
    simp only [if_true, List.count_append, List.count_singleton_self]
    omega
  · simpa [same] using ties

/-- What waits on a chain is there once. -/
theorem nodup_waiting {flags : Nat → Membership}
    (ties : ∀ key, Ties taken chains key (flags key) line) : (waiting taken chains line).Nodup := by
  refine List.nodup_iff_count.mpr fun key => ?_
  rw [waiting, List.count_append, ties key]
  exact Bool.toNat_le _

/-- A key that is tied waits on a chain if its membership says so. -/
theorem mem_waiting (ties : Ties taken chains key m line) :
    key ∈ waiting taken chains line ↔ m.contains line = true := by
  rw [← List.count_pos_iff, waiting, List.count_append, ties]
  cases m.contains line <;> simp

end Ties

/-! ## Moves of one key -/

/-- How one key stands: the keys that passes have taken, those on the chains, and what its membership
says. -/
structure Standing where
  taken : WorkChains
  chains : WorkChains
  membership : Membership

/-- How the standing of a key changes while it is served: it is queued, it leaves the chain that it was
taken off, or it comes back on that. -/
inductive Moves (key : Nat) : Standing → Standing → Prop
  | refl (p : Standing) : Moves key p p
  | trans {p q r : Standing} (first : Moves key p q) (second : Moves key q r) : Moves key p r
  | enqueue (p : Standing) (chain : Chain) :
      Moves key p
        { p with
          chains := (p.chains.enqueue chain key p.membership).1
          membership := (p.chains.enqueue chain key p.membership).2 }
  | leave {p : Standing} {chain : Chain} {rest : List Nat}
      (front : p.taken.keys chain = key :: rest) :
      Moves key p
        { p with taken := p.taken.assign chain rest, membership := p.membership.remove chain }
  | stay {p : Standing} {chain : Chain} {rest : List Nat}
      (front : p.taken.keys chain = key :: rest) :
      Moves key p { p with taken := p.taken.assign chain rest, chains := p.chains.relink chain key }

namespace Moves

variable {p q : Standing}

/-- Moves keep the ties of the key. -/
theorem ties {line : Chain} (moves : Moves key p q)
    (ties : Ties p.taken p.chains key p.membership line) :
    Ties q.taken q.chains key q.membership line := by
  induction moves with
  | refl => exact ties
  | trans _ _ first second => exact second (first ties)
  | enqueue p chain => exact ties.enqueue chain
  | leave front => exact ties.leave front
  | stay front => exact ties.stay front

/-- Moves leave the other keys where they are. -/
theorem sameBut (moves : Moves key p q) :
    SameBut key p.taken q.taken ∧ SameBut key p.chains q.chains := by
  induction moves with
  | refl p => exact ⟨.refl key p.taken, .refl key p.chains⟩
  | trans _ _ first second => exact ⟨first.1.trans second.1, first.2.trans second.2⟩
  | enqueue p chain => exact ⟨.refl key p.taken, .enqueue p.chains chain key p.membership⟩
  | leave front => exact ⟨.assign front, .refl key _⟩
  | stay front => exact ⟨.assign front, .relink _ _ key⟩

/-- Sorting a key onto the chains. -/
theorem schedule (p : Standing) (report : Readiness) :
    Moves key p
      { p with
        chains := (p.chains.schedule key report p.membership).1
        membership := (p.chains.schedule key report p.membership).2 } := by
  unfold WorkChains.schedule
  split
  · exact .enqueue p .close
  · simp only
    split <;> split
    · exact (Moves.enqueue p .read).trans (.enqueue _ .write)
    · exact .enqueue p .write
    · exact .enqueue p .read
    · exact .refl p

end Moves

/-- What a membership has set before a key is queued, it has set afterwards. -/
theorem contains_enqueue (chains : WorkChains) (chain : Chain) (key : Nat) (m : Membership)
    (other : Chain) :
    (chains.enqueue chain key m).2.contains other =
      (decide (chain = other) || m.contains other) := by
  unfold enqueue
  split
  · by_cases same : chain = other
    · subst same
      simpa
    · simp [same]
  · exact m.contains_insert chain other

end WorkChains

end Http2
