import Std.Data.ExtTreeMap

/-!
# Slots with small keys

An arena gives each value a key, the number of its slot. The slot freed last is used again first; a
new slot is made only when none is free.
-/

namespace Http2

/-- Values in numbered slots. -/
structure Arena (α : Type) where
  slots : Std.ExtTreeMap Nat α := ∅
  /-- Keys of freed slots, the last freed first. -/
  free : List Nat := []
  /-- How many slots were ever made. -/
  made : Nat := 0

namespace Arena

variable {α : Type}

/-- The value in a slot. -/
def get? (s : Arena α) (key : Nat) : Option α :=
  s.slots[key]?

/-- The keys of occupied slots in ascending order. -/
def keys (s : Arena α) : List Nat :=
  s.slots.keys

/-- The values in ascending order of their keys. -/
def toList (s : Arena α) : List (Nat × α) :=
  s.slots.toList

/-- The number of occupied slots. -/
def size (s : Arena α) : Nat :=
  s.slots.size

/-- Replaces the value in a slot that is occupied. -/
def put (s : Arena α) (key : Nat) (value : α) : Arena α :=
  { s with slots := s.slots.insert key value }

/-- Stores a value in a free slot. -/
def insert (s : Arena α) (value : α) : Nat × Arena α :=
  match s.free with
  | key :: free => (key, { s with slots := s.slots.insert key value, free })
  | [] => (s.made, { s with slots := s.slots.insert s.made value, made := s.made + 1 })

/-- Takes the value out of a slot and frees the slot. -/
def remove? (s : Arena α) (key : Nat) : Option (α × Arena α) :=
  match s.get? key with
  | none => none
  | some value => some (value, { s with slots := s.slots.erase key, free := key :: s.free })

@[simp] theorem get?_empty (key : Nat) : ({} : Arena α).get? key = none := by
  simp [get?]

theorem get?_put (s : Arena α) (key other : Nat) (value : α) :
    (s.put key value).get? other = if key = other then some value else s.get? other := by
  simp [get?, put, Std.ExtTreeMap.getElem?_insert]

end Arena

end Http2
