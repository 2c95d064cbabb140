import Http2.Worker.Arena

/-!
# Slots of an arena

What an arena holds after a value was replaced, stored or taken out. `Arena.Sound` says that the free
slots are really free, so that a new value never takes the slot of another one. A sum over all values
changes by the one value that is replaced (`sum_put`).
-/

namespace Http2

namespace Arena

variable {α : Type} {s : Arena α} {key other : Nat} {value : α}

/-- An arena is what its slots hold, the free ones, and how many were made. -/
theorem ext_get? {s t : Arena α} (slots : ∀ key, s.get? key = t.get? key) (free : s.free = t.free)
    (made : s.made = t.made) : s = t := by
  obtain ⟨slots', free', made'⟩ := s
  obtain rfl : free' = t.free := free
  obtain rfl : made' = t.made := made
  obtain rfl : slots' = t.slots := Std.ExtTreeMap.ext_getElem? fun {key} => slots key
  rfl

@[simp] theorem get?_put_self (s : Arena α) (key : Nat) (value : α) :
    (s.put key value).get? key = some value := by
  rw [get?_put, if_pos rfl]

theorem get?_put_of_ne (s : Arena α) (value : α) (different : other ≠ key) :
    (s.put key value).get? other = s.get? other := by
  rw [get?_put, if_neg different.symm]

/-- Only the last of two values put in a slot counts. -/
@[simp] theorem put_put (s : Arena α) (key : Nat) (first second : α) :
    (s.put key first).put key second = s.put key second := by
  refine ext_get? (fun other => ?_) rfl rfl
  simp only [get?_put]
  split <;> rfl

/-- A free slot is used again, the one freed last first. -/
theorem insert_of_free {slot : Nat} {free : List Nat} (listed : s.free = slot :: free) :
    s.insert value = (slot, { s with slots := s.slots.insert slot value, free }) := by
  rw [insert, listed]

/-- If no slot is free, a new one is made. -/
theorem insert_of_full (listed : s.free = []) :
    s.insert value =
      (s.made, { s with slots := s.slots.insert s.made value, made := s.made + 1 }) := by
  rw [insert, listed]

/-- A new value is in the slot that it gets, and the other slots stay as they are. -/
theorem get?_insert (s : Arena α) (value : α) (other : Nat) :
    (s.insert value).2.get? other =
      if (s.insert value).1 = other then some value else s.get? other := by
  unfold insert
  split <;> simp [get?, Std.ExtTreeMap.getElem?_insert]

/-- To remove a value is to empty its slot, and the other slots are as they were. -/
theorem get?_remove {t : Arena α} (removed : s.remove? key = some (value, t)) (other : Nat) :
    t.get? other = if key = other then none else s.get? other := by
  unfold remove? at removed
  split at removed <;> cases removed
  simp [get?, Std.ExtTreeMap.getElem?_erase]

/-- What can be taken out is what is there. -/
theorem remove?_eq_none : s.remove? key = none ↔ s.get? key = none := by
  unfold remove?
  split <;> simp_all

/-- What is removed is what the slot held. -/
theorem get?_of_remove {t : Arena α} (removed : s.remove? key = some (value, t)) :
    s.get? key = some value := by
  unfold remove? at removed
  split at removed <;> cases removed
  assumption

/-- The keys are those of the slots that hold something. -/
theorem mem_keys : key ∈ s.keys ↔ (s.get? key).isSome := by
  rw [keys, Std.ExtTreeMap.mem_keys, Std.ExtTreeMap.mem_iff_isSome_getElem?]
  rfl

/-- Every free slot is an empty one that was made before, and is free once; no slot that was not made
holds anything. -/
structure Sound (s : Arena α) : Prop where
  empty : ∀ key ∈ s.free, s.get? key = none
  made : ∀ key ∈ s.free, key < s.made
  once : s.free.Nodup
  beyond : ∀ key, s.made ≤ key → s.get? key = none

namespace Sound

/-- An empty arena has made no slot. -/
theorem fresh : ({} : Arena α).Sound :=
  ⟨nofun, nofun, .nil, fun key _ => get?_empty key⟩

/-- The slot for a new value is empty. -/
theorem get?_slot (sound : s.Sound) (value : α) : s.get? (s.insert value).1 = none := by
  unfold insert
  split
  · rename_i key free listed
    exact sound.empty key (listed ▸ List.mem_cons_self)
  · exact sound.beyond s.made (Nat.le_refl _)

/-- Replacing a value that is there moves no slot. -/
theorem put (sound : s.Sound) (there : (s.get? key).isSome) (value : α) :
    (s.put key value).Sound := by
  have occupied : ∀ other, s.get? other = none → (s.put key value).get? other = none := by
    intro other none
    rwa [get?_put_of_ne]
    rintro rfl
    simp [none] at there
  exact ⟨fun other free => occupied other (sound.empty other free), sound.made, sound.once,
    fun other beyond => occupied other (sound.beyond other beyond)⟩

/-- A value that is inserted takes an empty slot, which is free no longer. -/
theorem insert (sound : s.Sound) (value : α) : (s.insert value).2.Sound := by
  have found := s.get?_insert value
  cases listed : s.free with
  | cons slot free =>
    rw [insert_of_free listed] at found ⊢
    have once := sound.once
    rw [listed] at once
    obtain ⟨fresh, once⟩ := List.nodup_cons.mp once
    have member : ∀ other ∈ free, other ∈ s.free := fun other later =>
      listed ▸ List.mem_cons_of_mem _ later
    refine ⟨?_, fun other later => sound.made other (member other later), once, ?_⟩
    · intro other later
      have different : slot ≠ other := fun same => fresh (same ▸ later)
      rw [found other, if_neg different]
      exact sound.empty other (member other later)
    · intro other beyond
      have below := sound.made slot (listed ▸ List.mem_cons_self)
      have different : slot ≠ other := by
        rintro rfl
        exact absurd below (Nat.not_lt.mpr beyond)
      rw [found other, if_neg different]
      exact sound.beyond other beyond
  | nil =>
    rw [insert_of_full listed] at found ⊢
    have nothing : ∀ other, other ∉ s.free := fun other => listed ▸ List.not_mem_nil
    refine ⟨fun other free => absurd free (nothing other),
      fun other free => absurd free (nothing other), sound.once, ?_⟩
    intro other beyond
    have different : s.made ≠ other := Nat.ne_of_lt beyond
    rw [found other, if_neg different]
    exact sound.beyond other (Nat.le_of_succ_le beyond)

/-- A slot that was emptied is free, and was not before. -/
theorem remove {t : Arena α} (sound : s.Sound) (removed : s.remove? key = some (value, t)) :
    t.Sound := by
  have there := get?_of_remove removed
  have found := get?_remove removed
  unfold remove? at removed
  rw [there] at removed
  cases removed
  have below : key < s.made := by
    refine Nat.lt_of_not_le fun beyond => ?_
    rw [sound.beyond key beyond] at there
    cases there
  refine ⟨?_, ?_, ?_, ?_⟩
  · intro other free
    rw [found other]
    split
    · rfl
    · rename_i different
      exact sound.empty other ((List.mem_cons.mp free).resolve_left (Ne.symm different))
  · intro other free
    rcases List.mem_cons.mp free with rfl | free
    · exact below
    · exact sound.made other free
  · refine List.nodup_cons.mpr ⟨fun free => ?_, sound.once⟩
    rw [sound.empty key free] at there
    cases there
  · intro other beyond
    rw [found other]
    split
    · rfl
    · exact sound.beyond other beyond

end Sound

/-! ## Sums over all values -/

/-- No slot is listed twice. -/
theorem nodup_toList (slots : Std.ExtTreeMap Nat α) : slots.toList.Nodup :=
  slots.distinct_keys_toList.imp fun apart same => apart (by simp [same])

/-- A value that is there can be listed first. -/
theorem perm_toList (found : s.get? key = some value) :
    s.toList.Perm ((key, value) :: (s.slots.erase key).toList) := by
  refine (List.perm_ext_iff_of_nodup (nodup_toList _) (List.nodup_cons.mpr ⟨?_, nodup_toList _⟩)).mpr ?_
  · rw [Std.ExtTreeMap.mem_toList_iff_getElem?_eq_some]
    simp
  · rintro ⟨other, held⟩
    have here : s.slots[key]? = some value := found
    simp only [List.mem_cons, Std.ExtTreeMap.mem_toList_iff_getElem?_eq_some,
      Std.ExtTreeMap.getElem?_erase]
    by_cases same : key = other
    · subst same
      simp [here, eq_comm]
    · simp [same, Ne.symm same]

/-- The sum of a number for every value. -/
def sum (s : Arena α) (weight : α → Nat) : Nat :=
  s.toList.foldr (fun entry others => weight entry.2 + others) 0

/-- A sum over an arena is what one slot adds to it, and what the others do. -/
theorem sum_of_found (weight : α → Nat) (found : s.get? key = some value) :
    s.sum weight = weight value +
      (s.slots.erase key).toList.foldr (fun entry others => weight entry.2 + others) 0 := by
  have order : ∀ (first second : Nat × α) (others : Nat),
      weight first.2 + (weight second.2 + others) = weight second.2 + (weight first.2 + others) := by
    intro first second others
    omega
  exact (perm_toList found).foldr_eq' (fun first _ second _ others => order second first others) 0

/-- Replacing a value changes a sum by what it replaces. -/
theorem sum_put (weight : α → Nat) {old : α} (found : s.get? key = some old) (value : α) :
    (s.put key value).sum weight + weight old = s.sum weight + weight value := by
  have erased : (s.put key value).slots.erase key = s.slots.erase key := by
    refine Std.ExtTreeMap.ext_getElem? fun {other} => ?_
    simp only [put, Std.ExtTreeMap.getElem?_erase, Std.ExtTreeMap.getElem?_insert]
    split <;> simp_all
  rw [sum_of_found weight found, sum_of_found weight (get?_put_self s key value), erased]
  omega

end Arena

end Http2
