import Http2.Proofs.Pool.Sending

/-!
# Slots and their loads

What the manager of a pool does to the slots of its workers: it places a connection on a worker that runs
and has room (`placing`), puts a request into a mailbox (`slots_of_request`), and takes what is finished
off the loads, one after the other (`discharge_all`).
-/

namespace Http2

variable {δ σ : Type}

/-- The slot after a connection was placed there. -/
def Slot.received (s : Slot δ σ) (c : Connection δ σ) : Slot δ σ :=
  { s with
    active := s.active + 1
    nextSerial := s.nextSerial + 1
    mailbox := { s.mailbox with connections := s.mailbox.connections ++ [c] } }

/-- The slot after a request was put into its mailbox. -/
def Slot.requested (s : Slot δ σ) (id : ConnectionId) (request : Request δ) : Slot δ σ :=
  { s with mailbox := { s.mailbox with requests := s.mailbox.requests ++ [(id, request)] } }

/-- The slot after so many of its connections were reclaimed. -/
def Slot.relieved (s : Slot δ σ) (count : Nat) : Slot δ σ :=
  { s with active := s.active - count }

namespace Pool

variable {p : Pool δ σ}

/-! ## Placing -/

/-- A pair is the first with the least load: those before it have more, and those after it no less. -/
def Foremost (loads : List (Nat × Nat)) (best : Nat × Nat) : Prop :=
  ∃ before after, loads = before ++ best :: after ∧
    (∀ x ∈ before, best.2 < x.2) ∧ ∀ x ∈ after, best.2 ≤ x.2

/-- The less loaded of two, the first if they are equal. -/
def lighter (best next : Nat × Nat) : Nat × Nat :=
  if next.2 < best.2 then next else best

/-- The lighter of the foremost and a later one is the foremost of all. -/
theorem Foremost.concat {loads : List (Nat × Nat)} {best : Nat × Nat} (foremost : Foremost loads best)
    (next : Nat × Nat) : Foremost (loads ++ [next]) (lighter best next) := by
  obtain ⟨before, after, rfl, more, noLess⟩ := foremost
  unfold lighter
  split
  · rename_i less
    refine ⟨before ++ best :: after, [], rfl, fun x member => ?_, nofun⟩
    rcases List.mem_append.mp member with early | late
    · exact Nat.lt_trans less (more x early)
    · rcases List.mem_cons.mp late with rfl | late
      · exact less
      · exact Nat.lt_of_lt_of_le less (noLess x late)
  · rename_i kept
    refine ⟨before, after ++ [next], List.append_assoc .., more, fun x member => ?_⟩
    rcases List.mem_append.mp member with late | last
    · exact noLess x late
    · exact List.mem_singleton.mp last ▸ Nat.le_of_not_lt kept

/-- Comparing one after the other finds the foremost of all. -/
theorem Foremost.foldl {loads : List (Nat × Nat)} {best : Nat × Nat} (foremost : Foremost loads best)
    (others : List (Nat × Nat)) : Foremost (loads ++ others) (others.foldl lighter best) := by
  induction others generalizing loads best with
  | nil => rwa [List.append_nil]
  | cons next others ih =>
    have later := ih (foremost.concat next)
    rwa [List.append_assoc, List.singleton_append] at later

/-- What is chosen as least loaded is the foremost of the loads. -/
theorem foremost_of_leastLoaded {loads : List (Nat × Nat)} {index : Nat}
    (least : leastLoaded loads = some index) : ∃ load, Foremost loads (index, load) := by
  cases loads with
  | nil => cases least
  | cons first rest =>
    have single : Foremost [first] first := ⟨[], [], rfl, nofun, nofun⟩
    obtain rfl := Option.some.inj least
    exact ⟨_, single.foldl rest⟩

/-- The slots that can take a connection are those of workers that run and have room. -/
theorem mem_candidates {index load : Nat} :
    (index, load) ∈ p.candidates ↔ ∃ s, p.slots[index]? = some s ∧ s.stopped = false ∧
      s.active < p.config.connectionsPerThread ∧ load = s.active := by
  constructor
  · intro listed
    obtain ⟨⟨other, s⟩, paired, kept⟩ := List.mem_filterMap.mp listed
    obtain ⟨_, _, found⟩ := List.mem_mapIdx.mp paired
    cases found
    simp only [Option.ite_none_right_eq_some, Bool.and_eq_true, Bool.not_eq_true',
      decide_eq_true_eq, Option.some.injEq, Prod.mk.injEq] at kept
    obtain ⟨⟨runs, room⟩, rfl, rfl⟩ := kept
    exact ⟨_, List.getElem?_eq_getElem _, runs, room, rfl⟩
  · rintro ⟨s, found, runs, room, rfl⟩
    obtain ⟨inside, same⟩ := List.getElem?_eq_some_iff.mp found
    refine List.mem_filterMap.mpr ⟨(index, s), List.mem_mapIdx.mpr ⟨index, inside, ?_⟩, ?_⟩
    · rw [same]
    · simp [runs, room]

/-- The slots that can take a connection are listed in ascending order. -/
theorem ascending_candidates (p : Pool δ σ) : p.candidates.Pairwise (·.1 < ·.1) := by
  refine List.Pairwise.filterMap (R := fun x y => x.1 < y.1) _ ?_ ?_
  · rintro ⟨index, s⟩ ⟨other, s'⟩ before x kept y kept'
    simp only [Option.ite_none_right_eq_some, Option.some.injEq] at kept kept'
    obtain ⟨-, rfl⟩ := kept
    obtain ⟨-, rfl⟩ := kept'
    exact before
  · refine List.pairwise_iff_getElem.mpr fun i j _ _ before => ?_
    simpa using before

/-- The worker of an index runs, has room, and is the first of those with the least load among all workers
that run and have room. -/
structure LeastLoaded (p : Pool δ σ) (index : Nat) (s : Slot δ σ) : Prop where
  found : p.slots[index]? = some s
  runs : s.stopped = false
  room : s.active < p.config.connectionsPerThread
  least : ∀ other s', p.slots[other]? = some s' → s'.stopped = false →
    s'.active < p.config.connectionsPerThread →
      s.active ≤ s'.active ∧ (s'.active = s.active → index ≤ other)

/-- The worker for the next connection is the least-loaded one. -/
theorem leastLoaded_of_pick? {index : Nat} (picked : p.pick? = some index) :
    ∃ s, p.LeastLoaded index s := by
  obtain ⟨load, before, after, split, more, noLess⟩ := foremost_of_leastLoaded picked
  have ascending := p.ascending_candidates
  rw [split] at ascending
  obtain ⟨-, later, earlier⟩ := List.pairwise_append.mp ascending
  have listed : (index, load) ∈ p.candidates := by
    rw [split]
    exact List.mem_append_right _ List.mem_cons_self
  obtain ⟨s, found, runs, room, rfl⟩ := mem_candidates.mp listed
  refine ⟨s, found, runs, room, fun other s' found' runs' room' => ?_⟩
  have rival : (other, s'.active) ∈ p.candidates := mem_candidates.mpr ⟨s', found', runs', room', rfl⟩
  rw [split] at rival
  rcases List.mem_append.mp rival with front | rest
  · have less : s.active < s'.active := more _ front
    exact ⟨Nat.le_of_lt less, fun same => absurd same (Nat.ne_of_gt less)⟩
  · rcases List.mem_cons.mp rest with same | back
    · obtain ⟨rfl, equal⟩ := Prod.mk.inj same
      exact ⟨Nat.le_of_eq equal.symm, fun _ => Nat.le_refl _⟩
    · have beyond := (List.pairwise_cons.mp later).1 _ back
      exact ⟨noLess _ back, fun _ => Nat.le_of_lt beyond⟩

/-- There is no worker for the next connection if and only if every worker that runs is full. -/
theorem pick?_eq_none : p.pick? = none ↔
    ∀ s ∈ p.slots, s.stopped = false → p.config.connectionsPerThread ≤ s.active := by
  have nobody : p.pick? = none ↔ p.candidates = [] := by
    unfold pick?
    cases p.candidates <;> simp [leastLoaded]
  rw [nobody, List.eq_nil_iff_forall_not_mem]
  constructor
  · intro none s member runs
    obtain ⟨index, inside, rfl⟩ := List.mem_iff_getElem.mp member
    refine Nat.le_of_not_lt fun room => none (index, p.slots[index].active) ?_
    exact mem_candidates.mpr ⟨_, List.getElem?_eq_getElem inside, runs, room, rfl⟩
  · rintro full ⟨index, load⟩ listed
    obtain ⟨s, found, runs, room, -⟩ := mem_candidates.mp listed
    exact absurd room (Nat.not_lt.mpr (full s (List.mem_of_getElem? found) runs))

/-- A socket is refused if no worker runs and has room, and otherwise it goes to the least-loaded one. -/
theorem place_cases (p : Pool δ σ) (socket : Socket) (handler : Handler δ σ) (app : σ) :
    (p.place socket handler app = (none, p) ∧
      ∀ s ∈ p.slots, s.stopped = false → p.config.connectionsPerThread ≤ s.active) ∨
    ∃ index s, p.LeastLoaded index s ∧
      p.place socket handler app =
        (some ⟨index, s.nextSerial⟩,
          p.modifySlot index (·.received
            { id := ⟨index, s.nextSerial⟩, socket, handler
              endpoint := ⟨.create p.config.role p.config.maxFrameSize, app⟩ })) := by
  cases picked : p.pick? with
  | none =>
    refine .inl ⟨?_, pick?_eq_none.mp picked⟩
    rw [place, picked]
    rfl
  | some index =>
    obtain ⟨s, least⟩ := leastLoaded_of_pick? picked
    refine .inr ⟨index, s, least, ?_⟩
    rw [place, picked, Option.bind_some, least.found]
    rfl

/-- What placing a connection can do. -/
inductive Placing (p : Pool δ σ) : Option ConnectionId × Pool δ σ → Prop
  | refused : Placing p (none, p)
  | placed {index : Nat} {s : Slot δ σ} {c : Connection δ σ} (found : p.slots[index]? = some s)
      (runs : s.stopped = false) (room : s.active < p.config.connectionsPerThread) (fresh : c.Fresh)
      (name : c.id = ⟨index, s.nextSerial⟩) :
      Placing p (some c.id, p.modifySlot index (·.received c))

/-- Placing is refused, or puts a fresh connection into the mailbox of a running worker with room. -/
theorem placing (p : Pool δ σ) (socket : Socket) (handler : Handler δ σ) (app : σ) :
    p.Placing (p.place socket handler app) := by
  rcases p.place_cases socket handler app with ⟨refused, -⟩ | ⟨index, s, least, placed⟩
  · rw [refused]
    exact .refused
  · rw [placed]
    exact .placed least.found least.runs least.room ⟨_, _, _, _, _, _, rfl⟩ rfl

/-! ## Requests -/

/-- A request that is accepted is for a connection that was placed, and goes to the mailbox of its worker,
which runs as far as the manager can see. -/
theorem slots_of_request {p' : Pool δ σ} {id : ConnectionId} {request : Request δ}
    (sent : p.request id request = .ok p') :
    ∃ s, p.slots[id.worker]? = some s ∧ id.serial < s.nextSerial ∧ s.stopped = false ∧
      p' = p.modifySlot id.worker (·.requested id request) := by
  unfold Pool.request at sent
  split at sent
  · cases sent
  · rename_i s found
    split at sent
    · cases sent
    · rename_i placed
      split at sent
      · cases sent
      · rename_i runs
        cases sent
        exact ⟨s, found, Nat.lt_of_not_le placed, Bool.eq_false_iff.mpr runs, rfl⟩

/-! ## Reclaiming -/

/-- The pool after one connection was reclaimed. -/
def discharge (p : Pool δ σ) (c : Connection δ σ) : Pool δ σ :=
  p.modifySlot c.id.worker (·.relieved 1)

/-- To reclaim what is finished is to discharge one connection after the other. -/
theorem reclaim_eq (p : Pool δ σ) :
    p.reclaim = (p.finished, p.finished.foldl discharge { p with finished := [] }) :=
  rfl

/-- Each connection that is reclaimed is taken off the load of its worker. -/
theorem discharge_all (cs : List (Connection δ σ)) (p : Pool δ σ) :
    let after := cs.foldl discharge p
    after.config = p.config ∧ after.finished = p.finished ∧ after.slots.length = p.slots.length ∧
      ∀ index, after.slots[index]? =
        p.slots[index]?.map fun s : Slot δ σ =>
          s.relieved (cs.countP fun c : Connection δ σ => c.id.worker = index) := by
  induction cs generalizing p with
  | nil => exact ⟨rfl, rfl, rfl, fun index => by simp [Slot.relieved]⟩
  | cons c cs ih =>
    obtain ⟨config, finished, length, slots⟩ := ih (p.discharge c)
    refine ⟨config, finished, length.trans (List.length_modify ..), fun index => ?_⟩
    rw [List.foldl_cons, slots index, discharge, getElem?_modifySlot, List.countP_cons]
    by_cases same : c.id.worker = index
    · cases p.slots[index]? <;> simp [same, Slot.relieved, Nat.sub_sub, Nat.add_comm]
    · simp [same]

end Pool

end Http2
