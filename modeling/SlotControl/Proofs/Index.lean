import SlotControl.Inventory
import SlotControl.Proofs.Occupancy

/-!
The index of owners. `Inventory.Indexed` says that the index names exactly the workers that hold the
recorded allocations and that every record stands under its own id. Every operation keeps it, and what
an operation does is described by the slot that it leaves under each allocation.
-/

namespace SlotControl.Inventory

variable {Seed : Type} [Traversal Seed]

/-- Workers and slots stand under their own ids, slots name the worker that holds them, and the index
    names that worker too. -/
structure Indexed (inventory : Inventory) : Prop where
  id_eq : ∀ {id worker}, inventory.worker? id = some worker → worker.id = id
  housed : ∀ {id worker allocation slot}, inventory.worker? id = some worker →
    worker.slot? allocation = some slot → slot.allocation = allocation ∧ slot.worker = id
  owner_iff : ∀ allocation id, inventory.owners.get? allocation = some id ↔
    ∃ worker slot, inventory.worker? id = some worker ∧ worker.slot? allocation = some slot

theorem indexed_empty : empty.Indexed :=
  ⟨nofun, nofun, fun _ _ => ⟨nofun, nofun⟩⟩

namespace Indexed

variable {inventory next : Inventory}

/-- A look-up finds a slot exactly on the worker that the slot names. -/
theorem slot?_eq_some_iff (indexed : inventory.Indexed) {allocation : AllocationId} {slot : Slot} :
    inventory.slot? allocation = some slot ↔
      ∃ worker, inventory.worker? slot.worker = some worker ∧ worker.slot? allocation = some slot := by
  simp only [slot?, bind, Option.bind_eq_some_iff]
  constructor
  · rintro ⟨id, _, worker, registered, held⟩
    rw [(indexed.housed registered held).2]
    exact ⟨worker, registered, held⟩
  · rintro ⟨worker, registered, held⟩
    exact ⟨slot.worker, (indexed.owner_iff ..).2 ⟨worker, slot, registered, held⟩, worker, registered, held⟩

theorem allocation_eq (indexed : inventory.Indexed) {allocation : AllocationId} {slot : Slot}
    (found : inventory.slot? allocation = some slot) : slot.allocation = allocation := by
  obtain ⟨worker, registered, held⟩ := indexed.slot?_eq_some_iff.1 found
  exact (indexed.housed registered held).1

theorem slot?_of_worker (indexed : inventory.Indexed) {id : WorkerId} {worker : Worker}
    {allocation : AllocationId} {slot : Slot} (registered : inventory.worker? id = some worker)
    (held : worker.slot? allocation = some slot) : inventory.slot? allocation = some slot := by
  refine indexed.slot?_eq_some_iff.2 ⟨worker, ?_, held⟩
  rw [(indexed.housed registered held).2]
  exact registered

/-- A registered worker holds the slots that name it. -/
theorem worker_slot? (indexed : inventory.Indexed) {id : WorkerId} {worker : Worker}
    (registered : inventory.worker? id = some worker) (allocation : AllocationId) :
    worker.slot? allocation = (inventory.slot? allocation).filter (·.worker = id) := by
  apply Option.ext
  intro slot
  rw [Option.filter_eq_some_iff, indexed.slot?_eq_some_iff, decide_eq_true_iff]
  constructor
  · intro held
    have here := (indexed.housed registered held).2
    exact ⟨⟨worker, here ▸ registered, held⟩, here⟩
  · rintro ⟨⟨other, registered', held⟩, rfl⟩
    rw [registered] at registered'
    rwa [Option.some.inj registered']

/-- The index is determined by the slots. -/
theorem owners_get? (indexed : inventory.Indexed) (allocation : AllocationId) :
    inventory.owners.get? allocation = (inventory.slot? allocation).map Slot.worker := by
  apply Option.ext
  intro id
  rw [indexed.owner_iff, Option.map_eq_some_iff]
  constructor
  · rintro ⟨worker, slot, registered, held⟩
    exact ⟨slot, indexed.slot?_of_worker registered held, (indexed.housed registered held).2⟩
  · rintro ⟨slot, found, rfl⟩
    obtain ⟨worker, registered, held⟩ := indexed.slot?_eq_some_iff.1 found
    exact ⟨worker, slot, registered, held⟩

theorem registered_of_slot? (indexed : inventory.Indexed) {allocation : AllocationId} {slot : Slot}
    (found : inventory.slot? allocation = some slot) :
    ∃ worker, inventory.worker? slot.worker = some worker ∧ worker.slot? allocation = some slot :=
  indexed.slot?_eq_some_iff.1 found

end Indexed

/-! ## A change of one slot -/

/-- One worker and its slot of one allocation are replaced, and the entry of the allocation in the
    index with them. Without a new slot the allocation is forgotten. -/
structure Revision (inventory next : Inventory) (worker updated : Worker) (allocation : AllocationId)
    (slot : Option Slot) : Prop where
  registered : inventory.worker? worker.id = some worker
  same_id : updated.id = worker.id
  owned : ∀ owner, inventory.owners.get? allocation = some owner → owner = worker.id
  named : ∀ s, slot = some s → s.allocation = allocation ∧ s.worker = worker.id
  slots : ∀ other, updated.slot? other = if other = allocation then slot else worker.slot? other
  workers : next.workers = inventory.workers.insert worker.id updated
  owners : ∀ other, next.owners.get? other =
    if other = allocation then slot.map fun _ => worker.id else inventory.owners.get? other

namespace Revision

variable {inventory next : Inventory} {worker updated : Worker} {allocation : AllocationId} {slot : Option Slot}

theorem worker? (revision : Revision inventory next worker updated allocation slot) (id : WorkerId) :
    next.worker? id = if id = worker.id then some updated else inventory.worker? id := by
  rw [Inventory.worker?, revision.workers]
  exact SortedMap.get?_insert ..

/-- What holds of all workers and of the changed one holds of all workers afterwards. -/
theorem all (revision : Revision inventory next worker updated allocation slot) {Holds : Worker → Prop}
    (all : ∀ ⦃id record⦄, inventory.worker? id = some record → Holds record) (changed : Holds updated) :
    ∀ ⦃id record⦄, next.worker? id = some record → Holds record := by
  intro id record registered
  rw [revision.worker?] at registered
  split at registered
  · exact Option.some.inj registered ▸ changed
  · exact all registered

/-- A change of slots leaves the terms of all workers. -/
theorem terms (revision : Revision inventory next worker updated allocation slot)
    (same : updated.terms = worker.terms) (id : WorkerId) :
    (next.worker? id).map Worker.terms = (inventory.worker? id).map Worker.terms := by
  rw [revision.worker?]
  split
  · next this => rw [this, revision.registered, Option.map_some, Option.map_some, same]
  · rfl

/-- Before and after the change nobody else holds the allocation. -/
private theorem slot?_elsewhere (revision : Revision inventory next worker updated allocation slot)
    (indexed : inventory.Indexed) {id : WorkerId} {record : Worker} (apart : id ≠ worker.id)
    (here : inventory.worker? id = some record) : record.slot? allocation = none := by
  cases held : record.slot? allocation with
  | none => rfl
  | some s => exact absurd (revision.owned id ((indexed.owner_iff ..).2 ⟨record, s, here, held⟩)) apart

/-- A slot that a worker holds after the change is the new one, or the worker held it before. -/
private theorem held_iff (revision : Revision inventory next worker updated allocation slot)
    (indexed : inventory.Indexed) (id : WorkerId) (other : AllocationId) (s : Slot) :
    (∃ record, next.worker? id = some record ∧ record.slot? other = some s) ↔
      if other = allocation then id = worker.id ∧ slot = some s
      else ∃ record, inventory.worker? id = some record ∧ record.slot? other = some s := by
  simp only [revision.worker?]
  by_cases same : id = worker.id
  · subst same
    simp only [if_true, Option.some.injEq, exists_eq_left', revision.slots, revision.registered]
    split <;> simp
  · simp only [same, if_false]
    split
    · next this =>
      subst this
      simp only [false_and, iff_false]
      rintro ⟨record, here, held⟩
      rw [revision.slot?_elsewhere indexed same here] at held
      cases held
    · rfl

theorem indexed (revision : Revision inventory next worker updated allocation slot)
    (indexed : inventory.Indexed) : next.Indexed := by
  refine ⟨?_, ?_, ?_⟩
  · intro id record here
    rw [revision.worker?] at here
    split at here
    · next same => rw [same, ← Option.some.inj here, revision.same_id]
    · exact indexed.id_eq here
  · intro id record other s here held
    have holds := (revision.held_iff indexed id other s).1 ⟨record, here, held⟩
    split at holds
    · next this => rw [this, holds.1]; exact revision.named s holds.2
    · obtain ⟨record', here', held'⟩ := holds
      exact indexed.housed here' held'
  · intro other id
    rw [revision.owners, exists_comm]
    simp only [revision.held_iff indexed]
    split
    · cases slot <;> simp [eq_comm]
    · rw [exists_comm]
      exact indexed.owner_iff other id

/-- Every other allocation keeps its slot. -/
theorem slot? (revision : Revision inventory next worker updated allocation slot) (indexed : inventory.Indexed)
    (other : AllocationId) : next.slot? other = if other = allocation then slot else inventory.slot? other := by
  apply Option.ext
  intro s
  rw [(revision.indexed indexed).slot?_eq_some_iff, revision.held_iff indexed]
  split
  · next this => exact ⟨And.right, fun present => ⟨(revision.named s present).2, present⟩⟩
  · rw [indexed.slot?_eq_some_iff]

end Revision

/-! ## The operations -/

theorem addWorker_eq_ok_iff (inventory next : Inventory) (id : WorkerId) (total defaultSlot : Profile) :
    inventory.addWorker id total defaultSlot = .ok next ↔ inventory.worker? id = none ∧
      next = { inventory with workers := inventory.workers.insert id (.register id total defaultSlot) } := by
  rw [addWorker, SortedMap.contains, worker?]
  cases inventory.workers.get? id <;> simp [eq_comm]

section Record

variable {inventory : Inventory} {slot : Slot}

/-- A slot may be recorded if its allocation is new or on the same worker already. -/
def Movable (inventory : Inventory) (slot : Slot) : Prop :=
  ∀ owner, inventory.owners.get? slot.allocation = some owner → owner = slot.worker

theorem record_of_not_movable (fixed : ¬inventory.Movable slot) :
    ∃ owner, inventory.record slot = .error (.allocationMoved slot.allocation owner slot.worker) := by
  obtain ⟨owner, refused⟩ := Classical.not_forall.1 fixed
  obtain ⟨entry, other⟩ := Classical.not_imp.1 refused
  refine ⟨owner, ?_⟩
  simp only [record, entry, if_neg other]
  rfl

theorem record_of_unknown (movable : inventory.Movable slot) (unknown : inventory.worker? slot.worker = none) :
    inventory.record slot = .error (.unregisteredWorker slot.allocation slot.worker) := by
  cases entry : inventory.owners.get? slot.allocation with
  | none =>
    simp only [record, entry, unknown]
    rfl
  | some owner =>
    simp only [record, entry, if_pos (movable owner entry), unknown]
    rfl

theorem record_of_registered {worker : Worker} (movable : inventory.Movable slot)
    (registered : inventory.worker? slot.worker = some worker) : inventory.record slot = (do
      let updated ← worker.record slot
      updated.audit
      return ⟨inventory.workers.insert slot.worker updated,
        inventory.owners.insert slot.allocation slot.worker⟩) := by
  cases entry : inventory.owners.get? slot.allocation with
  | none =>
    simp only [record, entry, registered]
  | some owner =>
    simp only [record, entry, if_pos (movable owner entry), registered]

/-- A slot is recorded if its allocation is new or on the same worker, the worker is registered and has
    the resources, and its account is in order afterwards. -/
theorem record_eq_ok_iff (next : Inventory) : inventory.record slot = .ok next ↔
    inventory.Movable slot ∧ ∃ worker available, inventory.worker? slot.worker = some worker ∧
      worker.Leaves slot available ∧ (worker.keep slot available).audit = .ok () ∧
      next = ⟨inventory.workers.insert slot.worker (worker.keep slot available),
        inventory.owners.insert slot.allocation slot.worker⟩ := by
  by_cases movable : inventory.Movable slot
  · rw [and_iff_right movable]
    cases registered : inventory.worker? slot.worker with
    | none => simp [record_of_unknown movable registered]
    | some worker =>
      simp only [record_of_registered movable registered, Checked.bind_eq_ok_iff, Worker.record_eq_ok_iff,
        Checked.pure_eq_ok_iff, Option.some.injEq, exists_and_left, exists_eq_left']
      constructor
      · rintro ⟨_, ⟨available, leaves, rfl⟩, ⟨⟩, checked, rfl⟩
        exact ⟨available, leaves, checked, rfl⟩
      · rintro ⟨available, leaves, checked, rfl⟩
        exact ⟨_, ⟨available, leaves, rfl⟩, ⟨⟩, checked, rfl⟩
  · obtain ⟨owner, refused⟩ := record_of_not_movable movable
    simp [refused, movable]

end Record

namespace Indexed

variable {inventory next : Inventory}

/-- If exactly the workers of some kind keep their slots, then exactly their slots are found. -/
private theorem of_workers (indexed : inventory.Indexed) (next : Inventory) (stays : WorkerId → Bool)
    (ids : ∀ {id worker}, next.worker? id = some worker → worker.id = id)
    (holds : ∀ id allocation slot,
      (∃ worker, next.worker? id = some worker ∧ worker.slot? allocation = some slot) ↔
        stays id = true ∧ ∃ worker, inventory.worker? id = some worker ∧ worker.slot? allocation = some slot)
    (owners : ∀ allocation id, next.owners.get? allocation = some id ↔
      stays id = true ∧ inventory.owners.get? allocation = some id) :
    next.Indexed ∧ ∀ allocation, next.slot? allocation = (inventory.slot? allocation).filter (stays ·.worker) := by
  have indexed' : next.Indexed := by
    refine ⟨ids, ?_, ?_⟩
    · intro id worker allocation slot here held
      obtain ⟨_, worker', here', held'⟩ := (holds id allocation slot).1 ⟨worker, here, held⟩
      exact indexed.housed here' held'
    · intro allocation id
      rw [owners, indexed.owner_iff, exists_comm, ← exists_and_left, exists_comm]
      simp only [holds]
  refine ⟨indexed', fun allocation => Option.ext fun slot => ?_⟩
  rw [indexed'.slot?_eq_some_iff, holds, Option.filter_eq_some_iff, indexed.slot?_eq_some_iff, and_comm]

/-- A new worker has no slots. -/
theorem addWorker (indexed : inventory.Indexed) {id : WorkerId} {total defaultSlot : Profile}
    (added : inventory.addWorker id total defaultSlot = .ok next) :
    next.Indexed ∧ ∀ allocation, next.slot? allocation = inventory.slot? allocation := by
  obtain ⟨unknown, rfl⟩ := (addWorker_eq_ok_iff ..).1 added
  have workers : ∀ other, worker? ⟨inventory.workers.insert id (.register id total defaultSlot),
      inventory.owners⟩ other = if other = id then some (.register id total defaultSlot)
        else inventory.worker? other := fun other => SortedMap.get?_insert ..
  have kept := indexed.of_workers
    ⟨inventory.workers.insert id (.register id total defaultSlot), inventory.owners⟩ (fun _ => true) ?_ ?_ ?_
  · refine ⟨kept.1, fun allocation => (kept.2 allocation).trans ?_⟩
    cases inventory.slot? allocation <;> rfl
  · intro other worker here
    rw [workers] at here
    split at here
    · next same => rw [same, ← Option.some.inj here]; rfl
    · exact indexed.id_eq here
  · intro other allocation slot
    rw [workers]
    by_cases same : other = id
    · subst same
      simp only [if_true, unknown, Option.some.injEq, exists_eq_left', reduceCtorEq, false_and, exists_false,
        and_false, iff_false]
      exact nofun
    · simp only [same, if_false, true_and]
  · simp

theorem record (indexed : inventory.Indexed) {slot : Slot} (recorded : inventory.record slot = .ok next) :
    ∃ worker available, worker.Leaves slot available ∧
      Revision inventory next worker (worker.keep slot available) slot.allocation (some slot) := by
  obtain ⟨movable, worker, available, registered, leaves, -, rfl⟩ := (record_eq_ok_iff next).1 recorded
  have here := indexed.id_eq registered
  refine ⟨worker, available, leaves, ?_, rfl, ?_, ?_, ?_, ?_, ?_⟩
  · rwa [here]
  · rw [here]
    exact movable
  · rintro s ⟨⟩
    exact ⟨rfl, here.symm⟩
  · exact fun other => SortedMap.get?_insert ..
  · rw [here]
  · intro other
    rw [here]
    exact SortedMap.get?_insert ..

/-- Without a slot there is nothing to remove. -/
theorem removeSlot_of_none (indexed : inventory.Indexed) {allocation : AllocationId}
    (absent : inventory.slot? allocation = none) : inventory.removeSlot allocation = .ok (none, inventory) := by
  have entry : inventory.owners.get? allocation = none := by rw [indexed.owners_get?, absent]; rfl
  simp [Inventory.removeSlot, entry, pure, Except.pure]

/-- A slot is removed if the account of its worker is in order afterwards. -/
theorem removeSlot_eq_ok_iff (indexed : inventory.Indexed) {allocation : AllocationId} {slot : Slot}
    (found : inventory.slot? allocation = some slot) (result : Option Slot) :
    inventory.removeSlot allocation = .ok (result, next) ↔ ∃ worker rest,
      inventory.worker? slot.worker = some worker ∧ worker.available.add? slot.profile = some rest ∧
        (worker.drop allocation rest).audit = .ok () ∧ result = some slot ∧
        next = ⟨inventory.workers.insert slot.worker (worker.drop allocation rest),
          inventory.owners.erase allocation⟩ := by
  obtain ⟨worker, registered, held⟩ := indexed.registered_of_slot? found
  have entry : inventory.owners.get? allocation = some slot.worker := by
    rw [indexed.owners_get?, found]
    rfl
  simp only [Inventory.removeSlot, entry, held, Checked.bind_eq_ok_iff,
    Worker.release_eq_ok_iff, Checked.pure_eq_ok_iff, registered, Option.some.injEq, exists_and_left,
    exists_eq_left', Prod.mk.injEq]
  constructor
  · rintro ⟨_, ⟨rest, given, rfl⟩, ⟨⟩, checked, rfl, rfl⟩
    exact ⟨rest, given, checked, rfl, rfl⟩
  · rintro ⟨rest, given, checked, rfl, rfl⟩
    exact ⟨_, ⟨rest, given, rfl⟩, ⟨⟩, checked, rfl, rfl⟩

/-- Removing leaves everything as it is, or one slot less on its worker. -/
theorem removeSlot (indexed : inventory.Indexed) {allocation : AllocationId} {result : Option Slot}
    (removed : inventory.removeSlot allocation = .ok (result, next)) :
    (inventory.slot? allocation = none ∧ result = none ∧ next = inventory) ∨
      ∃ slot worker rest, inventory.slot? allocation = some slot ∧ result = some slot ∧
        worker.slot? allocation = some slot ∧ worker.available.add? slot.profile = some rest ∧
        Revision inventory next worker (worker.drop allocation rest) allocation none := by
  cases found : inventory.slot? allocation with
  | none =>
    rw [indexed.removeSlot_of_none found] at removed
    obtain ⟨rfl, rfl⟩ := Prod.mk.inj (Except.ok.inj removed)
    exact .inl ⟨rfl, rfl, rfl⟩
  | some slot =>
    obtain ⟨worker, rest, registered, given, checked, rfl, rfl⟩ :=
      (indexed.removeSlot_eq_ok_iff found result).1 removed
    have here := indexed.id_eq registered
    have held : worker.slot? allocation = some slot := by
      rw [indexed.worker_slot? registered, found]
      simp [Option.filter]
    refine .inr ⟨slot, worker, rest, rfl, rfl, held, given, ?_, rfl, ?_, nofun, ?_, ?_, ?_⟩
    · rwa [here]
    · intro owner entry
      rw [indexed.owners_get?, found] at entry
      rw [here, ← Option.some.inj entry]
    · exact fun other => SortedMap.get?_erase ..
    · rw [here]
    · exact fun other => SortedMap.get?_erase ..

theorem setPlace_of_none (indexed : inventory.Indexed) {allocation : AllocationId} {place : SlotId}
    (absent : inventory.slot? allocation = none) : inventory.setPlace allocation place = .ok inventory := by
  have entry : inventory.owners.get? allocation = none := by rw [indexed.owners_get?, absent]; rfl
  simp [Inventory.setPlace, entry, pure, Except.pure]

/-- A slot moves to another place of its worker and to no other. -/
theorem setPlace_eq_ok_iff (indexed : inventory.Indexed) {allocation : AllocationId} {place : SlotId} {slot : Slot}
    (found : inventory.slot? allocation = some slot) :
    inventory.setPlace allocation place = .ok next ↔ slot.worker = place.worker ∧ ∃ worker,
      inventory.worker? slot.worker = some worker ∧
        next = ⟨inventory.workers.insert slot.worker (worker.keep { slot with place } worker.available),
          inventory.owners⟩ := by
  obtain ⟨worker, registered, held⟩ := indexed.registered_of_slot? found
  have entry : inventory.owners.get? allocation = some slot.worker := by
    rw [indexed.owners_get?, found]
    rfl
  have this := (indexed.housed registered held).1
  by_cases same : slot.worker = place.worker
  · have registered' : inventory.worker? place.worker = some worker := same ▸ registered
    simp [Inventory.setPlace, entry, registered', held, same, Worker.keep, this, pure, Except.pure, eq_comm]
  · simp [Inventory.setPlace, entry, registered, held, same, throw, throwThe, MonadExceptOf.throw, bind,
      Except.bind]

/-- Moving leaves everything as it is, or one slot at another place of its worker. -/
theorem setPlace (indexed : inventory.Indexed) {allocation : AllocationId} {place : SlotId}
    (moved : inventory.setPlace allocation place = .ok next) :
    (inventory.slot? allocation = none ∧ next = inventory) ∨
      ∃ slot worker, inventory.slot? allocation = some slot ∧ worker.slot? allocation = some slot ∧
        Revision inventory next worker (worker.keep { slot with place } worker.available) allocation
          (some { slot with place }) := by
  cases found : inventory.slot? allocation with
  | none =>
    rw [indexed.setPlace_of_none found] at moved
    exact .inl ⟨rfl, (Except.ok.inj moved).symm⟩
  | some slot =>
    obtain ⟨same, worker, registered, rfl⟩ := (indexed.setPlace_eq_ok_iff found).1 moved
    have here := indexed.id_eq registered
    have this := indexed.allocation_eq found
    have held : worker.slot? allocation = some slot := by
      rw [indexed.worker_slot? registered, found]
      simp [Option.filter]
    refine .inr ⟨slot, worker, rfl, held, ?_, rfl, ?_, ?_, ?_, ?_, ?_⟩
    · rwa [here]
    · intro owner entry
      rw [indexed.owners_get?, found] at entry
      rw [here, ← Option.some.inj entry]
    · rintro s ⟨⟩
      exact ⟨this, by rw [here, same]; rfl⟩
    · intro other
      rw [← this]
      exact SortedMap.get?_insert ..
    · rw [here]
    · intro other
      split
      · next same' => rw [same', indexed.owners_get?, found, here]; rfl
      · rfl

theorem terms_record (indexed : inventory.Indexed) {slot : Slot} (recorded : inventory.record slot = .ok next)
    (id : WorkerId) : (next.worker? id).map Worker.terms = (inventory.worker? id).map Worker.terms := by
  obtain ⟨worker, available, -, revision⟩ := indexed.record recorded
  exact revision.terms rfl id

theorem terms_removeSlot (indexed : inventory.Indexed) {allocation : AllocationId} {result : Option Slot}
    (removed : inventory.removeSlot allocation = .ok (result, next)) (id : WorkerId) :
    (next.worker? id).map Worker.terms = (inventory.worker? id).map Worker.terms := by
  rcases indexed.removeSlot removed with ⟨-, -, rfl⟩ | ⟨slot, worker, rest, -, -, -, -, revision⟩
  · rfl
  · exact revision.terms rfl id

theorem terms_setPlace (indexed : inventory.Indexed) {allocation : AllocationId} {place : SlotId}
    (moved : inventory.setPlace allocation place = .ok next) (id : WorkerId) :
    (next.worker? id).map Worker.terms = (inventory.worker? id).map Worker.terms := by
  rcases indexed.setPlace moved with ⟨-, rfl⟩ | ⟨slot, worker, -, -, revision⟩
  · rfl
  · exact revision.terms rfl id

/-- A removed worker takes its slots with it, and all other slots stay. -/
theorem removeWorker (indexed : inventory.Indexed) (id : WorkerId) :
    (inventory.removeWorker id).2.Indexed ∧
      (∀ other, (inventory.removeWorker id).2.worker? other = if other = id then none else inventory.worker? other) ∧
      ∀ allocation, (inventory.removeWorker id).2.slot? allocation =
        (inventory.slot? allocation).filter (·.worker ≠ id) := by
  rw [Inventory.removeWorker]
  cases registered : inventory.worker? id with
  | none =>
    -- Nobody is removed, and no slot names an unknown worker.
    refine ⟨indexed, fun other => ?_, fun allocation => ?_⟩
    · show inventory.worker? other = _
      by_cases same : other = id
      · rw [same, if_pos rfl, registered]
      · rw [if_neg same]
    · show inventory.slot? allocation = _
      cases found : inventory.slot? allocation with
      | none => rfl
      | some slot =>
        obtain ⟨worker, here, _⟩ := indexed.registered_of_slot? found
        have apart : slot.worker ≠ id := fun same => by rw [same, registered] at here; cases here
        simp [Option.filter, apart]
  | some worker =>
    have workers : ∀ other, worker? ⟨inventory.workers.erase id,
        worker.slots.keys.foldl SortedMap.erase inventory.owners⟩ other =
        if other = id then none else inventory.worker? other := fun other => SortedMap.get?_erase ..
    have kept := indexed.of_workers ⟨inventory.workers.erase id,
      worker.slots.keys.foldl SortedMap.erase inventory.owners⟩ (fun other => other ≠ id) ?_ ?_ ?_
    · exact ⟨kept.1, workers, kept.2⟩
    · intro other record here
      rw [workers] at here
      split at here
      · cases here
      · exact indexed.id_eq here
    · intro other allocation slot
      rw [workers]
      by_cases same : other = id <;> simp [same]
    · intro allocation other
      rw [SortedMap.get?_foldl_erase, decide_eq_true_iff]
      split
      · next listed =>
        obtain ⟨slot, held⟩ := (SortedMap.mem_keys ..).1 listed
        have entry := (indexed.owner_iff allocation id).2 ⟨worker, slot, registered, held⟩
        rw [entry]
        simp [eq_comm]
      · next free =>
        refine ⟨fun entry => ⟨?_, entry⟩, And.right⟩
        rintro rfl
        obtain ⟨record, slot, here, held⟩ := (indexed.owner_iff ..).1 entry
        obtain rfl := Option.some.inj (registered.symm.trans here)
        exact free ((SortedMap.mem_keys ..).2 ⟨slot, held⟩)

end Indexed

end SlotControl.Inventory
