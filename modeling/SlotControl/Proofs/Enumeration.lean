import Mathlib.Data.List.Nodup
import Mathlib.Data.List.Perm.Subperm
import SlotControl.Proofs.Index

/-!
All slots of an inventory as a list: a right index lists each recorded slot once, worker by worker, and
has as many entries as there are slots.
-/

namespace SlotControl.Inventory

variable {inventory : Inventory}

theorem Indexed.mem_slots (indexed : inventory.Indexed) {slot : Slot} :
    slot ∈ inventory.slots ↔ inventory.slot? slot.allocation = some slot := by
  simp only [slots, List.mem_flatMap, SortedMap.mem_values]
  constructor
  · rintro ⟨worker, ⟨id, registered⟩, allocation, held⟩
    rw [(indexed.housed registered held).1]
    exact indexed.slot?_of_worker registered held
  · intro found
    obtain ⟨worker, registered, held⟩ := indexed.registered_of_slot? found
    exact ⟨worker, ⟨_, registered⟩, _, held⟩

/-- The slots of a registered worker are those that name it, and each is listed once. -/
theorem Indexed.mem_values (indexed : inventory.Indexed) {id : WorkerId} {worker : Worker}
    (registered : inventory.worker? id = some worker) {slot : Slot} :
    slot ∈ worker.slots.values ↔ inventory.slot? slot.allocation = some slot ∧ slot.worker = id := by
  rw [SortedMap.mem_values]
  constructor
  · rintro ⟨allocation, held⟩
    obtain ⟨same, here⟩ := indexed.housed registered held
    rw [same]
    exact ⟨indexed.slot?_of_worker registered held, here⟩
  · rintro ⟨found, here⟩
    have held := indexed.worker_slot? registered slot.allocation
    rw [found] at held
    exact ⟨slot.allocation, held.trans (by simp [Option.filter, here])⟩

/-- The index names a worker for its slots. -/
theorem Indexed.owner_of_mem (indexed : inventory.Indexed) {id : WorkerId} {worker : Worker}
    (registered : inventory.worker? id = some worker) :
    ∀ slot ∈ worker.slots.values, inventory.owners.get? slot.allocation = some worker.id := by
  intro slot inside
  obtain ⟨found, here⟩ := (indexed.mem_values registered).1 inside
  rw [indexed.owners_get?, found, Option.map_some, here, indexed.id_eq registered]

theorem Indexed.nodup_values (indexed : inventory.Indexed) {id : WorkerId} {worker : Worker}
    (registered : inventory.worker? id = some worker) : worker.slots.values.Nodup := by
  refine List.Nodup.of_map Slot.allocation ?_
  have keys : worker.slots.values.map Slot.allocation = worker.slots.keys := by
    rw [SortedMap.values, List.map_map]
    refine List.map_congr_left fun entry inside => ?_
    exact (indexed.housed registered ((SortedMap.get?_eq_some_iff worker.slots entry.1 entry.2).2 inside)).1
  rw [keys]
  exact SortedMap.nodup_keys worker.slots

/-- No slot is listed twice: a worker lists its slots once, and slots of two workers name two workers. -/
theorem Indexed.nodup_slots (indexed : inventory.Indexed) : inventory.slots.Nodup := by
  rw [slots, SortedMap.values, List.flatMap_map, List.nodup_flatMap]
  constructor
  · rintro ⟨id, worker⟩ listed
    exact indexed.nodup_values ((SortedMap.get?_eq_some_iff ..).2 listed)
  · refine inventory.workers.sorted.imp_of_mem ?_
    rintro ⟨id, worker⟩ ⟨other, worker'⟩ listed listed' less slot here there
    have first := ((indexed.mem_values ((SortedMap.get?_eq_some_iff ..).2 listed)).1 here).2
    have second := ((indexed.mem_values ((SortedMap.get?_eq_some_iff ..).2 listed')).1 there).2
    simp [← first, ← second] at less

/-- No two slots have one allocation. -/
theorem Indexed.nodup_allocations (indexed : inventory.Indexed) : (inventory.slots.map Slot.allocation).Nodup := by
  refine indexed.nodup_slots.map_on fun slot recorded other recorded' same => ?_
  have found := indexed.mem_slots.1 recorded
  rw [same, indexed.mem_slots.1 recorded'] at found
  exact (Option.some.inj found).symm

theorem Indexed.mem_allocations (indexed : inventory.Indexed) {allocation : AllocationId} :
    allocation ∈ inventory.slots.map Slot.allocation ↔ ∃ slot, inventory.slot? allocation = some slot := by
  rw [List.mem_map]
  constructor
  · rintro ⟨slot, recorded, rfl⟩
    exact ⟨slot, indexed.mem_slots.1 recorded⟩
  · rintro ⟨slot, found⟩
    have same := indexed.allocation_eq found
    exact ⟨slot, indexed.mem_slots.2 (same.symm ▸ found), same⟩

/-- The index has one entry for every slot. -/
theorem Indexed.slotCount_eq (indexed : inventory.Indexed) : inventory.slotCount = inventory.slots.length := by
  have keys : inventory.owners.keys.Perm (inventory.slots.map Slot.allocation) := by
    refine (List.perm_ext_iff_of_nodup (SortedMap.nodup_keys _) indexed.nodup_allocations).2 fun allocation => ?_
    rw [SortedMap.mem_keys, indexed.mem_allocations, indexed.owners_get?]
    cases inventory.slot? allocation <;> simp
  have counted := keys.length_eq
  rw [SortedMap.keys, List.length_map, List.length_map] at counted
  exact counted

/-- If no allocation gains a slot, then there are no more slots than before. -/
theorem Indexed.length_slots_le {next : Inventory} (indexed : inventory.Indexed) (indexed' : next.Indexed)
    (had : ∀ allocation slot, next.slot? allocation = some slot → inventory.slot? allocation ≠ none) :
    next.slots.length ≤ inventory.slots.length := by
  have gained : next.slots.map Slot.allocation ⊆ inventory.slots.map Slot.allocation := fun allocation recorded => by
    obtain ⟨slot, found⟩ := indexed'.mem_allocations.1 recorded
    exact indexed.mem_allocations.2 (Option.ne_none_iff_exists'.1 (had allocation slot found))
  have fewer := (indexed'.nodup_allocations.subperm gained).length_le
  rwa [List.length_map, List.length_map] at fewer

/-- A removed worker returns the slots that it lists. -/
theorem removeWorker_fst (inventory : Inventory) {id : WorkerId} {worker : Worker}
    (registered : inventory.worker? id = some worker) : (inventory.removeWorker id).1 = worker.slots.values := by
  simp only [removeWorker, registered]

/-- A removed worker returns its slots, and the listing keeps the others. -/
theorem Indexed.slots_removeWorker (indexed : inventory.Indexed) (id : WorkerId) :
    inventory.slots.Perm ((inventory.removeWorker id).1 ++ (inventory.removeWorker id).2.slots) := by
  cases registered : inventory.worker? id with
  | none => simp [Inventory.removeWorker, registered]
  | some worker =>
    obtain ⟨indexed', _, kept⟩ := indexed.removeWorker id
    have stays : ∀ slot, slot ∈ (inventory.removeWorker id).2.slots ↔
        inventory.slot? slot.allocation = some slot ∧ slot.worker ≠ id := by
      intro slot
      rw [indexed'.mem_slots, kept, Option.filter_eq_some_iff, decide_eq_true_iff]
    rw [removeWorker_fst inventory registered]
    have nodup : (worker.slots.values ++ (inventory.removeWorker id).2.slots).Nodup := by
      refine List.nodup_append.2 ⟨indexed.nodup_values registered, indexed'.nodup_slots, ?_⟩
      rintro slot here _ there rfl
      exact ((stays slot).1 there).2 ((indexed.mem_values registered).1 here).2
    refine (List.perm_ext_iff_of_nodup indexed.nodup_slots nodup).2 fun slot => ?_
    rw [List.mem_append, indexed.mem_slots, indexed.mem_values registered, stays, ← and_or_left,
      and_iff_left (Classical.em _)]

end SlotControl.Inventory
