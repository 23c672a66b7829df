import SlotControl.Worker

/-!
The registered workers with their slots, and an index that tells for every recorded allocation
which worker holds it.
-/

namespace SlotControl

/-- The registered workers and the owners of the recorded allocations. -/
structure Inventory where
  workers : SortedMap WorkerId Worker
  owners : SortedMap AllocationId WorkerId
  deriving DecidableEq, Inhabited

namespace Inventory

variable {Seed : Type} [Traversal Seed]

/-- No worker is registered. -/
def empty : Inventory := ⟨.empty, .empty⟩

/-- The record of a worker. -/
def worker? (inventory : Inventory) (id : WorkerId) : Option Worker := inventory.workers.get? id

/-- The slot of an allocation, pending or allocated. -/
def slot? (inventory : Inventory) (allocation : AllocationId) : Option Slot := do
  let owner ← inventory.owners.get? allocation
  let worker ← inventory.worker? owner
  worker.slot? allocation

/-- All slots, worker by worker. -/
def slots (inventory : Inventory) : List Slot :=
  inventory.workers.values.flatMap fun worker => worker.slots.values

/-- The number of registered workers. -/
def workerCount (inventory : Inventory) : Nat := inventory.workers.size

/-- The number of recorded allocations. -/
def slotCount (inventory : Inventory) : Nat := inventory.owners.size

/-- Registers a worker; its id must be free. -/
def addWorker (inventory : Inventory) (id : WorkerId) (total defaultSlot : Profile) :
    Except Failure Inventory :=
  if inventory.workers.contains id then .error (.duplicateWorker id)
  else .ok { inventory with
    workers := inventory.workers.insert id (.register id total defaultSlot) }

/-- Removes a worker and gives the slots that were on it. An unknown worker has none. -/
def removeWorker (inventory : Inventory) (id : WorkerId) : List Slot × Inventory :=
  match inventory.worker? id with
  | none => ([], inventory)
  | some worker =>
    (worker.slots.values,
      { workers := inventory.workers.erase id
        owners := worker.slots.keys.foldl SortedMap.erase inventory.owners })

/-- Records a slot on the worker that its place names. An allocation stays on its worker. -/
def record (inventory : Inventory) (slot : Slot) : Checked Inventory := do
  if let some owner := inventory.owners.get? slot.allocation then
    unless owner = slot.worker do
      throw (.allocationMoved slot.allocation owner slot.worker)
  let some worker := inventory.worker? slot.worker
    | throw (.unregisteredWorker slot.allocation slot.worker)
  let updated ← worker.record slot
  updated.audit
  return { workers := inventory.workers.insert slot.worker updated
           owners := inventory.owners.insert slot.allocation slot.worker }

/-- Removes the slot of an allocation and gives its resources back to its worker. -/
def removeSlot (inventory : Inventory) (allocation : AllocationId) :
    Checked (Option Slot × Inventory) := do
  let some owner := inventory.owners.get? allocation | return (none, inventory)
  let disowned := { inventory with owners := inventory.owners.erase allocation }
  let some worker := inventory.worker? owner | return (none, disowned)
  let some slot := worker.slot? allocation | return (none, disowned)
  let updated ← { worker with slots := worker.slots.erase allocation }.release slot.profile
  updated.audit
  return (some slot, { disowned with workers := disowned.workers.insert owner updated })

/-- Moves the slot of an allocation to another place of its worker. -/
def setPlace (inventory : Inventory) (allocation : AllocationId) (place : SlotId) :
    Checked Inventory := do
  let some owner := inventory.owners.get? allocation | return inventory
  let some worker := inventory.worker? owner | return inventory
  let some slot := worker.slot? allocation | return inventory
  unless slot.worker = place.worker do
    throw .slotIdMoved
  let moved := worker.slots.insert allocation { slot with place }
  return { inventory with workers := inventory.workers.insert owner { worker with slots := moved } }

/-- Checks one worker and that the index names it as the owner of its slots. -/
def auditWorker (inventory : Inventory) (worker : Worker) : Checked Unit := do
  worker.audit
  unless worker.slots.values.all
      fun slot => inventory.owners.get? slot.allocation == some worker.id do
    throw .ownerIndexBroken

/-- Checks every worker, and that the index has no more entries than there are slots. -/
def audit (inventory : Inventory) : Checked Unit := do
  inventory.workers.values.forM inventory.auditWorker
  unless inventory.slots.length = inventory.owners.size do
    throw .ownerIndexBroken

end Inventory

end SlotControl
