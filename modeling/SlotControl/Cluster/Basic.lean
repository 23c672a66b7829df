import SlotControl.Inventory
import SlotControl.Ledger

/-!
The state of the slot manager: the inventory of slots and the ledger of what the jobs hold. Each
operation changes both together, so that every recorded slot is accounted to its job once.
-/

namespace SlotControl

/-- The slots by worker and the resources by job. -/
structure Cluster where
  inventory : Inventory
  ledger : Ledger
  deriving DecidableEq, Inhabited

namespace Cluster

variable {Seed : Type} [Traversal Seed]

/-- No worker is registered, and no job holds anything. -/
def empty : Cluster := ⟨.empty, .empty⟩

/-- The slot of an allocation. -/
def slot? (cluster : Cluster) (allocation : AllocationId) : Option Slot :=
  cluster.inventory.slot? allocation

/-- Registers a worker. -/
def register (cluster : Cluster) (worker : WorkerId) (total defaultSlot : Profile) :
    Except Failure Cluster := do
  return { cluster with inventory := ← cluster.inventory.addWorker worker total defaultSlot }

/-- Takes a slot from the account of its job. -/
def discharge (ledger : Ledger) (slot : Slot) : Checked Ledger := ledger.lose slot.job slot.profile

/-- Removes a worker together with its slots, and gives the slots. -/
def removeWorker (cluster : Cluster) (worker : WorkerId) : Checked (List Slot × Cluster) := do
  let (slots, inventory) := cluster.inventory.removeWorker worker
  return (slots, ⟨inventory, ← slots.foldlM discharge cluster.ledger⟩)

/-- Removes the slot of an allocation; one that is not recorded is left alone. -/
def free (cluster : Cluster) (allocation : AllocationId) : Checked (Option Slot × Cluster) := do
  match ← cluster.inventory.removeSlot allocation with
  | (none, inventory) => return (none, { cluster with inventory })
  | (some slot, inventory) => return (some slot, ⟨inventory, ← discharge cluster.ledger slot⟩)

/-- Records a new slot and charges it to its job. -/
def occupy (cluster : Cluster) (slot : Slot) : Checked Cluster := do
  let inventory ← cluster.inventory.record slot
  return ⟨inventory, ← cluster.ledger.acquire slot.job slot.profile⟩

/-- Reserves a pending slot. An unknown worker or one without room refuses and nothing changes. -/
def reserve (cluster : Cluster) (worker : WorkerId) (job : JobId) (allocation : AllocationId)
    (profile : Profile) : Checked (Except Failure Cluster) := do
  let some record := cluster.inventory.worker? worker | return .error (.unknownWorker worker)
  if record.canFit profile then
    if (cluster.slot? allocation).isSome then throw (.allocationInUse allocation)
    return .ok (← cluster.occupy ⟨allocation, job, .dynamic worker, profile, .pending⟩)
  else return .error (.insufficientResources worker profile record.available)

/-- Applies the outcome of a request, and gives what its caller is told. Only a slot that is still
    pending for the job is touched: success confirms it and failure removes it. An outcome for any
    other slot comes too late, and counts as a success. -/
def conclude (cluster : Cluster) (allocation : AllocationId) (job : JobId)
    (outcome : Outcome) : Checked (Outcome × Cluster) := do
  match (cluster.slot? allocation).filter fun slot => slot.job == job && slot.isPending with
  | none => return (.success, cluster)
  | some slot =>
    match outcome with
    | .success =>
      let inventory ← cluster.inventory.record { slot with state := .allocated }
      return (.success, { cluster with inventory })
    | .failure cause => return (.failure cause, (← cluster.free allocation).2)

/-- The workers that hold a confirmed slot of the job, in order. -/
def holders (cluster : Cluster) (job : JobId) : List WorkerId :=
  (cluster.inventory.workers.values.filter (·.hasAllocated job)).map (·.id)

end Cluster

end SlotControl
