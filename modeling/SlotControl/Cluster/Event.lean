import SlotControl.Cluster.Report

/-!
The operations on the state as values, and runs of them.
-/

namespace SlotControl

/-- One operation on the state. -/
inductive Event where
  | register (worker : WorkerId) (total defaultSlot : Profile)
  | removeWorker (worker : WorkerId)
  | reserve (worker : WorkerId) (job : JobId) (allocation : AllocationId) (profile : Profile)
  | conclude (allocation : AllocationId) (job : JobId) (outcome : Outcome)
  | free (allocation : AllocationId)
  | report (worker : WorkerId) (report : SlotReport)

/-- What an operation tells its caller. -/
inductive Answer where
  /-- A registration, a reservation or the outcome of a request. -/
  | outcome (outcome : Outcome)
  | removed (slots : List Slot)
  | freed (slot : Option Slot)
  | applied (fully : Bool)

namespace Cluster

variable {Seed : Type} [Traversal Seed]

/-- Performs an operation. -/
def perform (cluster : Cluster) : Event → Checked (Answer × Cluster)
  | .register worker total defaultSlot =>
    match cluster.register worker total defaultSlot with
    | .ok registered => .ok (.outcome .success, registered)
    | .error failure => .ok (.outcome (.failure failure), cluster)
  | .removeWorker worker => (cluster.removeWorker worker).map fun (slots, rest) => (.removed slots, rest)
  | .reserve worker job allocation profile => do
    match ← cluster.reserve worker job allocation profile with
    | .ok reserved => return (.outcome .success, reserved)
    | .error failure => return (.outcome (.failure failure), cluster)
  | .conclude allocation job outcome =>
    (cluster.conclude allocation job outcome).map fun (told, after) => (.outcome told, after)
  | .free allocation => (cluster.free allocation).map fun (slot, after) => (.freed slot, after)
  | .report worker report =>
    (cluster.report worker report).map fun (fully, after) => (.applied fully, after)

/-- Performs operations one after the other. -/
def run (cluster : Cluster) (events : List Event) : Checked Cluster :=
  events.foldlM (fun cluster event => do return (← cluster.perform event).2) cluster

end Cluster

end SlotControl
