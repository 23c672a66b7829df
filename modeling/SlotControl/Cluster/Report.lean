import SlotControl.Cluster.Basic
import SlotControl.Message

/-!
Reconciliation with a report: slots that the worker does not hold any more are released, and slots
that it holds without our knowledge are adopted.
-/

namespace SlotControl

/-- The job of every reported allocation; of two entries for one allocation the later counts. -/
def SlotReport.jobs (report : SlotReport) : SortedMap AllocationId JobId :=
  .ofList (report.occupied.map fun entry => (entry.2.allocation, entry.2.job))

namespace Cluster

variable {Seed : Type} [Traversal Seed]

/-- A report releases a recorded slot: it names another job for it, or it does not name it although
    it was confirmed. A pending slot may not have reached the worker yet. -/
def supersedes (jobs : SortedMap AllocationId JobId) (slot : Slot) : Bool :=
  match jobs.get? slot.allocation with
  | some job => job != slot.job
  | none => slot.state == .allocated

/-- Brings the record into line with one reported slot, and tells whether it now is. -/
def adopt (worker : WorkerId) (cluster : Cluster) (status : SlotStatus)
    (assignment : SlotAssignment) : Checked (Bool × Cluster) := do
  let place : SlotId := ⟨worker, status.place.index⟩
  match cluster.slot? assignment.allocation with
  | some slot =>
    if slot.worker = worker then
      let inventory ← cluster.inventory.setPlace assignment.allocation place
      return (true, { cluster with inventory })
    else return (false, cluster)
  | none =>
    if (cluster.inventory.worker? worker).any (·.canFit status.profile) then
      let slot := ⟨assignment.allocation, assignment.job, place, status.profile, .allocated⟩
      return (true, ← cluster.occupy slot)
    else return (false, cluster)

/-- Adopts the reported slots in order, and tells whether all of them are recorded. -/
def adoptAll (worker : WorkerId) (cluster : Cluster) (entries : List (SlotStatus × SlotAssignment)) :
    Checked (Bool × Cluster) :=
  entries.foldlM
    (fun (applied, cluster) entry => do
      let (adopted, cluster) ← cluster.adopt worker entry.1 entry.2
      return (applied && adopted, cluster))
    (true, cluster)

/-- Applies a complete report of a worker, and tells whether all of it could be applied. A report of
    an unknown worker changes nothing. -/
def report (cluster : Cluster) (worker : WorkerId) (report : SlotReport) :
    Checked (Bool × Cluster) := do
  let some record := cluster.inventory.worker? worker | return (false, cluster)
  let released := (record.slots.values.filter (supersedes report.jobs)).map (·.allocation)
  let kept ← released.foldlM (fun cluster allocation => do return (← cluster.free allocation).2) cluster
  kept.adoptAll worker report.occupied

end Cluster

end SlotControl
