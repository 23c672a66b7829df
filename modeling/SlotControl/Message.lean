import SlotControl.Duration
import SlotControl.Slot

/-!
The messages exchanged with workers: requests for a slot, and reports on all slots of a worker.
-/

namespace SlotControl

/-- Asks a worker to reserve a slot for a job. -/
structure SlotRequest where
  place : SlotId
  job : JobId
  allocation : AllocationId
  profile : Profile
  /-- Where the user of the slot is reached. -/
  address : String
  owner : OwnerId
  timeout : Duration
  deriving DecidableEq, Inhabited

/-- The job and the allocation that occupy a reported slot. -/
structure SlotAssignment where
  job : JobId
  allocation : AllocationId
  deriving DecidableEq, Inhabited

/-- One slot of a report; a free one has no assignment. -/
structure SlotStatus where
  place : SlotId
  profile : Profile
  assignment : Option SlotAssignment
  deriving DecidableEq, Inhabited

/-- All slots of a worker. A report stands in place of every earlier one. -/
structure SlotReport where
  slots : List SlotStatus
  deriving DecidableEq, Inhabited

/-- The occupied slots of a report, in order. -/
def SlotReport.occupied (report : SlotReport) : List (SlotStatus × SlotAssignment) :=
  report.slots.filterMap fun status => status.assignment.map (status, ·)

end SlotControl
