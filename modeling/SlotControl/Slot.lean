import SlotControl.Resource.Profile

/-!
Slots that are occupied by a job. A slot that is free is not recorded.
-/

namespace SlotControl

/-- How far a slot has come. -/
inductive SlotState where
  /-- Reserved here; its worker has not confirmed it yet. -/
  | pending
  | allocated
  deriving DecidableEq, Inhabited, Repr

/-- The name of a state. -/
def SlotState.text : SlotState → String
  | .pending => "Pending"
  | .allocated => "Allocated"

/-- A slot occupied by a job. -/
structure Slot where
  allocation : AllocationId
  job : JobId
  place : SlotId
  profile : Profile
  state : SlotState
  deriving DecidableEq, Inhabited

/-- The worker that a slot is on. -/
def Slot.worker (slot : Slot) : WorkerId := slot.place.worker

/-- The slot is not confirmed yet. -/
def Slot.isPending (slot : Slot) : Bool := slot.state == .pending

end SlotControl
