import SlotControl.Duration
import SlotControl.Resource.Profile

/-!
What can go wrong: failures, which a caller is told about and which change nothing that they do not
name, and defects, which say that a promise inside the program is broken and end its run.
-/

namespace SlotControl

/-- Why an operation was refused or a request did not succeed. -/
inductive Failure where
  | unknownWorker (worker : WorkerId)
  | duplicateWorker (worker : WorkerId)
  | insufficientResources (worker : WorkerId) (requested available : Profile)
  | requestTimeout (allocation : AllocationId) (timeout : Duration)
  /-- The worker answered with an error. -/
  | remote (text : String)
  | generic (text : String)
  /-- The task of a request ended without an outcome. -/
  | requestDropped (allocation : AllocationId)
  deriving DecidableEq

/-- How an operation or a request ended for its caller. -/
inductive Outcome where
  | success
  | failure (cause : Failure)
  deriving DecidableEq

/-- The text of a failure, with allocations shown by `name`. -/
def Failure.message (name : AllocationId → String) : Failure → String
  | .unknownWorker worker => s!"Worker {worker.text} is not registered"
  | .duplicateWorker worker => s!"Worker {worker.text} is already registered"
  | .insufficientResources worker requested available =>
    s!"Worker {worker.text} cannot fit a slot of {requested.text}, " ++
      s!"available resources: {available.text}"
  | .requestTimeout allocation timeout =>
    s!"Slot request for allocation {name allocation} timed out after {timeout.text}"
  | .remote text => "Remote error: " ++ text
  | .generic text => "Error: " ++ text
  | .requestDropped allocation =>
    s!"Error: Slot request {name allocation} was dropped before it finished"

/-- The text of a failure. -/
def Failure.text (failure : Failure) : String := failure.message AllocationId.text

/-- A broken promise inside the program. -/
inductive Defect where
  /-- A sum of amounts or a count exceeds its width. -/
  | additionOverflow
  /-- A count would fall below zero. -/
  | subtractionOverflow
  /-- A sum of durations exceeds its width. -/
  | durationOverflow
  /-- An amount was given a fraction of a unit or more. -/
  | fractionTooLarge
  /-- A slot to be reserved has an id that is taken. -/
  | allocationInUse (allocation : AllocationId)
  /-- A recorded slot would change its worker. -/
  | allocationMoved (allocation : AllocationId) (owner worker : WorkerId)
  | unregisteredWorker (allocation : AllocationId) (worker : WorkerId)
  /-- A slot does not fit into what its worker has left. -/
  | cannotHold (worker : WorkerId) (allocation : AllocationId) (profile available : Profile)
  /-- The new place of a slot is on another worker. -/
  | slotIdMoved
  /-- What is available and what is occupied do not make up the total. -/
  | capacityBroken (worker : WorkerId) (available occupied total : Profile)
  /-- A slot of a worker names another worker. -/
  | slotOnWrongWorker
  /-- The index of owners disagrees with the slots. -/
  | ownerIndexBroken
  | nothingAcquired (job : JobId)
  | profileNotAcquired (job : JobId) (profile : Profile)
  /-- The slots of a job with some profile are not as many as it has acquired. -/
  | countBroken (job : JobId) (profile : Profile) (count : Nat)
  /-- The slots of a job are not as many as it has acquired altogether. -/
  | totalBroken (job : JobId) (acquired expected : Nat)
  deriving DecidableEq

/-- The text of a defect. -/
def Defect.message : Defect → String
  | .additionOverflow => "attempt to add with overflow"
  | .subtractionOverflow => "attempt to subtract with overflow"
  | .durationOverflow => "overflow when adding durations"
  | .fractionTooLarge => "assertion failed: fractions < FRACTIONS_PER_UNIT"
  | .allocationInUse allocation => s!"Allocation {allocation.text} is in use already"
  | .allocationMoved allocation owner worker =>
    s!"Allocation {allocation.text} cannot move from worker {owner.text} to worker {worker.text}"
  | .unregisteredWorker allocation worker =>
    s!"Slot {allocation.text} recorded on unregistered worker {worker.text}"
  | .cannotHold worker allocation profile available =>
    s!"Worker {worker.text} cannot hold slot {allocation.text} ({profile.text}), " ++
      s!"available resources: {available.text}"
  | .slotIdMoved | .slotOnWrongWorker | .ownerIndexBroken =>
    "assertion failed: left == right"
  | .capacityBroken worker available occupied total =>
    s!"Resource accounting of worker {worker.text} is broken: available {available.text} + " ++
      s!"occupied {occupied.text} != total {total.text}"
  | .nothingAcquired job => s!"Job {job.text} has no acquired resources to lose"
  | .profileNotAcquired job profile =>
    s!"Job {job.text} has not acquired resource {profile.text}"
  | .countBroken job profile count =>
    s!"Job {job.text} holds {Numeral.text count} slot(s) of {profile.text} " ++
      "but has acquired a different amount"
  | .totalBroken job acquired expected =>
    s!"Job {job.text} acquired {Numeral.text acquired} resource(s) " ++
      s!"but holds {Numeral.text expected} slot(s)"

/-- A defect is found by comparing two values that should be equal. -/
def Defect.isInequality : Defect → Bool
  | .allocationMoved .. | .slotIdMoved | .capacityBroken .. | .slotOnWrongWorker
  | .ownerIndexBroken | .countBroken .. | .totalBroken .. => true
  | _ => false

/-- A result, unless a defect shows. -/
abbrev Checked (α : Type) := Except Defect α

/-- A sum of profiles; one that is too large is a defect. -/
def Profile.add (a b : Profile) : Checked Profile :=
  match a.add? b with
  | some sum => .ok sum
  | none => .error .additionOverflow

/-- A sum of amounts; one that is too large is a defect. -/
def Amount.add (a b : Amount) : Checked Amount :=
  match a.add? b with
  | some sum => .ok sum
  | none => .error .additionOverflow

/-- The amount of whole units and ten-thousandths; a whole unit of the latter is a defect. -/
def Amount.ofUnitsAndParts (units parts : UInt32) : Checked Amount :=
  match Amount.ofUnits? units parts with
  | some amount => .ok amount
  | none => .error .fractionTooLarge

end SlotControl
