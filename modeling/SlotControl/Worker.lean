import SlotControl.Fault
import SlotControl.Slot
import SlotControl.SortedMap

/-!
A registered worker: its capacity, what is left of it, and the slots that are recorded on it.
-/

namespace SlotControl

/-- A registered worker and the slots on it. -/
structure Worker where
  id : WorkerId
  total : Profile
  available : Profile
  /-- The profile of the slots that the worker offers when it is asked for nothing special. -/
  defaultSlot : Profile
  slots : SortedMap AllocationId Slot
  deriving DecidableEq, Inhabited

/-- The order in which the slots of a worker are visited where they are added up. The table of slots has a seed that
    nobody chooses, and visits its allocations in an order that depends on the seed and on which they are. -/
class Traversal (Seed : outParam Type) where
  /-- The seed of the table of a worker. -/
  seed : WorkerId → Seed
  order : Seed → List AllocationId → List AllocationId
  /-- Every allocation is visited once. -/
  perm (seed : Seed) (allocations : List AllocationId) : (order seed allocations).Perm allocations

/-- Where nothing is said of a seed, allocations are visited in ascending order. -/
instance ascending : Traversal Unit where
  seed _ := ()
  order _ allocations := allocations
  perm _ := .refl

namespace Worker

variable {Seed : Type} [Traversal Seed]

/-- A worker without slots. -/
def register (id : WorkerId) (total defaultSlot : Profile) : Worker :=
  ⟨id, total, total, defaultSlot, .empty⟩

/-- The slot of an allocation. -/
def slot? (worker : Worker) (allocation : AllocationId) : Option Slot :=
  worker.slots.get? allocation

/-- A confirmed slot of the job is on the worker. -/
def hasAllocated (worker : Worker) (job : JobId) : Bool :=
  worker.slots.values.any fun slot => slot.job == job && slot.state == .allocated

/-- How many slots of the default profile still fit. -/
def freeDefaultSlots? (worker : Worker) : Option Nat := worker.available.fits? worker.defaultSlot

/-- A slot of the profile still fits. -/
def canFit (worker : Worker) (profile : Profile) : Bool := worker.available.covers profile

/-- Takes a profile from what is available. -/
def reserve (worker : Worker) (allocation : AllocationId) (profile : Profile) : Checked Worker :=
  match worker.available.sub? profile with
  | some rest => .ok { worker with available := rest }
  | none => .error (.cannotHold worker.id allocation profile worker.available)

/-- Gives a profile back. -/
def release (worker : Worker) (profile : Profile) : Checked Worker := do
  return { worker with available := ← worker.available.add profile }

/-- The slots in the order in which they are visited. -/
def visited (worker : Worker) : List Slot :=
  (Traversal.order (Traversal.seed worker.id) worker.slots.keys).filterMap worker.slot?

/-- The profiles of the slots together, added in the order in which the slots are visited. -/
def occupied? (worker : Worker) : Option Profile :=
  Profile.sum? (worker.visited.map (·.profile))

/-- Checks that what is available and what the slots occupy make up the total, and that every slot
    names this worker, where the slots are visited in a given order. -/
def auditIn (worker : Worker) (order : List Slot) : Checked Unit := do
  let some occupied := Profile.sum? (order.map (·.profile)) | throw .additionOverflow
  let accounted ← worker.available.add occupied
  unless accounted = worker.total do
    throw (.capacityBroken worker.id worker.available occupied worker.total)
  unless order.all fun slot => slot.worker == worker.id do
    throw .slotOnWrongWorker

/-- Checks the account of the worker. -/
def audit (worker : Worker) : Checked Unit := worker.auditIn worker.visited

/-- Records a slot. A new one takes its resources; one that is recorded already is replaced and
    takes resources again only if its profile is another one. -/
def record (worker : Worker) (slot : Slot) : Checked Worker := do
  let cleared := { worker with slots := worker.slots.erase slot.allocation }
  let reserved ←
    match worker.slot? slot.allocation with
    | none => cleared.reserve slot.allocation slot.profile
    | some previous =>
      if previous.profile = slot.profile then pure cleared
      else do (← cleared.release previous.profile).reserve slot.allocation slot.profile
  return { reserved with slots := reserved.slots.insert slot.allocation slot }

/-- The text that describes a vector of amounts down to its parts. -/
def vectorDetail (v : ResourceVector) : String :=
  "ResourceVector([" ++
    ", ".intercalate (v.amounts.map fun a => s!"ResourceAmount({Numeral.text a.parts})") ++ "])"

/-- The text that describes a profile down to its parts. -/
def profileDetail : Profile → String
  | .any => "Any"
  | .sized v => s!"Sized({vectorDetail v})"

/-- The text that describes a worker down to its parts. -/
def detail (worker : Worker) : String :=
  s!"Worker \x7b id: WorkerId({worker.id.text}), total: {profileDetail worker.total}, " ++
    s!"available: {profileDetail worker.available}, slots: {Numeral.text worker.slots.size} \x7d"

/-- The text that describes the connection to a worker. -/
def connectionDetail (worker : Worker) : String :=
  s!"WorkerConnection \x7b worker_id: WorkerId({worker.id.text}), .. \x7d"

end Worker

end SlotControl
