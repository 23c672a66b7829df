import SlotControl.Cluster.Audit
import SlotControl.Dispatcher

/-!
A session with the slot manager in which allocations go by labels. It mints the ids, remembers who
waits for an outcome, and announces the outcomes in the order in which the requests were made.
-/

namespace SlotControl

/-- A name that the user of a session gives to an allocation. -/
abbrev Label := String

/-- The slot manager, the labels of its allocations, and the callers that wait. -/
structure Session where
  dispatcher : Dispatcher
  /-- The allocation that a label stands for now. -/
  labels : SortedMap Label AllocationId
  /-- The label under which an allocation was named. -/
  names : SortedMap AllocationId Label
  /-- The ids that are minted, and the ranks of the requests under them. -/
  chance : Chance
  /-- The number of ids that have been minted. -/
  minted : Nat
  /-- The allocations whose callers wait, in the order of their requests. -/
  waiting : List AllocationId

/-- An outcome that became known to the caller of a labelled request. -/
structure Announcement where
  label : Label
  outcome : Outcome

/-- A slot of a report in which allocations go by labels. -/
structure LabelledStatus where
  place : SlotId
  profile : Profile
  /-- The label and the job of an occupied slot. -/
  occupant : Option (Label × JobId)

namespace Session

variable {Seed : Type} [Traversal Seed]

/-- A session in which nothing has happened. -/
def new (owner : OwnerId) (timeouts : Timeouts) (chance : Chance := .ofIds .ofNat) : Session :=
  ⟨.new owner timeouts, .empty, .empty, chance, 0, []⟩

/-- The label of an allocation, or its id if it has none. -/
def labelOf (s : Session) (allocation : AllocationId) : Label :=
  (s.names.get? allocation).getD allocation.text

/-- How messages show an allocation: its label in angle brackets. -/
def showAllocation (s : Session) (allocation : AllocationId) : String :=
  match s.names.get? allocation with
  | some label => "<" ++ label ++ ">"
  | none => allocation.text

/-- Mints an id and gives it a label. -/
def mint (s : Session) (label : Label) : AllocationId × Session :=
  let allocation := s.chance.id s.minted
  (allocation, { s with
    labels := s.labels.insert label allocation
    names := s.names.insert allocation label
    minted := s.minted + 1 })

/-- The allocation of a label; a label that is not known names a fresh one. -/
def resolve (s : Session) (label : Label) : AllocationId × Session :=
  match s.labels.get? label with
  | some allocation => (allocation, s)
  | none => s.mint label

/-- Announces the outcomes of those callers that still wait. -/
def announce (s : Session) (resolutions : List Resolution) : List Announcement × Session :=
  let outcomes : SortedMap AllocationId Outcome :=
    .ofList (resolutions.map fun resolution => (resolution.allocation, resolution.outcome))
  (s.waiting.filterMap fun allocation =>
      (outcomes.get? allocation).map fun outcome => ⟨s.labelOf allocation, outcome⟩,
    { s with waiting := s.waiting.filter fun allocation => !outcomes.contains allocation })

/-- Registers a worker. -/
def register (s : Session) (worker : WorkerId) (total defaultSlot : Profile) :
    Except Failure Session := do
  return { s with dispatcher := ← s.dispatcher.register worker total defaultSlot }

/-- Removes a worker, and gives the number of slots that it held. -/
def removeWorker (s : Session) (worker : WorkerId) : Checked (Nat × Session) := do
  let (released, dispatcher) ← s.dispatcher.removeWorker worker
  return (released, { s with dispatcher })

/-- What the gateway of a worker does to the state while it takes up a request. -/
inductive Meddling where
  | none
  /-- It frees the slot that is being requested. -/
  | free
  /-- It removes the worker itself. -/
  | removeWorker
  deriving DecidableEq

/-- The change that a gateway makes. -/
def Meddling.interruptions (allocation : AllocationId) (worker : WorkerId) :
    Meddling → List Interruption
  | .none => []
  | .free => [.free allocation]
  | .removeWorker => [.removeWorker worker]

/-- Requests a slot under a fresh id, which takes over the label unless the request is refused. -/
def request (s : Session) (label : Label) (worker : WorkerId) (job : JobId) (address : String)
    (profile : Profile) (expected : Duration) (meddling : Meddling) (reply : Reply) :
    Checked (Except Failure SlotRequest × Session) := do
  let (allocation, named) := s.mint label
  let exchange :=
    ⟨expected, meddling.interruptions allocation worker, reply, s.chance.rank allocation⟩
  match ← s.dispatcher.allocate allocation worker job address profile exchange with
  | (.error failure, dispatcher) => return (.error failure, { s with dispatcher, minted := named.minted })
  | (.ok request, dispatcher) =>
    return (.ok request, { named with dispatcher, waiting := s.waiting ++ [allocation] })

/-- Requests a slot for a caller who goes on from the session before when the request is refused. -/
def allocate (s : Session) (label : Label) (worker : WorkerId) (job : JobId) (address : String)
    (profile : Profile) (expected : Duration) (meddling : Meddling) (reply : Reply) :
    Checked (Except Failure (SlotRequest × Session)) := do
  let (answer, next) ← s.request label worker job address profile expected meddling reply
  return answer.map fun request => (request, next)

/-- Answers the request of a label, and tells whether it was waiting for that. -/
def complete (s : Session) (label : Label) (outcome : Outcome) : Bool × Session :=
  let (allocation, s) := s.resolve label
  let (waits, dispatcher) := s.dispatcher.answer allocation outcome
  (waits, { s with dispatcher })

/-- Frees the slot of a label. -/
def free (s : Session) (label : Label) : Checked Session := do
  let (allocation, s) := s.resolve label
  return { s with dispatcher := ← s.dispatcher.free allocation }

/-- Resolves the label of a reported slot. -/
def resolveStatus (s : Session) (status : LabelledStatus) : SlotStatus × Session :=
  match status.occupant with
  | none => (⟨status.place, status.profile, none⟩, s)
  | some (label, job) =>
    let (allocation, s) := s.resolve label
    (⟨status.place, status.profile, some ⟨job, allocation⟩⟩, s)

/-- Resolves the labels of a report, in order. -/
def resolveStatuses (s : Session) : List LabelledStatus → List SlotStatus × Session
  | [] => ([], s)
  | status :: rest =>
    let (first, s) := s.resolveStatus status
    let (others, s) := s.resolveStatuses rest
    (first :: others, s)

/-- Applies a report, and tells whether all of it could be applied. -/
def report (s : Session) (worker : WorkerId) (statuses : List LabelledStatus) :
    Checked (Bool × Session) := do
  let (slots, s) := s.resolveStatuses statuses
  let (applied, dispatcher) ← s.dispatcher.report worker ⟨slots⟩
  return (applied, { s with dispatcher })

/-- Lets everything run that can, then so many milliseconds pass. -/
def advance (s : Session) (milliseconds : Nat) : Checked (List Announcement × Session) := do
  let (resolutions, dispatcher) ← s.dispatcher.advance milliseconds
  return { s with dispatcher }.announce resolutions

/-- Lets everything run that can, with no time passing. -/
def settle (s : Session) : Checked (List Announcement × Session) := s.advance 0

/-- Drops all tasks, and announces to the callers that their requests are gone. -/
def dropTasks (s : Session) : List Announcement × Session :=
  let (resolutions, dispatcher) := s.dispatcher.dropTasks
  { s with dispatcher }.announce resolutions

/-- Makes the callers of a label wait no longer, and gives their number. What they asked for is
    still done. -/
def abandon (s : Session) (label : Label) : Nat × Session :=
  let leaves (allocation : AllocationId) := s.names.get? allocation == some label
  (s.waiting.countP leaves, { s with waiting := s.waiting.filter fun allocation => !leaves allocation })

/-- The slots of a worker with their labels, in the order of these. -/
def slotsOf (s : Session) (worker : Worker) : List (Label × Slot) :=
  (worker.slots.values.map fun slot => (s.labelOf slot.allocation, slot)).mergeSort
    fun a b => a.1 ≤ b.1

/-- The slot of a label, if it is recorded. -/
def slot? (s : Session) (label : Label) : Option Slot :=
  (s.labels.get? label).bind s.dispatcher.cluster.slot?

end Session

end SlotControl
