import SlotControl.Cluster.Report
import SlotControl.Timeouts

/-!
Requests to workers over time. Changes of the state happen at once; a request is under way until its
worker answers or its timeout ends it, whichever comes first, and its outcome is applied only then.
Time is a number of milliseconds that passes when it is told to.
-/

namespace SlotControl

/-- How a request ends if nothing ends it before. -/
inductive Ending where
  | answer (outcome : Outcome)
  /-- The task of the request breaks down without an outcome. -/
  | crash
  deriving DecidableEq

/-- What a worker does about a request. -/
inductive Reply where
  /-- The request ends so many milliseconds after its task first runs. -/
  | after (delay : Nat) (ending : Ending)
  | never
  /-- The request ends when an answer is given from outside. -/
  | onDemand
  deriving DecidableEq

/-- The task of a request that has not got the request yet. It is spawned before the slot is reserved, and waits for
    the call that makes the request to send it. -/
structure Opening where
  allocation : AllocationId
  job : JobId
  /-- The call is over and has sent nothing. -/
  forsaken : Bool
  deriving DecidableEq

/-- A request under way. -/
structure Flight where
  allocation : AllocationId
  job : JobId
  timeout : Duration
  reply : Reply
  /-- Of requests that end at the same time those of lower rank end first. -/
  rank : Nat
  /-- When its task first ran. -/
  start : Option Nat
  deriving DecidableEq

namespace Flight

/-- How long after its start the request ends, and how: by its reply, unless that comes later than
    the timeout, which is rounded up to milliseconds. -/
def finish (flight : Flight) : Nat × Ending :=
  let limit := flight.timeout.ceilMilliseconds
  let expired := .answer (.failure (.requestTimeout flight.allocation flight.timeout))
  match flight.reply with
  | .after delay ending => if delay ≤ limit then (delay, ending) else (limit, expired)
  | .never | .onDemand => (limit, expired)

/-- When the request ends, once its task runs. -/
def due? (flight : Flight) : Option Nat := flight.start.map (· + flight.finish.1)

/-- The request ends at a given time or before. -/
def isDueBy (time : Nat) (flight : Flight) : Bool := flight.due?.any (· ≤ time)

/-- The request ends before a given time, or at that time and ahead of a caller that waits until then. -/
def isDueAhead (time : Nat) (ahead : AllocationId → Bool) (flight : Flight) : Bool :=
  flight.due?.any fun due => due < time || due == time && ahead flight.allocation

/-- The request ends before the other, or at the same time and with no higher rank. -/
def isNoLater (a b : Flight) : Bool :=
  a.due?.getD 0 < b.due?.getD 0 ∨ a.due?.getD 0 = b.due?.getD 0 ∧ a.rank ≤ b.rank

/-- Lets the task run at a given time, if it has not run before. -/
def begin (time : Nat) (flight : Flight) : Flight := { flight with start := some (flight.start.getD time) }

end Flight

/-- A change of the state that a worker's gateway makes while it takes up a request. -/
inductive Interruption where
  | free (allocation : AllocationId)
  | removeWorker (worker : WorkerId)
  deriving DecidableEq

/-- How the gateway of a worker treats one request. -/
structure Exchange where
  /-- The time that the worker is expected to need, which extends the timeout. -/
  expected : Duration
  interruptions : List Interruption
  reply : Reply
  /-- The rank of the request among those that end at the same time. -/
  rank : Nat
  deriving DecidableEq

/-- What is left to chance where allocations are made one after the other. -/
structure Chance where
  /-- The ids of the allocations. -/
  id : Nat → AllocationId
  /-- The ranks of their requests among those that end at the same time. -/
  rank : AllocationId → Nat

/-- The given ids, and the order in which they are used where requests end at the same time. -/
def Chance.ofIds (id : Nat → AllocationId) : Chance := ⟨id, fun _ => 0⟩

/-- What the caller of a request is told in the end. -/
structure Resolution where
  allocation : AllocationId
  outcome : Outcome

/-- The slot manager with its requests under way. -/
structure Dispatcher where
  cluster : Cluster
  owner : OwnerId
  timeouts : Timeouts
  /-- The time in milliseconds. -/
  now : Nat
  /-- The requests under way, in the order in which they were made. -/
  flights : List Flight
  /-- The tasks that have got no request. -/
  openings : List Opening

namespace Dispatcher

variable {Seed : Type} [Traversal Seed]

/-- Nothing is registered and nothing under way. -/
def new (owner : OwnerId) (timeouts : Timeouts) : Dispatcher := ⟨.empty, owner, timeouts, 0, [], []⟩

/-- Registers a worker. -/
def register (d : Dispatcher) (worker : WorkerId) (total defaultSlot : Profile) :
    Except Failure Dispatcher := do
  return { d with cluster := ← d.cluster.register worker total defaultSlot }

/-- Removes a worker, and gives the number of slots that it held. -/
def removeWorker (d : Dispatcher) (worker : WorkerId) : Checked (Nat × Dispatcher) := do
  let (slots, cluster) ← d.cluster.removeWorker worker
  return (slots.length, { d with cluster })

/-- Makes a change that comes from a gateway. -/
def interrupt (cluster : Cluster) : Interruption → Checked Cluster
  | .free allocation => do return (← cluster.free allocation).2
  | .removeWorker worker => do return (← cluster.removeWorker worker).2

/-- Spawns the task of a request, and gives the place of the task. It does not run before the call is over. -/
def spawn (d : Dispatcher) (allocation : AllocationId) (job : JobId) : Nat × Dispatcher :=
  (d.openings.length, { d with openings := d.openings ++ [⟨allocation, job, false⟩] })

/-- Sends the task at a place its request, which is under way from then on. -/
def send (d : Dispatcher) (place : Nat) (timeout : Duration) (exchange : Exchange) : Dispatcher :=
  match d.openings[place]? with
  | some task => { d with
      flights := d.flights ++ [⟨task.allocation, task.job, timeout, exchange.reply, exchange.rank, none⟩]
      openings := d.openings.eraseIdx place }
  | none => d

/-- The call is over, and the task at a place gets no request. -/
def forsake (d : Dispatcher) (place : Nat) : Dispatcher :=
  { d with openings := d.openings.modify place fun task => { task with forsaken := true } }

/-- Spawns a task, reserves a slot and has the task send a request for it under a new id, or refuses. A refusal leaves
    nothing but the task, which gets no request. -/
def allocate (d : Dispatcher) (allocation : AllocationId) (worker : WorkerId) (job : JobId)
    (address : String) (profile : Profile) (exchange : Exchange) :
    Checked (Except Failure SlotRequest × Dispatcher) := do
  let (place, spawned) := d.spawn allocation job
  match ← spawned.cluster.reserve worker job allocation profile with
  | .error failure => return (.error failure, spawned.forsake place)
  | .ok reserved =>
    let some timeout := d.timeouts.request.add? exchange.expected | throw .durationOverflow
    let request := ⟨.dynamic worker, job, allocation, profile, address, d.owner, timeout⟩
    let cluster ← exchange.interruptions.foldlM interrupt reserved
    return (.ok request, { spawned with cluster }.send place timeout exchange)

/-- Frees the slot of an allocation. -/
def free (d : Dispatcher) (allocation : AllocationId) : Checked Dispatcher := do
  return { d with cluster := (← d.cluster.free allocation).2 }

/-- Applies a report, and tells whether all of it could be applied. -/
def report (d : Dispatcher) (worker : WorkerId) (report : SlotReport) :
    Checked (Bool × Dispatcher) := do
  let (applied, cluster) ← d.cluster.report worker report
  return (applied, { d with cluster })

/-- The calls that ask workers to free the idle slots of a job: one to each worker that holds a
    confirmed slot of it. What comes of them changes nothing here. -/
def freeInactive (d : Dispatcher) (job : JobId) : List (WorkerId × JobId × Duration) :=
  (d.cluster.holders job).map fun worker => (worker, job, d.timeouts.freeInactive)

/-- Answers a request from outside, and tells whether it was waiting for that. -/
def answer (d : Dispatcher) (allocation : AllocationId) (outcome : Outcome) :
    Bool × Dispatcher :=
  let waits (flight : Flight) := flight.allocation == allocation && flight.reply == .onDemand
  let replied (flight : Flight) : Flight :=
    { flight with reply := .after (d.now - flight.start.getD d.now) (.answer outcome) }
  (d.flights.any waits,
    { d with flights := d.flights.map fun flight => if waits flight then replied flight else flight })

/-- Ends one request: its outcome is applied and its caller told. After a crash nothing is applied. -/
def land (cluster : Cluster) (flight : Flight) : Checked (Resolution × Cluster) := do
  match flight.finish.2 with
  | .crash => return (⟨flight.allocation, .failure (.requestDropped flight.allocation)⟩, cluster)
  | .answer outcome =>
    let (told, cluster) ← cluster.conclude flight.allocation flight.job outcome
    return (⟨flight.allocation, told⟩, cluster)

/-- Ends requests one after the other. -/
def landAll (cluster : Cluster) : List Flight → Checked (List Resolution × Cluster)
  | [] => .ok ([], cluster)
  | flight :: rest => do
    let (first, cluster) ← land cluster flight
    let (others, cluster) ← landAll cluster rest
    return (first :: others, cluster)

/-- Lets the tasks run that have not run yet. Those of requests start, and those that get no request end. -/
def begin (d : Dispatcher) : Dispatcher :=
  { d with flights := d.flights.map (.begin d.now), openings := d.openings.filter (!·.forsaken) }

/-- Lets time pass until a given moment. The requests that pass a test end in the order of their ends, and those that
    end at the same time in the order of their ranks, or else of their making. -/
def endWhere (d : Dispatcher) (ends : Flight → Bool) (time : Nat) : Checked (List Resolution × Dispatcher) := do
  let (ending, waiting) := d.flights.partition ends
  let (resolutions, cluster) ← landAll d.cluster (ending.mergeSort Flight.isNoLater)
  return (resolutions, { d with cluster, now := time, flights := waiting })

/-- Lets time pass until a given moment; the requests that are due by then end. -/
def passUntil (d : Dispatcher) (time : Nat) : Checked (List Resolution × Dispatcher) :=
  d.endWhere (Flight.isDueBy time) time

/-- Lets everything run that can, then so many milliseconds pass. -/
def advance (d : Dispatcher) (milliseconds : Nat) : Checked (List Resolution × Dispatcher) :=
  d.begin.passUntil (d.now + milliseconds)

/-- Lets everything run that can, with no time passing. -/
def settle (d : Dispatcher) : Checked (List Resolution × Dispatcher) := d.advance 0

/-- Lets everything run that can, while a caller waits for so many milliseconds. Of the requests that end just when the
    wait does, those end in it that come ahead of the caller. -/
def wait (d : Dispatcher) (milliseconds : Nat) (ahead : AllocationId → Bool) :
    Checked (List Resolution × Dispatcher) :=
  d.begin.endWhere (Flight.isDueAhead (d.now + milliseconds) ahead) (d.now + milliseconds)

/-- Lets time pass until no request is under way. -/
def drain (d : Dispatcher) : Checked (List Resolution × Dispatcher) :=
  let begun := d.begin
  begun.passUntil (begun.flights.foldl (fun latest flight => max latest (flight.due?.getD 0)) d.now)

/-- Drops all tasks. Nothing is rolled back, and the callers are told that their requests are gone. -/
def dropTasks (d : Dispatcher) : List Resolution × Dispatcher :=
  (d.flights.map fun flight => ⟨flight.allocation, .failure (.requestDropped flight.allocation)⟩,
    { d with flights := [], openings := [] })

end Dispatcher

end SlotControl
