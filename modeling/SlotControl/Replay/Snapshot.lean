import SlotControl.Replay.Run

/-!
What a replay prints in the end: the workers with their slots, what the jobs hold, what became of
the requests, and which workers were asked to free idle slots.
-/

namespace SlotControl.Replay

open Wire (encode)

/-- The labels of the allocations. -/
def names (replay : Replay) : SortedMap AllocationId String :=
  replay.labels.entries.foldl (fun names entry => names.insert entry.2 entry.1) .empty

/-- A slot, by the label of its allocation or by its id if it has none. -/
def slotJson (names : SortedMap AllocationId String) (slot : Slot) : JsonValue :=
  .object [
    ("allocation", encode ((names.get? slot.allocation).getD slot.allocation.text)),
    ("job", encode slot.job),
    ("profile", encode slot.profile.text),
    ("slot", encode slot.place.text),
    ("state", encode slot.state)]

/-- A worker with its slots. -/
def workerJson (names : SortedMap AllocationId String) (worker : Worker) : JsonValue :=
  .object [
    ("available", encode worker.available.text),
    ("free_default_slots", JsonValue.optional JsonValue.natural worker.freeDefaultSlots?),
    ("id", encode worker.id),
    ("slots", .array (worker.slots.values.map (slotJson names))),
    ("total", encode worker.total.text)]

/-- What a job holds, under its id. -/
def jobMember (ledger : Ledger) (job : JobId) : String × JsonValue :=
  (job.text, .array ((ledger.acquired job).map fun requirement =>
    .object [("count", encode requirement.count), ("profile", encode requirement.profile.text)]))

/-- A call that asked a worker to free idle slots. -/
def freedJson (call : WorkerId × JobId) : JsonValue :=
  .object [("job", encode call.2), ("worker", encode call.1)]

/-- The state and the results; keys are in the order of their characters. -/
def snapshot (replay : Replay) : JsonValue :=
  let cluster := replay.dispatcher.cluster
  let jobs : SortedMap String JsonValue := .ofList (cluster.ledger.jobIds.map (jobMember cluster.ledger))
  .object [
    ("allocations", .object (replay.results.entries.map fun entry => (entry.1, encode entry.2))),
    ("free_inactive_requests", .array (replay.freed.map freedJson)),
    ("jobs", .object jobs.entries),
    ("workers", .array (cluster.inventory.workers.values.map (workerJson replay.names)))]

end SlotControl.Replay
