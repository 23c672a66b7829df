import SlotControl.Cluster.Audit
import SlotControl.Dispatcher
import SlotControl.Replay.Scenario

/-!
The replay of a scenario: its steps are performed one after the other with a check of the whole
state after each, and in the end all requests are awaited.
-/

namespace SlotControl

/-- What is wrong with a step. -/
inductive StepFault where
  | refused (failure : Failure)
  | unknownLabel (label : String)
  /-- A reported slot with only one of label and job. -/
  | halfOccupied (place : SlotId)

/-- The text of a wrong step. -/
def StepFault.message : StepFault → String
  | .refused failure => failure.text
  | .unknownLabel label => "Unknown allocation label `" ++ label ++ "`"
  | .halfOccupied place =>
    s!"Reported slot {place.text} needs both `label` and `job`, or neither"

/-- Why a step cannot be performed. -/
inductive Halt where
  | fault (fault : StepFault)
  | defect (defect : Defect)

/-- A result, unless a step is wrong or a defect shows. -/
abbrev Performed (α : Type) := Except Halt α

/-- The result of an operation of the slot manager. -/
def Performed.ofChecked {α : Type} : Checked α → Performed α
  | .ok a => .ok a
  | .error defect => .error (.defect defect)

/-- What is left to chance in a replay, which has one caller that waits from time to time: the script. The waits are
    counted. -/
structure Schedule extends Chance where
  /-- Whether a request that ends just when a wait does ends before the script goes on. -/
  ahead : Nat → AllocationId → Bool
  /-- Whether a wait without any length lets the tasks run. -/
  yields : Nat → Bool

namespace Schedule

/-- The script goes on first, and it does not stop for a wait without any length. -/
def scriptFirst (id : Nat → AllocationId) : Schedule := ⟨.ofIds id, fun _ _ => false, fun _ => false⟩

/-- Where only the ids are given, the script goes first. -/
instance : Coe (Nat → AllocationId) Schedule := ⟨scriptFirst⟩

end Schedule

/-- The slot manager, and what the replay remembers. -/
structure Replay where
  dispatcher : Dispatcher
  /-- The allocation that a label stands for. -/
  labels : SortedMap String AllocationId
  /-- The labels of the requests that were accepted. -/
  callers : SortedMap AllocationId String
  /-- What became of the requests, by label; what is written last counts. -/
  results : SortedMap String String
  /-- The calls that asked workers to free idle slots, in order. -/
  freed : List (WorkerId × JobId)
  /-- The number of ids that have been minted. -/
  minted : Nat
  /-- The number of waits. -/
  waits : Nat

namespace Replay

variable {Seed : Type} [Traversal Seed]

/-- Nothing has been performed. -/
def start (owner : OwnerId) (timeouts : Timeouts) : Replay :=
  ⟨.new owner timeouts, .empty, .empty, .empty, [], 0, 0⟩

/-- The outcome of a request as the results show it. -/
def outcomeText : Outcome → String
  | .success => "ok"
  | .failure cause => "failed: " ++ cause.text

/-- Writes down the outcomes of requests. -/
def note (replay : Replay) (resolutions : List Resolution) : Replay :=
  { replay with
    results := resolutions.foldl
      (fun results resolution =>
        match replay.callers.get? resolution.allocation with
        | some label => results.insert label (outcomeText resolution.outcome)
        | none => results)
      replay.results }

/-- What a scripted worker does about the request of an allocation. -/
def reply (allocation : AllocationId) (delay : Nat) : Reaction → Reply
  | .acknowledge => .after delay (.answer .success)
  | .reject => .after delay (.answer (.failure (.remote ("worker rejected slot " ++ allocation.text))))
  | .hang => .never

/-- How the gateway of a scripted worker treats the request. -/
def exchange (schedule : Schedule) (allocation : AllocationId) (delay : Nat) (reaction : Reaction) : Exchange :=
  ⟨.zero, [], reply allocation delay reaction, schedule.rank allocation⟩

/-- Turns a slot of a scripted report into one of a real report. -/
def statusOf (schedule : Schedule) (worker : WorkerId) (replay : Replay) (slot : ReportedSlot) :
    Performed (SlotStatus × Replay) :=
  let place : SlotId := ⟨worker, slot.index⟩
  match slot.label, slot.job with
  | none, none => .ok (⟨place, slot.profile, none⟩, replay)
  | some label, some job =>
    match replay.labels.get? label with
    | some allocation => .ok (⟨place, slot.profile, some ⟨job, allocation⟩⟩, replay)
    | none =>
      let allocation := schedule.id replay.minted
      .ok (⟨place, slot.profile, some ⟨job, allocation⟩⟩,
        { replay with labels := replay.labels.insert label allocation, minted := replay.minted + 1 })
  | _, _ => .error (.fault (.halfOccupied place))

/-- Turns the slots of a scripted report into those of a real one, in order. -/
def statusesOf (schedule : Schedule) (worker : WorkerId) (replay : Replay) :
    List ReportedSlot → Performed (List SlotStatus × Replay)
  | [] => .ok ([], replay)
  | slot :: rest => do
    let (first, replay) ← statusOf schedule worker replay slot
    let (others, replay) ← statusesOf schedule worker replay rest
    return (first :: others, replay)

/-- Performs one step. Only waiting lets time pass and requests go on. -/
def perform (schedule : Schedule) (replay : Replay) : Step → Performed Replay
  | .addWorker worker total defaultSlot =>
    match replay.dispatcher.register worker total defaultSlot with
    | .ok dispatcher => .ok { replay with dispatcher }
    | .error failure => .error (.fault (.refused failure))
  | .removeWorker worker => do
    let (_, dispatcher) ← .ofChecked (replay.dispatcher.removeWorker worker)
    return { replay with dispatcher }
  | .allocate label worker job profile reaction delay => do
    let allocation := schedule.id replay.minted
    match ← .ofChecked (replay.dispatcher.allocate allocation worker job "replay" profile
        (exchange schedule allocation delay reaction)) with
    | (.ok _, dispatcher) =>
      return { replay with
        dispatcher
        labels := replay.labels.insert label allocation
        callers := replay.callers.insert allocation label
        minted := replay.minted + 1 }
    | (.error failure, dispatcher) =>
      return { replay with
        dispatcher
        results := replay.results.insert label ("refused: " ++ failure.text)
        minted := replay.minted + 1 }
  | .free label =>
    match replay.labels.get? label with
    | some allocation => do
      let dispatcher ← .ofChecked (replay.dispatcher.free allocation)
      return { replay with dispatcher }
    | none => .error (.fault (.unknownLabel label))
  | .report worker slots => do
    let (statuses, replay) ← statusesOf schedule worker replay slots
    let (_, dispatcher) ← .ofChecked (replay.dispatcher.report worker ⟨statuses⟩)
    return { replay with dispatcher }
  | .freeInactive job =>
    let calls := (replay.dispatcher.freeInactive job).map fun (worker, job, _) => (worker, job)
    .ok { replay with freed := replay.freed ++ calls }
  | .wait milliseconds =>
    let waited := { replay with waits := replay.waits + 1 }
    if milliseconds = 0 && !schedule.yields replay.waits then .ok waited
    else do
      let (resolutions, dispatcher) ←
        .ofChecked (replay.dispatcher.wait milliseconds (schedule.ahead replay.waits))
      return { waited with dispatcher }.note resolutions

/-- Performs a step and checks the state after it. -/
def performChecked (schedule : Schedule) (replay : Replay) (step : Step) :
    Performed Replay := do
  let after ← replay.perform schedule step
  Performed.ofChecked after.dispatcher.cluster.audit
  return after

/-- Awaits all requests and checks the state. -/
def finish (replay : Replay) : Checked Replay := do
  let (resolutions, dispatcher) ← replay.dispatcher.drain
  let after := { replay with dispatcher }.note resolutions
  after.dispatcher.cluster.audit
  return after

/-- Why a replay has no result. -/
inductive Stop where
  | fault (index : Nat) (fault : StepFault)
  | defect (defect : Defect)

/-- Performs steps, counted from `index`. -/
def performAll (schedule : Schedule) (index : Nat) (replay : Replay) :
    List Step → Except Stop Replay
  | [] => .ok replay
  | step :: rest =>
    match replay.performChecked schedule step with
    | .ok after => performAll schedule (index + 1) after rest
    | .error (.fault fault) => .error (.fault index fault)
    | .error (.defect defect) => .error (.defect defect)

/-- Replays a scenario to its end. -/
def run (schedule : Schedule) (timeouts : Timeouts) (scenario : Scenario) :
    Except Stop Replay := do
  let replay ← performAll schedule 0 (start scenario.owner timeouts) scenario.steps
  match replay.finish with
  | .ok final => .ok final
  | .error defect => .error (.defect defect)

end Replay

end SlotControl
