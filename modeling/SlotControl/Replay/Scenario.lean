import SlotControl.Json.Wire

/-!
Scripted scenarios: the steps that a replay performs, and how they are read from JSON. Fields that
are not known are refused.
-/

namespace SlotControl

/-- What a scripted worker does about a request, after a delay. -/
inductive Reaction where
  | acknowledge
  | reject
  | hang
  deriving DecidableEq, Inhabited

/-- A slot of a scripted report. -/
structure ReportedSlot where
  index : UInt32
  profile : Profile
  /-- The allocation that occupies the slot; a label that is not known names a new one. -/
  label : Option String
  job : Option JobId

/-- One step of a scenario. -/
inductive Step where
  | addWorker (worker : WorkerId) (total defaultSlot : Profile)
  | removeWorker (worker : WorkerId)
  | allocate (label : String) (worker : WorkerId) (job : JobId) (profile : Profile)
      (reaction : Reaction) (delay : Nat)
  | free (label : String)
  | report (worker : WorkerId) (slots : List ReportedSlot)
  | freeInactive (job : JobId)
  | wait (milliseconds : Nat)

/-- A script for the slot manager. -/
structure Scenario where
  owner : OwnerId
  steps : List Step

namespace Scenario

open JsonValue (fields? variant? holdsNothing)
open Wire (decode?)

/-- A profile of a scenario: the wildcard, or whole processors and units of memory. Without any
    field it is empty. -/
def profile? (v : JsonValue) : Option Profile := do
  let fields ← fields? true ["any", "cpus", "mem"] v
  let any ← fields.defaulted 0 false JsonValue.boolean?
  let cpus ← fields.defaulted 1 0 decode?
  let memory ← fields.defaulted 2 0 decode?
  return if any then .any else .ofUnits cpus memory

/-- The name of a reaction. -/
def reaction? (v : JsonValue) : Option Reaction := do
  let (name, content) ← variant? v
  guard (holdsNothing content)
  match name with
  | "ack" => some .acknowledge
  | "reject" => some .reject
  | "hang" => some .hang
  | _ => none

/-- A number of milliseconds. -/
def milliseconds? : JsonValue → Option Nat := JsonValue.natural? Numeral.bound64

/-- A slot of a report. -/
def reportedSlot? (v : JsonValue) : Option ReportedSlot := do
  let fields ← fields? true ["index", "profile", "label", "job"] v
  return ⟨← fields.required 0 decode?, ← fields.required 1 profile?, ← fields.nullable 2 decode?,
    ← fields.nullable 3 decode?⟩

/-- The content of a step by its name. -/
def stepContent? (name : String) (v : JsonValue) : Option Step := do
  match name with
  | "add_worker" =>
    let fields ← fields? true ["worker", "total", "default_slot"] v
    let defaultSlot ← fields.nullable 2 profile?
    return .addWorker (← fields.required 0 decode?) (← fields.required 1 profile?)
      (defaultSlot.getD .zero)
  | "remove_worker" =>
    let fields ← fields? true ["worker"] v
    return .removeWorker (← fields.required 0 decode?)
  | "allocate" =>
    let fields ← fields? true ["label", "worker", "job", "profile", "outcome", "delay_ms"] v
    return .allocate (← fields.required 0 decode?) (← fields.required 1 decode?)
      (← fields.required 2 decode?) (← fields.required 3 profile?)
      (← fields.defaulted 4 .acknowledge reaction?) (← fields.defaulted 5 0 milliseconds?)
  | "free" =>
    let fields ← fields? true ["label"] v
    return .free (← fields.required 0 decode?)
  | "report" =>
    let fields ← fields? true ["worker", "slots"] v
    return .report (← fields.required 0 decode?)
      (← fields.required 1 (JsonValue.list? reportedSlot?))
  | "free_inactive" =>
    let fields ← fields? true ["job"] v
    return .freeInactive (← fields.required 0 decode?)
  | "wait" =>
    let fields ← fields? true ["ms"] v
    return .wait (← fields.required 0 milliseconds?)
  | _ => none

/-- A step: an object with its name and its content. -/
def step? (v : JsonValue) : Option Step := do
  let (name, content) ← variant? v
  content.bind (stepContent? name)

/-- A scenario; the owner may be missing. -/
def ofJson? (v : JsonValue) : Option Scenario := do
  let fields ← fields? true ["owner", "steps"] v
  return ⟨← fields.defaulted 0 ⟨0⟩ decode?, ← fields.required 1 (JsonValue.list? step?)⟩

/-- Reads a scenario from JSON text. -/
def parse? (s : String) : Option Scenario := (JsonValue.parse? s).bind ofJson?

end Scenario

end SlotControl
