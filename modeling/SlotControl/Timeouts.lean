import SlotControl.Duration

/-!
How long the slot manager waits for its workers, and how the environment changes that.
-/

namespace SlotControl

/-- How long calls to workers may take. -/
structure Timeouts where
  /-- For a request of a slot, before the time that its worker is expected to need is added. -/
  request : Duration
  /-- For asking a worker to free slots that are idle. -/
  freeInactive : Duration
  deriving DecidableEq

namespace Timeouts

/-- Ten seconds. -/
def usual : Duration := ⟨10000000000, by decide⟩

/-- Both timeouts as usual. -/
def default : Timeouts := ⟨usual, usual⟩

instance : Inhabited Timeouts := ⟨default⟩

/-- The environment variable with the milliseconds that a request may take. -/
def requestVariable : String := "SLOTMAN_REQUEST_TIMEOUT_MS"

/-- The environment variable with the milliseconds that freeing idle slots may take. -/
def freeInactiveVariable : String := "SLOTMAN_FREE_INACTIVE_SLOTS_TIMEOUT_MS"

/-- A number of milliseconds in decimal that fits into 64 bits. -/
def ofText? (s : String) : Option Duration :=
  match Numeral.readText Numeral.bound64 s with
  | .ok n => Duration.ofMilliseconds? n
  | .error _ => none

/-- The timeouts that the environment sets; what is not set or not readable stays as usual. -/
def ofEnvironment (lookUp : String → Option String) : Timeouts where
  request := ((lookUp requestVariable).bind ofText?).getD usual
  freeInactive := ((lookUp freeInactiveVariable).bind ofText?).getD usual

/-- The timeouts with those replaced that are given. -/
def override (timeouts : Timeouts) (request freeInactive : Option Duration) : Timeouts where
  request := request.getD timeouts.request
  freeInactive := freeInactive.getD timeouts.freeInactive

end Timeouts

end SlotControl
