import SlotControl.Json.Decode
import SlotControl.Message

/-!
The JSON form of everything that is exchanged with workers, in both directions.
-/

namespace SlotControl

/-- Values with a JSON form. -/
class Wire (α : Type) where
  encode : α → JsonValue
  decode? : JsonValue → Option α

namespace Wire

open JsonValue (natural text fields? variant? holdsNothing)

/-- The compact JSON text of a value. -/
def write {α : Type} [Wire α] (a : α) : String := (encode a).compact

/-- Reads a value from JSON text; undefined if the text is not JSON or not of the right form. -/
def read? {α : Type} [Wire α] (s : String) : Option α := (JsonValue.parse? s).bind decode?

/-- Words of 32 bits are numbers. -/
instance : Wire UInt32 where
  encode n := natural n.toNat
  decode? v := (v.natural? Numeral.bound32).map Nat.toUInt32

instance : Wire String where
  encode := text
  decode? := JsonValue.text?

instance {α : Type} [Wire α] : Wire (List α) where
  encode items := .array (items.map encode)
  decode? := JsonValue.list? decode?

instance : Wire WorkerId where
  encode id := encode id.number
  decode? v := (decode? v).map WorkerId.mk

instance : Wire JobId where
  encode id := encode id.number
  decode? v := (decode? v).map JobId.mk

instance : Wire OwnerId where
  encode id := encode id.number
  decode? v := (decode? v).map OwnerId.mk

instance : Wire AllocationId where
  encode id := natural id.number.toNat
  decode? v := (v.natural? Numeral.bound128).map AllocationId.ofNat

instance : Wire Amount where
  encode a := natural a.parts
  decode? v := (v.natural? Numeral.bound64).bind Amount.ofParts?

instance : Wire ResourceVector where
  encode v := encode v.amounts
  decode? v := (decode? v).map ResourceVector.mk

/-- Durations are their seconds and the nanoseconds beyond them. More nanoseconds than make up a
    second are read too, but no other field. -/
instance : Wire Duration where
  encode d := .object [("secs", natural d.seconds), ("nanos", natural d.subsecond)]
  decode? v := do
    let fields ← fields? true ["secs", "nanos"] v
    let seconds ← fields.required 0 (JsonValue.natural? Numeral.bound64)
    let nanoseconds ← fields.required 1 (JsonValue.natural? Numeral.bound32)
    Duration.ofNanoseconds? (seconds * Duration.perSecond + nanoseconds)

instance : Wire SlotId where
  encode id := .object [("worker_id", encode id.worker), ("slot_index", encode id.index)]
  decode? v := do
    let fields ← fields? false ["worker_id", "slot_index"] v
    return ⟨← fields.required 0 decode?, ← fields.required 1 decode?⟩

instance : Wire Profile where
  encode
    | .any => text "any"
    | .sized v => .object [("sized", encode v)]
  decode? v := do
    let (name, content) ← variant? v
    if name = "any" then if holdsNothing content then some .any else none
    else if name = "sized" then (content.bind decode?).map Profile.sized
    else none

instance : Wire Requirement where
  encode r := .object [("profile", encode r.profile), ("count", encode r.count)]
  decode? v := do
    let fields ← fields? false ["profile", "count"] v
    return ⟨← fields.required 0 decode?, ← fields.required 1 decode?⟩

instance : Wire SlotState where
  encode state := text state.text
  decode? v := do
    let (name, content) ← variant? v
    if !holdsNothing content then none
    else if name = SlotState.pending.text then some .pending
    else if name = SlotState.allocated.text then some .allocated
    else none

instance : Wire Slot where
  encode slot := .object [
    ("allocation_id", encode slot.allocation),
    ("job_id", encode slot.job),
    ("slot_id", encode slot.place),
    ("profile", encode slot.profile),
    ("state", encode slot.state)]
  decode? v := do
    let fields ← fields? false ["allocation_id", "job_id", "slot_id", "profile", "state"] v
    return ⟨← fields.required 0 decode?, ← fields.required 1 decode?, ← fields.required 2 decode?,
      ← fields.required 3 decode?, ← fields.required 4 decode?⟩

instance : Wire SlotRequest where
  encode request := .object [
    ("slot_id", encode request.place),
    ("job_id", encode request.job),
    ("allocation_id", encode request.allocation),
    ("resource_profile", encode request.profile),
    ("target_address", encode request.address),
    ("owner_id", encode request.owner),
    ("timeout", encode request.timeout)]
  decode? v := do
    let fields ← fields? false ["slot_id", "job_id", "allocation_id", "resource_profile",
      "target_address", "owner_id", "timeout"] v
    return ⟨← fields.required 0 decode?, ← fields.required 1 decode?, ← fields.required 2 decode?,
      ← fields.required 3 decode?, ← fields.required 4 decode?, ← fields.required 5 decode?,
      ← fields.required 6 decode?⟩

instance : Wire SlotAssignment where
  encode assignment := .object [
    ("job_id", encode assignment.job),
    ("allocation_id", encode assignment.allocation)]
  decode? v := do
    let fields ← fields? false ["job_id", "allocation_id"] v
    return ⟨← fields.required 0 decode?, ← fields.required 1 decode?⟩

instance : Wire SlotStatus where
  encode status := .object [
    ("slot_id", encode status.place),
    ("resource_profile", encode status.profile),
    ("assignment", JsonValue.optional encode status.assignment)]
  decode? v := do
    let fields ← fields? false ["slot_id", "resource_profile", "assignment"] v
    return ⟨← fields.required 0 decode?, ← fields.required 1 decode?, ← fields.nullable 2 decode?⟩

instance : Wire SlotReport where
  encode report := .object [("slots", encode report.slots)]
  decode? v := do
    let fields ← fields? false ["slots"] v
    return ⟨← fields.required 0 decode?⟩

end Wire

end SlotControl
