import SlotControl.Json.Wire
import SlotControl.Proofs.Parsing

/-!
Every message survives its JSON text (`messages_survive`). What a type has to bring along for that is
`Wire.Lawful`: it is shown for the parts of the messages first, and for the messages from their parts.
-/

namespace SlotControl

/-- Items that are all defined make up a list that is. -/
private theorem mapM_of_defined {α β : Type} {f : α → Option β} {g : α → β} {items : List α}
    (defined : ∀ item ∈ items, f item = some (g item)) : items.mapM f = some (items.map g) := by
  induction items with
  | nil => rfl
  | cons item rest ih =>
    obtain ⟨now, later⟩ := List.forall_mem_cons.1 defined
    simp [List.mapM_cons, now, ih later]

namespace JsonValue

@[simp] theorem plain_natural (n : Nat) : (natural n).Plain := (plain_scalar _).2 trivial

@[simp] theorem plain_text (s : String) : (text s).Plain := (plain_scalar _).2 trivial

theorem plain_optional {α : Type} {encode : α → JsonValue} (plain : ∀ a, (encode a).Plain) (a : Option α) :
    (optional encode a).Plain := by
  cases a with
  | none => exact (plain_scalar _).2 trivial
  | some a => exact plain a

/-! ## Fields of an object -/

theorem member?_of_mem {members : List (String × JsonValue)} (distinct : (members.map Prod.fst).Nodup)
    {member : String × JsonValue} (inside : member ∈ members) : member? members member.1 = some (some member.2) := by
  have alone : members.filter (fun other => other.1 == member.1) = [member] := by
    induction members with
    | nil => cases inside
    | cons first rest ih =>
      obtain ⟨fresh, distinct⟩ := List.nodup_cons.1 distinct
      rcases List.mem_cons.1 inside with rfl | later
      · have others : rest.filter (fun other => other.1 == member.1) = [] := by
          simp only [List.filter_eq_nil_iff, beq_iff_eq]
          exact fun other there same => fresh (same ▸ List.mem_map_of_mem there)
        simp [others]
      · have different : first.1 ≠ member.1 := fun same => fresh (same ▸ List.mem_map_of_mem later)
        simp [different, ih distinct later]
  rw [member?, alone]

/-- The members of an object are found for the fields of their names. -/
theorem fields?_object (strict : Bool) {members : List (String × JsonValue)}
    (distinct : (members.map Prod.fst).Nodup) :
    fields? strict (members.map Prod.fst) (.object members) =
      some ⟨false, members.map fun member => some member.2⟩ := by
  have found : (members.map Prod.fst).mapM (member? members) = some (members.map fun member => some member.2) := by
    rw [List.mapM_map]
    exact mapM_of_defined fun member inside => member?_of_mem distinct inside
  simp [fields?, found]

/-- So a structure is read from the values of its fields. -/
theorem fields?_bind {β : Type} (strict : Bool) (members : List (String × JsonValue))
    (distinct : (members.map Prod.fst).Nodup) (read? : Fields → Option β) :
    (fields? strict (members.map Prod.fst) (.object members)).bind read? =
      read? ⟨false, members.map fun member => some member.2⟩ := by
  rw [fields?_object strict distinct, Option.bind_some]

end JsonValue

namespace Wire

/-- The JSON form of a type can be written, and is read as what it was made of. -/
class Lawful (α : Type) [Wire α] : Prop where
  plain : ∀ a : α, (encode a).Plain
  decode_encode : ∀ a : α, decode? (encode a) = some a

attribute [simp] Lawful.plain Lawful.decode_encode

open JsonValue (natural natural? text plain_natural plain_text)

/-! ## Numbers and lists -/

private theorem natural?_natural {bound n : Nat} (small : n < bound) : (natural n).natural? bound = some n := by
  simp [natural?, natural, small]

instance : Lawful UInt32 where
  plain n := plain_natural n.toNat
  decode_encode n := by
    have small : n.toNat < Numeral.bound32 := n.toNat_lt
    simp [decode?, encode, natural?_natural small]

instance : Lawful String where
  plain s := plain_text s
  decode_encode _ := rfl

instance {α : Type} [Wire α] [Lawful α] : Lawful (List α) where
  plain items := by simp [encode]
  decode_encode items := by
    show (items.map encode).mapM decode? = some items
    have each : items.mapM (decode? ∘ encode) = some (items.map id) := mapM_of_defined fun item _ => by simp
    rw [List.mapM_map, each, List.map_id]

/-! ## Ids and resources -/

/-- A structure with one field is written as the field. -/
private theorem map_decode_encode {α β : Type} [Wire α] [Lawful α] (make : α → β) (a : α) :
    (decode? (encode a)).map make = some (make a) := by
  rw [Lawful.decode_encode, Option.map_some]

instance : Lawful WorkerId where
  plain id := Lawful.plain id.number
  decode_encode id := map_decode_encode WorkerId.mk id.number

instance : Lawful JobId where
  plain id := Lawful.plain id.number
  decode_encode id := map_decode_encode JobId.mk id.number

instance : Lawful OwnerId where
  plain id := Lawful.plain id.number
  decode_encode id := map_decode_encode OwnerId.mk id.number

instance : Lawful AllocationId where
  plain id := plain_natural id.number.toNat
  decode_encode id := by
    have small : id.number.toNat < Numeral.bound128 := id.number.isLt
    simp [decode?, encode, natural?_natural small, AllocationId.ofNat]

instance : Lawful Amount where
  plain a := plain_natural a.parts
  decode_encode a := by
    have small : a.parts < Numeral.bound64 := a.parts_lt
    simp [decode?, encode, natural?_natural small, Amount.ofParts?, a.parts_lt]

instance : Lawful ResourceVector where
  plain v := Lawful.plain v.amounts
  decode_encode v := map_decode_encode ResourceVector.mk v.amounts

instance : Lawful Profile where
  plain p := by
    cases p with
    | any => exact plain_text "any"
    | sized v => exact (JsonValue.plain_object _).2 (by simp)
  decode_encode p := by
    cases p with
    | any => rfl
    | sized v => exact map_decode_encode Profile.sized v

/-! ## Structures -/

open JsonValue (fields?_bind)

/-- The two parts are read apart from what they are. -/
private theorem decode_duration (seconds nanoseconds : JsonValue) :
    (decode? (.object [("secs", seconds), ("nanos", nanoseconds)]) : Option Duration) =
      (seconds.natural? Numeral.bound64).bind fun s => (nanoseconds.natural? Numeral.bound32).bind fun n =>
        Duration.ofNanoseconds? (s * Duration.perSecond + n) := by
  refine (fields?_bind true [("secs", seconds), ("nanos", nanoseconds)] (by simp) _).trans ?_
  simp [JsonValue.Fields.required, JsonValue.Fields.found]

instance : Lawful Duration where
  plain d := (JsonValue.plain_object _).2 (by simp [plain_natural])
  decode_encode d := by
    have seconds : d.seconds < Numeral.bound64 := by
      have := d.nanoseconds_lt
      simp only [Duration.seconds, Duration.perSecond, Numeral.bound64]
      omega
    have subsecond : d.subsecond < Numeral.bound32 := by
      simp only [Duration.subsecond, Duration.perSecond, Numeral.bound32]
      omega
    have whole : d.seconds * Duration.perSecond + d.subsecond = d.nanoseconds :=
      Nat.div_add_mod' d.nanoseconds Duration.perSecond
    show decode? (.object [("secs", natural d.seconds), ("nanos", natural d.subsecond)]) = some d
    rw [decode_duration, natural?_natural seconds, natural?_natural subsecond, Option.bind_some, Option.bind_some,
      whole,
      Duration.ofNanoseconds?, dif_pos d.nanoseconds_lt]

instance : Lawful SlotId where
  plain id := (JsonValue.plain_object _).2 (by simp)
  decode_encode id := by
    refine (fields?_bind false [("worker_id", encode id.worker), ("slot_index", encode id.index)] (by simp) _).trans ?_
    simp [JsonValue.Fields.required, JsonValue.Fields.found]

instance : Lawful Requirement where
  plain r := (JsonValue.plain_object _).2 (by simp)
  decode_encode r := by
    refine (fields?_bind false [("profile", encode r.profile), ("count", encode r.count)] (by simp) _).trans ?_
    simp [JsonValue.Fields.required, JsonValue.Fields.found]

instance : Lawful SlotState where
  plain state := plain_text state.text
  decode_encode state := by cases state <;> rfl

instance : Lawful Slot where
  plain slot := (JsonValue.plain_object _).2 (by simp)
  decode_encode slot := by
    refine (fields?_bind false [("allocation_id", encode slot.allocation), ("job_id", encode slot.job),
      ("slot_id", encode slot.place), ("profile", encode slot.profile), ("state", encode slot.state)]
      (by simp) _).trans ?_
    simp [JsonValue.Fields.required, JsonValue.Fields.found]

instance : Lawful SlotRequest where
  plain request := (JsonValue.plain_object _).2 (by simp)
  decode_encode request := by
    refine (fields?_bind false [("slot_id", encode request.place), ("job_id", encode request.job),
      ("allocation_id", encode request.allocation), ("resource_profile", encode request.profile),
      ("target_address", encode request.address), ("owner_id", encode request.owner),
      ("timeout", encode request.timeout)] (by simp) _).trans ?_
    simp [JsonValue.Fields.required, JsonValue.Fields.found]

instance : Lawful SlotAssignment where
  plain assignment := (JsonValue.plain_object _).2 (by simp)
  decode_encode assignment := by
    refine (fields?_bind false [("job_id", encode assignment.job), ("allocation_id", encode assignment.allocation)]
      (by simp) _).trans ?_
    simp [JsonValue.Fields.required, JsonValue.Fields.found]

/-- An assignment is an object, so that it is told from no assignment. -/
private theorem optional?_assignment (assignment : Option SlotAssignment) :
    JsonValue.optional? decode? (JsonValue.optional encode assignment) = some assignment := by
  cases assignment with
  | none => rfl
  | some assignment => exact map_decode_encode some assignment

instance : Lawful SlotStatus where
  plain status := (JsonValue.plain_object _).2 (by simp [JsonValue.plain_optional])
  decode_encode status := by
    refine (fields?_bind false [("slot_id", encode status.place), ("resource_profile", encode status.profile),
      ("assignment", JsonValue.optional encode status.assignment)] (by simp) _).trans ?_
    simp [JsonValue.Fields.required, JsonValue.Fields.nullable, JsonValue.Fields.found, optional?_assignment]

instance : Lawful SlotReport where
  plain report := (JsonValue.plain_object _).2 (by simp)
  decode_encode report := by
    refine (fields?_bind false [("slots", encode report.slots)] (by simp) _).trans ?_
    simp [JsonValue.Fields.required, JsonValue.Fields.found]

/-! ## Texts -/

/-- Text stands for one value: what is written of a value is read as it, no other value has the same text, and what is
    read of any text is kept when it is written and read once more. -/
structure Faithful (α : Type) [Wire α] : Prop where
  read_write : ∀ a : α, read? (write a) = some a
  write_injective : ∀ a b : α, write a = write b → a = b
  reread : ∀ (s : String) (a : α), read? s = some a → read? (write a) = some a

theorem faithful (α : Type) [Wire α] [Lawful α] : Faithful α := by
  have read_write : ∀ a : α, read? (write a) = some a := by
    intro a
    rw [read?, write, JsonValue.parse?_compact (Lawful.plain a), Option.bind_some, Lawful.decode_encode]
  constructor
  case read_write => exact read_write
  case write_injective =>
    intro a b same
    have read := read_write a
    rw [same, read_write b] at read
    exact (Option.some.inj read).symm
  case reread => exact fun _ a _ => read_write a

/-- Every message to or from a worker, and every part of one, survives its JSON text. -/
theorem messages_survive :
    Faithful SlotReport ∧ Faithful SlotStatus ∧ Faithful SlotAssignment ∧ Faithful SlotRequest ∧ Faithful Slot ∧
      Faithful SlotState ∧ Faithful SlotId ∧ Faithful AllocationId ∧ Faithful WorkerId ∧ Faithful JobId ∧
      Faithful OwnerId ∧ Faithful Amount ∧ Faithful ResourceVector ∧ Faithful Profile ∧ Faithful Requirement :=
  ⟨faithful _, faithful _, faithful _, faithful _, faithful _, faithful _, faithful _, faithful _, faithful _,
    faithful _, faithful _, faithful _, faithful _, faithful _, faithful _⟩

end Wire

end SlotControl
