import SlotControl.Json.Value

/-!
How the parts of structures and variants are found in JSON values. A structure is an object of its
fields in any order, or an array of their values in theirs.
-/

namespace SlotControl.JsonValue

/-- A number below the bound. -/
def natural? (bound : Nat) : JsonValue → Option Nat
  | .scalar (.natural n) => if n < bound then some n else none
  | _ => none

/-- A text. -/
def text? : JsonValue → Option String
  | .scalar (.text s) => some s
  | _ => none

/-- A truth value. -/
def boolean? : JsonValue → Option Bool
  | .scalar (.boolean b) => some b
  | _ => none

/-- The values of a list. -/
def list? {α : Type} (decode? : JsonValue → Option α) : JsonValue → Option (List α)
  | .array items => items.mapM decode?
  | _ => none

/-- A value that may be null. -/
def optional? {α : Type} (decode? : JsonValue → Option α) : JsonValue → Option (Option α)
  | .scalar .null => some none
  | v => (decode? v).map some

/-- The values found for the fields of a structure, in the order of the fields. -/
structure Fields where
  /-- They come from an array. -/
  positional : Bool
  values : List (Option JsonValue)

/-- The value of one field among the members of an object; undefined if it comes twice. -/
def member? (members : List (String × JsonValue)) (name : String) : Option (Option JsonValue) :=
  match members.filter fun member => member.1 == name with
  | [] => some none
  | [member] => some (some member.2)
  | _ => none

/-- Finds the values of the fields. Other members of an object are passed over, or refused if
    `strict`. -/
def fields? (strict : Bool) (names : List String) : JsonValue → Option Fields
  | .object members =>
    if strict && !members.all fun member => names.contains member.1 then none
    else do return ⟨false, ← names.mapM (member? members)⟩
  | .array items => if items.length ≤ names.length then some ⟨true, items.map some⟩ else none
  | .scalar _ => none

namespace Fields

/-- The value found for a field. -/
def found (fields : Fields) (index : Nat) : Option JsonValue := (fields.values[index]?).join

/-- A field that must be there. -/
def required {α : Type} (fields : Fields) (index : Nat) (decode? : JsonValue → Option α) : Option α :=
  (fields.found index).bind decode?

/-- A field that may be null, and may be missing from an object. -/
def nullable {α : Type} (fields : Fields) (index : Nat) (decode? : JsonValue → Option α) :
    Option (Option α) :=
  match fields.found index with
  | some v => optional? decode? v
  | none => if fields.positional then none else some none

/-- A field that has a value of its own when it is missing. -/
def defaulted {α : Type} (fields : Fields) (index : Nat) (default : α)
    (decode? : JsonValue → Option α) : Option α :=
  match fields.found index with
  | some v => decode? v
  | none => some default

end Fields

/-- The name of a variant and what it holds: the name alone, or an object with one member. -/
def variant? : JsonValue → Option (String × Option JsonValue)
  | .scalar (.text name) => some (name, none)
  | .object [(name, v)] => some (name, some v)
  | _ => none

/-- A variant holds nothing. -/
def holdsNothing : Option JsonValue → Bool
  | none | some (.scalar .null) => true
  | _ => false

end SlotControl.JsonValue
