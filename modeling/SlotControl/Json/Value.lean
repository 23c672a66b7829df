import SlotControl.Json.Token

/-!
JSON values, their compact and their indented text, and a reader. The reader keeps the values that
are still open on a stack, so that no depth is too much for it.
-/

namespace SlotControl

/-- A JSON value. -/
inductive JsonValue where
  | scalar (value : JsonScalar)
  | array (items : List JsonValue)
  | object (members : List (String × JsonValue))
  deriving Inhabited

namespace JsonValue

/-- A text. -/
def text (s : String) : JsonValue := .scalar (.text s)

/-- A number. -/
def natural (n : Nat) : JsonValue := .scalar (.natural n)

/-- Nothing. -/
def null : JsonValue := .scalar .null

/-- A value that may be missing. -/
def optional {α : Type} (encode : α → JsonValue) : Option α → JsonValue
  | some a => encode a
  | none => null

/-! ## Writing -/

mutual

/-- The tokens of a value. -/
def tokens : JsonValue → List Token
  | .scalar v => [.scalar v]
  | .array items => .openArray :: itemTokens true items ++ [.closeArray]
  | .object members => .openObject :: memberTokens true members ++ [.closeObject]

/-- The tokens of items, with a comma before each but the first. -/
def itemTokens (first : Bool) : List JsonValue → List Token
  | [] => []
  | v :: rest => (if first then [] else [.comma]) ++ tokens v ++ itemTokens false rest

/-- The tokens of members, with a comma before each but the first. -/
def memberTokens (first : Bool) : List (String × JsonValue) → List Token
  | [] => []
  | (key, v) :: rest =>
    (if first then [] else [.comma]) ++ .scalar (.text key) :: .colon :: tokens v ++
      memberTokens false rest

end

/-- The text of a value, without any blanks. -/
def compact (v : JsonValue) : String := String.ofList (v.tokens.flatMap Token.chars)

/-- A new line, two blanks for each level deep. -/
def newLine (depth : Nat) : List Char := '\n' :: List.replicate (2 * depth) ' '

mutual

/-- The characters of a value with every part on a line of its own. -/
def indented (depth : Nat) : JsonValue → List Char
  | .scalar v => v.chars
  | .array [] => "[]".toList
  | .array (v :: rest) =>
    '[' :: newLine (depth + 1) ++ indented (depth + 1) v ++ indentedItems (depth + 1) rest ++
      newLine depth ++ [']']
  | .object [] => ['\x7b', '\x7d']
  | .object ((key, v) :: rest) =>
    '\x7b' :: newLine (depth + 1) ++ (JsonScalar.text key).chars ++ ": ".toList ++
      indented (depth + 1) v ++ indentedMembers (depth + 1) rest ++ newLine depth ++ ['\x7d']

/-- The characters of items after the first. -/
def indentedItems (depth : Nat) : List JsonValue → List Char
  | [] => []
  | v :: rest => ',' :: newLine depth ++ indented depth v ++ indentedItems depth rest

/-- The characters of members after the first. -/
def indentedMembers (depth : Nat) : List (String × JsonValue) → List Char
  | [] => []
  | (key, v) :: rest =>
    ',' :: newLine depth ++ (JsonScalar.text key).chars ++ ": ".toList ++ indented depth v ++
      indentedMembers depth rest

end

/-- The text of a value with every part on a line of its own. -/
def pretty (v : JsonValue) : String := String.ofList (indented 0 v)

/-! ## Reading -/

/-- An array or an object that is still open; its parts so far come last one first. -/
inductive Frame where
  | array (items : List JsonValue)
  /-- The key of the member to come is missing if it is no text of ours. -/
  | object (members : List (String × JsonValue)) (sound : Bool) (key : Option String)

/-- What may come next. -/
inductive Expecting where
  | value
  | itemOrEnd
  | keyOrEnd
  | key
  | colon
  | commaOrEnd
  /-- Nothing: the value is complete. -/
  | nothing (value : JsonValue)

/-- The reader: what is open, the innermost first, and what may come next. -/
structure Reader where
  stack : List Frame
  expecting : Expecting

namespace Reader

/-- Nothing read yet. -/
def start : Reader := ⟨[], .value⟩

/-- Puts a complete value where it belongs. -/
def close (v : JsonValue) : List Frame → Reader
  | [] => ⟨[], .nothing v⟩
  | .array items :: rest => ⟨.array (v :: items) :: rest, .commaOrEnd⟩
  | .object members sound (some key) :: rest =>
    ⟨.object ((key, v) :: members) sound none :: rest, .commaOrEnd⟩
  | .object members _ none :: rest => ⟨.object members false none :: rest, .commaOrEnd⟩

/-- Starts a value, or completes it if it has no parts. -/
def open? (stack : List Frame) : Token → Option Reader
  | .scalar v => some (close (.scalar v) stack)
  | .openArray => some ⟨.array [] :: stack, .itemOrEnd⟩
  | .openObject => some ⟨.object [] true none :: stack, .keyOrEnd⟩
  | _ => none

/-- Reads the key of a member. -/
def key? (stack : List Frame) (token : Token) : Option Reader :=
  match stack, token with
  | .object members sound _ :: rest, .scalar (.text key) =>
    some ⟨.object members sound (some key) :: rest, .colon⟩
  | .object members sound _ :: rest, .scalar .unpaired =>
    some ⟨.object members sound none :: rest, .colon⟩
  | _, _ => none

/-- Ends the innermost array or object. An object with a key that is no text of ours is unreadable. -/
def end? (stack : List Frame) (token : Token) : Option Reader :=
  match stack, token with
  | .array items :: rest, .closeArray => some (close (.array items.reverse) rest)
  | .object members sound _ :: rest, .closeObject =>
    some (close (if sound then .object members.reverse else .scalar .unpaired) rest)
  | _, _ => none

/-- Goes on after a comma. -/
def afterComma? : List Frame → Option Reader
  | .array items :: rest => some ⟨.array items :: rest, .value⟩
  | .object members sound key :: rest => some ⟨.object members sound key :: rest, .key⟩
  | [] => none

/-- Goes on with one token. -/
def step (reader : Reader) (token : Token) : Option Reader :=
  match reader.expecting with
  | .value => open? reader.stack token
  | .itemOrEnd => (open? reader.stack token).or (end? reader.stack token)
  | .keyOrEnd => (key? reader.stack token).or (end? reader.stack token)
  | .key => key? reader.stack token
  | .colon => if token = .colon then some ⟨reader.stack, .value⟩ else none
  | .commaOrEnd => if token = .comma then afterComma? reader.stack else end? reader.stack token
  | .nothing _ => none

/-- The value that has been read, if it is complete. -/
def finish? (reader : Reader) : Option JsonValue :=
  match reader.expecting with
  | .nothing v => some v
  | _ => none

end Reader

/-- The value of some tokens, if they make up exactly one. -/
def ofTokens? (tokens : List Token) : Option JsonValue := do
  (← tokens.foldlM Reader.step Reader.start).finish?

/-- Reads the text of one value; undefined for any other text. -/
def parse? (s : String) : Option JsonValue := do ofTokens? (← Token.scan? s.toList)

end JsonValue

end SlotControl
