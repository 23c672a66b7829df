import SlotControl.Proofs.Scanning

/-!
A value is read back from what is written of it, compact or with every part on a line of its own. Main
statements: `parse?_compact` and `parse?_pretty`; the first step of both is that the characters scan to the
tokens of the value, and the second that the tokens push exactly the value onto what is still open
(`foldlM_tokens`).
-/

namespace SlotControl

namespace JsonValue

/-- To prove something of all values, prove it of a value from what it has as parts. -/
@[elab_as_elim]
theorem inductOn {motive : JsonValue → Prop} (scalar : ∀ v, motive (.scalar v))
    (array : ∀ items, (∀ v ∈ items, motive v) → motive (.array items))
    (object : ∀ members, (∀ member ∈ members, motive member.2) → motive (.object members)) : ∀ v, motive v
  | .scalar v => scalar v
  | .array items => array items fun v _ => inductOn scalar array object v
  | .object members => object members fun member _ => inductOn scalar array object member.2
termination_by v => v
decreasing_by
  all_goals simp_wf
  · have := List.sizeOf_lt_of_mem ‹_›
    omega
  · have := List.sizeOf_lt_of_mem ‹member ∈ members›
    have : sizeOf member = 1 + sizeOf member.1 + sizeOf member.2 := rfl
    omega

/-! ## The tokens of a value -/

theorem itemTokens_false (items : List JsonValue) :
    itemTokens false items = items.flatMap fun v => .comma :: tokens v := by
  induction items with
  | nil => rfl
  | cons v rest ih => simp [itemTokens, ih]

theorem memberTokens_false (members : List (String × JsonValue)) : memberTokens false members =
    members.flatMap fun member => .comma :: .scalar (.text member.1) :: .colon :: tokens member.2 := by
  induction members with
  | nil => rfl
  | cons member rest ih => simp [memberTokens, ih]

/-- Every value without parts in it is a word, a number that is written with digits alone, or a text. -/
def Plain (v : JsonValue) : Prop := ∀ s, .scalar s ∈ v.tokens → s.Plain

@[simp] theorem plain_scalar (s : JsonScalar) : (scalar s).Plain ↔ s.Plain := by
  simp [Plain, tokens]

private theorem mem_tokens_array (s : JsonScalar) (items : List JsonValue) :
    .scalar s ∈ (array items).tokens ↔ ∃ v ∈ items, .scalar s ∈ v.tokens := by
  cases items with
  | nil => simp [tokens, itemTokens]
  | cons v rest => simp [tokens, itemTokens, itemTokens_false]

private theorem mem_tokens_object (s : JsonScalar) (members : List (String × JsonValue)) :
    .scalar s ∈ (object members).tokens ↔ ∃ member ∈ members, s = .text member.1 ∨ .scalar s ∈ member.2.tokens := by
  cases members with
  | nil => simp [tokens, memberTokens]
  | cons member rest => simp [tokens, memberTokens, memberTokens_false, or_assoc]

@[simp] theorem plain_array (items : List JsonValue) : (array items).Plain ↔ ∀ v ∈ items, v.Plain := by
  simp only [Plain, mem_tokens_array]
  exact ⟨fun plain v inside s there => plain s ⟨v, inside, there⟩,
    fun plain s ⟨v, inside, there⟩ => plain v inside s there⟩

@[simp] theorem plain_object (members : List (String × JsonValue)) :
    (object members).Plain ↔ ∀ member ∈ members, member.2.Plain := by
  simp only [Plain, mem_tokens_object]
  constructor
  · exact fun plain member inside s there => plain s ⟨member, inside, .inr there⟩
  · rintro plain s ⟨member, inside, rfl | there⟩
    · trivial
    · exact plain member inside s there

/-! ## From characters to tokens -/

open Token Token.Scanner

section Scan

variable {opening separator closing : List Char}

/-- However the marks and the items of an array are spelled, the whole is read as the array. -/
private theorem reads_array {spell : JsonValue → List Char} (opens : Reads Behind opening [.openArray] Between)
    (separates : Reads Behind separator [.comma] Between) (closes : Reads Behind closing [.closeArray] Between)
    {v : JsonValue} {rest : List JsonValue} (each : ∀ item ∈ v :: rest, Reads Between (spell item) item.tokens Behind) :
    Reads Between (opening ++ spell v ++ rest.flatMap (fun item => separator ++ spell item) ++ closing)
      (array (v :: rest)).tokens Behind := by
  obtain ⟨first, others⟩ := List.forall_mem_cons.1 each
  have listed : Reads Behind (rest.flatMap fun item => separator ++ spell item) (itemTokens false rest) Behind := by
    rw [itemTokens_false]
    exact .flatMap fun item inside => separates.append (others item inside)
  exact ((opens.of_behind.append first).append listed).append closes.behind

/-- However the marks and the members of an object are spelled, the whole is read as the object. -/
private theorem reads_object {spell : String × JsonValue → List Char}
    (opens : Reads Behind opening [.openObject] Between)
    (separates : Reads Behind separator [.comma] Between) (closes : Reads Behind closing [.closeObject] Between)
    {member : String × JsonValue} {rest : List (String × JsonValue)}
    (each : ∀ other ∈ member :: rest,
      Reads Between (spell other) (.scalar (.text other.1) :: .colon :: other.2.tokens) Behind) :
    Reads Between (opening ++ spell member ++ rest.flatMap (fun other => separator ++ spell other) ++ closing)
      (object (member :: rest)).tokens Behind := by
  obtain ⟨first, others⟩ := List.forall_mem_cons.1 each
  have listed : Reads Behind (rest.flatMap fun other => separator ++ spell other) (memberTokens false rest) Behind := by
    rw [memberTokens_false]
    exact .flatMap fun other inside => separates.append (others other inside)
  exact ((opens.of_behind.append first).append listed).append closes.behind

/-- The compact characters of a value scan to its tokens. -/
theorem reads_compact {v : JsonValue} (plain : v.Plain) :
    Reads Between (v.tokens.flatMap Token.chars) v.tokens Behind := by
  induction v using inductOn with
  | scalar s =>
    have scalar := reads_scalar ((plain_scalar s).1 plain)
    rwa [← List.append_nil s.chars] at scalar
  | array items ih =>
    rw [plain_array] at plain
    cases items with
    | nil => exact ((reads_mark .openArray nofun).of_behind.append (reads_mark .closeArray nofun).of_behind).behind
    | cons v rest =>
      have whole := reads_array (reads_mark .openArray nofun) (reads_mark .comma nofun) (reads_mark .closeArray nofun)
        fun item inside => ih item inside (plain item inside)
      have spelled : (array (v :: rest)).tokens.flatMap Token.chars = Token.openArray.chars ++
          v.tokens.flatMap Token.chars ++
          rest.flatMap (fun item => Token.comma.chars ++ item.tokens.flatMap Token.chars) ++
            Token.closeArray.chars := by
        simp [tokens, itemTokens, itemTokens_false, List.flatMap_assoc]
      rwa [spelled]
  | object members ih =>
    rw [plain_object] at plain
    cases members with
    | nil => exact ((reads_mark .openObject nofun).of_behind.append (reads_mark .closeObject nofun).of_behind).behind
    | cons member rest =>
      have whole := reads_object (reads_mark .openObject nofun) (reads_mark .comma nofun)
        (reads_mark .closeObject nofun) fun other inside => ((reads_text other.1).append
          (reads_mark .colon nofun).of_behind).append (ih other inside (plain other inside))
      have spelled : (object (member :: rest)).tokens.flatMap Token.chars = Token.openObject.chars ++
          ((JsonScalar.text member.1).chars ++ Token.colon.chars ++ member.2.tokens.flatMap Token.chars) ++
          rest.flatMap (fun other => Token.comma.chars ++
            ((JsonScalar.text other.1).chars ++ Token.colon.chars ++ other.2.tokens.flatMap Token.chars)) ++
          Token.closeObject.chars := by
        simp only [tokens, memberTokens, memberTokens_false, List.flatMap_cons, List.flatMap_append, List.flatMap_assoc,
          List.flatMap_nil, List.append_nil, List.nil_append, if_true, List.append_assoc, List.cons_append]
        rfl
      rwa [spelled]

/-! ### With every part on a line of its own -/

theorem indentedItems_eq (depth : Nat) (items : List JsonValue) :
    indentedItems depth items = items.flatMap fun v => (',' :: newLine depth) ++ indented depth v := by
  induction items with
  | nil => rfl
  | cons v rest ih => simp [indentedItems, ih]

theorem indentedMembers_eq (depth : Nat) (members : List (String × JsonValue)) :
    indentedMembers depth members = members.flatMap fun member => (',' :: newLine depth) ++
      ((JsonScalar.text member.1).chars ++ ": ".toList ++ indented depth member.2) := by
  induction members with
  | nil => rfl
  | cons member rest ih => simp [indentedMembers, ih]

private theorem reads_blanks {cs : List Char} (blank : ∀ c ∈ cs, isBlank c = true) : Reads Between cs [] Between := by
  induction cs with
  | nil => exact .nil
  | cons c rest ih =>
    obtain ⟨now, later⟩ := List.forall_mem_cons.1 blank
    exact (reads_blank now).of_behind.append (ih later)

private theorem reads_newLine (depth : Nat) : Reads Behind (newLine depth) [] Between :=
  (reads_blank (by decide)).append (reads_blanks fun c inside => by rw [List.eq_of_mem_replicate inside]; decide)

/-- A mark before a new line. -/
private theorem reads_mark_newLine (depth : Nat) (token : Token) (mark : ∀ v, token ≠ .scalar v) :
    Reads Behind (token.chars ++ newLine depth) [token] Between :=
  (reads_mark token mark).append (reads_newLine depth).of_behind

/-- A mark after a new line. -/
private theorem reads_newLine_mark (depth : Nat) (token : Token) (mark : ∀ v, token ≠ .scalar v) :
    Reads Behind (newLine depth ++ token.chars) [token] Between :=
  (reads_newLine depth).append (reads_mark token mark).of_behind

/-- The characters of a value on several lines scan to its tokens, at any depth. -/
theorem reads_indented {v : JsonValue} (plain : v.Plain) (depth : Nat) :
    Reads Between (indented depth v) v.tokens Behind := by
  induction v using inductOn generalizing depth with
  | scalar s =>
    rw [indented, tokens]
    exact reads_scalar ((plain_scalar s).1 plain)
  | array items ih =>
    rw [plain_array] at plain
    cases items with
    | nil =>
      rw [indented]
      exact ((reads_mark .openArray nofun).of_behind.append (reads_mark .closeArray nofun).of_behind).behind
    | cons v rest =>
      have whole := reads_array (reads_mark_newLine (depth + 1) .openArray nofun)
        (reads_mark_newLine (depth + 1) .comma nofun) (reads_newLine_mark depth .closeArray nofun)
        fun item inside => ih item inside (plain item inside) (depth + 1)
      rw [indented, indentedItems_eq, List.append_assoc]
      exact whole
  | object members ih =>
    rw [plain_object] at plain
    cases members with
    | nil =>
      rw [indented]
      exact ((reads_mark .openObject nofun).of_behind.append (reads_mark .closeObject nofun).of_behind).behind
    | cons member rest =>
      have colon := (reads_mark .colon nofun).append (reads_blank (by decide : isBlank ' ' = true)).of_behind
      have whole := reads_object (reads_mark_newLine (depth + 1) .openObject nofun)
        (reads_mark_newLine (depth + 1) .comma nofun) (reads_newLine_mark depth .closeObject nofun)
        fun other inside => ((reads_text other.1).append colon.of_behind).append
          (ih other inside (plain other inside) (depth + 1))
      obtain ⟨key, v⟩ := member
      rw [indented, indentedMembers_eq, List.append_assoc]
      simp only [List.append_assoc] at whole ⊢
      exact whole

/-- What is read from the start is all that is scanned. -/
private theorem scan?_of_reads {cs : List Char} {tokens : List Token} (reads : Reads Between cs tokens Behind) :
    scan? cs = some tokens := by
  obtain ⟨last, read, behind⟩ := reads [] .start rfl
  rw [scan?, read, Option.bind_eq_bind, Option.bind_some, behind.finish]
  simp

end Scan

/-! ## From tokens to values -/

namespace Reader

/-- Where a value may begin, also as the first item of an array. -/
inductive Begins : Expecting → Prop
  | value : Begins .value
  | item : Begins .itemOrEnd

/-- A token that opens a value is read wherever one may begin. -/
theorem step_open (token : Token) (stack : List Frame) {expecting : Expecting} (begins : Begins expecting)
    {next : Reader} (opens : open? stack token = some next) : step ⟨stack, expecting⟩ token = some next := by
  cases begins with
  | value => exact opens
  | item =>
    show (open? stack token).or _ = _
    rw [opens, Option.some_or]

/-- The reader reads some tokens as a value and puts it where it belongs. -/
def Takes (tokens : List Token) (v : JsonValue) : Prop :=
  ∀ stack {expecting}, Begins expecting → tokens.foldlM step ⟨stack, expecting⟩ = some (close v stack)

/-- Further items pile up on an array. -/
private theorem foldlM_items {items : List JsonValue} (each : ∀ v ∈ items, Takes v.tokens v) (read : List JsonValue)
    (stack : List Frame) :
    (itemTokens false items).foldlM step ⟨.array read :: stack, .commaOrEnd⟩ =
      some ⟨.array (items.reverse ++ read) :: stack, .commaOrEnd⟩ := by
  induction items generalizing read with
  | nil => rfl
  | cons v rest ih =>
    obtain ⟨now, later⟩ := List.forall_mem_cons.1 each
    have comma : step ⟨.array read :: stack, .commaOrEnd⟩ .comma = some ⟨.array read :: stack, .value⟩ := rfl
    show (.comma :: v.tokens ++ itemTokens false rest).foldlM step _ = _
    rw [List.foldlM_append, List.foldlM_cons, comma, Option.bind_eq_bind, Option.bind_some, now _ .value,
      Option.bind_some]
    refine (ih later (v :: read)).trans ?_
    simp

/-- A member after its comma goes on top of an object. -/
private theorem foldlM_member {v : JsonValue} (takes : Takes v.tokens v) (name : String)
    (read : List (String × JsonValue)) (key : Option String) (stack : List Frame) {expecting : Expecting}
    (keyed : step ⟨.object read true key :: stack, expecting⟩ (.scalar (.text name)) =
      some ⟨.object read true (some name) :: stack, .colon⟩) :
    (.scalar (.text name) :: .colon :: v.tokens).foldlM step ⟨.object read true key :: stack, expecting⟩ =
      some ⟨.object ((name, v) :: read) true none :: stack, .commaOrEnd⟩ := by
  have colon : step ⟨.object read true (some name) :: stack, .colon⟩ .colon =
      some ⟨.object read true (some name) :: stack, .value⟩ := rfl
  rw [List.foldlM_cons, keyed, Option.bind_eq_bind, Option.bind_some, List.foldlM_cons, colon, Option.bind_eq_bind,
    Option.bind_some, takes _ .value]
  rfl

/-- Further members pile up on an object. -/
private theorem foldlM_members {members : List (String × JsonValue)}
    (each : ∀ member ∈ members, Takes member.2.tokens member.2) (read : List (String × JsonValue))
    (stack : List Frame) :
    (memberTokens false members).foldlM step ⟨.object read true none :: stack, .commaOrEnd⟩ =
      some ⟨.object (members.reverse ++ read) true none :: stack, .commaOrEnd⟩ := by
  induction members generalizing read with
  | nil => rfl
  | cons member rest ih =>
    obtain ⟨now, later⟩ := List.forall_mem_cons.1 each
    obtain ⟨name, v⟩ := member
    have comma : step ⟨.object read true none :: stack, .commaOrEnd⟩ .comma =
        some ⟨.object read true none :: stack, .key⟩ := rfl
    show (.comma :: (.scalar (.text name) :: .colon :: v.tokens) ++ memberTokens false rest).foldlM step _ = _
    rw [List.foldlM_append, List.foldlM_cons, comma, Option.bind_eq_bind, Option.bind_some,
      foldlM_member now name read none stack rfl, Option.bind_some]
    refine (ih later ((name, v) :: read)).trans ?_
    simp

/-- The tokens of a value are taken as the value. -/
theorem takes_tokens (v : JsonValue) : Takes v.tokens v := by
  intro stack expecting begins
  induction v using inductOn generalizing stack expecting with
  | scalar s =>
    have opens := step_open (.scalar s) stack begins rfl
    rw [tokens, List.foldlM_cons, opens]
    rfl
  | array items ih =>
    have opens := step_open .openArray stack begins rfl
    rw [tokens, List.cons_append, List.foldlM_cons, opens, Option.bind_eq_bind, Option.bind_some]
    cases items with
    | nil => rfl
    | cons v rest =>
      obtain ⟨now, later⟩ := List.forall_mem_cons.1 ih
      have first : v.tokens.foldlM step ⟨.array [] :: stack, .itemOrEnd⟩ = _ := now _ .item
      show (v.tokens ++ itemTokens false rest ++ [Token.closeArray]).foldlM step _ = _
      rw [List.foldlM_append, List.foldlM_append, first, Option.bind_eq_bind, Option.bind_some]
      show ((itemTokens false rest).foldlM step ⟨.array [v] :: stack, .commaOrEnd⟩ >>= _) = _
      rw [foldlM_items later]
      show some (close (.array (rest.reverse ++ [v]).reverse) stack) = _
      simp
  | object members ih =>
    have opens := step_open .openObject stack begins rfl
    rw [tokens, List.cons_append, List.foldlM_cons, opens, Option.bind_eq_bind, Option.bind_some]
    cases members with
    | nil => rfl
    | cons member rest =>
      obtain ⟨now, later⟩ := List.forall_mem_cons.1 ih
      obtain ⟨name, v⟩ := member
      show ((Token.scalar (.text name) :: .colon :: v.tokens) ++ memberTokens false rest ++ [Token.closeObject]).foldlM
        step _ = _
      rw [List.foldlM_append, List.foldlM_append, foldlM_member now name [] none stack rfl, Option.bind_eq_bind,
        Option.bind_some, foldlM_members later]
      show some (close (.object (rest.reverse ++ [(name, v)]).reverse) stack) = _
      simp

end Reader

theorem ofTokens?_tokens (v : JsonValue) : ofTokens? v.tokens = some v := by
  rw [ofTokens?, Reader.start, Reader.takes_tokens v [] .value]
  rfl

/-! ## Reading back -/

/-- The compact text of a value is read as the value. -/
theorem parse?_compact {v : JsonValue} (plain : v.Plain) : parse? v.compact = some v := by
  rw [parse?, compact, String.toList_ofList, scan?_of_reads (reads_compact plain), Option.bind_eq_bind,
    Option.bind_some, ofTokens?_tokens]

/-- So is its text on several lines. -/
theorem parse?_pretty {v : JsonValue} (plain : v.Plain) : parse? v.pretty = some v := by
  rw [parse?, pretty, String.toList_ofList, scan?_of_reads (reads_indented plain 0), Option.bind_eq_bind,
    Option.bind_some, ofTokens?_tokens]

end JsonValue

end SlotControl
