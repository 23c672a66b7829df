import SlotControl.Identifier
import SlotControl.Proofs.Numerals

/-!
The text of an identifier is read back as that identifier, and the reader takes exactly the numerals below the
bound. Main statement: `identifiers_canonical`, one contract for the hexadecimal ids of allocations and the decimal
ids of workers, jobs, owners and resources.
-/

namespace SlotControl
open Numeral

variable {α : Type} {base bound : Nat} {form : List Char → Prop} {number : α → Nat} {text : α → String}
  {ofText : String → Except Fault α}

/-- Exactly 32 hexadecimal digits in lower case. -/
def HexForm (cs : List Char) : Prop := cs.length = 32 ∧ ∀ c ∈ cs, c ∈ "0123456789abcdef".toList

/-- Decimal digits, the first of which is a zero only where it is the only one. -/
def DecimalForm (cs : List Char) : Prop :=
  cs ≠ [] ∧ (∀ c ∈ cs, c ∈ "0123456789".toList) ∧ (cs.head? = some '0' → cs = ['0'])

/-- What writing and reading one kind of identifiers keep to: the identifiers are the numbers below a bound, each
    is written in one form, and a text is read exactly if it is a numeral of such a number. -/
structure Textual (base bound : Nat) (form : List Char → Prop) (number : α → Nat) (text : α → String)
    (ofText : String → Except Fault α) : Prop where
  /-- Identifiers are told apart by their numbers. -/
  distinct : ∀ one other, number one = number other → one = other
  /-- The numbers of identifiers are those below the bound. -/
  numbers : ∀ n, (∃ id, number id = n) ↔ n < bound
  /-- The text is of the form and spells the number. -/
  written : ∀ id, form (text id).toList ∧ Spells base (text id).toList (number id)
  /-- A text is read as an identifier exactly if it is a numeral of its number. -/
  reads : ∀ s id, ofText s = .ok id ↔ Denotes base s.toList (number id)
  /-- A text is accepted exactly if it is a numeral of a number below the bound. -/
  accepts : ∀ s, (∃ id, ofText s = .ok id) ↔ ∃ n < bound, Denotes base s.toList n
  /-- The text of an identifier is read back as this identifier. -/
  returns : ∀ id, ofText (text id) = .ok id
  /-- Reading and writing once is as good as twice. -/
  settles : ∀ s canonical, (ofText s).map text = .ok canonical → (ofText canonical).map text = .ok canonical
  /-- Two numerals come to one text exactly if they stand for one number. -/
  canonical : ∀ s t m n, m < bound → n < bound → Denotes base s.toList m → Denotes base t.toList n →
    ((ofText s).map text = (ofText t).map text ↔ m = n)

/-- The contract follows from what the reader makes of a number and from what the text spells. -/
private theorem textual_of (make : Nat → α) (known : base ≤ 16) (small : ∀ id, number id < bound)
    (number_make : ∀ n < bound, number (make n) = n) (make_number : ∀ id, make (number id) = id)
    (read_text : ∀ s, ofText s = (read base bound s.toList).map make)
    (formed : ∀ id, form (text id).toList) (spelled : ∀ id, Spells base (text id).toList (number id)) :
    Textual base bound form number text ofText := by
  have injective (one other : α) (same : number one = number other) : one = other := by
    rw [← make_number one, ← make_number other, same]
  have read_iff (s : String) (id : α) : ofText s = .ok id ↔ Denotes base s.toList (number id) := by
    have positive : 0 < bound := Nat.lt_of_le_of_lt (Nat.zero_le _) (small id)
    rw [read_text]
    constructor
    · intro found
      cases answer : read base bound s.toList with
      | error fault => simp [answer, Except.map] at found
      | ok n =>
        obtain rfl : make n = id := by simpa [answer, Except.map] using found
        obtain ⟨denoted, below⟩ := (read_eq_ok_iff known positive).1 answer
        rwa [number_make n below]
    · intro denoted
      rw [(read_eq_ok_iff known positive).2 ⟨denoted, small id⟩, Except.map, make_number]
  have read_back (id : α) : ofText (text id) = .ok id :=
    (read_iff (text id) id).2 ⟨_, .inl rfl, spelled id⟩
  have read_number {s : String} {n : Nat} (below : n < bound) (denoted : Denotes base s.toList n) :
      ofText s = .ok (make n) := (read_iff s (make n)).2 (by rwa [number_make n below])
  constructor
  case distinct => exact injective
  case numbers =>
    intro n
    constructor
    · rintro ⟨id, rfl⟩
      exact small id
    · intro below
      exact ⟨make n, number_make n below⟩
  case written => exact fun id => ⟨formed id, spelled id⟩
  case reads => exact read_iff
  case accepts =>
    intro s
    constructor
    · rintro ⟨id, found⟩
      exact ⟨number id, small id, (read_iff s id).1 found⟩
    · rintro ⟨n, below, denoted⟩
      exact ⟨make n, read_number below denoted⟩
  case returns => exact read_back
  case settles =>
    intro s canonical once
    cases answer : ofText s with
    | error fault => simp [answer, Except.map] at once
    | ok id =>
      obtain rfl : text id = canonical := by simpa [answer, Except.map] using once
      rw [read_back, Except.map]
  case canonical =>
    intro s t m n below under first second
    rw [read_number below first, read_number under second]
    constructor
    · intro same
      have texts : text (make m) = text (make n) := Except.ok.inj same
      have ids : make m = make n := by
        have reread := read_back (make m)
        rw [texts, read_back] at reread
        exact (Except.ok.inj reread).symm
      rw [← number_make m below, ids, number_make n under]
    · rintro rfl
      rfl

private theorem hexForm_padded (n : Nat) : HexForm (padded 16 32 n) := by
  refine ⟨length_padded 16 32 n, ?_⟩
  intro c inside
  obtain ⟨d, small, rfl⟩ := digit_of_mem_padded (by decide) inside
  clear inside
  revert d
  decide

private theorem decimalForm_decimal (n : Nat) : DecimalForm (decimal n) := by
  refine ⟨decimal_ne_nil n, ?_, ?_⟩
  · intro c inside
    obtain ⟨d, small, rfl⟩ := digit_of_mem_decimal inside
    clear inside
    revert d
    decide
  · intro leading
    rcases head_decimal n with zero | nonzero
    · exact zero
    · exact absurd leading nonzero

private theorem textual_allocation :
    Textual 16 (2 ^ 128) HexForm (fun id => id.number.toNat) AllocationId.text AllocationId.ofText := by
  have small (id : AllocationId) : id.number.toNat < 2 ^ 128 := id.number.isLt
  apply textual_of AllocationId.ofNat (by decide) small
  · intro n below
    exact Nat.mod_eq_of_lt below
  · intro id
    rw [AllocationId.ofNat, BitVec.ofNat_toNat, BitVec.setWidth_eq]
  · intro s
    rfl
  · intro id
    rw [AllocationId.text, String.toList_ofList]
    exact hexForm_padded _
  · intro id
    rw [AllocationId.text, String.toList_ofList]
    exact spells_padded (by decide) (by decide) (small id)

/-- The ids of 32 bits differ in their types only. -/
private theorem textual_word (number : α → UInt32) (make : UInt32 → α)
    (number_make : ∀ word, number (make word) = word) (make_number : ∀ id, make (number id) = id) :
    Textual 10 (2 ^ 32) DecimalForm (fun id => (number id).toNat) (fun id => Numeral.text (number id).toNat)
      (fun s => (readText bound32 s).map fun n => make n.toUInt32) := by
  have small (id : α) : (number id).toNat < 2 ^ 32 := (number id).toNat_lt
  apply textual_of (fun n => make n.toUInt32) (by decide) small
  · intro n below
    rw [number_make]
    exact Nat.mod_eq_of_lt below
  · intro id
    rw [Nat.toUInt32, UInt32.ofNat_toNat, make_number]
  · intro s
    rfl
  · intro id
    rw [Numeral.text, String.toList_ofList]
    exact decimalForm_decimal _
  · intro id
    rw [Numeral.text, String.toList_ofList]
    exact spells_decimal _

/-- Identifiers survive their text form, and the readers accept exactly the numerals of their numbers. -/
theorem identifiers_canonical :
    Textual 16 (2 ^ 128) HexForm (fun id => id.number.toNat) AllocationId.text AllocationId.ofText ∧
      Textual 10 (2 ^ 32) DecimalForm (fun id => id.number.toNat) WorkerId.text WorkerId.ofText ∧
      Textual 10 (2 ^ 32) DecimalForm (fun id => id.number.toNat) JobId.text JobId.ofText ∧
      Textual 10 (2 ^ 32) DecimalForm (fun id => id.number.toNat) OwnerId.text OwnerId.ofText ∧
      Textual 10 (2 ^ 32) DecimalForm (fun id => id.number.toNat) ResourceId.text ResourceId.ofText := by
  refine ⟨textual_allocation, ?_, ?_, ?_, ?_⟩
  · exact textual_word WorkerId.number WorkerId.mk (fun _ => rfl) (fun _ => rfl)
  · exact textual_word JobId.number JobId.mk (fun _ => rfl) (fun _ => rfl)
  · exact textual_word OwnerId.number OwnerId.mk (fun _ => rfl) (fun _ => rfl)
  · exact textual_word ResourceId.number ResourceId.mk (fun _ => rfl) (fun _ => rfl)

end SlotControl
