/-!
Numbers in positional notation: the digits of a number in a base, a form of fixed width, and a
reader that refuses what is no numeral or too large.
-/

namespace SlotControl.Numeral

/-- The numbers of 32 bits lie below this bound. -/
def bound32 : Nat := 4294967296

/-- The numbers of 64 bits lie below this bound. -/
def bound64 : Nat := 18446744073709551616

/-- The numbers of 128 bits lie below this bound. -/
def bound128 : Nat := 340282366920938463463374607431768211456

/-- The digit of a value below sixteen, in lower case. -/
def digit (value : Nat) : Char :=
  if value < 10 then Char.ofNat ('0'.toNat + value) else Char.ofNat ('a'.toNat + (value - 10))

/-- The value of a digit of the base, in either case; letters continue after nine. -/
def digitValue? (base : Nat) (c : Char) : Option Nat :=
  let value? :=
    if '0' ≤ c ∧ c ≤ '9' then some (c.toNat - '0'.toNat)
    else if 'a' ≤ c ∧ c ≤ 'z' then some (c.toNat - 'a'.toNat + 10)
    else if 'A' ≤ c ∧ c ≤ 'Z' then some (c.toNat - 'A'.toNat + 10)
    else none
  value?.filter (· < base)

/-- Exactly `width` digits of a number in a base: its last ones, filled up with zeros in front. -/
def padded (base : Nat) : Nat → Nat → List Char
  | 0, _ => []
  | width + 1, n => padded base width (n / base) ++ [digit (n % base)]

/-- The decimal digits of a number, without leading zeros. -/
def decimal (n : Nat) : List Char :=
  if n < 10 then [digit n] else decimal (n / 10) ++ [digit (n % 10)]
termination_by n
decreasing_by omega

/-- The decimal text of a number. -/
def text (n : Nat) : String := String.ofList (decimal n)

/-- The character is a decimal digit. -/
def isDigit (c : Char) : Bool := '0' ≤ c && c ≤ '9'

/-- The number that digits of the base stand for; other characters count as nothing. -/
def value (base : Nat) (cs : List Char) : Nat :=
  cs.foldl (fun n c => n * base + (digitValue? base c).getD 0) 0

/-- Why a text is not the numeral of a number below the bound. -/
inductive Fault where
  /-- There is no character at all. -/
  | empty
  /-- Some character is not a digit of the base. -/
  | invalidDigit
  /-- The number reaches the bound. -/
  | tooLarge
  deriving DecidableEq, Repr

/-- What the reader says about a fault. -/
def Fault.message : Fault → String
  | .empty => "cannot parse integer from empty string"
  | .invalidDigit => "invalid digit found in string"
  | .tooLarge => "number too large to fit in target type"

/-- Appends one digit to a number that stays below the bound. -/
def push (base bound value : Nat) (c : Char) : Except Fault Nat :=
  match digitValue? base c with
  | none => .error .invalidDigit
  | some d => if value * base + d < bound then .ok (value * base + d) else .error .tooLarge

/-- The digits of a numeral: all of the text but one leading plus sign. A sign alone is left over,
    and is no digit. -/
def unsigned : List Char → List Char
  | '+' :: c :: rest => c :: rest
  | cs => cs

/-- Reads a number below the bound: an optional plus sign and one or more digits, leading zeros
    included. The first character that does not fit decides the fault. -/
def read (base bound : Nat) (cs : List Char) : Except Fault Nat :=
  if cs.isEmpty then .error .empty else (unsigned cs).foldlM (push base bound) 0

/-- Reads a decimal number below the bound. -/
def readText (bound : Nat) (s : String) : Except Fault Nat := read 10 bound s.toList

end SlotControl.Numeral
