import SlotControl.Numeral

/-!
Amounts of one resource: whole units and four decimal places, held as a 64-bit count of
ten-thousandths.
-/

namespace SlotControl

/-- An amount of one resource, counted in ten-thousandths of a unit. -/
structure Amount where
  parts : Nat
  parts_lt : parts < 18446744073709551616
  deriving DecidableEq, Hashable

namespace Amount

/-- The ten-thousandths in a unit. -/
def partsPerUnit : Nat := 10000

/-- The decimal places of an amount. -/
def places : Nat := 4

/-- The amount of so many ten-thousandths, unless they are too many. -/
def ofParts? (n : Nat) : Option Amount := if h : n < 18446744073709551616 then some ⟨n, h⟩ else none

/-- Nothing. -/
def zero : Amount := ⟨0, by decide⟩

instance : Inhabited Amount := ⟨zero⟩

/-- The amount of so many whole units. -/
def ofUnits (units : UInt32) : Amount :=
  ⟨units.toNat * partsPerUnit, by have := units.toNat_lt; simp only [partsPerUnit]; omega⟩

/-- The amount of whole units and ten-thousandths, unless the latter make up a unit. -/
def ofUnits? (units parts : UInt32) : Option Amount :=
  if h : parts.toNat < partsPerUnit then
    some ⟨units.toNat * partsPerUnit + parts.toNat, by
      have := units.toNat_lt; simp only [partsPerUnit] at *; omega⟩
  else none

instance : Ord Amount := ⟨compareOn parts⟩
instance : Std.TransOrd Amount := inferInstanceAs (Std.TransCmp (compareOn parts))
instance : Std.LawfulEqOrd Amount where
  eq_of_compare {a b} equal := by
    have same : a.parts = b.parts := Std.compare_eq_iff_eq.1 equal
    cases a; cases b; simp_all

/-- Nothing at all. -/
def isZero (a : Amount) : Bool := a.parts == 0

/-- The whole units, as far as 32 bits hold them. -/
def units (a : Amount) : Nat := a.parts / partsPerUnit % Numeral.bound32

/-- The ten-thousandths beyond the whole units. -/
def fraction (a : Amount) : Nat := a.parts % partsPerUnit

/-- The sum, unless it is too large. -/
def add? (a b : Amount) : Option Amount := ofParts? (a.parts + b.parts)

/-- The difference, unless it would be negative. -/
def sub? (a b : Amount) : Option Amount :=
  if b.parts ≤ a.parts then some ⟨a.parts - b.parts, by have := a.parts_lt; omega⟩ else none

/-- How often `b` fits into `a`; undefined for nothing. -/
def quotient? (a b : Amount) : Option Nat := if b.isZero then none else some (a.parts / b.parts)

/-- The digits of a fraction of a unit: four, without the zeros at the end. -/
def fractionDigits (fraction : Nat) : List Char :=
  ((Numeral.padded 10 places fraction).reverse.dropWhile (· = '0')).reverse

/-- The amount in decimal, with as many places as it takes. -/
def text (a : Amount) : String :=
  String.ofList <|
    if a.fraction = 0 then Numeral.decimal a.units
    else Numeral.decimal a.units ++ '.' :: fractionDigits a.fraction

end Amount

end SlotControl
