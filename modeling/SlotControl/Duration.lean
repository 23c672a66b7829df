import SlotControl.Numeral

/-!
Spans of time with a resolution of one nanosecond, bounded by 64-bit seconds, and their text in the
largest unit that is not zero.
-/

namespace SlotControl

/-- A span of time in nanoseconds; its whole seconds fit into 64 bits. -/
structure Duration where
  nanoseconds : Nat
  nanoseconds_lt : nanoseconds < 18446744073709551616000000000
  deriving DecidableEq

namespace Duration

/-- The nanoseconds in a second. -/
def perSecond : Nat := 1000000000

/-- The nanoseconds in a millisecond. -/
def perMillisecond : Nat := 1000000

/-- The nanoseconds in a microsecond. -/
def perMicrosecond : Nat := 1000

/-- The span of so many nanoseconds, unless it is too long. -/
def ofNanoseconds? (n : Nat) : Option Duration :=
  if h : n < 18446744073709551616000000000 then some ⟨n, h⟩ else none

/-- The span of so many milliseconds, unless it is too long. -/
def ofMilliseconds? (n : Nat) : Option Duration := ofNanoseconds? (n * perMillisecond)

/-- The empty span. -/
def zero : Duration := ⟨0, by decide⟩

instance : Inhabited Duration := ⟨zero⟩

/-- The whole seconds of a span. -/
def seconds (d : Duration) : Nat := d.nanoseconds / perSecond

/-- The nanoseconds of a span beyond its whole seconds. -/
def subsecond (d : Duration) : Nat := d.nanoseconds % perSecond

/-- The sum of two spans, unless it is too long. -/
def add? (a b : Duration) : Option Duration := ofNanoseconds? (a.nanoseconds + b.nanoseconds)

/-- The least number of whole milliseconds that is no shorter than the span. -/
def ceilMilliseconds (d : Duration) : Nat := (d.nanoseconds + 999999) / perMillisecond

/-- Removes zeros at the end. -/
def dropTrailingZeros (cs : List Char) : List Char := (cs.reverse.dropWhile (· = '0')).reverse

/-- A whole number and a fraction of `places` digits whose trailing zeros are left out, with no
    point if nothing remains. -/
def fixedPoint (whole places fraction : Nat) : List Char :=
  match dropTrailingZeros (Numeral.padded 10 places fraction) with
  | [] => Numeral.decimal whole
  | digits => Numeral.decimal whole ++ '.' :: digits

/-- The text of a span: in seconds, milliseconds, microseconds or nanoseconds, whichever is the
    largest unit with a whole part, and with as many digits after the point as it takes. -/
def text (d : Duration) : String :=
  let n := d.nanoseconds
  if perSecond ≤ n then String.ofList (fixedPoint (n / perSecond) 9 (n % perSecond)) ++ "s"
  else if perMillisecond ≤ n then
    String.ofList (fixedPoint (n / perMillisecond) 6 (n % perMillisecond)) ++ "ms"
  else if perMicrosecond ≤ n then
    String.ofList (fixedPoint (n / perMicrosecond) 3 (n % perMicrosecond)) ++ "µs"
  else Numeral.text n ++ "ns"

end Duration

end SlotControl
