import SlotControl.Numeral

/-!
Text in quotes as JSON writes it: quotes, backslashes and control characters are escaped. A reader
also accepts escapes that are not needed, among them characters written as two halves.
-/

namespace SlotControl.Quoted

/-- A character inside quotes. -/
def escape (c : Char) : List Char :=
  match c with
  | '"' => ['\\', '"']
  | '\\' => ['\\', '\\']
  | '\n' => ['\\', 'n']
  | '\r' => ['\\', 'r']
  | '\t' => ['\\', 't']
  | '\x08' => ['\\', 'b']
  | '\x0c' => ['\\', 'f']
  | c => if c < ' ' then '\\' :: 'u' :: Numeral.padded 16 4 c.toNat else [c]

/-- Characters inside quotes, without the quotes. -/
def escapeAll (cs : List Char) : List Char := cs.flatMap escape

/-- What stands inside quotes: a character, or one half of a character beyond 16 bits. -/
inductive Piece where
  | whole (c : Char)
  | half (code : Nat)
  deriving DecidableEq

/-- What a backslash makes of the character after it. -/
def unescape? (c : Char) : Option Char :=
  match c with
  | '"' => some '"'
  | '\\' => some '\\'
  | '/' => some '/'
  | 'b' => some '\x08'
  | 'f' => some '\x0c'
  | 'n' => some '\n'
  | 'r' => some '\r'
  | 't' => some '\t'
  | _ => none

/-- The value of four hexadecimal digits. -/
def code? (a b c d : Char) : Option Nat :=
  if [a, b, c, d].all fun x => (Numeral.digitValue? 16 x).isSome then
    some (Numeral.value 16 [a, b, c, d])
  else none

/-- The piece that a code of 16 bits stands for. -/
def Piece.ofCode (code : Nat) : Piece :=
  if 0xd800 ≤ code ∧ code ≤ 0xdfff then .half code else .whole (Char.ofNat code)

/-- Splits what stands between quotes into pieces; undefined if an escape is not a valid one. -/
def pieces? : List Char → Option (List Piece)
  | [] => some []
  | '\\' :: 'u' :: a :: b :: c :: d :: rest => do
    let code ← code? a b c d
    return .ofCode code :: (← pieces? rest)
  | '\\' :: c :: rest => do
    let plain ← unescape? c
    return .whole plain :: (← pieces? rest)
  | '\\' :: [] => none
  | c :: rest => do return .whole c :: (← pieces? rest)

/-- Puts halves together; undefined if a half stands without its other half. -/
def join? : List Piece → Option (List Char)
  | [] => some []
  | .whole c :: rest => (join? rest).map (c :: ·)
  | .half high :: .half low :: rest =>
    if high ≤ 0xdbff ∧ 0xdc00 ≤ low then
      (join? rest).map (Char.ofNat (0x10000 + (high - 0xd800) * 0x400 + (low - 0xdc00)) :: ·)
    else none
  | .half _ :: _ => none

end SlotControl.Quoted
