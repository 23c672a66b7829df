import SlotControl.Json.Quoted

/-!
The tokens of JSON text, what they look like, and a scanner that splits a text into them.
-/

namespace SlotControl

/-- A JSON value without parts. -/
inductive JsonScalar where
  | null
  | boolean (value : Bool)
  /-- A number that is written with digits alone. -/
  | natural (value : Nat)
  /-- Any other number, as it is written. -/
  | number (written : String)
  | text (value : String)
  /-- Text with one half of a character, which is no text of ours. -/
  | unpaired
  deriving DecidableEq, Inhabited

/-- A token of JSON text. -/
inductive Token where
  | openArray
  | closeArray
  | openObject
  | closeObject
  | comma
  | colon
  | scalar (value : JsonScalar)
  deriving DecidableEq

/-- How a value without parts is written. -/
def JsonScalar.chars : JsonScalar → List Char
  | .null => "null".toList
  | .boolean true => "true".toList
  | .boolean false => "false".toList
  | .natural n => Numeral.decimal n
  | .number written => written.toList
  | .text s => '"' :: Quoted.escapeAll s.toList ++ ['"']
  | .unpaired => "\"\\ud800\"".toList

namespace Token

/-- How a token is written. -/
def chars : Token → List Char
  | .openArray => ['[']
  | .closeArray => [']']
  | .openObject => ['\x7b']
  | .closeObject => ['\x7d']
  | .comma => [',']
  | .colon => [':']
  | .scalar v => v.chars

/-- Where the scanner stands, with the characters of an unfinished token, the last one first. -/
inductive Mode where
  | between
  | quoted (escaped : Bool) (body : List Char)
  | numeral (body : List Char)
  | word (body : List Char)

/-- The scanner: the finished tokens, the last one first, and the mode. -/
structure Scanner where
  tokens : List Token
  mode : Mode

/-- Nothing scanned yet. -/
def Scanner.start : Scanner := ⟨[], .between⟩

/-- The digits up to the first other character, unless there are none, and what follows. -/
def digits? (cs : List Char) : Option (List Char × List Char) :=
  match cs.span Numeral.isDigit with
  | ([], _) => none
  | split => some split

/-- What follows a fraction, if there is one; undefined if a point stands alone. -/
def skipFraction? : List Char → Option (List Char)
  | '.' :: rest => (digits? rest).map (·.2)
  | rest => some rest

/-- What follows an exponent, if there is one; undefined if its digits are missing. -/
def skipExponent? : List Char → Option (List Char)
  | c :: rest =>
    if c = 'e' ∨ c = 'E' then
      match rest with
      | '+' :: rest | '-' :: rest => (digits? rest).map (·.2)
      | rest => (digits? rest).map (·.2)
    else some (c :: rest)
  | [] => some []

/-- The number that some characters write: an optional minus sign, digits without a leading zero,
    an optional fraction and an optional exponent. -/
def number? (cs : List Char) : Option JsonScalar := do
  let unsigned := match cs with
    | '-' :: rest => rest
    | cs => cs
  let (whole, rest) ← digits? unsigned
  guard (whole = ['0'] ∨ whole.head? ≠ some '0')
  let left ← skipExponent? (← skipFraction? rest)
  guard left.isEmpty
  return if whole = cs then .natural (Numeral.value 10 cs) else .number (String.ofList cs)

/-- The value that a word stands for. -/
def word? (cs : List Char) : Option JsonScalar :=
  if cs = "null".toList then some .null
  else if cs = "true".toList then some (.boolean true)
  else if cs = "false".toList then some (.boolean false)
  else none

/-- The text that some characters between quotes write. -/
def quoted? (cs : List Char) : Option JsonScalar := do
  let pieces ← Quoted.pieces? cs
  return match Quoted.join? pieces with
    | some plain => .text (String.ofList plain)
    | none => .unpaired

/-- The characters that numbers are made of. -/
def isNumeral (c : Char) : Bool := Numeral.isDigit c || c == '-' || c == '+' || c == '.' || c == 'e' || c == 'E'

/-- The letters that words are made of. -/
def isLetter (c : Char) : Bool := 'a' ≤ c && c ≤ 'z'

/-- The characters that may stand between tokens. -/
def isBlank (c : Char) : Bool := c == ' ' || c == '\n' || c == '\t' || c == '\r'

/-- The token that a character is by itself. -/
def single? (c : Char) : Option Token :=
  match c with
  | '[' => some .openArray
  | ']' => some .closeArray
  | '\x7b' => some .openObject
  | '\x7d' => some .closeObject
  | ',' => some .comma
  | ':' => some .colon
  | _ => none

namespace Scanner

/-- Goes on between two tokens with one character. -/
def openWith (tokens : List Token) (c : Char) : Option Scanner :=
  if isBlank c then some ⟨tokens, .between⟩
  else if c = '"' then some ⟨tokens, .quoted false []⟩
  else if Numeral.isDigit c || c == '-' then some ⟨tokens, .numeral [c]⟩
  else if isLetter c then some ⟨tokens, .word [c]⟩
  else (single? c).map fun token => ⟨token :: tokens, .between⟩

/-- Finishes a token. -/
def emit (tokens : List Token) (value : JsonScalar) : List Token := .scalar value :: tokens

/-- Goes on with one character. -/
def step (scanner : Scanner) (c : Char) : Option Scanner :=
  match scanner.mode with
  | .between => openWith scanner.tokens c
  | .quoted true body => some ⟨scanner.tokens, .quoted false (c :: body)⟩
  | .quoted false body =>
    if c = '"' then do return ⟨emit scanner.tokens (← quoted? body.reverse), .between⟩
    else if c < ' ' then none
    else some ⟨scanner.tokens, .quoted (c == '\\') (c :: body)⟩
  | .numeral body =>
    if isNumeral c then some ⟨scanner.tokens, .numeral (c :: body)⟩
    else do openWith (emit scanner.tokens (← number? body.reverse)) c
  | .word body =>
    if isLetter c then some ⟨scanner.tokens, .word (c :: body)⟩
    else do openWith (emit scanner.tokens (← word? body.reverse)) c

/-- The tokens at the end of a text; undefined within quotes. -/
def finish? (scanner : Scanner) : Option (List Token) :=
  match scanner.mode with
  | .between => some scanner.tokens.reverse
  | .quoted .. => none
  | .numeral body => do return (emit scanner.tokens (← number? body.reverse)).reverse
  | .word body => do return (emit scanner.tokens (← word? body.reverse)).reverse

end Scanner

/-- Splits a text into tokens; undefined if something is no token. -/
def scan? (cs : List Char) : Option (List Token) := do
  (← cs.foldlM Scanner.step Scanner.start).finish?

end Token

end SlotControl
