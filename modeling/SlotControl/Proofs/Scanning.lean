import Mathlib.Data.List.TakeDrop
import SlotControl.Json.Value
import SlotControl.Proofs.Numerals

/-!
The scanner finds the tokens that a text was written from. Numbers and words end only where something else
begins, so what has been read so far is told by the scanner's next step and not by its mode. Main statements:
`reads_scalar`, `reads_mark` and `reads_blank`, one for each kind of thing that stands in a text; `Reads.append`
and `Reads.flatMap` put them together.
-/

namespace SlotControl

/-! ## Text in quotes -/

namespace Quoted

/-- The character stands for itself inside quotes. -/
def Bare (c : Char) : Prop := ¬c < ' ' ∧ c ≠ '"' ∧ c ≠ '\\'

instance (c : Char) : Decidable (Bare c) := inferInstanceAs (Decidable (¬c < ' ' ∧ c ≠ '"' ∧ c ≠ '\\'))

/-- The ways in which a character is written inside quotes. -/
inductive Written (c : Char) : List Char → Prop
  | bare (bare : Bare c) : Written c [c]
  | short {letter : Char} (unescapes : unescape? letter = some c) : Written c ['\\', letter]
  | code (control : c < ' ') : Written c ('\\' :: 'u' :: Numeral.padded 16 4 c.toNat)

theorem written_escape (c : Char) : Written c (escape c) := by
  fun_cases escape c
  case case8 control => exact .code control
  case case9 quote backslash _ _ _ _ _ visible => exact .bare ⟨visible, quote, backslash⟩
  all_goals exact .short rfl

private theorem toNat_of_control {c : Char} (control : c < ' ') : c.toNat < 32 := by
  have below : c.val < ' '.val := control
  exact below

/-- Escaped text splits into its characters. -/
theorem pieces?_escapeAll (cs : List Char) : pieces? (escapeAll cs) = some (cs.map .whole) := by
  induction cs with
  | nil => rfl
  | cons c rest ih =>
    rw [escapeAll, List.flatMap_cons, ← escapeAll, List.map_cons]
    have written := written_escape c
    generalize escape c = spelled at written
    cases written with
    | bare bare =>
      rw [List.singleton_append, pieces?.eq_5 _ _ (fun _ _ _ _ _ same => absurd same bare.2.2)
        (fun _ _ same => absurd same bare.2.2) (fun same => absurd same bare.2.2), ih]
      rfl
    | @short letter unescapes =>
      have other : letter ≠ 'u' := fun same => by rw [same] at unescapes; cases unescapes
      rw [List.cons_append, List.singleton_append, pieces?.eq_3 _ _ (fun _ _ _ _ _ same => absurd same other),
        unescapes, ih]
      rfl
    | code control =>
      have small := toNat_of_control control
      have value : Numeral.value 16 (Numeral.padded 16 4 c.toNat) = c.toNat := by
        rw [Numeral.value_padded (by decide) (by decide), Nat.mod_eq_of_lt (by omega)]
      have code : ∀ a b x d, Numeral.padded 16 4 c.toNat = [a, b, x, d] → code? a b x d = some c.toNat := by
        intro a b x d spelled
        rw [code?, ← spelled, if_pos, value]
        simp [Numeral.padded, Numeral.digitValue?_digit, Nat.mod_lt]
      rw [List.cons_append, List.cons_append]
      show pieces? ('\\' :: 'u' :: _ :: _ :: _ :: _ :: escapeAll rest) = _
      rw [pieces?.eq_2, code _ _ _ _ rfl, ih]
      have whole : Piece.ofCode c.toNat = .whole c := by
        rw [Piece.ofCode, if_neg (by omega), Char.ofNat_toNat]
      simp [whole]

theorem join?_whole (cs : List Char) : join? (cs.map .whole) = some cs := by
  induction cs with
  | nil => rfl
  | cons c rest ih => rw [List.map_cons, join?, ih, Option.map_some]

end Quoted

namespace Token

/-! ## Values without parts -/

/-- Escaped text is read back. -/
theorem quoted?_escapeAll (s : String) : quoted? (Quoted.escapeAll s.toList) = some (.text s) := by
  rw [quoted?, Quoted.pieces?_escapeAll]
  simp [Quoted.join?_whole]

/-- Digits end where a character comes that is none. -/
private theorem digits?_of_digits {cs : List Char} (nonempty : cs ≠ [])
    (digits : ∀ c ∈ cs, Numeral.isDigit c = true) : digits? cs = some (cs, []) := by
  have taken : (cs ++ []).takeWhile Numeral.isDigit = cs ++ [] := List.takeWhile_append_of_pos digits
  have left : (cs ++ []).dropWhile Numeral.isDigit = [] := List.dropWhile_append_of_pos digits
  rw [List.append_nil] at taken left
  rw [digits?, List.span_eq_takeWhile_dropWhile, taken, left]
  cases cs with
  | nil => exact absurd rfl nonempty
  | cons => simp

theorem number?_decimal (n : Nat) : number? (Numeral.decimal n) = some (.natural n) := by
  have digits := digits?_of_digits (Numeral.decimal_ne_nil n) (Numeral.isDigit_decimal n)
  have value := Numeral.value_decimal n
  have head := Numeral.head_decimal n
  have unsigned : ∀ rest, Numeral.decimal n ≠ '-' :: rest := fun rest signed => by
    have digit := Numeral.isDigit_decimal n '-' (by simp [signed])
    cases digit
  rw [number?.eq_2 _ unsigned, digits]
  simp [head, value, skipFraction?, skipExponent?]

/-! ## Reading -/

namespace Scanner

/-- The scanner stands between two tokens, behind those that have been read. -/
def Between (tokens : List Token) (scanner : Scanner) : Prop := scanner = ⟨tokens, .between⟩

/-- The scanner has read the tokens, but may not have finished the last one: a number or a word ends with what
    follows. -/
structure Behind (tokens : List Token) (scanner : Scanner) : Prop where
  finish : scanner.finish? = some tokens.reverse
  step : ∀ c, isNumeral c = false → isLetter c = false → scanner.step c = openWith tokens c

theorem Between.behind {tokens : List Token} {scanner : Scanner} (between : Between tokens scanner) :
    Behind tokens scanner := by
  rw [between]
  exact ⟨rfl, fun _ _ _ => rfl⟩

/-- Characters take a scanner that stands behind some tokens to one that stands behind more. -/
def Reads (before : List Token → Scanner → Prop) (cs : List Char) (tokens : List Token)
    (after : List Token → Scanner → Prop) : Prop :=
  ∀ earlier scanner, before earlier scanner →
    ∃ next, cs.foldlM step scanner = some next ∧ after (tokens.reverse ++ earlier) next

namespace Reads

variable {before between after : List Token → Scanner → Prop} {cs ds : List Char} {tokens others : List Token}

theorem nil : Reads before [] [] before := fun _ scanner here => ⟨scanner, rfl, here⟩

theorem append (first : Reads before cs tokens between) (second : Reads between ds others after) :
    Reads before (cs ++ ds) (tokens ++ others) after := by
  intro earlier scanner here
  obtain ⟨middle, read, there⟩ := first earlier scanner here
  obtain ⟨next, read', there'⟩ := second _ middle there
  refine ⟨next, ?_, ?_⟩
  · rw [List.foldlM_append, read]
    exact read'
  · rwa [List.reverse_append, List.append_assoc]

theorem flatMap {α : Type} {items : List α} {spell : α → List Char} {spelled : α → List Token}
    (each : ∀ item ∈ items, Reads before (spell item) (spelled item) before) :
    Reads before (items.flatMap spell) (items.flatMap spelled) before := by
  induction items with
  | nil => exact .nil
  | cons item rest ih =>
    obtain ⟨now, later⟩ := List.forall_mem_cons.1 each
    exact now.append (ih later)

/-- What can be read behind any token can be read between tokens. -/
theorem of_behind (reads : Reads Behind cs tokens after) : Reads Between cs tokens after :=
  fun earlier scanner here => reads earlier scanner here.behind

theorem behind (reads : Reads before cs tokens Between) : Reads before cs tokens Behind := by
  intro earlier scanner here
  obtain ⟨next, read, there⟩ := reads earlier scanner here
  exact ⟨next, read, there.behind⟩

end Reads

/-! ## Single tokens -/

private theorem mark_char {token : Token} (mark : ∀ v, token ≠ .scalar v) : ∃ c, token.chars = [c] ∧
    isNumeral c = false ∧ isLetter c = false ∧ ∀ earlier, openWith earlier c = some ⟨token :: earlier, .between⟩ := by
  cases token with
  | scalar v => exact absurd rfl (mark v)
  | openArray | closeArray | openObject | closeObject | comma | colon =>
    exact ⟨_, rfl, by decide, by decide, fun _ => rfl⟩

/-- Brackets, commas and colons end whatever is before them. -/
theorem reads_mark (token : Token) (mark : ∀ v, token ≠ .scalar v) : Reads Behind token.chars [token] Between := by
  intro earlier scanner behind
  obtain ⟨c, chars, numeral, letter, opens⟩ := mark_char mark
  refine ⟨⟨token :: earlier, .between⟩, ?_, rfl⟩
  rw [chars, List.foldlM_cons, behind.step c numeral letter, opens]
  rfl

/-- So do blanks, and they are no tokens. -/
theorem reads_blank {c : Char} (blank : isBlank c = true) : Reads Behind [c] [] Between := by
  intro earlier scanner behind
  refine ⟨⟨earlier, .between⟩, ?_, rfl⟩
  have apart : isNumeral c = false ∧ isLetter c = false := by
    simp only [isBlank, Bool.or_eq_true, beq_iff_eq] at blank
    rcases blank with ((rfl | rfl) | rfl) | rfl <;> decide
  rw [List.foldlM_cons, behind.step c apart.1 apart.2, openWith, if_pos blank]
  rfl

/-- While every character goes on with an unfinished token, they pile up. -/
private theorem foldlM_unfinished {earlier : List Token} (unfinished : List Char → Mode) {cs : List Char}
    (goes : ∀ c ∈ cs, ∀ body, step ⟨earlier, unfinished body⟩ c = some ⟨earlier, unfinished (c :: body)⟩)
    (body : List Char) :
    cs.foldlM step ⟨earlier, unfinished body⟩ = some ⟨earlier, unfinished (cs.reverse ++ body)⟩ := by
  induction cs generalizing body with
  | nil => rfl
  | cons c rest ih =>
    obtain ⟨now, later⟩ := List.forall_mem_cons.1 goes
    rw [List.foldlM_cons, now]
    simpa using ih later (c :: body)

theorem reads_natural (n : Nat) : Reads Between (Numeral.decimal n) [.scalar (.natural n)] Behind := by
  rintro earlier _ rfl
  obtain ⟨first, rest, split⟩ := List.exists_cons_of_ne_nil (Numeral.decimal_ne_nil n)
  have digits := Numeral.isDigit_decimal n
  have number := number?_decimal n
  rw [split] at digits number ⊢
  obtain ⟨digit, digits⟩ := List.forall_mem_cons.1 digits
  have opens : openWith earlier first = some ⟨earlier, .numeral [first]⟩ := by
    have apart : isBlank first = false ∧ first ≠ '"' := by
      constructor
      · by_contra blank
        simp only [isBlank, Bool.not_eq_false, Bool.or_eq_true, beq_iff_eq] at blank
        rcases blank with ((rfl | rfl) | rfl) | rfl <;> cases digit
      · rintro rfl
        cases digit
    simp [openWith, apart, digit]
  refine ⟨⟨earlier, .numeral (rest.reverse ++ [first])⟩, ?_, ?_⟩
  · rw [List.foldlM_cons, step, opens]
    exact foldlM_unfinished .numeral (fun c inside body => by simp [step, isNumeral, digits c inside]) [first]
  · have body : (rest.reverse ++ [first]).reverse = first :: rest := by simp
    constructor
    · simp [finish?, body, number, emit]
    · intro c other _
      simp [step, other, body, number, emit]

/-- In quotes every character that is escaped goes on. -/
private theorem foldlM_escapeAll (earlier : List Token) (cs body : List Char) :
    (Quoted.escapeAll cs).foldlM step ⟨earlier, .quoted false body⟩ =
      some ⟨earlier, .quoted false ((Quoted.escapeAll cs).reverse ++ body)⟩ := by
  have bare : ∀ {c : Char}, Quoted.Bare c → ∀ body, step ⟨earlier, .quoted false body⟩ c =
      some ⟨earlier, .quoted false (c :: body)⟩ := by
    rintro c ⟨visible, quote, backslash⟩ body
    simp [step, visible, quote, backslash]
  have letter : ∀ (c : Char) body, ['\\', c].foldlM step ⟨earlier, .quoted false body⟩ =
      some ⟨earlier, .quoted false (c :: '\\' :: body)⟩ := fun _ _ => rfl
  induction cs generalizing body with
  | nil => rfl
  | cons c rest ih =>
    rw [Quoted.escapeAll, List.flatMap_cons, ← Quoted.escapeAll, List.foldlM_append]
    have written := Quoted.written_escape c
    generalize Quoted.escape c = spelled at written
    suffices spelled.foldlM step ⟨earlier, .quoted false body⟩ =
        some ⟨earlier, .quoted false (spelled.reverse ++ body)⟩ by
      rw [this, List.reverse_append, List.append_assoc]
      exact ih _
    cases written with
    | bare plain =>
      rw [List.foldlM_cons, bare plain]
      rfl
    | short => exact letter ..
    | code =>
      have digit : ∀ d < 16, Quoted.Bare (Numeral.digit d) := by decide
      have digits : ∀ c' ∈ Numeral.padded 16 4 c.toNat, Quoted.Bare c' := by
        intro c' inside
        obtain ⟨d, small, rfl⟩ := Numeral.digit_of_mem_padded (by decide) inside
        exact digit d small
      show (['\\', 'u'] ++ Numeral.padded 16 4 c.toNat).foldlM step ⟨earlier, .quoted false body⟩ = _
      rw [List.foldlM_append, letter]
      show (Numeral.padded 16 4 c.toNat).foldlM step ⟨earlier, .quoted false ('u' :: '\\' :: body)⟩ = _
      rw [foldlM_unfinished (.quoted false) fun c' inside => bare (digits c' inside)]
      simp

theorem reads_text (s : String) : Reads Between (JsonScalar.text s).chars [.scalar (.text s)] Between := by
  rintro earlier _ rfl
  have opened : step ⟨earlier, .between⟩ '"' = some ⟨earlier, .quoted false []⟩ := rfl
  have closed : step ⟨earlier, .quoted false (Quoted.escapeAll s.toList).reverse⟩ '"' =
      some ⟨.scalar (.text s) :: earlier, .between⟩ := by
    simp [step, quoted?_escapeAll, emit]
  refine ⟨⟨.scalar (.text s) :: earlier, .between⟩, ?_, rfl⟩
  show ('"' :: (Quoted.escapeAll s.toList ++ ['"'])).foldlM step ⟨earlier, .between⟩ = _
  rw [List.foldlM_cons, opened, Option.bind_eq_bind, Option.bind_some, List.foldlM_append, foldlM_escapeAll,
    List.append_nil, Option.bind_eq_bind, Option.bind_some, List.foldlM_cons,
    closed]
  rfl

end Scanner

end Token

/-- The value is a word, a number that is written with digits alone, or a text. -/
def JsonScalar.Plain : JsonScalar → Prop
  | .null | .boolean _ | .natural _ | .text _ => True
  | .number _ | .unpaired => False

namespace Token.Scanner

theorem reads_scalar {v : JsonScalar} (plain : v.Plain) : Reads Between v.chars [.scalar v] Behind := by
  cases v with
  | natural n => exact reads_natural n
  | text s => exact (reads_text s).behind
  | null =>
    rintro earlier _ rfl
    exact ⟨⟨earlier, .word "llun".toList⟩, rfl, rfl, fun c _ other => by simp [step, other]; rfl⟩
  | boolean value =>
    rintro earlier _ rfl
    cases value with
    | false => exact ⟨⟨earlier, .word "eslaf".toList⟩, rfl, rfl, fun c _ other => by simp [step, other]; rfl⟩
    | true => exact ⟨⟨earlier, .word "eurt".toList⟩, rfl, rfl, fun c _ other => by simp [step, other]; rfl⟩
  | number | unpaired => exact absurd plain id

end Token.Scanner

end SlotControl
