import Mathlib.Data.Nat.Digits.Defs
import SlotControl.Numeral

/-!
Digits stand for the number that they were made of, and the reader takes exactly the numerals. Main statements:
`value_decimal` for the digits of a number without leading zeros, `value_padded` for a fixed count of digits, and
`read_eq_ok_iff` for the texts that are read.
-/

namespace SlotControl.Numeral

variable {base bound n d : Nat}

/-! ## Single digits -/

/-- A digit of a smaller base is one of base sixteen as well. -/
private theorem digitValue?_eq_some_iff_of_le (known : base ≤ 16) {c : Char} :
    digitValue? base c = some d ↔ digitValue? 16 c = some d ∧ d < base := by
  simp only [digitValue?, Option.filter_eq_some_iff, decide_eq_true_iff]
  constructor
  · rintro ⟨found, small⟩
    exact ⟨⟨found, by omega⟩, small⟩
  · rintro ⟨⟨found, -⟩, small⟩
    exact ⟨found, small⟩

private theorem digit_values : ∀ d < 16, digitValue? 16 (digit d) = some d := by
  decide

theorem digitValue?_digit (small : d < base) (known : base ≤ 16) : digitValue? base (digit d) = some d :=
  (digitValue?_eq_some_iff_of_le known).2 ⟨digit_values d (by omega), small⟩

theorem isDigit_digit (small : d < 10) : isDigit (digit d) = true := by
  revert d
  decide

theorem digit_eq_zero_iff (small : d < 10) : digit d = '0' ↔ d = 0 := by
  revert d
  decide

/-! ## Many digits -/

/-- One more digit at the end. -/
theorem value_concat (cs : List Char) (small : d < base) (known : base ≤ 16) :
    value base (cs ++ [digit d]) = value base cs * base + d := by
  rw [value, List.foldl_append, List.foldl_cons, List.foldl_nil, digitValue?_digit small known]
  rfl

theorem value_decimal (n : Nat) : value 10 (decimal n) = n := by
  induction n using Nat.strongRecOn with
  | ind n ih =>
    rw [decimal]
    split
    · next small => simpa [value] using value_concat [] small (by decide)
    · rw [value_concat _ (by omega) (by decide), ih (n / 10) (by omega)]
      omega

theorem text_injective {m n : Nat} (same : text m = text n) : m = n := by
  have digits : decimal m = decimal n := String.ofList_inj.1 same
  rw [← value_decimal m, digits, value_decimal]

theorem digit_of_mem_decimal {c : Char} (inside : c ∈ decimal n) : ∃ d < 10, c = digit d := by
  induction n using Nat.strongRecOn with
  | ind n ih =>
    rw [decimal] at inside
    split at inside
    · next small => exact ⟨n, small, List.mem_singleton.1 inside⟩
    · rcases List.mem_append.1 inside with earlier | last
      · exact ih (n / 10) (by omega) earlier
      · exact ⟨n % 10, by omega, List.mem_singleton.1 last⟩

theorem isDigit_decimal (n : Nat) : ∀ c ∈ decimal n, isDigit c = true := by
  intro c inside
  obtain ⟨d, small, rfl⟩ := digit_of_mem_decimal inside
  exact isDigit_digit small

theorem decimal_ne_nil (n : Nat) : decimal n ≠ [] := by
  rw [decimal]
  split <;> simp

/-- Only the number zero begins with a zero. -/
theorem head_decimal (n : Nat) : decimal n = ['0'] ∨ (decimal n).head? ≠ some '0' := by
  induction n using Nat.strongRecOn with
  | ind n ih =>
    rw [decimal]
    split
    · next small =>
      by_cases zero : n = 0
      · exact .inl (by rw [(digit_eq_zero_iff small).2 zero])
      · exact .inr (by simpa [digit_eq_zero_iff small] using zero)
    · next large =>
      refine .inr ?_
      rcases ih (n / 10) (by omega) with zero | nonzero
      · have none_left := value_decimal (n / 10)
        rw [zero] at none_left
        have : n / 10 = 0 := none_left.symm
        omega
      · obtain ⟨first, more, split⟩ := List.exists_cons_of_ne_nil (decimal_ne_nil (n / 10))
        rwa [split] at nonzero ⊢

theorem digit_of_mem_padded {width : Nat} {c : Char} (positive : 0 < base) (inside : c ∈ padded base width n) :
    ∃ d < base, c = digit d := by
  induction width generalizing n with
  | zero => cases inside
  | succ width ih =>
    rcases List.mem_append.1 inside with earlier | last
    · exact ih earlier
    · exact ⟨n % base, Nat.mod_lt _ positive, List.mem_singleton.1 last⟩

theorem value_padded (known : base ≤ 16) (positive : 0 < base) (width n : Nat) :
    value base (padded base width n) = n % base ^ width := by
  induction width generalizing n with
  | zero => rw [pow_zero, Nat.mod_one]; rfl
  | succ width ih =>
    rw [padded, value_concat _ (Nat.mod_lt _ positive) known, ih, pow_succ', Nat.mod_mul]
    ring

/-! ## Numerals

What a text stands for, told apart from the reader: digits, the first one the most significant, and perhaps a
plus sign before them. -/

/-- The character is the digit of a value in the base, in lower or in upper case. -/
def Digit (base : Nat) (c : Char) (d : Nat) : Prop :=
  d < base ∧ ("0123456789abcdef".toList[d]? = some c ∨ "0123456789ABCDEF".toList[d]? = some c)

/-- One or more digits of the base, the first one the most significant. -/
def Spells (base : Nat) (digits : List Char) (n : Nat) : Prop :=
  digits ≠ [] ∧ ∃ values, List.Forall₂ (Digit base) digits values ∧ Nat.ofDigits base values.reverse = n

/-- The text is a numeral of the number. -/
def Denotes (base : Nat) (cs : List Char) (n : Nat) : Prop :=
  ∃ digits, (cs = digits ∨ cs = '+' :: digits) ∧ Spells base digits n

private theorem listed_values : ∀ d < 16, "0123456789abcdef".toList[d]?.bind (digitValue? 16) = some d ∧
    "0123456789ABCDEF".toList[d]?.bind (digitValue? 16) = some d := by
  decide

private theorem listed_codes : (∀ d < 10, "0123456789abcdef".toList[d]? = some (Char.ofNat (48 + d))) ∧
    (∀ d < 6, "0123456789abcdef".toList[10 + d]? = some (Char.ofNat (97 + d))) ∧
    (∀ d < 6, "0123456789ABCDEF".toList[10 + d]? = some (Char.ofNat (65 + d))) := by
  decide

private theorem toNat_le {c other : Char} (below : c ≤ other) : c.toNat ≤ other.toNat := below

/-- The reader takes a character for a digit of the base exactly when it is one. -/
theorem digitValue?_eq_some_iff (known : base ≤ 16) {c : Char} : digitValue? base c = some d ↔ Digit base c d := by
  rw [digitValue?_eq_some_iff_of_le known]
  constructor
  · rintro ⟨found, small⟩
    refine ⟨small, ?_⟩
    obtain ⟨found, -⟩ := Option.filter_eq_some_iff.1 found
    obtain ⟨decimals, lower, upper⟩ := listed_codes
    split at found
    · next range =>
      have first : 48 ≤ c.toNat := toNat_le range.1
      have last : c.toNat ≤ 57 := toNat_le range.2
      have at_d : d = c.toNat - 48 := (Option.some.inj found).symm
      have named := decimals (c.toNat - 48) (by omega)
      rw [Nat.add_sub_cancel' first, Char.ofNat_toNat] at named
      exact .inl (at_d ▸ named)
    · split at found
      · next range =>
        have first : 97 ≤ c.toNat := toNat_le range.1
        have at_d : d = c.toNat - 97 + 10 := (Option.some.inj found).symm
        have named := lower (c.toNat - 97) (by omega)
        rw [Nat.add_sub_cancel' first, Char.ofNat_toNat, Nat.add_comm] at named
        exact .inl (at_d ▸ named)
      · split at found
        · next range =>
          have first : 65 ≤ c.toNat := toNat_le range.1
          have at_d : d = c.toNat - 65 + 10 := (Option.some.inj found).symm
          have named := upper (c.toNat - 65) (by omega)
          rw [Nat.add_sub_cancel' first, Char.ofNat_toNat, Nat.add_comm] at named
          exact .inr (at_d ▸ named)
        · cases found
  · rintro ⟨small, listed⟩
    refine ⟨?_, small⟩
    obtain ⟨lowers, uppers⟩ := listed_values d (by omega)
    rcases listed with lower | upper
    · rwa [lower] at lowers
    · rwa [upper] at uppers

theorem digit_isDigit (small : d < base) (known : base ≤ 16) : Digit base (digit d) d :=
  (digitValue?_eq_some_iff known).1 (digitValue?_digit small known)

/-- The sign is no digit, so that a text is a numeral in one way only. -/
private theorem not_digit_plus (known : base ≤ 16) : ¬ Digit base '+' d := by
  rw [← digitValue?_eq_some_iff known]
  intro found
  simp [digitValue?] at found

/-- Digits spell what the fold makes of them. -/
private theorem ofDigits_reverse (values : List Nat) :
    Nat.ofDigits base values.reverse = values.foldl (fun n d => n * base + d) 0 := by
  rw [Nat.ofDigits_eq_foldr, List.foldr_reverse]
  congr 1
  funext n d
  simp only [Nat.cast_id]
  ring

/-- Later digits do not make a number smaller. -/
private theorem le_foldl (positive : 0 < base) (values : List Nat) (start : Nat) :
    start ≤ values.foldl (fun n d => n * base + d) start := by
  induction values generalizing start with
  | nil => exact Nat.le_refl start
  | cons d rest ih =>
    have larger : start ≤ start * base := Nat.le_mul_of_pos_right start positive
    exact Nat.le_trans (by omega) (ih (start * base + d))

/-- The reader goes through digits up to a number below the bound, and through nothing else. Each number on the
    way lies below the last one, so that the bound decides only once. -/
private theorem foldlM_push_eq_ok_iff (known : base ≤ 16) {digits : List Char} {start : Nat}
    (below : start < bound) : digits.foldlM (push base bound) start = .ok n ↔
      n < bound ∧ ∃ values, List.Forall₂ (Digit base) digits values ∧
        values.foldl (fun n d => n * base + d) start = n := by
  induction digits generalizing start with
  | nil =>
    constructor
    · intro read
      obtain rfl : start = n := by simpa [pure, Except.pure] using read
      exact ⟨below, [], .nil, rfl⟩
    · rintro ⟨-, values, matching, rfl⟩
      cases matching
      rfl
  | cons c rest ih =>
    rw [List.foldlM_cons]
    constructor
    · intro read
      cases found : digitValue? base c with
      | none => simp [push, found, bind, Except.bind] at read
      | some d =>
        by_cases fits : start * base + d < bound
        · rw [push, found] at read
          simp only [fits, ↓reduceIte] at read
          obtain ⟨small, values, matching, total⟩ := (ih fits).1 read
          exact ⟨small, d :: values, .cons ((digitValue?_eq_some_iff known).1 found) matching, total⟩
        · simp [push, found, fits, bind, Except.bind] at read
    · rintro ⟨small, values, matching, total⟩
      cases matching with
      | @cons _ d _ values first matching =>
        have positive : 0 < base := Nat.lt_of_le_of_lt (Nat.zero_le d) first.1
        have fits : start * base + d < bound :=
          Nat.lt_of_le_of_lt (total ▸ le_foldl positive values (start * base + d)) small
        rw [push, (digitValue?_eq_some_iff known).2 first]
        simp only [fits, ↓reduceIte]
        exact (ih fits).2 ⟨small, values, matching, total⟩

private theorem spells_iff {digits : List Char} : Spells base digits n ↔ digits ≠ [] ∧
    ∃ values, List.Forall₂ (Digit base) digits values ∧ values.foldl (fun n d => n * base + d) 0 = n := by
  simp only [Spells, ofDigits_reverse]

/-- All of the text but one sign is what the reader takes for the digits. -/
private theorem denotes_iff (known : base ≤ 16) {cs : List Char} (some_left : cs ≠ []) :
    Denotes base cs n ↔ Spells base (unsigned cs) n := by
  have signed (rest : List Char) : ¬ Spells base ('+' :: rest) n := by
    rintro ⟨-, values, matching, -⟩
    cases matching with
    | cons first _ => exact not_digit_plus known first
  constructor
  · rintro ⟨digits, rfl | rfl, spelled⟩
    · unfold unsigned
      split
      · exact absurd spelled (signed _)
      · exact spelled
    · obtain ⟨c, rest, rfl⟩ := List.exists_cons_of_ne_nil spelled.1
      exact spelled
  · intro spelled
    unfold unsigned at spelled
    split at spelled
    · exact ⟨_, .inr rfl, spelled⟩
    · exact ⟨_, .inl rfl, spelled⟩

private theorem unsigned_ne_nil {cs : List Char} (some_left : cs ≠ []) : unsigned cs ≠ [] := by
  unfold unsigned
  split
  · exact List.cons_ne_nil _ _
  · exact some_left

/-- Exact acceptance: the reader answers with a number exactly when the text is its numeral and it lies below the
    bound. -/
theorem read_eq_ok_iff (known : base ≤ 16) (positive : 0 < bound) {cs : List Char} :
    read base bound cs = .ok n ↔ Denotes base cs n ∧ n < bound := by
  by_cases empty : cs = []
  · subst empty
    constructor
    · intro read
      cases read
    · rintro ⟨⟨digits, same | same, spelled⟩, -⟩
      · exact absurd same.symm spelled.1
      · cases same
  · have entered : read base bound cs = (unsigned cs).foldlM (push base bound) 0 :=
      if_neg (by simpa using empty)
    rw [entered, foldlM_push_eq_ok_iff known positive, denotes_iff known empty, spells_iff]
    constructor
    · rintro ⟨small, spelled⟩
      exact ⟨⟨unsigned_ne_nil empty, spelled⟩, small⟩
    · rintro ⟨⟨-, spelled⟩, small⟩
      exact ⟨small, spelled⟩

/-! ### Written numerals -/

/-- Digits that were written spell the number that they stand for. -/
theorem spells_of_digits (known : base ≤ 16) {digits : List Char} (some_left : digits ≠ [])
    (written : ∀ c ∈ digits, ∃ d < base, c = digit d) : Spells base digits (value base digits) := by
  have spelled (start : Nat) : ∃ values, List.Forall₂ (Digit base) digits values ∧
      values.foldl (fun n d => n * base + d) start =
        digits.foldl (fun n c => n * base + (digitValue? base c).getD 0) start := by
    clear some_left
    induction digits generalizing start with
    | nil => exact ⟨[], .nil, rfl⟩
    | cons c rest ih =>
      obtain ⟨d, small, rfl⟩ := written c List.mem_cons_self
      obtain ⟨values, matching, total⟩ :=
        ih (fun c later => written c (List.mem_cons_of_mem _ later)) (start * base + d)
      refine ⟨d :: values, .cons (digit_isDigit small known) matching, ?_⟩
      rw [List.foldl_cons, List.foldl_cons, digitValue?_digit small known, Option.getD_some, total]
  exact spells_iff.2 ⟨some_left, spelled 0⟩

theorem spells_decimal (n : Nat) : Spells 10 (decimal n) n := by
  have spelled := spells_of_digits (by decide) (decimal_ne_nil n) fun c inside => digit_of_mem_decimal inside
  rwa [value_decimal] at spelled

theorem length_padded (base width n : Nat) : (padded base width n).length = width := by
  induction width generalizing n with
  | zero => rfl
  | succ width ih => rw [padded, List.length_append, ih, List.length_singleton]

theorem spells_padded (known : base ≤ 16) {width : Nat} (wide : 0 < width) (small : n < base ^ width) :
    Spells base (padded base width n) n := by
  have positive : 0 < base := by
    by_contra none_left
    rw [Nat.eq_zero_of_not_pos none_left, Nat.zero_pow wide] at small
    cases small
  have some_left : padded base width n ≠ [] := by
    rw [← List.length_pos_iff, length_padded]
    exact wide
  have spelled := spells_of_digits known some_left fun c inside => digit_of_mem_padded positive inside
  rwa [value_padded known positive, Nat.mod_eq_of_lt small] at spelled

/-- A text is the numeral of one number only. -/
theorem Denotes.unique (known : base ≤ 16) {cs : List Char} {m : Nat} (one : Denotes base cs m)
    (other : Denotes base cs n) : m = n := by
  have positive : 0 < m + n + 1 := by omega
  have first := (read_eq_ok_iff known positive).2 ⟨one, by omega⟩
  have second := (read_eq_ok_iff known positive).2 ⟨other, by omega⟩
  exact Except.ok.inj (first.symm.trans second)

end SlotControl.Numeral
