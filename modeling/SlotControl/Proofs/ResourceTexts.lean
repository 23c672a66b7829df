import Mathlib.Data.List.DropRight
import Mathlib.Data.Rat.Floor
import Mathlib.Tactic.FieldSimp
import SlotControl.Proofs.Canonical
import SlotControl.Proofs.Fitting
import SlotControl.Proofs.Numerals

/-!
An amount is written in the shortest decimal notation of its units, and a profile can be told from its text. Main
statement: `resource_texts_faithful`.
-/

namespace SlotControl

namespace Numeral

/-! ## Zeros before and after digits -/

variable {digits others : List Char} {n x y k : Nat}

/-- In base ten a digit has one character only. -/
private theorem eq_digit {c : Char} {d : Nat} (stands : Digit 10 c d) : c = digit d := by
  have rows : ∀ d < 10, "0123456789abcdef".toList[d]? = some (digit d) ∧
      "0123456789ABCDEF".toList[d]? = some (digit d) := by decide
  obtain ⟨small, listed⟩ := stands
  rcases listed with lower | upper
  · exact Option.some.inj (lower.symm.trans (rows d small).1)
  · exact Option.some.inj (upper.symm.trans (rows d small).2)

private theorem values_lt {cs : List Char} {values : List Nat} (matching : List.Forall₂ (Digit 10) cs values) :
    ∀ d ∈ values.reverse, d < 10 := by
  intro d inside
  rw [List.mem_reverse] at inside
  induction matching with
  | nil => cases inside
  | cons first _ ih =>
    rcases List.mem_cons.1 inside with rfl | later
    · exact first.1
    · exact ih later

private theorem eq_map_digit {cs : List Char} {values : List Nat} (matching : List.Forall₂ (Digit 10) cs values) :
    cs = values.map digit := by
  induction matching with
  | nil => rfl
  | cons first _ ih => rw [List.map_cons, ← ih, eq_digit first]

/-- Digits of one length that spell one number are the same. -/
private theorem Spells.ext (one : Spells 10 digits n) (other : Spells 10 others n)
    (same : digits.length = others.length) : digits = others := by
  obtain ⟨-, values, matching, total⟩ := one
  obtain ⟨-, values', matching', total'⟩ := other
  have lengths : values.reverse.length = values'.reverse.length := by
    rw [List.length_reverse, List.length_reverse, ← matching.length_eq, ← matching'.length_eq, same]
  have equal : values.reverse = values'.reverse := Nat.ofDigits_inj_of_len_eq (by decide) lengths
    (values_lt matching) (values_lt matching') (total.trans total'.symm)
  rw [eq_map_digit matching, eq_map_digit matching', List.reverse_injective equal]

private theorem Spells.lt_pow (spelled : Spells 10 digits n) : n < 10 ^ digits.length := by
  obtain ⟨-, values, matching, rfl⟩ := spelled
  rw [matching.length_eq, ← List.length_reverse]
  exact Nat.ofDigits_lt_base_pow_length (by decide) (values_lt matching)

private theorem Spells.unique (one : Spells 10 digits n) (other : Spells 10 digits x) : n = x :=
  Denotes.unique (by decide) ⟨_, .inl rfl, one⟩ ⟨_, .inl rfl, other⟩

private theorem zeros_stand (k : Nat) : List.Forall₂ (Digit 10) (List.replicate k '0') (List.replicate k 0) := by
  induction k with
  | zero => exact .nil
  | succ k ih => exact .cons ⟨by decide, .inl rfl⟩ ih

private theorem Spells.append_zeros (spelled : Spells 10 digits n) (k : Nat) :
    Spells 10 (digits ++ List.replicate k '0') (n * 10 ^ k) := by
  obtain ⟨some_left, values, matching, total⟩ := spelled
  refine ⟨List.append_ne_nil_of_left_ne_nil some_left _, _, List.rel_append matching (zeros_stand k), ?_⟩
  rw [List.reverse_append, Nat.ofDigits_append, total, List.reverse_replicate, Nat.ofDigits_replicate_zero,
    List.length_replicate]
  ring

private theorem Spells.prepend_zeros (spelled : Spells 10 digits n) (k : Nat) :
    Spells 10 (List.replicate k '0' ++ digits) n := by
  obtain ⟨some_left, values, matching, total⟩ := spelled
  refine ⟨List.append_ne_nil_of_right_ne_nil _ some_left, _, List.rel_append (zeros_stand k) matching, ?_⟩
  rw [List.reverse_append, Nat.ofDigits_append, total, List.reverse_replicate, Nat.ofDigits_replicate_zero,
    Nat.mul_zero, Nat.add_zero]

/-- Whoever writes a number in digits writes zeros before its decimal digits, if anything. -/
private theorem leading_zeros (spelled : Spells 10 digits n) : ∃ k, digits = List.replicate k '0' ++ decimal n := by
  by_cases short : digits.length < (decimal n).length
  · -- Then the decimal digits themselves begin with a zero.
    obtain ⟨k, filled⟩ : ∃ k, (decimal n).length = k + 1 + digits.length :=
      ⟨(decimal n).length - digits.length - 1, by omega⟩
    have same : decimal n = List.replicate (k + 1) '0' ++ digits :=
      (spells_decimal n).ext (spelled.prepend_zeros (k + 1)) (by simpa using filled)
    have nonempty := List.length_pos_of_ne_nil spelled.1
    rcases head_decimal n with zero | nonzero
    · rw [zero, List.length_singleton] at short
      omega
    · rw [same, List.replicate_succ] at nonzero
      exact absurd rfl nonzero
  · obtain ⟨k, filled⟩ : ∃ k, digits.length = k + (decimal n).length :=
      ⟨digits.length - (decimal n).length, by omega⟩
    exact ⟨k, spelled.ext ((spells_decimal n).prepend_zeros k) (by simpa using filled)⟩

/-- Whoever writes a fraction in digits writes zeros after the shortest ones, if anything. -/
private theorem trailing_zeros (trimmed : digits.getLast? ≠ some '0') (spelled : Spells 10 digits x)
    (spelled' : Spells 10 others y) (same : x * 10 ^ others.length = y * 10 ^ digits.length) :
    ∃ k, others = digits ++ List.replicate k '0' := by
  by_cases short : others.length < digits.length
  · obtain ⟨k, filled⟩ : ∃ k, digits.length = others.length + (k + 1) :=
      ⟨digits.length - others.length - 1, by omega⟩
    have scaled : x = y * 10 ^ (k + 1) := by
      rw [filled, pow_add, Nat.mul_comm (10 ^ _), ← Nat.mul_assoc] at same
      exact Nat.eq_of_mul_eq_mul_right (Nat.pow_pos (by decide)) same
    have ended : digits = others ++ List.replicate (k + 1) '0' :=
      spelled.ext (scaled ▸ spelled'.append_zeros (k + 1)) (by simpa using filled)
    rw [ended, List.replicate_succ', ← List.append_assoc, List.getLast?_concat] at trimmed
    exact absurd rfl trimmed
  · obtain ⟨k, filled⟩ : ∃ k, others.length = digits.length + k := ⟨others.length - digits.length, by omega⟩
    have scaled : y = x * 10 ^ k := by
      rw [filled, pow_add, Nat.mul_comm (10 ^ _), ← Nat.mul_assoc] at same
      exact (Nat.eq_of_mul_eq_mul_right (Nat.pow_pos (by decide)) same).symm
    exact ⟨k, spelled'.ext (scaled ▸ spelled.append_zeros k) (by simpa using filled)⟩

/-! ## Decimal notation -/

/-- The text is a decimal notation of the number: one or more digits, and perhaps a point with one or more places
    after it. -/
inductive Decimal : List Char → ℚ → Prop
  | whole {digits : List Char} {n : Nat} (spelled : Spells 10 digits n) : Decimal digits n
  | fractional {digits places : List Char} {n x : Nat} (spelled : Spells 10 digits n)
      (spelled' : Spells 10 places x) : Decimal (digits ++ '.' :: places) (n + x / 10 ^ places.length)

/-- The whole part of a number with places is the whole number before it. -/
private theorem whole_part {m n j k : Nat} (small : x < 10 ^ j) (small' : y < 10 ^ k)
    (same : (m + x / 10 ^ j : ℚ) = n + y / 10 ^ k) : m = n ∧ x * 10 ^ k = y * 10 ^ j := by
  have below {z i : Nat} (less : z < 10 ^ i) : 0 ≤ (z / 10 ^ i : ℚ) ∧ (z / 10 ^ i : ℚ) < 1 := by
    refine ⟨by positivity, ?_⟩
    rw [div_lt_one (by positivity)]
    exact_mod_cast less
  have whole : m = n := by
    obtain ⟨positive, less⟩ := below small
    obtain ⟨positive', less'⟩ := below small'
    have lower : (m : ℚ) < n + 1 := by linarith
    have upper : (n : ℚ) < m + 1 := by linarith
    have lower' : m < n + 1 := by exact_mod_cast lower
    have upper' : n < m + 1 := by exact_mod_cast upper
    omega
  subst whole
  refine ⟨rfl, ?_⟩
  have fractions : (x / 10 ^ j : ℚ) = y / 10 ^ k := by linarith
  rw [div_eq_div_iff (by positivity) (by positivity)] at fractions
  exact_mod_cast fractions

private theorem Spells.isDigit (spelled : Spells 10 digits n) : ∀ c ∈ digits, isDigit c = true := by
  obtain ⟨-, values, matching, -⟩ := spelled
  rw [eq_map_digit matching]
  intro c inside
  obtain ⟨d, listed, rfl⟩ := List.mem_map.1 inside
  exact isDigit_digit (values_lt matching d (List.mem_reverse.2 listed))

private theorem Spells.no_point (spelled : Spells 10 digits n) : '.' ∉ digits := by
  intro inside
  cases spelled.isDigit '.' inside

private theorem Decimal.isDigit_or_point {cs : List Char} {v : ℚ} (notated : Decimal cs v) :
    ∀ c ∈ cs, isDigit c = true ∨ c = '.' := by
  intro c inside
  cases notated with
  | whole spelled => exact .inl (spelled.isDigit c inside)
  | fractional spelled spelled' =>
    rcases List.mem_append.1 inside with before | after
    · exact .inl (spelled.isDigit c before)
    · rcases List.mem_cons.1 after with point | later
      · exact .inr point
      · exact .inl (spelled'.isDigit c later)

/-- A text is the notation of one number only. -/
private theorem Decimal.unique {cs : List Char} {v w : ℚ} (one : Decimal cs v) (other : Decimal cs w) : v = w := by
  cases one with
  | whole spelled =>
    cases other with
    | whole again => rw [spelled.unique again]
    | fractional => exact absurd (by simp) spelled.no_point
  | fractional spelled spelled' =>
    generalize written : _ ++ '.' :: _ = cs at other
    cases other with
    | whole again => exact absurd (by simp [← written]) again.no_point
    | fractional again again' =>
      obtain ⟨rfl, -, rfl⟩ := (List.append_cons_inj_of_notMem spelled.no_point spelled'.no_point).1 written
      rw [spelled.unique again, spelled'.unique again']

/-- The decimal digits are the only shortest notation of a whole number. -/
private theorem Decimal.of_whole {cs : List Char} (notated : Decimal cs n) :
    cs = decimal n ∨ (decimal n).length < cs.length := by
  generalize number : (n : ℚ) = v at notated
  cases notated with
  | whole spelled =>
    obtain rfl := Nat.cast_injective number
    obtain ⟨k, rfl⟩ := leading_zeros spelled
    cases k with
    | zero => exact .inl rfl
    | succ k => exact .inr (by simp)
  | fractional spelled spelled' =>
    have cut : (n + (0 : Nat) / 10 ^ 0 : ℚ) = _ := (by simp : (n + (0 : Nat) / 10 ^ 0 : ℚ) = n).trans number
    obtain ⟨rfl, -⟩ := whole_part (by decide) spelled'.lt_pow cut
    obtain ⟨k, rfl⟩ := leading_zeros spelled
    refine .inr ?_
    rw [List.length_append, List.length_append, List.length_cons]
    omega

/-- The decimal digits and the places without zeros at the end are the only shortest notation of another number. -/
private theorem Decimal.of_fractional {cs places : List Char} (trimmed : places.getLast? ≠ some '0')
    (spelled : Spells 10 places x) (positive : x ≠ 0) (notated : Decimal cs (n + x / 10 ^ places.length)) :
    cs = decimal n ++ '.' :: places ∨ (decimal n ++ '.' :: places).length < cs.length := by
  generalize number : (n + x / 10 ^ places.length : ℚ) = v at notated
  cases notated with
  | @whole _ m again =>
    have cut : (n + x / 10 ^ places.length : ℚ) = m + (0 : Nat) / 10 ^ 0 := number.trans (by simp)
    obtain ⟨-, nothing⟩ := whole_part spelled.lt_pow (by decide) cut
    exact absurd (by simpa using nothing) positive
  | fractional again again' =>
    obtain ⟨rfl, same⟩ := whole_part spelled.lt_pow again'.lt_pow number
    obtain ⟨k, rfl⟩ := leading_zeros again
    obtain ⟨j, rfl⟩ := trailing_zeros trimmed spelled again' same
    by_cases exact_length : k = 0 ∧ j = 0
    · obtain ⟨rfl, rfl⟩ := exact_length
      exact .inl (by simp)
    · refine .inr ?_
      simp only [List.length_append, List.length_cons, List.length_replicate]
      omega

end Numeral

/-! ## Amounts -/

namespace Amount
open Numeral

/-- The text of an amount is its shortest decimal notation in units. -/
structure Faithful (a : Amount) : Prop where
  /-- The text stands for the units of the amount and for no other number. -/
  denotes : ∀ v : ℚ, Decimal a.text.toList v ↔ v = a.parts / 10000
  /-- Every other notation of the amount is longer. -/
  shortest : ∀ cs, Decimal cs (a.parts / 10000) → cs = a.text.toList ∨ a.text.toList.length < cs.length
  /-- Whole units have no point. -/
  whole : 10000 ∣ a.parts → '.' ∉ a.text.toList
  /-- Other amounts have up to four places, and the last of them is no zero. -/
  fractional : ¬10000 ∣ a.parts → ∃ digits places, a.text.toList = digits ++ '.' :: places ∧
    (∀ c ∈ digits ++ places, isDigit c = true) ∧ 1 ≤ places.length ∧ places.length ≤ 4 ∧
    places.getLast? ≠ some '0'

/-- The places of a fraction are its four digits up to the last one that is no zero. -/
private theorem fractionDigits_spell {fraction : Nat} (positive : fraction ≠ 0) (small : fraction < 10000) :
    ∃ x k, Spells 10 (fractionDigits fraction) x ∧ x * 10 ^ k = fraction ∧
      (fractionDigits fraction).length + k = 4 ∧ (fractionDigits fraction).getLast? ≠ some '0' := by
  have spelled : Spells 10 (padded 10 4 fraction) fraction := spells_padded (by decide) (by decide) small
  obtain ⟨zeros, cut, only⟩ : ∃ zeros, padded 10 4 fraction = fractionDigits fraction ++ zeros ∧
      ∀ c ∈ zeros, c = '0' := by
    refine ⟨((padded 10 4 fraction).reverse.takeWhile (· = '0')).reverse, ?_, ?_⟩
    · rw [fractionDigits, ← List.reverse_append, places, List.takeWhile_append_dropWhile, List.reverse_reverse]
    · intro c inside
      simpa using List.mem_takeWhile_imp (List.mem_reverse.1 inside)
  rw [List.eq_replicate_of_mem only] at cut
  generalize zeros.length = k at cut
  have nonempty : fractionDigits fraction ≠ [] := by
    intro none_left
    have zero : Spells 10 (padded 10 4 fraction) 0 := by
      rw [cut, none_left, List.nil_append]
      cases k with
      | zero =>
        have width := length_padded 10 4 fraction
        rw [cut, none_left] at width
        cases width
      | succ k =>
        have zeros := (spells_decimal 0).append_zeros k
        rwa [Nat.zero_mul, show decimal 0 = ['0'] by rw [decimal]; rfl] at zeros
    exact positive (spelled.unique zero)
  have written : ∀ c ∈ fractionDigits fraction, ∃ d < 10, c = digit d := fun c inside =>
    digit_of_mem_padded (by decide) (cut ▸ List.mem_append_left _ inside)
  have left := spells_of_digits (by decide) nonempty written
  refine ⟨_, k, left, Spells.unique (cut ▸ left.append_zeros k) spelled, ?_, ?_⟩
  · have width := length_padded 10 4 fraction
    rwa [cut, List.length_append, List.length_replicate] at width
  · intro ended
    have kept : fractionDigits fraction = (padded 10 4 fraction).rdropWhile (· = '0') := rfl
    rw [kept] at nonempty ended
    have last := List.rdropWhile_last_not _ _ nonempty
    rw [List.getLast?_eq_some_getLast nonempty] at ended
    simp [Option.some.inj ended] at last

private theorem units_eq {a : Amount} (small : a.parts < 2 ^ 32 * 10000) : a.units = a.parts / 10000 := by
  have below : a.parts / 10000 < 2 ^ 32 := Nat.div_lt_of_lt_mul (by omega)
  exact Nat.mod_eq_of_lt below

private theorem in_units {a : Amount} (small : a.parts < 2 ^ 32 * 10000) :
    (a.parts / 10000 : ℚ) = a.units + a.fraction / 10000 := by
  have split : 10000 * a.units + a.fraction = a.parts := by
    rw [units_eq small]
    exact Nat.div_add_mod a.parts 10000
  rw [← split]
  push_cast
  ring

private theorem faithful_of_whole {a : Amount} (small : a.parts < 2 ^ 32 * 10000) (whole : a.fraction = 0) :
    a.Faithful := by
  have text : a.text.toList = decimal a.units := by rw [Amount.text, String.toList_ofList, if_pos whole]
  have shown : (a.parts / 10000 : ℚ) = a.units := by
    rw [in_units small, whole, Nat.cast_zero, zero_div, add_zero]
  have notated : Decimal a.text.toList (a.parts / 10000) := by
    rw [text, shown]
    exact .whole (spells_decimal a.units)
  constructor
  case denotes =>
    intro v
    exact ⟨fun other => other.unique notated, fun same => same ▸ notated⟩
  case shortest =>
    intro cs other
    rw [shown] at other
    rw [text]
    exact other.of_whole
  case whole =>
    intro _
    rw [text]
    exact (spells_decimal a.units).no_point
  case fractional =>
    intro rest
    exact absurd (Nat.dvd_of_mod_eq_zero whole) rest

private theorem faithful_of_fractional {a : Amount} (small : a.parts < 2 ^ 32 * 10000) (rest : a.fraction ≠ 0) :
    a.Faithful := by
  have text : a.text.toList = decimal a.units ++ '.' :: fractionDigits a.fraction := by
    rw [Amount.text, String.toList_ofList, if_neg rest]
  obtain ⟨x, k, spelled, scaled, width, trimmed⟩ := fractionDigits_spell rest (Nat.mod_lt _ (by decide))
  have nonzero : x ≠ 0 := by
    rintro rfl
    exact rest (by rw [← scaled, Nat.zero_mul])
  have shown : (a.parts / 10000 : ℚ) = a.units + x / 10 ^ (fractionDigits a.fraction).length := by
    have power : (10000 : ℚ) = 10 ^ (fractionDigits a.fraction).length * 10 ^ k := by
      rw [← pow_add, width]
      norm_num
    have counted : (a.fraction : ℚ) = x * 10 ^ k := by exact_mod_cast scaled.symm
    rw [in_units small, counted, power, mul_div_mul_right _ _ (by positivity)]
  have notated : Decimal a.text.toList (a.parts / 10000) := by
    rw [text, shown]
    exact .fractional (spells_decimal a.units) spelled
  constructor
  case denotes =>
    intro v
    exact ⟨fun other => other.unique notated, fun same => same ▸ notated⟩
  case shortest =>
    intro cs other
    rw [shown] at other
    rw [text]
    exact other.of_fractional trimmed spelled nonzero
  case whole =>
    intro divides
    exact absurd (Nat.mod_eq_zero_of_dvd divides) rest
  case fractional =>
    intro _
    refine ⟨_, _, text, ?_, List.length_pos_of_ne_nil spelled.1, by omega, trimmed⟩
    intro c inside
    rcases List.mem_append.1 inside with before | after
    · exact isDigit_decimal _ c before
    · exact spelled.isDigit c after

/-- An amount below the largest count of units is written as it is. -/
private theorem faithful_of_lt {a : Amount} (small : a.parts < 2 ^ 32 * 10000) : a.Faithful := by
  by_cases whole : a.fraction = 0
  · exact faithful_of_whole small whole
  · exact faithful_of_fractional small whole

/-- Amounts below the largest count of units are told apart by their texts. -/
private theorem eq_of_text {a b : Amount} (small : a.parts < 2 ^ 32 * 10000) (small' : b.parts < 2 ^ 32 * 10000)
    (same : a.text = b.text) : a = b := by
  have stands := ((faithful_of_lt small).denotes _).2 rfl
  rw [same] at stands
  have equal : (a.parts / 10000 : ℚ) = b.parts / 10000 := ((faithful_of_lt small').denotes _).1 stands
  rw [div_left_inj' (by norm_num)] at equal
  exact eq_of_parts (by exact_mod_cast equal)

private theorem not_mem_text {a : Amount} (small : a.parts < 2 ^ 32 * 10000) {c : Char}
    (apart : isDigit c = false) (apart' : c ≠ '.') : c ∉ a.text.toList := by
  intro inside
  have notated := ((faithful_of_lt small).denotes _).2 rfl
  rcases notated.isDigit_or_point c inside with digit | point
  · rw [apart] at digit
    cases digit
  · exact apart' point

end Amount

/-! ## Profiles -/

namespace Profile

variable {p q : Profile} {v w : ResourceVector} {d e : Nat} {a b : Amount}

/-- Every amount of the profile lies below the largest count of whole units. -/
def Small : Profile → Prop
  | .any => True
  | .sized v => ∀ a ∈ v.amounts, a.parts < 2 ^ 32 * 10000

private theorem small_get (small : (sized v).Small) (d : Nat) : (v.get d).parts < 2 ^ 32 * 10000 := by
  rw [ResourceVector.get, List.getD_eq_getElem?_getD]
  cases stored : v.amounts[d]? with
  | none => decide
  | some a => exact small a (List.mem_of_getElem? stored)

/-- Dimensions are told apart by their names. -/
private theorem dimensionName_injective (same : dimensionName d = dimensionName e) : d = e := by
  have apart (name : String) (n : Nat) (other : ¬"res".toList <+: name.toList) : name ≠ "res" ++ Numeral.text n := by
    rintro rfl
    rw [String.toList_append] at other
    exact other (List.prefix_append _ _)
  match d, e with
  | 0, 0 | 1, 1 => rfl
  | 0, 1 | 1, 0 => exact absurd same (by decide)
  | 0, n + 2 => exact absurd same (apart _ _ (by decide))
  | 1, n + 2 => exact absurd same (apart _ _ (by decide))
  | n + 2, 0 => exact absurd same.symm (apart _ _ (by decide))
  | n + 2, 1 => exact absurd same.symm (apart _ _ (by decide))
  | m + 2, n + 2 =>
    have names : "res" ++ Numeral.text (m + 2) = "res" ++ Numeral.text (n + 2) := same
    exact Numeral.text_injective ((String.append_right_inj _).1 names)

/-- Neither sign of a list of entries stands in a name or an amount. -/
private theorem not_mem_dimensionName {c : Char} (sign : c = ',' ∨ c = '=') (d : Nat) :
    c ∉ (dimensionName d).toList := by
  match d with
  | 0 | 1 => rcases sign with rfl | rfl <;> decide
  | n + 2 =>
    intro inside
    rw [dimensionName, String.toList_append, List.mem_append] at inside
    · rcases inside with letter | digit
      · revert letter
        rcases sign with rfl | rfl <;> decide
      · rw [Numeral.text, String.toList_ofList] at digit
        have numeral := Numeral.isDigit_decimal _ c digit
        rcases sign with rfl | rfl <;> cases numeral
    all_goals simp

private theorem not_mem_amount {c : Char} (sign : c = ',' ∨ c = '=') (small : a.parts < 2 ^ 32 * 10000) :
    c ∉ a.text.toList := by
  rcases sign with rfl | rfl
  · exact Amount.not_mem_text small (by decide) (by decide)
  · exact Amount.not_mem_text small (by decide) (by decide)

private theorem toList_entryText (d : Nat) (a : Amount) :
    (entryText d a).toList = (dimensionName d).toList ++ '=' :: a.text.toList := by
  rw [entryText, String.toList_append, String.toList_append, List.append_assoc]
  rfl

/-- An entry tells its dimension and its amount. -/
private theorem entryText_injective (small : a.parts < 2 ^ 32 * 10000) (small' : b.parts < 2 ^ 32 * 10000)
    (same : entryText d a = entryText e b) : d = e ∧ a = b := by
  rw [← String.toList_inj, toList_entryText, toList_entryText, List.append_cons_inj_of_notMem
    (not_mem_dimensionName (.inr rfl) d) (not_mem_amount (.inr rfl) small)] at same
  obtain ⟨names, -, amounts⟩ := same
  exact ⟨dimensionName_injective (String.toList_inj.1 names),
    Amount.eq_of_text small small' (String.toList_inj.1 amounts)⟩

/-- What the text of a profile lists between its commas. -/
private def entries : Profile → List String
  | .any => ["any"]
  | .sized v => entryText 0 (v.get 0) :: entryText 1 (v.get 1) ::
      (v.nonzero.filter fun used => decide (1 < used.1)).map fun used => entryText used.1 used.2

private theorem text_eq (p : Profile) : p.text = ",".intercalate p.entries := by
  cases p <;> rfl

private theorem mem_entries {entry : String} : entry ∈ (sized v).entries ↔
    ∃ d, entry = entryText d (v.get d) ∧ (d ≤ 1 ∨ v.get d ≠ .zero) := by
  rw [entries, List.mem_cons, List.mem_cons, List.mem_map]
  constructor
  · rintro (rfl | rfl | ⟨⟨d, a⟩, listed, rfl⟩)
    · exact ⟨0, rfl, .inl (by decide)⟩
    · exact ⟨1, rfl, .inl (by decide)⟩
    · obtain ⟨rfl, used⟩ := ResourceVector.mem_nonzero.1 (List.mem_filter.1 listed).1
      exact ⟨d, rfl, .inr used⟩
  · rintro ⟨d, rfl, shown⟩
    by_cases fixed : d ≤ 1
    · rcases Nat.le_one_iff_eq_zero_or_eq_one.1 fixed with rfl | rfl
      · exact .inl rfl
      · exact .inr (.inl rfl)
    · refine .inr (.inr ⟨(d, v.get d), List.mem_filter.2 ⟨?_, decide_eq_true (by omega)⟩, rfl⟩)
      exact ResourceVector.mem_nonzero.2 ⟨rfl, shown.resolve_left fixed⟩

private theorem no_comma (small : p.Small) : ∀ entry ∈ p.entries.map String.toList, ',' ∉ entry := by
  intro entry inside
  obtain ⟨entry, listed, rfl⟩ := List.mem_map.1 inside
  cases p with
  | any =>
    rw [List.mem_singleton.1 listed]
    decide
  | sized v =>
    obtain ⟨d, rfl, -⟩ := mem_entries.1 listed
    rw [toList_entryText, List.mem_append, List.mem_cons]
    rintro (name | sign | amount)
    · exact not_mem_dimensionName (.inl rfl) d name
    · cases sign
    · exact not_mem_amount (.inl rfl) (small_get small d) amount

/-- The text is cut at its commas. -/
private theorem entries_eq_of_text (small : p.Small) (small' : q.Small) (same : p.text = q.text) :
    p.entries = q.entries := by
  have some_left (profile : Profile) : profile.entries.map String.toList ≠ [] := by
    cases profile <;> exact List.cons_ne_nil _ _
  rw [← String.toList_inj, text_eq, text_eq, String.toList_intercalate, String.toList_intercalate] at same
  have cut := congrArg (List.splitOn ',') same
  have comma : ",".toList = [','] := rfl
  rw [comma, List.splitOn_intercalate _ (no_comma small) (some_left p),
    List.splitOn_intercalate _ (no_comma small') (some_left q)] at cut
  exact List.map_injective_iff.2 (fun _ _ => String.toList_inj.1) cut

/-- What one profile shows of a dimension, the other one holds. -/
private theorem get_eq_of_entries (small : (sized v).Small) (small' : (sized w).Small)
    (same : (sized v).entries = (sized w).entries) (shown : d ≤ 1 ∨ v.get d ≠ .zero) : w.get d = v.get d := by
  have listed : entryText d (v.get d) ∈ (sized w).entries := same ▸ mem_entries.2 ⟨d, rfl, shown⟩
  obtain ⟨e, texts, -⟩ := mem_entries.1 listed
  obtain ⟨rfl, amounts⟩ := entryText_injective (small_get small d) (small_get small' e) texts
  exact amounts.symm

/-- Profiles of small amounts without zeros at the end are told apart by their texts. -/
private theorem eq_of_text (tidy : ¬p.Padded) (tidy' : ¬q.Padded) (small : p.Small) (small' : q.Small)
    (same : p.text = q.text) : p = q := by
  have listed := entries_eq_of_text small small' same
  match p, q with
  | .any, .any => rfl
  | .any, .sized w => cases congrArg List.length listed
  | .sized v, .any => cases congrArg List.length listed
  | .sized v, .sized w =>
    apply Trimmed.ext ((trimmed_iff _).2 tidy) ((trimmed_iff _).2 tidy')
    intro d
    refine congrArg some ?_
    by_cases shown : v.get d = .zero
    · by_cases shown' : w.get d = .zero
      · rw [shown, shown']
      · exact get_eq_of_entries small' small listed.symm (.inr shown')
    · exact (get_eq_of_entries small small' listed (.inr shown)).symm

end Profile

/-- Resource texts are faithful: an amount of fewer than 2^32 units is written in its shortest decimal notation, which
    stands for no other amount, and profiles of such amounts without zeros at the end are equal if their texts are. -/
theorem resource_texts_faithful : (∀ a : Amount, a.parts < 2 ^ 32 * 10000 → a.Faithful) ∧
    ∀ p q : Profile, ¬p.Padded → ¬q.Padded → p.Small → q.Small → p.text = q.text → p = q := by
  constructor
  · intro a small
    exact Amount.faithful_of_lt small
  · intro p q tidy tidy' small small' same
    exact Profile.eq_of_text tidy tidy' small small' same

/-- One and a half processors, no memory, and a little more than two of another resource. -/
private def devices : List Amount := [⟨15000, by decide⟩, .zero, ⟨20001, by decide⟩]

theorem resource_texts_faithful_devices : (∀ v : ℚ, Numeral.Decimal "1.5".toList v ↔ v = (15000 : Nat) / 10000) ∧
    (Profile.sized ⟨devices⟩).text = "cpus=1.5,mem=0,res2=2.0001" ∧
    Profile.sized ⟨devices⟩ = .ofAmounts (devices ++ [.zero]) := by
  obtain ⟨amounts, profiles⟩ := resource_texts_faithful
  have amount : (⟨15000, by decide⟩ : Amount).text = "1.5" := by decide +kernel
  have stands := (amounts ⟨15000, by decide⟩ (by decide)).denotes
  rw [amount] at stands
  have written : (Profile.sized ⟨devices⟩).text = "cpus=1.5,mem=0,res2=2.0001" := by decide +kernel
  have written' : (Profile.ofAmounts (devices ++ [.zero])).text = "cpus=1.5,mem=0,res2=2.0001" := by decide +kernel
  have small : ∀ a ∈ devices, a.parts < 2 ^ 32 * 10000 := by decide
  have small' : ∀ a ∈ ResourceVector.trim (devices ++ [.zero]), a.parts < 2 ^ 32 * 10000 := by decide
  have tidy : ¬(Profile.sized ⟨devices⟩).Padded := (Profile.trimmed_iff _).1 (by decide)
  have tidy' : ¬(Profile.ofAmounts (devices ++ [.zero])).Padded := (Profile.trimmed_iff _).1 ⟨_, rfl⟩
  exact ⟨stands, written, profiles _ _ tidy tidy' small small' (written.trans written'.symm)⟩

end SlotControl
