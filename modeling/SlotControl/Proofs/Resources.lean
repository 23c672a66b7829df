import SlotControl.Fault

/-!
The arithmetic of amounts, vectors and profiles by dimension. A vector without zeros at the end is
determined by what it holds in every dimension, so sums and differences are characterised by their
dimensions alone. Main statements: `Profile.Accounts` says that a capacity is made up by what is left
of it and what was taken; taking and giving keep this, and what is left follows from the rest.
-/

namespace SlotControl

/-! ## Amounts -/

namespace Amount

theorem eq_of_parts {a b : Amount} (same : a.parts = b.parts) : a = b := by
  cases a; cases b; simp_all

@[simp] theorem parts_zero : zero.parts = 0 := rfl

theorem isZero_iff (a : Amount) : a.isZero = true ↔ a = zero := by
  rw [isZero, beq_iff_eq]
  exact ⟨fun none => eq_of_parts none, fun same => by rw [same, parts_zero]⟩

theorem add?_eq_some_iff (a b c : Amount) : a.add? b = some c ↔ c.parts = a.parts + b.parts := by
  have bound := c.parts_lt
  rw [add?, ofParts?]
  constructor
  · intro sum
    split at sum
    · rw [← Option.some.inj sum]
    · cases sum
  · intro sum
    rw [dif_pos (by omega)]
    exact congrArg some (eq_of_parts sum.symm)

theorem sub?_eq_some_iff (a b c : Amount) : a.sub? b = some c ↔ c.parts + b.parts = a.parts := by
  rw [sub?]
  constructor
  · intro difference
    split at difference
    · rw [← Option.some.inj difference]
      show a.parts - b.parts + b.parts = a.parts
      omega
    · cases difference
  · intro difference
    rw [if_pos (by omega)]
    exact congrArg some (eq_of_parts (by show a.parts - b.parts = c.parts; omega))

end Amount

/-! ## Vectors -/

namespace ResourceVector

/-- What a vector holds in a dimension, in ten-thousandths. -/
def parts (v : ResourceVector) (dimension : Nat) : Nat := (v.get dimension).parts

/-- No zeros stand at the end: the vector comes from a list of amounts by removing them. -/
def Trimmed (v : ResourceVector) : Prop := ∃ amounts, v = .ofAmounts amounts

theorem trimmed_ofAmounts (amounts : List Amount) : (ofAmounts amounts).Trimmed := ⟨amounts, rfl⟩

private theorem getD_trim (amounts : List Amount) (d : Nat) :
    (trim amounts).getD d .zero = amounts.getD d .zero := by
  induction amounts generalizing d with
  | nil => rfl
  | cons a rest ih =>
    rw [trim]
    split
    · next all_zero =>
      -- Behind the head nothing is left, so every later dimension holds nothing.
      have later : ∀ d, rest.getD d .zero = Amount.zero := fun d => by rw [← ih, all_zero]; rfl
      split
      · next zero =>
        cases d with
        | zero => simpa using ((a.isZero_iff).1 zero).symm
        | succ d => simpa using (later d).symm
      · cases d with
        | zero => rfl
        | succ d => simpa using (later d).symm
    · cases d with
      | zero => rfl
      | succ d => simpa using ih d

private theorem trim_eq_nil {amounts : List Amount} (nothing : ∀ d, amounts.getD d .zero = Amount.zero) :
    trim amounts = [] := by
  induction amounts with
  | nil => rfl
  | cons a rest ih =>
    have head : a.isZero = true := (a.isZero_iff).2 (by simpa using nothing 0)
    rw [trim, ih fun d => by simpa using nothing (d + 1)]
    simp [head]

/-- Lists that hold the same in every dimension differ in zeros at the end only. -/
private theorem trim_eq_trim : ∀ {as bs : List Amount}, (∀ d, as.getD d .zero = bs.getD d .zero) →
    trim as = trim bs
  | [], bs, same => (trim_eq_nil fun d => by rw [← same]; rfl).symm
  | a :: as, [], same => trim_eq_nil fun d => by rw [same]; rfl
  | a :: as, b :: bs, same => by
    have heads : a = b := by simpa using same 0
    have tails : trim as = trim bs := trim_eq_trim fun d => by simpa using same (d + 1)
    rw [trim, trim, heads, tails]

@[simp] theorem parts_ofAmounts (amounts : List Amount) (d : Nat) :
    (ofAmounts amounts).parts d = (amounts.getD d .zero).parts :=
  congrArg Amount.parts (getD_trim amounts d)

/-- Equal holdings in every dimension make trimmed vectors equal. -/
theorem Trimmed.ext {v w : ResourceVector} (left : v.Trimmed) (right : w.Trimmed)
    (same : ∀ d, v.parts d = w.parts d) : v = w := by
  obtain ⟨as, rfl⟩ := left
  obtain ⟨bs, rfl⟩ := right
  have amounts : ∀ d, as.getD d .zero = bs.getD d .zero := fun d =>
    Amount.eq_of_parts (by simpa using same d)
  exact congrArg mk (trim_eq_trim amounts)

instance (v : ResourceVector) : Decidable v.Trimmed :=
  decidable_of_iff (v = .ofAmounts v.amounts)
    ⟨fun same => ⟨v.amounts, same⟩, fun trimmed => trimmed.ext (trimmed_ofAmounts _) fun d => by
      rw [parts_ofAmounts, parts, get]⟩

theorem parts_of_length_le {v : ResourceVector} {d : Nat} (beyond : v.amounts.length ≤ d) : v.parts d = 0 := by
  simp [parts, get, List.getElem?_eq_none beyond]

/-! ### Sums and differences by dimension -/

section Combine

variable {f : Amount → Amount → Option Amount}

private theorem combine?_nil : combine? f [] [] = some [] := by simp [combine?]

/-- Unless both lists are at their end, their heads and then their tails are combined. -/
private theorem combine?_step {as bs : List Amount} (more : as ≠ [] ∨ bs ≠ []) :
    combine? f as bs = (f (as.getD 0 .zero) (bs.getD 0 .zero)).bind fun c =>
      (combine? f as.tail bs.tail).bind fun cs => some (c :: cs) := by
  cases as with
  | nil =>
    cases bs with
    | nil => simp at more
    | cons b bs => rfl
  | cons a as =>
    cases bs with
    | nil =>
      rw [combine?, List.mapM_cons]
      cases as <;> rfl
    | cons b bs => rfl

private theorem getD_succ (as : List Amount) (d : Nat) :
    as.getD (d + 1) .zero = as.tail.getD d .zero := by cases as <;> simp

private theorem length_tails {as bs : List Amount} (more : as ≠ [] ∨ bs ≠ []) :
    as.tail.length + bs.tail.length < as.length + bs.length := by
  rcases more with more | more <;> have := List.length_pos_iff.2 more <;> simp <;> omega

private theorem combine?_getD (zeros : f .zero .zero = some .zero) {as bs cs : List Amount}
    (combined : combine? f as bs = some cs) (d : Nat) :
    f (as.getD d .zero) (bs.getD d .zero) = some (cs.getD d .zero) := by
  by_cases more : as ≠ [] ∨ bs ≠ []
  · rw [combine?_step more] at combined
    obtain ⟨c, head, combined⟩ := Option.bind_eq_some_iff.1 combined
    obtain ⟨rest, tails, combined⟩ := Option.bind_eq_some_iff.1 combined
    obtain rfl := Option.some.inj combined
    cases d with
    | zero => exact head
    | succ d =>
      have := length_tails more
      rw [getD_succ, getD_succ, getD_succ]
      exact combine?_getD zeros tails d
  · obtain ⟨rfl, rfl⟩ : as = [] ∧ bs = [] := by simpa using more
    rw [combine?_nil] at combined
    rw [← Option.some.inj combined]
    exact zeros
termination_by as.length + bs.length

private theorem exists_combine? (as bs : List Amount)
    (defined : ∀ d, ∃ c, f (as.getD d .zero) (bs.getD d .zero) = some c) : ∃ cs, combine? f as bs = some cs := by
  by_cases more : as ≠ [] ∨ bs ≠ []
  · have := length_tails more
    obtain ⟨c, head⟩ := defined 0
    obtain ⟨cs, tails⟩ := exists_combine? as.tail bs.tail fun d => by
      simpa only [getD_succ] using defined (d + 1)
    exact ⟨c :: cs, by rw [combine?_step more, head, tails]; rfl⟩
  · obtain ⟨rfl, rfl⟩ : as = [] ∧ bs = [] := by simpa using more
    exact ⟨[], combine?_nil⟩
termination_by as.length + bs.length

end Combine

/-- The sum is the trimmed vector with the sum in every dimension, and exists if none is too large. -/
theorem add?_eq_some_iff (a b c : ResourceVector) :
    a.add? b = some c ↔ c.Trimmed ∧ ∀ d, c.parts d = a.parts d + b.parts d := by
  have sound : ∀ {c}, a.add? b = some c → c.Trimmed ∧ ∀ d, c.parts d = a.parts d + b.parts d := by
    intro c sum
    obtain ⟨amounts, combined, rfl⟩ := Option.map_eq_some_iff.1 sum
    refine ⟨trimmed_ofAmounts amounts, fun d => ?_⟩
    rw [parts_ofAmounts]
    exact (Amount.add?_eq_some_iff ..).1 (combine?_getD rfl combined d)
  refine ⟨sound, fun ⟨trimmed, sums⟩ => ?_⟩
  obtain ⟨amounts, combined⟩ := exists_combine? (f := Amount.add?) a.amounts b.amounts fun d =>
    ⟨c.get d, (Amount.add?_eq_some_iff _ _ _).2 (sums d)⟩
  have sum : a.add? b = some (ofAmounts amounts) := by rw [add?, combined]; rfl
  rw [sum, (trimmed_ofAmounts amounts).ext trimmed fun d => by rw [(sound sum).2, sums]]

/-- The difference is the trimmed vector that gives the first one when the second is added. -/
theorem sub?_eq_some_iff (a b c : ResourceVector) :
    a.sub? b = some c ↔ c.Trimmed ∧ ∀ d, c.parts d + b.parts d = a.parts d := by
  have sound : ∀ {c}, a.sub? b = some c → c.Trimmed ∧ ∀ d, c.parts d + b.parts d = a.parts d := by
    intro c difference
    obtain ⟨amounts, combined, rfl⟩ := Option.map_eq_some_iff.1 difference
    refine ⟨trimmed_ofAmounts amounts, fun d => ?_⟩
    rw [parts_ofAmounts]
    exact (Amount.sub?_eq_some_iff ..).1 (combine?_getD rfl combined d)
  refine ⟨sound, fun ⟨trimmed, differences⟩ => ?_⟩
  obtain ⟨amounts, combined⟩ := exists_combine? (f := Amount.sub?) a.amounts b.amounts fun d =>
    ⟨c.get d, (Amount.sub?_eq_some_iff _ _ _).2 (differences d)⟩
  have difference : a.sub? b = some (ofAmounts amounts) := by rw [sub?, combined]; rfl
  rw [difference, (trimmed_ofAmounts amounts).ext trimmed fun d => by
    have := (sound difference).2 d
    have := differences d
    omega]

theorem exists_add? (a b : ResourceVector) (small : ∀ d, a.parts d + b.parts d < Numeral.bound64) :
    ∃ c, a.add? b = some c := by
  obtain ⟨amounts, combined⟩ := exists_combine? (f := Amount.add?) a.amounts b.amounts fun d =>
    ⟨⟨a.parts d + b.parts d, small d⟩, (Amount.add?_eq_some_iff _ _ _).2 rfl⟩
  exact ⟨ofAmounts amounts, by rw [add?, combined]; rfl⟩

theorem exists_sub? (a b : ResourceVector) (room : ∀ d, b.parts d ≤ a.parts d) :
    ∃ c, a.sub? b = some c := by
  obtain ⟨amounts, combined⟩ := exists_combine? (f := Amount.sub?) a.amounts b.amounts fun d =>
    ⟨⟨a.parts d - b.parts d, Nat.lt_of_le_of_lt (Nat.sub_le _ _) (a.get d).parts_lt⟩,
      (Amount.sub?_eq_some_iff (a.get d) (b.get d) _).2 (Nat.sub_add_cancel (room d))⟩
  exact ⟨ofAmounts amounts, by rw [sub?, combined]; rfl⟩

theorem parts_lt (v : ResourceVector) (d : Nat) : v.parts d < Numeral.bound64 := (v.get d).parts_lt

private theorem coversAmounts_iff : ∀ (as bs : List Amount),
    coversAmounts as bs = true ↔ ∀ d, (bs.getD d .zero).parts ≤ (as.getD d .zero).parts
  | as, [] => by simp [coversAmounts]
  | [], b :: bs => by
    rw [coversAmounts, Bool.and_eq_true, coversAmounts_iff, b.isZero_iff]
    constructor
    · rintro ⟨rfl, rest⟩ d
      cases d with
      | zero => simp
      | succ d => simpa using rest d
    · intro room
      exact ⟨Amount.eq_of_parts (by simpa using room 0), fun d => by simpa using room (d + 1)⟩
  | a :: as, b :: bs => by
    rw [coversAmounts, Bool.and_eq_true, coversAmounts_iff, decide_eq_true_iff]
    constructor
    · rintro ⟨head, rest⟩ d
      cases d with
      | zero => simpa using head
      | succ d => simpa using rest d
    · intro room
      exact ⟨by simpa using room 0, fun d => by simpa using room (d + 1)⟩

/-- One vector has room for another if it has room in every dimension. -/
theorem covers_iff (a b : ResourceVector) : a.covers b = true ↔ ∀ d, b.parts d ≤ a.parts d :=
  coversAmounts_iff a.amounts b.amounts

end ResourceVector

/-! ## Profiles -/

namespace Profile

/-- What a profile holds in a dimension, in ten-thousandths; a wildcard counts for nothing. -/
def parts : Profile → Nat → Nat
  | .any, _ => 0
  | .sized v, d => v.parts d

/-- The wildcard, or a vector without zeros at the end. -/
def Trimmed : Profile → Prop
  | .any => True
  | .sized v => v.Trimmed

instance : ∀ p : Profile, Decidable p.Trimmed
  | .any => isTrue trivial
  | .sized v => inferInstanceAs (Decidable v.Trimmed)

/-- What all the profiles hold together in a dimension. -/
def partsOf : List Profile → Nat → Nat
  | [], _ => 0
  | p :: rest, d => p.parts d + partsOf rest d

/-- The sized profiles together stay within 64 bits in every dimension. -/
def Addable (profiles : List Profile) : Prop := ∀ d, partsOf profiles d < Numeral.bound64

/-- A capacity is made up by what is left of it and the profiles that were taken. Taking leaves a
    wildcard whole; from a vector only vectors are taken, and every dimension adds up. -/
def Accounts : (total left : Profile) → (taken : List Profile) → Prop
  | .any, .any, _ => True
  | .sized total, .sized left, taken =>
    .any ∉ taken ∧ ∀ d, left.parts d + partsOf taken d = total.parts d
  | _, _, _ => False

theorem Accounts.left_eq_any {left : Profile} {taken : List Profile} (accounts : Accounts .any left taken) :
    left = .any := by
  cases left with
  | any => rfl
  | sized _ => exact accounts.elim

theorem any_add? (p : Profile) : any.add? p = some any := by
  cases p <;> rfl

theorem partsOf_cons (p : Profile) (rest : List Profile) (d : Nat) :
    partsOf (p :: rest) d = p.parts d + partsOf rest d := rfl

theorem partsOf_perm {left right : List Profile} (perm : left.Perm right) (d : Nat) :
    partsOf left d = partsOf right d := by
  induction perm with
  | nil => rfl
  | cons p _ ih => rw [partsOf_cons, partsOf_cons, ih]
  | swap p q rest =>
    simp only [partsOf_cons]
    omega
  | trans _ _ first second => rw [first, second]

/-- Fewer profiles hold no more. -/
theorem partsOf_le_of_sublist {left right : List Profile} (fewer : left.Sublist right) (d : Nat) :
    partsOf left d ≤ partsOf right d := by
  induction fewer with
  | slnil => exact Nat.le_refl _
  | cons p _ ih =>
    rw [partsOf_cons]
    omega
  | cons_cons p _ ih =>
    rw [partsOf_cons, partsOf_cons]
    omega

theorem Addable.perm {left right : List Profile} (perm : left.Perm right) (small : Addable left) :
    Addable right := fun d => partsOf_perm perm d ▸ small d

theorem Addable.tail {p : Profile} {rest : List Profile} (small : Addable (p :: rest)) : Addable rest := by
  intro d
  have := small d
  rw [partsOf_cons] at this
  omega

/-- How many dimensions the profiles have at most. -/
def width : List Profile → Nat
  | [] => 0
  | .any :: rest => width rest
  | .sized v :: rest => max v.amounts.length (width rest)

theorem partsOf_of_width_le {profiles : List Profile} {d : Nat} (beyond : width profiles ≤ d) :
    partsOf profiles d = 0 := by
  induction profiles with
  | nil => rfl
  | cons p rest ih =>
    rw [partsOf_cons]
    cases p with
    | any => rw [parts, ih beyond]
    | sized v =>
      rw [width, Nat.max_le] at beyond
      rw [parts, ResourceVector.parts_of_length_le beyond.1, ih beyond.2]

instance (profiles : List Profile) : Decidable (Addable profiles) :=
  decidable_of_iff (∀ d < width profiles, partsOf profiles d < Numeral.bound64)
    ⟨fun small d => by
      by_cases inside : d < width profiles
      · exact small d inside
      · rw [partsOf_of_width_le (Nat.le_of_not_lt inside)]
        exact Nat.two_pow_pos 64,
    fun small d _ => small d⟩

theorem add_eq_ok_iff (a b c : Profile) : a.add b = .ok c ↔ a.add? b = some c := by
  rw [add]
  cases a.add? b <;> simp

/-- What can be subtracted is exactly what there is room for. -/
theorem exists_sub?_iff (a b : Profile) : (∃ c, a.sub? b = some c) ↔ a.covers b = true := by
  cases a with
  | any => simp [sub?, covers]
  | sized v =>
    cases b with
    | any => simp [sub?, covers]
    | sized w =>
      rw [covers, ResourceVector.covers_iff]
      constructor
      · rintro ⟨c, difference⟩ d
        obtain ⟨rest, subtracted, rfl⟩ := Option.map_eq_some_iff.1 difference
        have := ((ResourceVector.sub?_eq_some_iff ..).1 subtracted).2 d
        omega
      · intro room
        obtain ⟨c, subtracted⟩ := ResourceVector.exists_sub? _ _ room
        exact ⟨.sized c, by rw [sub?, subtracted]; rfl⟩

/-- A capacity is no less than a profile in any dimension; a wildcard is no less than anything, and nothing else is
    no less than a wildcard. -/
def NoLess : (capacity p : Profile) → Prop
  | .any, _ => True
  | .sized _, .any => False
  | .sized v, .sized w => ∀ d, w.parts d ≤ v.parts d

/-- A profile asks for more than a capacity in some dimension, or it is the wildcard and the capacity is not. -/
def Exceeds : (p capacity : Profile) → Prop
  | _, .any => False
  | .any, .sized _ => True
  | .sized w, .sized v => ∃ d, v.parts d < w.parts d

theorem exceeds_iff (p capacity : Profile) : p.Exceeds capacity ↔ ¬capacity.NoLess p := by
  cases p <;> cases capacity <;> simp [Exceeds, NoLess]

/-- There is room for exactly the profiles that the capacity is no less than. -/
theorem covers_iff_noLess (capacity p : Profile) : capacity.covers p = true ↔ capacity.NoLess p := by
  cases capacity with
  | any => exact iff_of_true rfl trivial
  | sized v =>
    cases p with
    | any => exact iff_of_false Bool.false_ne_true id
    | sized w => exact ResourceVector.covers_iff v w

theorem exists_sub?_iff_noLess (capacity p : Profile) : (∃ rest, capacity.sub? p = some rest) ↔ capacity.NoLess p := by
  rw [exists_sub?_iff, covers_iff_noLess]

namespace Accounts

variable {total left : Profile} {taken : List Profile}

theorem nil (total : Profile) : Accounts total total [] := by
  cases total with
  | any => trivial
  | sized v => exact ⟨List.not_mem_nil, fun d => rfl⟩

theorem perm {other : List Profile} (perm : taken.Perm other) (accounts : Accounts total left taken) :
    Accounts total left other := by
  match total, left, accounts with
  | .any, .any, _ => trivial
  | .sized _, .sized _, ⟨tame, sums⟩ =>
    exact ⟨fun wild => tame (perm.mem_iff.2 wild), fun d => by rw [← partsOf_perm perm]; exact sums d⟩

/-- Taking one profile more keeps the account. -/
theorem take {p rest : Profile} (accounts : Accounts total left taken) (difference : left.sub? p = some rest) :
    rest.Trimmed ∧ Accounts total rest (p :: taken) := by
  match total, left, p, accounts with
  | .any, .any, _, _ =>
    obtain rfl := Option.some.inj difference
    exact ⟨trivial, trivial⟩
  | .sized _, .sized _, .any, _ => cases difference
  | .sized _, .sized _, .sized _, ⟨tame, sums⟩ =>
    obtain ⟨v, subtracted, rfl⟩ := Option.map_eq_some_iff.1 difference
    obtain ⟨trimmed, differences⟩ := (ResourceVector.sub?_eq_some_iff ..).1 subtracted
    refine ⟨trimmed, by simpa using tame, fun d => ?_⟩
    have := sums d
    have := differences d
    simp only [partsOf_cons, parts]
    omega

/-- A taken profile can be given back, and the account goes on without it. -/
theorem give {p : Profile} (accounts : Accounts total left (p :: taken)) :
    ∃ rest, left.add? p = some rest ∧ rest.Trimmed ∧ Accounts total rest taken := by
  match total, left, p, accounts with
  | .any, .any, _, _ => exact ⟨.any, by rw [add?]; exact nofun, trivial, trivial⟩
  | .sized _, .sized _, .any, ⟨tame, _⟩ => simp at tame
  | .sized total, .sized left, .sized v, ⟨tame, sums⟩ =>
    have small : ∀ d, left.parts d + v.parts d < Numeral.bound64 := fun d => by
      have := sums d
      have := total.parts_lt d
      simp only [partsOf_cons, parts] at *
      omega
    obtain ⟨sum, added⟩ := ResourceVector.exists_add? _ _ small
    obtain ⟨trimmed, grown⟩ := (ResourceVector.add?_eq_some_iff ..).1 added
    refine ⟨.sized sum, by rw [add?, added]; rfl, trimmed, fun wild => tame (List.mem_cons_of_mem _ wild), ?_⟩
    intro d
    have := sums d
    have := grown d
    simp only [partsOf_cons, parts] at *
    omega

/-- What is left is the total less the sum of what was taken. -/
theorem sub?_sum {sum : Profile} (accounts : Accounts total left taken) (trimmed : left.Trimmed)
    (added : left.add? sum = some total) : total.sub? sum = some left := by
  match total, left, sum, accounts with
  | .any, .any, _, _ => rfl
  | .sized _, .sized _, .any, _ => cases added
  | .sized total, .sized left, .sized sum, _ =>
    obtain ⟨v, grown, same⟩ := Option.map_eq_some_iff.1 added
    obtain rfl := Profile.sized.inj same
    have sums := ((ResourceVector.add?_eq_some_iff ..).1 grown).2
    have difference : v.sub? sum = some left :=
      (ResourceVector.sub?_eq_some_iff ..).2 ⟨trimmed, fun d => (sums d).symm⟩
    rw [sub?, difference]
    rfl

/-- What is left follows from the total and what was taken. -/
theorem left_unique {other : Profile} (trimmed : left.Trimmed) (trimmed' : other.Trimmed)
    (accounts : Accounts total left taken) (accounts' : Accounts total other taken) : left = other := by
  match total, left, other, accounts, accounts' with
  | .any, .any, .any, _, _ => rfl
  | .sized _, .sized _, .sized _, ⟨_, sums⟩, ⟨_, sums'⟩ =>
    refine congrArg _ (ResourceVector.Trimmed.ext trimmed trimmed' fun d => ?_)
    have := sums d
    have := sums' d
    omega

end Accounts

/-! ### Sums of many profiles -/

theorem foldlM_any (profiles : List Profile) : profiles.foldlM add? .any = some .any := by
  induction profiles with
  | nil => rfl
  | cons p rest ih => exact ih

/-- Vectors add up in every dimension while the sums stay within 64 bits. -/
theorem foldlM_sized {profiles : List Profile} (tame : .any ∉ profiles) {first : ResourceVector}
    (trimmed : first.Trimmed) (small : ∀ d, first.parts d + partsOf profiles d < Numeral.bound64) :
    ∃ sum : ResourceVector, profiles.foldlM add? (.sized first) = some (.sized sum) ∧ sum.Trimmed ∧
      ∀ d, sum.parts d = first.parts d + partsOf profiles d := by
  induction profiles generalizing first with
  | nil => exact ⟨first, rfl, trimmed, fun d => rfl⟩
  | cons p rest ih =>
    cases p with
    | any => simp at tame
    | sized v =>
      obtain ⟨next, added⟩ := ResourceVector.exists_add? first v fun d => by
        have := small d
        simp only [partsOf_cons, parts] at this
        omega
      obtain ⟨trimmed', grown⟩ := (ResourceVector.add?_eq_some_iff ..).1 added
      obtain ⟨sum, folded, last, sums⟩ := ih (fun wild => tame (List.mem_cons_of_mem _ wild)) trimmed' fun d => by
        have := small d
        simp only [partsOf_cons, parts] at this
        rw [grown]
        omega
      refine ⟨sum, ?_, last, fun d => ?_⟩
      · rw [List.foldlM_cons, add?, added]
        exact folded
      · rw [sums, grown, partsOf_cons, parts]
        omega

theorem exists_foldlM {profiles : List Profile} {first : ResourceVector}
    (small : ∀ d, first.parts d + partsOf profiles d < Numeral.bound64) :
    ∃ sum, profiles.foldlM add? (.sized first) = some sum := by
  induction profiles generalizing first with
  | nil => exact ⟨.sized first, rfl⟩
  | cons p rest ih =>
    cases p with
    | any => exact ⟨.any, foldlM_any rest⟩
    | sized v =>
      have apart : ∀ d, first.parts d + v.parts d + partsOf rest d < Numeral.bound64 := fun d => by
        have := small d
        simp only [partsOf_cons, parts] at this
        omega
      obtain ⟨next, added⟩ := ResourceVector.exists_add? first v fun d => by
        have := apart d
        omega
      obtain ⟨sum, folded⟩ := @ih next fun d => by
        rw [((ResourceVector.add?_eq_some_iff ..).1 added).2]
        exact apart d
      exact ⟨sum, by rw [List.foldlM_cons, add?, added]; exact folded⟩

private theorem trimmed_nil : ResourceVector.Trimmed ⟨[]⟩ := ⟨[], rfl⟩

/-- The sum of what was taken, added to what is left, gives the total. -/
theorem Accounts.sum {total left : Profile} {taken : List Profile} (accounts : Accounts total left taken)
    (trimmed : total.Trimmed) (small : Addable taken) :
    ∃ sum, sum? taken = some sum ∧ left.add? sum = some total := by
  have small' : ∀ d, (ResourceVector.mk []).parts d + partsOf taken d < Numeral.bound64 := fun d => by
    have := small d
    simpa [ResourceVector.parts, ResourceVector.get] using this
  match total, left, accounts with
  | .any, .any, _ =>
    obtain ⟨sum, folded⟩ := exists_foldlM small'
    exact ⟨sum, folded, by rw [add?]; exact nofun⟩
  | .sized total, .sized left, ⟨tame, sums⟩ =>
    obtain ⟨sum, folded, _, held⟩ := foldlM_sized tame trimmed_nil small'
    refine ⟨.sized sum, folded, ?_⟩
    have added : left.add? sum = some total := (ResourceVector.add?_eq_some_iff ..).2 ⟨trimmed, fun d => by
      have := sums d
      have := held d
      simp [ResourceVector.parts, ResourceVector.get] at *
      omega⟩
    rw [add?, added]
    rfl

end Profile

end SlotControl
