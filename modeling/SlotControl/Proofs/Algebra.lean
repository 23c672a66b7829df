import SlotControl.Proofs.Resources

/-!
Profiles as an ordered algebra. They are ordered by the room that they offer, with the wildcard on top; a difference
exists exactly for what there is room for; and taking and giving cancel, in any order and grouping, while the amounts
stay within 64 bits. Main statement: `ordered_algebra`.
-/

namespace SlotControl

/-! ## Vectors -/

namespace ResourceVector

variable {a b c ab bc : ResourceVector}

theorem add?_comm (a b : ResourceVector) : a.add? b = b.add? a := by
  refine Option.ext fun sum => ?_
  rw [add?_eq_some_iff, add?_eq_some_iff]
  simp only [Nat.add_comm]

/-- Grouped one way or the other, the sum of three is the same, and too large or not. -/
theorem add?_assoc (left : a.add? b = some ab) (right : b.add? c = some bc) : ab.add? c = a.add? bc := by
  have lefts := ((add?_eq_some_iff ..).1 left).2
  have rights := ((add?_eq_some_iff ..).1 right).2
  refine Option.ext fun sum => ?_
  rw [add?_eq_some_iff, add?_eq_some_iff]
  simp only [lefts, rights, Nat.add_assoc]

/-- What was subtracted can be added again. -/
theorem add?_of_sub? (trimmed : a.Trimmed) (difference : a.sub? b = some c) : c.add? b = some a :=
  (add?_eq_some_iff ..).2 ⟨trimmed, fun d => (((sub?_eq_some_iff ..).1 difference).2 d).symm⟩

/-- What was added can be subtracted again. -/
theorem sub?_of_add? (trimmed : a.Trimmed) (sum : a.add? b = some c) : c.sub? b = some a :=
  (sub?_eq_some_iff ..).2 ⟨trimmed, fun d => (((add?_eq_some_iff ..).1 sum).2 d).symm⟩

/-- What remains when two are subtracted one after the other. -/
theorem sub?_sub?_eq_some_iff : (a.sub? b).bind (·.sub? c) = some ab ↔
    ab.Trimmed ∧ ∀ d, ab.parts d + (b.parts d + c.parts d) = a.parts d := by
  rw [Option.bind_eq_some_iff]
  constructor
  · rintro ⟨rest, first, second⟩
    obtain ⟨trimmed, seconds⟩ := (sub?_eq_some_iff ..).1 second
    refine ⟨trimmed, fun d => ?_⟩
    have := ((sub?_eq_some_iff ..).1 first).2 d
    have := seconds d
    omega
  · rintro ⟨trimmed, sums⟩
    have room : ∀ d, b.parts d ≤ a.parts d := fun d => by
      have := sums d
      omega
    obtain ⟨rest, first⟩ := exists_sub? a b room
    refine ⟨rest, first, (sub?_eq_some_iff ..).2 ⟨trimmed, fun d => ?_⟩⟩
    have := ((sub?_eq_some_iff ..).1 first).2 d
    have := sums d
    omega

theorem sub?_sub?_comm (a b c : ResourceVector) : (a.sub? b).bind (·.sub? c) = (a.sub? c).bind (·.sub? b) := by
  refine Option.ext fun rest => ?_
  rw [sub?_sub?_eq_some_iff, sub?_sub?_eq_some_iff]
  simp only [Nat.add_comm]

/-- Two can be subtracted together if their sum is not too large. -/
theorem sub?_sub? (sum : b.add? c = some bc) : (a.sub? b).bind (·.sub? c) = a.sub? bc := by
  refine Option.ext fun rest => ?_
  rw [sub?_sub?_eq_some_iff, sub?_eq_some_iff]
  simp only [((add?_eq_some_iff ..).1 sum).2]

end ResourceVector

/-! ## Profiles -/

namespace Profile

variable {a b c ab bc : Profile}

theorem sized_add? (v w : ResourceVector) : (sized v).add? (sized w) = (v.add? w).map sized := rfl

theorem sized_sub? (v w : ResourceVector) : (sized v).sub? (sized w) = (v.sub? w).map sized := rfl

theorem add?_any (a : Profile) : a.add? .any = some .any := by
  cases a <;> rfl

theorem any_sub? (a : Profile) : any.sub? a = some .any := by
  cases a <;> rfl

/-! ### The order -/

theorem covers_refl (a : Profile) : a.covers a = true := by
  cases a with
  | any => rfl
  | sized v => exact (v.covers_iff v).2 fun d => Nat.le_refl _

theorem covers_trans (first : a.covers b = true) (second : b.covers c = true) : a.covers c = true := by
  match a, b, c with
  | .any, _, _ => rfl
  | .sized _, .any, _ => cases first
  | .sized _, .sized _, .any => cases second
  | .sized u, .sized v, .sized w =>
    have first := (u.covers_iff v).1 first
    have second := (v.covers_iff w).1 second
    exact (u.covers_iff w).2 fun d => Nat.le_trans (second d) (first d)

theorem covers_antisymm (left : a.Trimmed) (right : b.Trimmed) (more : a.covers b = true) (less : b.covers a = true) :
    a = b := by
  match a, b with
  | .any, .any => rfl
  | .sized _, .any => cases more
  | .any, .sized _ => cases less
  | .sized v, .sized w =>
    have more := (v.covers_iff w).1 more
    have less := (w.covers_iff v).1 less
    exact congrArg _ (ResourceVector.Trimmed.ext left right fun d => Nat.le_antisymm (less d) (more d))

/-- The wildcard has room for everything, and nothing else has room for it. -/
theorem covers_any_iff (a : Profile) : a.covers .any = true ↔ a = .any := by
  cases a <;> simp [covers]

/-! ### Sums -/

theorem add?_comm (a b : Profile) : a.add? b = b.add? a := by
  match a, b with
  | .any, b => rw [any_add?, add?_any]
  | a, .any => rw [any_add?, add?_any]
  | .sized v, .sized w => rw [sized_add?, sized_add?, v.add?_comm]

/-- The sum of two vectors is a vector, if it is not too large. -/
theorem sized_add?_eq_some_iff {v w : ResourceVector} {sum : Profile} : (sized v).add? (sized w) = some sum ↔
    ∃ u, v.add? w = some u ∧ sum = sized u := by
  rw [sized_add?, Option.map_eq_some_iff]
  simp only [eq_comm]

theorem add?_assoc (left : a.add? b = some ab) (right : b.add? c = some bc) : ab.add? c = a.add? bc := by
  match a, b, c with
  | .any, b, c =>
    rw [any_add?] at left
    rw [← Option.some.inj left, any_add?, any_add?]
  | a, .any, c =>
    rw [add?_any] at left
    rw [any_add?] at right
    rw [← Option.some.inj left, ← Option.some.inj right, any_add?, add?_any]
  | a, b, .any =>
    rw [add?_any] at right
    rw [← Option.some.inj right, add?_any, add?_any]
  | .sized u, .sized v, .sized w =>
    obtain ⟨uv, added, rfl⟩ := sized_add?_eq_some_iff.1 left
    obtain ⟨vw, added', rfl⟩ := sized_add?_eq_some_iff.1 right
    rw [sized_add?, sized_add?, ResourceVector.add?_assoc added added']

/-! ### Differences -/

theorem trimmed_of_sub? (difference : a.sub? b = some c) : c.Trimmed := by
  match a, b with
  | .any, _ => exact Option.some.inj difference ▸ trivial
  | .sized _, .any => cases difference
  | .sized v, .sized w =>
    obtain ⟨rest, subtracted, rfl⟩ := Option.map_eq_some_iff.1 difference
    exact ((ResourceVector.sub?_eq_some_iff ..).1 subtracted).1

/-- What was taken can be given back. -/
theorem add?_of_sub? (trimmed : a.Trimmed) (difference : a.sub? b = some c) : c.add? b = some a := by
  match a, b with
  | .any, b =>
    rw [any_sub?] at difference
    rw [← Option.some.inj difference, any_add?]
  | .sized _, .any => cases difference
  | .sized v, .sized w =>
    obtain ⟨rest, subtracted, rfl⟩ := Option.map_eq_some_iff.1 difference
    rw [sized_add?, ResourceVector.add?_of_sub? trimmed subtracted]
    rfl

/-- What was given can be taken back, unless a wildcard has absorbed it. -/
theorem sub?_of_add? (trimmed : a.Trimmed) (tame : a ≠ .any) (tame' : b ≠ .any) (sum : a.add? b = some c) :
    c.sub? b = some a := by
  match a, b with
  | .any, _ => exact absurd rfl tame
  | .sized _, .any => exact absurd rfl tame'
  | .sized v, .sized w =>
    obtain ⟨total, added, rfl⟩ := sized_add?_eq_some_iff.1 sum
    rw [sized_sub?, ResourceVector.sub?_of_add? trimmed added]
    rfl

private theorem bind_sub?_any (rest : Option ResourceVector) : (rest.map sized).bind (·.sub? .any) = none := by
  cases rest <;> rfl

private theorem bind_sub?_sized (rest : Option ResourceVector) (w : ResourceVector) :
    (rest.map sized).bind (·.sub? (sized w)) = (rest.bind (·.sub? w)).map sized := by
  cases rest <;> rfl

/-- Two profiles can be taken in one order exactly if they can be taken in the other, and the same remains. -/
theorem sub?_sub?_comm (a b c : Profile) : (a.sub? b).bind (·.sub? c) = (a.sub? c).bind (·.sub? b) := by
  match a, b, c with
  | .any, b, c => rw [any_sub?, any_sub?, Option.bind_some, Option.bind_some, any_sub?, any_sub?]
  | .sized _, .any, .any => rfl
  | .sized u, .any, .sized w => exact (bind_sub?_any (u.sub? w)).symm
  | .sized u, .sized v, .any => exact bind_sub?_any (u.sub? v)
  | .sized u, .sized v, .sized w =>
    rw [sized_sub?, sized_sub?, bind_sub?_sized, bind_sub?_sized, u.sub?_sub?_comm]

/-- Two profiles can be taken together, if their sum is not too large. -/
theorem sub?_sub? (sum : b.add? c = some bc) : (a.sub? b).bind (·.sub? c) = a.sub? bc := by
  match a, b, c with
  | .any, b, c => rw [any_sub?, any_sub?, Option.bind_some, any_sub?]
  | .sized _, .any, c =>
    rw [any_add?] at sum
    rw [← Option.some.inj sum]
    rfl
  | .sized u, .sized v, .any =>
    rw [add?_any] at sum
    rw [← Option.some.inj sum]
    exact bind_sub?_any (u.sub? v)
  | .sized u, .sized v, .sized w =>
    obtain ⟨vw, added, rfl⟩ := sized_add?_eq_some_iff.1 sum
    rw [sized_sub?, sized_sub?, bind_sub?_sized, ResourceVector.sub?_sub? added]

/-- The laws of profiles without zeros at the end. Room is a partial order with the wildcard on top; a difference
    exists exactly where there is room, has no zeros at its end, and gives the first profile back when the second is
    added; a sum of vectors that is not too large gives the first one back when the second is subtracted; sums do not
    depend on order and grouping; and two subtractions come to the same in either order, and to the subtraction of the
    sum if that is not too large. -/
theorem ordered_algebra (left : a.Trimmed) (right : b.Trimmed) (c : Profile) :
    (a.covers a = true ∧ (a.covers b = true → b.covers a = true → a = b) ∧
      (a.covers b = true → b.covers c = true → a.covers c = true) ∧
      any.covers a = true ∧ (a.covers .any = true ↔ a = .any)) ∧
    ((∃ rest, a.sub? b = some rest) ↔ a.covers b = true) ∧
    (∀ rest, a.sub? b = some rest → rest.Trimmed ∧ rest.add? b = some a) ∧
    (a ≠ .any → b ≠ .any → ∀ sum, a.add? b = some sum → sum.sub? b = some a) ∧
    a.add? b = b.add? a ∧
    (∀ ab bc, a.add? b = some ab → b.add? c = some bc → ab.add? c = a.add? bc) ∧
    (a.sub? b).bind (·.sub? c) = (a.sub? c).bind (·.sub? b) ∧
    ∀ bc, b.add? c = some bc → (a.sub? b).bind (·.sub? c) = a.sub? bc := by
  refine ⟨⟨covers_refl a, covers_antisymm left right, covers_trans, rfl, covers_any_iff a⟩, exists_sub?_iff a b,
    fun rest difference => ?_, fun tame tame' sum => ?_, add?_comm a b, ?_, ?_, ?_⟩
  · exact ⟨trimmed_of_sub? difference, add?_of_sub? left difference⟩
  · exact sub?_of_add? left tame tame'
  · exact fun ab bc => add?_assoc
  · exact sub?_sub?_comm a b c
  · exact fun bc => sub?_sub?

/-- Four processors and two units of a third resource, but no memory. -/
private def machine : Profile := .ofAmounts [.ofUnits 4, .zero, .ofUnits 2]

/-- Two units of the third resource alone. -/
private def devices : Profile := .ofAmounts [.zero, .zero, .ofUnits 2]

/-- Without its devices the machine is no longer than its processors, and it gets them back. -/
theorem ordered_algebra_shortened : machine.Trimmed ∧ devices.Trimmed ∧
    machine.sub? devices = some (.ofUnits 4 0) ∧ (Profile.ofUnits 4 0).Trimmed ∧
    (Profile.ofUnits 4 0).add? devices = some machine ∧
    (machine.sub? devices).bind (·.sub? (.ofUnits 3 0)) = (machine.sub? (.ofUnits 3 0)).bind (·.sub? devices) := by
  have trimmed : machine.Trimmed := by decide
  have trimmed' : devices.Trimmed := by decide
  have difference : machine.sub? devices = some (.ofUnits 4 0) := by decide
  obtain ⟨-, -, gives, -, -, -, commutes, -⟩ := ordered_algebra trimmed trimmed' (.ofUnits 3 0)
  obtain ⟨rest_trimmed, sum⟩ := gives _ difference
  exact ⟨trimmed, trimmed', difference, rest_trimmed, sum, commutes⟩

end Profile

end SlotControl
