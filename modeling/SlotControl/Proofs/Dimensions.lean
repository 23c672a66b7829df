import Mathlib.Algebra.Group.Nat.Defs
import SlotControl.Proofs.Resources

/-!
Dimensions as ids of resources, which are numbers of 32 bits. The operations on vectors go through the ids of all
indices at which one of them stores an amount, and an id keeps 32 bits of its index. For vectors of no more than 2^32
amounts this comes to the dimensions of the vectors. Main statements: `add?_by_ids`, `sub?_by_ids`, `covers_by_ids` and
`quotient?_by_ids`.
-/

namespace SlotControl

namespace ResourceId

/-- The id of the resource at an index. -/
def ofIndex (index : Nat) : ResourceId := ⟨index.toUInt32⟩

theorem number_ofIndex {index : Nat} (small : index < 2 ^ 32) : (ofIndex index).number.toNat = index :=
  Nat.mod_eq_of_lt small

end ResourceId

namespace ResourceVector

variable {a b capacity slot v : ResourceVector} {f : Amount → Amount → Option Amount}

/-- The amount of a resource. -/
def amountOf (v : ResourceVector) (id : ResourceId) : Amount := v.get id.number.toNat

/-- The ids of the indices at which one of the vectors stores an amount. -/
def idsOf (a b : ResourceVector) : List ResourceId :=
  (List.range (max a.amounts.length b.amounts.length)).map .ofIndex

/-- The resources of which the vector holds something, with their amounts. -/
def used (v : ResourceVector) : List (ResourceId × Amount) :=
  (v.amounts.zipIdx.filter (!·.1.isZero)).map fun entry => (.ofIndex entry.2, entry.1)

/-- There is an id for every amount that the vector stores. -/
def Narrow (v : ResourceVector) : Prop := v.amounts.length ≤ 2 ^ 32

theorem numbers_idsOf (narrow : a.Narrow) (narrow' : b.Narrow) :
    (idsOf a b).map (·.number.toNat) = List.range (max a.amounts.length b.amounts.length) := by
  rw [idsOf, List.map_map]
  refine (List.map_congr_left fun index inside => ?_).trans (List.map_id _)
  have small : index < 2 ^ 32 := Nat.lt_of_lt_of_le (List.mem_range.1 inside) (Nat.max_le.2 ⟨narrow, narrow'⟩)
  exact ResourceId.number_ofIndex small

/-! ## Two vectors -/

private theorem range_succ_mapM {α : Type} (g : Nat → Option α) (n : Nat) : (List.range (n + 1)).mapM g =
    (g 0).bind fun c => ((List.range n).mapM fun i => g (i + 1)).bind fun cs => some (c :: cs) := by
  rw [List.range_succ_eq_map, List.mapM_cons, List.mapM_map]
  rfl

/-- Two lists are combined index by index. -/
private theorem combine?_eq_mapM : ∀ as bs : List Amount, combine? f as bs =
    (List.range (max as.length bs.length)).mapM fun i => f (as.getD i .zero) (bs.getD i .zero)
  | [], [] => by simp [combine?]
  | a :: as, [] => by
    have rest := combine?_eq_mapM as []
    simp only [combine?, List.length_nil, Nat.max_zero, List.getD_nil] at rest
    simp only [combine?, List.length_cons, List.length_nil, Nat.max_zero, List.mapM_cons, range_succ_mapM, rest]
    rfl
  | [], b :: bs => by
    have rest := combine?_eq_mapM [] bs
    simp only [List.length_nil, Nat.zero_max, List.getD_nil] at rest
    simp only [combine?, List.length_cons, List.length_nil, Nat.zero_max, range_succ_mapM, rest]
    rfl
  | a :: as, b :: bs => by
    have rest := combine?_eq_mapM as bs
    simp only [combine?, List.length_cons, Nat.add_max_add_right, range_succ_mapM, rest]
    rfl

private theorem combine?_by_ids (narrow : a.Narrow) (narrow' : b.Narrow) :
    combine? f a.amounts b.amounts = (idsOf a b).mapM fun id => f (a.amountOf id) (b.amountOf id) := by
  rw [combine?_eq_mapM, ← numbers_idsOf narrow narrow', List.mapM_map]
  rfl

theorem add?_by_ids (narrow : a.Narrow) (narrow' : b.Narrow) :
    a.add? b = ((idsOf a b).mapM fun id => (a.amountOf id).add? (b.amountOf id)).map ofAmounts :=
  congrArg _ (combine?_by_ids narrow narrow')

theorem sub?_by_ids (narrow : a.Narrow) (narrow' : b.Narrow) :
    a.sub? b = ((idsOf a b).mapM fun id => (a.amountOf id).sub? (b.amountOf id)).map ofAmounts :=
  congrArg _ (combine?_by_ids narrow narrow')

theorem covers_by_ids (narrow : a.Narrow) (narrow' : b.Narrow) :
    a.covers b = (idsOf a b).all fun id => decide ((b.amountOf id).parts ≤ (a.amountOf id).parts) := by
  have shift : (idsOf a b).all (fun id => decide ((b.amountOf id).parts ≤ (a.amountOf id).parts)) =
      ((idsOf a b).map (·.number.toNat)).all fun d => decide (b.parts d ≤ a.parts d) := by
    rw [List.all_map]
    rfl
  rw [shift, numbers_idsOf narrow narrow', Bool.eq_iff_iff, covers_iff, List.all_eq_true]
  simp only [List.mem_range, decide_eq_true_iff]
  constructor
  · intro room d _
    exact room d
  · intro room d
    by_cases inside : d < max a.amounts.length b.amounts.length
    · exact room d inside
    · -- Beyond both vectors there is nothing to hold.
      have beyond : b.parts d = 0 := parts_of_length_le (Nat.le_trans (Nat.le_max_right ..) (Nat.le_of_not_lt inside))
      omega

/-! ## The resources that are used -/

private theorem nonzeroFrom_eq (first : Nat) (amounts : List Amount) : nonzeroFrom first amounts =
    ((amounts.zipIdx first).filter (!·.1.isZero)).map fun entry => (entry.2, entry.1) := by
  induction amounts generalizing first with
  | nil => rfl
  | cons amount rest ih =>
    rw [nonzeroFrom, List.zipIdx_cons, List.filter_cons, ih]
    cases amount.isZero <;> rfl

theorem nonzero_by_ids (narrow : v.Narrow) : v.nonzero = v.used.map fun used => (used.1.number.toNat, used.2) := by
  rw [nonzero, nonzeroFrom_eq, used, List.map_map]
  refine List.map_congr_left fun entry inside => ?_
  have index := List.snd_lt_of_mem_zipIdx (List.mem_filter.1 inside).1
  rw [Nat.add_zero] at index
  have small : entry.2 < 2 ^ 32 := Nat.lt_of_lt_of_le index narrow
  exact Prod.ext (ResourceId.number_ofIndex small).symm rfl

theorem quotient?_by_ids (capacity : ResourceVector) (narrow : slot.Narrow) : capacity.quotient? slot =
    (slot.used.map fun used => ((capacity.amountOf used.1).quotient? used.2).getD 0).min? := by
  rw [quotient?, nonzero_by_ids narrow, List.map_map]
  rfl

end ResourceVector

end SlotControl
