import SlotControl.Identifier
import SlotControl.Resource.Amount

/-!
Vectors of amounts and the profiles of slots and workers: either a vector or a wildcard. The
operations on profiles leave no zeros at the end of a vector, so that equal resources are equal
values; a vector that comes from elsewhere is kept as it is.
-/

namespace SlotControl

/-- Amounts by dimension; dimensions beyond the end hold nothing. The dimensions are the ids of resources, for vectors
    of no more than 2^32 amounts. -/
structure ResourceVector where
  amounts : List Amount
  deriving DecidableEq, Hashable, Inhabited

namespace ResourceVector

/-- Removes the zeros at the end. -/
def trim : List Amount → List Amount
  | [] => []
  | a :: rest =>
    match trim rest with
    | [] => if a.isZero then [] else [a]
    | kept => a :: kept

/-- The vector of the given amounts, without zeros at the end. -/
def ofAmounts (amounts : List Amount) : ResourceVector := ⟨trim amounts⟩

/-- The amount in a dimension. -/
def get (v : ResourceVector) (dimension : Nat) : Amount := v.amounts.getD dimension Amount.zero

/-- No amount is stored. -/
def isEmpty (v : ResourceVector) : Bool := v.amounts.isEmpty

/-- The dimensions from `first` on that hold something, with their amounts. -/
def nonzeroFrom (first : Nat) : List Amount → List (Nat × Amount)
  | [] => []
  | a :: rest =>
    if a.isZero then nonzeroFrom (first + 1) rest else (first, a) :: nonzeroFrom (first + 1) rest

/-- The dimensions that hold something, with their amounts. -/
def nonzero (v : ResourceVector) : List (Nat × Amount) := nonzeroFrom 0 v.amounts

instance : Ord ResourceVector := ⟨compareOn amounts⟩
instance : Std.TransOrd ResourceVector := inferInstanceAs (Std.TransCmp (compareOn amounts))
instance : Std.LawfulEqOrd ResourceVector where
  eq_of_compare {a b} equal := by
    cases a; cases b
    exact congrArg _ (Std.compare_eq_iff_eq.1 equal)

/-- Combines two lists dimension by dimension, the shorter one continued with nothing. -/
def combine? (f : Amount → Amount → Option Amount) : List Amount → List Amount → Option (List Amount)
  | as, [] => as.mapM fun a => f a Amount.zero
  | [], b :: bs => do return (← f Amount.zero b) :: (← combine? f [] bs)
  | a :: as, b :: bs => do return (← f a b) :: (← combine? f as bs)

/-- The sum in every dimension, unless one is too large. -/
def add? (a b : ResourceVector) : Option ResourceVector :=
  (combine? Amount.add? a.amounts b.amounts).map ofAmounts

/-- The difference in every dimension, unless one would be negative. -/
def sub? (a b : ResourceVector) : Option ResourceVector :=
  (combine? Amount.sub? a.amounts b.amounts).map ofAmounts

/-- In every dimension the first list holds no less than the second. -/
def coversAmounts : List Amount → List Amount → Bool
  | _, [] => true
  | [], b :: bs => b.isZero && coversAmounts [] bs
  | a :: as, b :: bs => decide (b.parts ≤ a.parts) && coversAmounts as bs

/-- In every dimension the first vector holds no less than the second. -/
def covers (a b : ResourceVector) : Bool := coversAmounts a.amounts b.amounts

/-- How often a slot fits into a capacity: the least quotient over the dimensions that the slot
    uses; undefined for a slot that uses none. -/
def quotient? (capacity slot : ResourceVector) : Option Nat :=
  (slot.nonzero.map fun used => ((capacity.get used.1).quotient? used.2).getD 0).min?

end ResourceVector

/-- The resources of a slot or a worker: a wildcard or a vector. A wildcard asked for takes what it
    gets, and a wildcard offered is never exhausted. -/
inductive Profile where
  | any
  | sized (vector : ResourceVector)
  deriving DecidableEq, Hashable

namespace Profile

/-- The profile without resources. -/
def zero : Profile := .sized ⟨[]⟩

instance : Inhabited Profile := ⟨zero⟩

/-- The profile of the given amounts, without zeros at the end. -/
def ofAmounts (amounts : List Amount) : Profile := .sized (.ofAmounts amounts)

/-- The profile of processors and memory. -/
def ofResources (cpus memory : Amount) : Profile := ofAmounts [cpus, memory]

/-- The profile of whole processors and units of memory. -/
def ofUnits (cpus memory : UInt32) : Profile := ofResources (.ofUnits cpus) (.ofUnits memory)

/-- The wildcard comes before every vector; vectors are ordered as lists of amounts. -/
def order : Profile → Profile → Ordering
  | .any, .any => .eq
  | .any, .sized _ => .lt
  | .sized _, .any => .gt
  | .sized a, .sized b => compare a b

instance : Ord Profile := ⟨order⟩

instance : Std.TransOrd Profile where
  eq_swap {a b} := by
    match a, b with
    | .any, .any | .any, .sized _ | .sized _, .any => rfl
    | .sized v, .sized w =>
      have swapped : compare v w = (compare w v).swap := Std.OrientedOrd.eq_swap
      exact swapped
  isLE_trans {a b c} ab bc := by
    cases a <;> cases b <;> cases c <;> simp_all [compare, order]
    exact Std.TransOrd.isLE_trans ab bc

instance : Std.LawfulEqOrd Profile where
  eq_of_compare {a b} equal := by
    cases a <;> cases b <;> simp only [compare, order] at equal
    · rfl
    · cases equal
    · cases equal
    · exact congrArg _ (Std.compare_eq_iff_eq.1 equal)

/-- The profile is the wildcard. -/
def isAny : Profile → Bool
  | .any => true
  | .sized _ => false

/-- The profile stores no amount. -/
def isZero : Profile → Bool
  | .any => false
  | .sized v => v.isEmpty

/-- The amount in a dimension; undefined for the wildcard. -/
def get? : Profile → Nat → Option Amount
  | .any, _ => none
  | .sized v, dimension => some (v.get dimension)

/-- A capacity of the first profile has room for the second. -/
def covers : Profile → Profile → Bool
  | .any, _ => true
  | .sized _, .any => false
  | .sized a, .sized b => a.covers b

/-- What remains of a capacity; undefined if it has no room. -/
def sub? : Profile → Profile → Option Profile
  | .any, _ => some .any
  | .sized _, .any => none
  | .sized a, .sized b => (a.sub? b).map .sized

/-- Both profiles together, unless an amount is too large. -/
def add? : Profile → Profile → Option Profile
  | .sized a, .sized b => (a.add? b).map .sized
  | _, _ => some .any

/-- The profiles of a list together, added one after the other, unless an amount becomes too
    large on the way. -/
def sum? (profiles : List Profile) : Option Profile := profiles.foldlM add? zero

/-- The largest count that is reported for slots that fit. -/
def countLimit : Nat := 4294967295

/-- How many slots of a profile fit into a capacity, as far as 32 bits tell; undefined for
    wildcards and for a slot without resources. -/
def fits? : Profile → Profile → Option Nat
  | .sized capacity, .sized slot => (capacity.quotient? slot).map (min · countLimit)
  | _, _ => none

/-- The name of a dimension. -/
def dimensionName : Nat → String
  | 0 => "cpus"
  | 1 => "mem"
  | n => "res" ++ Numeral.text n

/-- A dimension and its amount. -/
def entryText (dimension : Nat) (amount : Amount) : String :=
  dimensionName dimension ++ "=" ++ amount.text

/-- The text of a profile: `any`, or processors and memory and whatever else it uses. -/
def text : Profile → String
  | .any => "any"
  | .sized v =>
    let others := (v.nonzero.filter fun used => decide (1 < used.1)).map fun used => entryText used.1 used.2
    ",".intercalate (entryText 0 (v.get 0) :: entryText 1 (v.get 1) :: others)

end Profile

/-- So many slots of a profile, held by a job. -/
structure Requirement where
  profile : Profile
  count : UInt32
  deriving DecidableEq, Hashable, Inhabited

instance : Ord Requirement := ⟨compareLex (compareOn (·.profile)) (compareOn (·.count))⟩

instance : Std.TransOrd Requirement :=
  inferInstanceAs (Std.TransCmp (compareLex (compareOn Requirement.profile) (compareOn Requirement.count)))

instance : Std.LawfulEqOrd Requirement where
  eq_of_compare {a b} equal := by
    obtain ⟨profile, count⟩ := Ordering.then_eq_eq.1 equal
    cases a
    cases b
    rw [Requirement.mk.injEq]
    exact ⟨Std.compare_eq_iff_eq.1 profile, Std.compare_eq_iff_eq.1 count⟩

namespace Requirement

/-- Requirements in order of their profiles, then of their counts. -/
def sort (requirements : List Requirement) : List Requirement :=
  requirements.mergeSort fun a b => (compare a b).isLE

theorem pairwise_sort (requirements : List Requirement) :
    (sort requirements).Pairwise fun a b => (compare a b).isLE := by
  apply List.pairwise_mergeSort
  · intro a b c
    exact Std.TransOrd.isLE_trans
  · intro a b
    rw [Std.OrientedOrd.eq_swap (a := b)]
    cases compare a b <;> rfl

/-- The order in which requirements are listed is no matter where they are sorted. -/
theorem sort_eq_of_perm {listing other : List Requirement} (perm : listing.Perm other) : sort listing = sort other := by
  refine List.Perm.eq_of_pairwise (fun a b _ _ less more => ?_) (pairwise_sort listing) (pairwise_sort other) ?_
  · exact Std.compare_eq_iff_eq.1 (Std.OrientedCmp.isLE_antisymm less more)
  · exact (List.mergeSort_perm ..).trans (perm.trans (List.mergeSort_perm ..).symm)

end Requirement

end SlotControl
