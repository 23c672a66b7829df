/-!
Finite maps whose keys stand in strictly increasing order. The order is part of the type, so two
maps with the same contents are the same value, and listings come out sorted. Main statements:
`get?_insert` and `get?_erase` say what an update does to a look-up, `ext` that look-ups decide
equality.
-/

namespace SlotControl

/-- A finite map, kept as its entries in strictly increasing order of the keys. -/
structure SortedMap (κ : Type u) (ν : Type v) [Ord κ] where
  entries : List (κ × ν)
  sorted : entries.Pairwise fun a b => compare a.1 b.1 = .lt

namespace SortedMap

variable {κ : Type u} {ν : Type v} [Ord κ]

instance [DecidableEq κ] [DecidableEq ν] : DecidableEq (SortedMap κ ν) := fun a b =>
  if h : a.entries = b.entries then
    isTrue (by cases a; cases b; simp_all)
  else isFalse fun equal => h (by rw [equal])

/-- The map without entries. -/
def empty : SortedMap κ ν := ⟨[], .nil⟩

instance : EmptyCollection (SortedMap κ ν) := ⟨empty⟩
instance : Inhabited (SortedMap κ ν) := ⟨empty⟩

/-- The value that a list of entries holds under a key. -/
def lookup (key : κ) : List (κ × ν) → Option ν
  | [] => none
  | (other, value) :: rest => if compare key other = .eq then some value else lookup key rest

/-- The value under a key, if there is one. -/
def get? (map : SortedMap κ ν) (key : κ) : Option ν := lookup key map.entries

/-- Some value stands under the key. -/
def contains (map : SortedMap κ ν) (key : κ) : Bool := (map.get? key).isSome

/-- The number of entries. -/
def size (map : SortedMap κ ν) : Nat := map.entries.length

/-- No entry at all. -/
def isEmpty (map : SortedMap κ ν) : Bool := map.entries.isEmpty

/-- The keys, in increasing order. -/
def keys (map : SortedMap κ ν) : List κ := map.entries.map (·.1)

/-- The values, in the order of their keys. -/
def values (map : SortedMap κ ν) : List ν := map.entries.map (·.2)

/-- Puts an entry in its place, over an entry of the same key. -/
def place (key : κ) (value : ν) : List (κ × ν) → List (κ × ν)
  | [] => [(key, value)]
  | (other, previous) :: rest =>
    match compare key other with
    | .lt => (key, value) :: (other, previous) :: rest
    | .eq => (key, value) :: rest
    | .gt => (other, previous) :: place key value rest

/-- Every placed entry is the new one or an old one. -/
theorem mem_place {key : κ} {value : ν} {entries : List (κ × ν)} {entry : κ × ν}
    (member : entry ∈ place key value entries) : entry = (key, value) ∨ entry ∈ entries := by
  induction entries with
  | nil => simpa [place] using member
  | cons head rest ih =>
    obtain ⟨other, previous⟩ := head
    simp only [place] at member
    split at member
    · simpa using member
    · rcases List.mem_cons.1 member with same | later
      · exact .inl same
      · exact .inr (List.mem_cons_of_mem _ later)
    · rcases List.mem_cons.1 member with same | later
      · exact .inr (by simp [same])
      · exact (ih later).imp id (List.mem_cons_of_mem _)

section Ordered

variable [Std.TransOrd κ] [Std.LawfulEqOrd κ]

theorem sorted_place (key : κ) (value : ν) {entries : List (κ × ν)}
    (sorted : entries.Pairwise fun a b => compare a.1 b.1 = .lt) :
    (place key value entries).Pairwise fun a b => compare a.1 b.1 = .lt := by
  induction entries with
  | nil => simp [place]
  | cons head rest ih =>
    obtain ⟨other, previous⟩ := head
    obtain ⟨before, later⟩ := List.pairwise_cons.1 sorted
    simp only [place]
    split
    case h_1 less =>
      refine List.pairwise_cons.2 ⟨fun entry member => ?_, sorted⟩
      rcases List.mem_cons.1 member with same | inside
      · simpa [same] using less
      · exact Std.TransCmp.lt_trans less (before entry inside)
    case h_2 equal =>
      have same : key = other := Std.LawfulEqCmp.eq_of_compare equal
      exact List.pairwise_cons.2 ⟨fun entry inside => by simpa [same] using before entry inside, later⟩
    case h_3 greater =>
      refine List.pairwise_cons.2 ⟨fun entry member => ?_, ih later⟩
      rcases mem_place member with same | inside
      · simpa [same] using Std.OrientedCmp.lt_of_gt greater
      · exact before entry inside

/-- Sets the value under a key. -/
def insert (map : SortedMap κ ν) (key : κ) (value : ν) : SortedMap κ ν :=
  ⟨place key value map.entries, sorted_place key value map.sorted⟩

/-- The map of a list of entries; of two entries with one key the later counts. -/
def ofList (entries : List (κ × ν)) : SortedMap κ ν :=
  entries.foldl (fun map entry => map.insert entry.1 entry.2) empty

/-- Both maps together; `join` makes one value of the two under a common key. -/
def union (join : ν → ν → ν) (left right : SortedMap κ ν) : SortedMap κ ν :=
  right.entries.foldl
    (fun map entry =>
      map.insert entry.1 (match map.get? entry.1 with
        | some value => join value entry.2
        | none => entry.2))
    left

end Ordered

/-- Removes the entry of a key. -/
def erase (map : SortedMap κ ν) (key : κ) : SortedMap κ ν :=
  ⟨map.entries.filter fun entry => compare key entry.1 != .eq, map.sorted.filter _⟩

/-! ## What an update does to a look-up -/

@[simp] theorem get?_empty (key : κ) : (empty : SortedMap κ ν).get? key = none := rfl

section Ordered

variable [Std.TransOrd κ] [Std.LawfulEqOrd κ]

private theorem lookup_place (key other : κ) (value : ν) (entries : List (κ × ν)) :
    lookup other (place key value entries) =
      if compare other key = .eq then some value else lookup other entries := by
  induction entries with
  | nil => simp [place, lookup]
  | cons head rest ih =>
    obtain ⟨first, previous⟩ := head
    simp only [place]
    split
    · simp [lookup]
    · next equal =>
      have same : key = first := Std.LawfulEqCmp.eq_of_compare equal
      subst same
      by_cases h : compare other key = .eq <;> simp [lookup, h]
    · next greater =>
      by_cases h : compare other first = .eq
      · have same : other = first := Std.LawfulEqCmp.eq_of_compare h
        subst same
        have apart : compare other key ≠ .eq := by
          intro equal
          rw [Std.OrientedCmp.eq_comm.1 equal] at greater
          cases greater
        simp [lookup, apart]
      · simp [lookup, h, ih]

/-- An insertion changes the look-up of its own key and no other. -/
theorem get?_insert [DecidableEq κ] (map : SortedMap κ ν) (key other : κ) (value : ν) :
    (map.insert key value).get? other = if other = key then some value else map.get? other := by
  simp only [get?, insert, lookup_place, Std.compare_eq_iff_eq]

omit [Std.TransOrd κ] in
private theorem lookup_filter [DecidableEq κ] (key other : κ) (entries : List (κ × ν)) :
    lookup other (entries.filter fun entry => compare key entry.1 != .eq) =
      if other = key then none else lookup other entries := by
  induction entries with
  | nil => simp [lookup]
  | cons head rest ih =>
    obtain ⟨first, value⟩ := head
    by_cases skip : key = first
    · subst skip
      by_cases h : other = key <;> simp_all [lookup]
    · have kept : (compare key first != .eq) = true := by simpa using skip
      simp only [List.filter_cons, kept, if_true]
      by_cases h : other = first
      · subst h
        simp [lookup, Ne.symm skip]
      · simp [lookup, h, ih]

omit [Std.TransOrd κ] in
/-- An erasure empties the look-up of its own key and changes no other. -/
theorem get?_erase [DecidableEq κ] (map : SortedMap κ ν) (key other : κ) :
    (map.erase key).get? other = if other = key then none else map.get? other :=
  lookup_filter key other map.entries

omit [Std.TransOrd κ] in
theorem lookup_eq_some_iff {entries : List (κ × ν)} {key : κ} {value : ν}
    (sorted : entries.Pairwise fun a b => compare a.1 b.1 = .lt) :
    lookup key entries = some value ↔ (key, value) ∈ entries := by
  induction entries with
  | nil => simp [lookup]
  | cons head rest ih =>
    obtain ⟨first, previous⟩ := head
    obtain ⟨before, later⟩ := List.pairwise_cons.1 sorted
    by_cases h : key = first
    · subst h
      have absent : (key, value) ∉ rest := by
        intro member
        have impossible := before (key, value) member
        simp at impossible
      simp [lookup, absent, eq_comm]
    · simp [lookup, h, ih later]

omit [Std.TransOrd κ] in
/-- Look-ups find exactly the entries. -/
theorem get?_eq_some_iff (map : SortedMap κ ν) (key : κ) (value : ν) :
    map.get? key = some value ↔ (key, value) ∈ map.entries :=
  lookup_eq_some_iff map.sorted

/-- Maps with the same look-ups are equal. -/
theorem ext {left right : SortedMap κ ν} (same : ∀ key, left.get? key = right.get? key) :
    left = right := by
  have members : ∀ entry, entry ∈ left.entries ↔ entry ∈ right.entries := by
    intro ⟨key, value⟩
    rw [← get?_eq_some_iff, ← get?_eq_some_iff, same]
  have distinct : ∀ {entries : List (κ × ν)},
      (entries.Pairwise fun a b => compare a.1 b.1 = .lt) → entries.Nodup := by
    intro entries sorted
    exact sorted.imp fun less equal => by simp [equal] at less
  have perm : left.entries.Perm right.entries :=
    (List.perm_ext_iff_of_nodup (distinct left.sorted) (distinct right.sorted)).2 members
  have equal : left.entries = right.entries :=
    perm.eq_of_pairwise (fun a b _ _ ab ba => by
      rw [Std.OrientedCmp.gt_of_lt ab] at ba; cases ba) left.sorted right.sorted
  cases left; cases right; simp_all

end Ordered

end SortedMap

end SlotControl
