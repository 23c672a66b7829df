import Mathlib.Data.List.Basic
import Mathlib.Data.List.Induction
import SlotControl.SortedMap

/-!
What a finite map lists: which keys and values occur, and how an insertion or an erasure changes the
listing up to its order. Equations between maps go through their look-ups.
-/

namespace SlotControl.SortedMap
set_option linter.unusedSectionVars false

variable {κ : Type u} {ν : Type v} [Ord κ] [Std.TransOrd κ] [Std.LawfulEqOrd κ] [DecidableEq κ]

/-! ## Look-ups after updates -/

@[simp] theorem get?_insert_self (map : SortedMap κ ν) (key : κ) (value : ν) :
    (map.insert key value).get? key = some value := by simp [get?_insert]

@[simp] theorem get?_erase_self (map : SortedMap κ ν) (key : κ) : (map.erase key).get? key = none := by
  simp [get?_erase]

/-- A map of one entry has no other. -/
theorem eq_of_get?_single {key other : κ} {value found : ν}
    (present : (empty.insert key value).get? other = some found) : key = other ∧ value = found := by
  rw [get?_insert] at present
  split at present
  · next same => exact ⟨same.symm, Option.some.inj present⟩
  · cases present

/-- Erasing many keys leaves the entries of the others. -/
theorem get?_foldl_erase (keys : List κ) (map : SortedMap κ ν) (other : κ) :
    (keys.foldl erase map).get? other = if other ∈ keys then none else map.get? other := by
  induction keys generalizing map with
  | nil => simp
  | cons key rest ih =>
    rw [List.foldl_cons, ih, get?_erase]
    by_cases later : other ∈ rest
    · simp [later]
    · by_cases same : other = key <;> simp [later, same]

/-- The last entry is the one that counts for its key. -/
theorem get?_ofList_concat (entries : List (κ × ν)) (last : κ × ν) (key : κ) :
    (ofList (entries ++ [last])).get? key = if key = last.1 then some last.2 else (ofList entries).get? key := by
  rw [ofList, List.foldl_append]
  exact get?_insert ..

/-- A map of entries finds nothing under other keys. -/
theorem get?_ofList_eq_none_iff {entries : List (κ × ν)} {key : κ} :
    (ofList entries).get? key = none ↔ key ∉ entries.map (·.1) := by
  induction entries using List.reverseRecOn with
  | nil => exact iff_of_true rfl (List.not_mem_nil)
  | append_singleton entries last ih =>
    rw [get?_ofList_concat, List.map_append, List.mem_append, List.map_singleton, List.mem_singleton]
    by_cases same : key = last.1
    · simp [same]
    · simp [same, ih]

/-- Under a key the map finds what its last entry holds. -/
theorem get?_ofList_eq_some_iff_last {entries : List (κ × ν)} {key : κ} {value : ν} :
    (ofList entries).get? key = some value ↔
      ∃ earlier later, entries = earlier ++ (key, value) :: later ∧ key ∉ later.map (·.1) := by
  induction entries using List.reverseRecOn with
  | nil =>
    rw [get?_ofList_eq_none_iff.2 (List.not_mem_nil)]
    simp
  | append_singleton entries last ih =>
    rw [get?_ofList_concat]
    constructor
    · intro found
      split at found
      · next same =>
        exact ⟨entries, [], by rw [same, ← Option.some.inj found], List.not_mem_nil⟩
      · next apart =>
        obtain ⟨earlier, later, rfl, unlisted⟩ := ih.1 found
        exact ⟨earlier, later ++ [last], by simp, by simp_all⟩
    · rintro ⟨earlier, later, split, unlisted⟩
      rcases List.eq_nil_or_concat later with rfl | ⟨rest, final, rfl⟩
      · obtain ⟨-, same⟩ := List.append_inj' split rfl
        obtain rfl := List.singleton_inj.1 same
        exact if_pos rfl
      · rw [List.concat_eq_append, ← List.cons_append, ← List.append_assoc] at split
        obtain ⟨rfl, same⟩ := List.append_inj' split rfl
        obtain rfl := List.singleton_inj.1 same
        rw [List.concat_eq_append, List.map_append, List.mem_append, not_or] at unlisted
        rw [if_neg (by simpa using unlisted.2), ih]
        exact ⟨earlier, rest, rfl, unlisted.1⟩

/-- A map of entries with distinct keys finds exactly these. -/
theorem get?_ofList_eq_some_iff {entries : List (κ × ν)} (distinct : (entries.map (·.1)).Nodup) (key : κ)
    (value : ν) : (ofList entries).get? key = some value ↔ (key, value) ∈ entries := by
  rw [get?_ofList_eq_some_iff_last]
  constructor
  · rintro ⟨earlier, later, rfl, -⟩
    simp
  · intro inside
    obtain ⟨earlier, later, rfl⟩ := List.append_of_mem inside
    rw [List.map_append, List.map_cons] at distinct
    exact ⟨earlier, later, rfl, (List.nodup_cons.1 (List.nodup_append.1 distinct).2.1).1⟩

/-- Writing what already stands there changes nothing. -/
theorem insert_of_get? {map : SortedMap κ ν} {key : κ} {value : ν} (present : map.get? key = some value) :
    map.insert key value = map := by
  apply ext
  intro other
  rw [get?_insert]
  split
  · next same => rw [same, present]
  · rfl

theorem erase_of_get? {map : SortedMap κ ν} {key : κ} (absent : map.get? key = none) :
    map.erase key = map := by
  apply ext
  intro other
  rw [get?_erase]
  split
  · next same => rw [same, absent]
  · rfl

@[simp] theorem insert_erase (map : SortedMap κ ν) (key : κ) (value : ν) :
    (map.erase key).insert key value = map.insert key value := by
  apply ext
  intro other
  simp only [get?_insert, get?_erase]
  split <;> rfl

/-! ## Listings -/

theorem mem_values (map : SortedMap κ ν) (value : ν) :
    value ∈ map.values ↔ ∃ key, map.get? key = some value := by
  simp [values, get?_eq_some_iff]

theorem mem_keys (map : SortedMap κ ν) (key : κ) :
    key ∈ map.keys ↔ ∃ value, map.get? key = some value := by
  simp [keys, get?_eq_some_iff]

theorem isEmpty_iff (map : SortedMap κ ν) : map.isEmpty = true ↔ ∀ key, map.get? key = none := by
  constructor
  · intro none_listed key
    rw [isEmpty, List.isEmpty_iff] at none_listed
    simp [get?, none_listed, lookup]
  · intro absent
    have same : map = empty := ext fun key => by rw [absent, get?_empty]
    rw [same]
    rfl

@[simp] theorem isEmpty_insert (map : SortedMap κ ν) (key : κ) (value : ν) :
    (map.insert key value).isEmpty = false := by
  rw [Bool.eq_false_iff, ne_eq, isEmpty_iff]
  intro absent
  simpa using absent key

theorem nodup_keys (map : SortedMap κ ν) : map.keys.Nodup := by
  rw [keys, List.Nodup, List.pairwise_map]
  exact map.sorted.imp fun less equal => by simp [equal] at less

theorem nodup_entries (map : SortedMap κ ν) : map.entries.Nodup := by
  have keys := nodup_keys map
  rw [SortedMap.keys, List.Nodup, List.pairwise_map] at keys
  exact keys.imp fun apart equal => apart (congrArg Prod.fst equal)

/-- An insertion lists the new entry beside those of the other keys. -/
theorem entries_insert_perm (map : SortedMap κ ν) (key : κ) (value : ν) :
    (map.insert key value).entries.Perm ((key, value) :: (map.erase key).entries) := by
  have absent : (key, value) ∉ (map.erase key).entries := by
    rw [← get?_eq_some_iff, get?_erase_self]
    exact nofun
  refine (List.perm_ext_iff_of_nodup (nodup_entries _) (List.nodup_cons.2 ⟨absent, nodup_entries _⟩)).2 ?_
  rintro ⟨other, held⟩
  rw [List.mem_cons, ← get?_eq_some_iff, ← get?_eq_some_iff, get?_insert, get?_erase, Prod.mk.injEq]
  by_cases same : other = key <;> simp [same, eq_comm]

theorem values_insert_perm (map : SortedMap κ ν) (key : κ) (value : ν) :
    (map.insert key value).values.Perm (value :: (map.erase key).values) :=
  (entries_insert_perm map key value).map Prod.snd

/-- A present entry is listed beside those that its erasure leaves. -/
theorem values_erase_perm {map : SortedMap κ ν} {key : κ} {value : ν} (present : map.get? key = some value) :
    map.values.Perm (value :: (map.erase key).values) := by
  have listed := values_insert_perm map key value
  rwa [insert_of_get? present] at listed

/-- Where the values tell their keys, an erasure takes one of them from the listing. -/
theorem values_erase {map : SortedMap κ ν} {keyOf : ν → κ} (keyed : ∀ entry ∈ map.entries, keyOf entry.2 = entry.1)
    (key : κ) : (map.erase key).values = map.values.filter (keyOf · ≠ key) := by
  rw [values, values, erase, List.filter_map]
  refine congrArg _ (List.filter_congr fun entry inside => ?_)
  rw [Function.comp_apply, keyed entry inside, Bool.eq_iff_iff, bne_iff_ne, decide_eq_true_iff, ne_eq,
    Std.compare_eq_iff_eq, eq_comm]

/-- The values are found under the keys. -/
theorem filterMap_keys (map : SortedMap κ ν) : map.keys.filterMap map.get? = map.values := by
  rw [keys, values, List.filterMap_map, List.filterMap_eq_map_iff_forall_eq_some]
  rintro ⟨key, value⟩ inside
  exact (get?_eq_some_iff map key value).2 inside

/-- A value that replaces another one stands under the same key. -/
theorem keys_insert_of_get? {map : SortedMap κ ν} {key : κ} {old : ν} (present : map.get? key = some old) (new : ν) :
    (map.insert key new).keys = map.keys := by
  have sorted : ∀ map : SortedMap κ ν, map.keys.Pairwise fun a b => compare a b = .lt := fun map =>
    List.pairwise_map.2 map.sorted
  refine List.Perm.eq_of_pairwise (fun a b _ _ less more => ?_) (sorted _) (sorted _) ?_
  · have swapped : compare b a = (compare a b).swap := Std.OrientedCmp.eq_swap
    rw [more, less] at swapped
    cases swapped
  · refine (List.perm_ext_iff_of_nodup (nodup_keys _) (nodup_keys _)).2 fun other => ?_
    rw [mem_keys, mem_keys, get?_insert]
    split
    · next same => simp [same, present]
    · rfl

end SlotControl.SortedMap
