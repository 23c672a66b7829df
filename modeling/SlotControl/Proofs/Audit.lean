import Mathlib.Algebra.GroupWithZero.Nat
import SlotControl.Cluster.Audit
import SlotControl.Proofs.Overflow

/-!
The check of the whole state is exact, also for states that no run reaches. It compares the counts of the slots with the
ledger, but of the ledger only the totals of the jobs, and it looks up the slots in the index of owners, but of the
index only the number of entries. That suffices: entries that are not looked at would have to count for nothing. Main
statement: `audit_sound_and_complete`.
-/

namespace SlotControl

/-! ## Checks one after the other -/

namespace Checked

variable {α β : Type}

theorem OnlyOverflows.forM {check : α → Checked Unit} {items : List α}
    (all : ∀ item ∈ items, OnlyOverflows (check item)) : OnlyOverflows (items.forM check) := by
  induction items with
  | nil => exact .of_ok rfl
  | cons item rest ih =>
    obtain ⟨first, later⟩ := List.forall_mem_cons.1 all
    exact first.bind fun _ _ => ih later

theorem OnlyOverflows.foldlM {step : β → α → Checked β} (all : ∀ state item, OnlyOverflows (step state item))
    (items : List α) (start : β) : OnlyOverflows (items.foldlM step start) := by
  induction items generalizing start with
  | nil => exact .of_ok rfl
  | cons item rest ih =>
    rw [List.foldlM_cons]
    exact (all start item).bind fun next _ => ih next

/-- No sum or count is too large. -/
def Fits (x : Checked α) : Prop := x ≠ .error .additionOverflow

theorem Fits.of_ok {x : Checked α} {a : α} (succeeds : x = .ok a) : Fits x := by
  rw [Fits, succeeds]
  exact nofun

theorem Fits.of_other {defect : Defect} (other : defect ≠ .additionOverflow) : Fits (.error defect : Checked α) :=
  fun overflows => other (Except.error.inj overflows)

theorem Fits.ite {p : Prop} [Decidable p] {x y : Checked α} (positive : Fits x) (negative : Fits y) :
    Fits (if p then x else y) := by
  split
  · exact positive
  · exact negative

theorem Fits.bind {x : Checked α} {f : α → Checked β} (first : Fits x) (onward : ∀ a, x = .ok a → Fits (f a)) :
    Fits (x >>= f) := by
  cases result : x with
  | error defect => exact fun overflows => first (result.trans (congrArg Except.error (Except.error.inj overflows)))
  | ok a => exact onward a result

theorem Fits.forM {check : α → Checked Unit} {items : List α} (all : ∀ item ∈ items, Fits (check item)) :
    Fits (items.forM check) := by
  induction items with
  | nil => exact .of_ok rfl
  | cons item rest ih =>
    obtain ⟨first, later⟩ := List.forall_mem_cons.1 all
    exact first.bind fun _ _ => ih later

end Checked

open Checked (OnlyOverflows Fits)

/-! ## Sums of counts -/

/-- The slots of a job are counted under different profiles, each under one at most. -/
theorem Slot.sum_countsFor_le (job : JobId) {profiles : List Profile} (distinct : profiles.Nodup) (slots : List Slot) :
    (profiles.map fun profile => slots.countP (countsFor job profile)).sum ≤ slots.countP (·.job = job) := by
  induction profiles generalizing slots with
  | nil => exact Nat.zero_le _
  | cons first rest ih =>
    obtain ⟨new, distinct⟩ := List.nodup_cons.1 distinct
    -- The slots with the first profile do not count for the others.
    have apart : ∀ profile ∈ rest, slots.countP (countsFor job profile) =
        (slots.filter (!countsFor job first ·)).countP (countsFor job profile) := by
      intro profile inside
      rw [List.countP_filter]
      refine List.countP_congr fun slot _ => ?_
      have different : profile ≠ first := fun same => new (same ▸ inside)
      simp only [countsFor, decide_eq_true_iff, Bool.and_eq_true, Bool.not_eq_true', decide_eq_false_iff_not]
      refine ⟨fun counts => ⟨counts, fun here => different (counts.2.symm.trans here.2)⟩, And.left⟩
    have ofFirst : (slots.filter (countsFor job first)).countP (·.job = job) = slots.countP (countsFor job first) := by
      rw [List.countP_filter]
      refine List.countP_congr fun slot _ => ?_
      simp +contextual [countsFor]
    have others := ih distinct (slots.filter (!countsFor job first ·))
    have split := slots.countP_eq_countP_filter_add (·.job = job) (countsFor job first)
    rw [List.map_cons, List.sum_cons, List.map_congr_left apart]
    omega

/-- The counts of a map come to those of a smaller one together with its others. -/
theorem SortedMap.sum_values {κ : Type u} [Ord κ] [Std.TransOrd κ] [Std.LawfulEqOrd κ] [DecidableEq κ]
    (small large : SortedMap κ Nat) (inside : ∀ key n, small.get? key = some n → large.get? key = some n) :
    large.values.sum =
      small.values.sum + ((large.entries.filter fun entry => small.get? entry.1 = none).map Prod.snd).sum := by
  have perm : large.entries.Perm (small.entries ++ large.entries.filter fun entry => small.get? entry.1 = none) := by
    have nodup : (small.entries ++ large.entries.filter fun entry => small.get? entry.1 = none).Nodup := by
      refine List.nodup_append.2 ⟨nodup_entries small, (nodup_entries large).filter _, ?_⟩
      rintro ⟨key, n⟩ here _ there rfl
      rw [List.mem_filter, decide_eq_true_iff, (get?_eq_some_iff small key n).2 here] at there
      exact nomatch there.2
    refine (List.perm_ext_iff_of_nodup (nodup_entries large) nodup).2 fun ⟨key, n⟩ => ?_
    rw [List.mem_append, List.mem_filter, decide_eq_true_iff, ← get?_eq_some_iff, ← get?_eq_some_iff]
    constructor
    · intro found
      cases within : small.get? key with
      | none => exact .inr ⟨found, rfl⟩
      | some m =>
        rw [inside key m within] at found
        exact .inl found
    · rintro (found | ⟨found, -⟩)
      · exact inside key n found
      · exact found
  have sums := (perm.map Prod.snd).sum_nat
  rwa [List.map_append, List.sum_append] at sums

/-! ## The ledger -/

namespace Ledger

variable {ledger next : Ledger}

theorem countsOf_of_get? {job : JobId} {counts : SortedMap Profile Nat} (kept : ledger.jobs.get? job = some counts) :
    ledger.countsOf job = counts := by
  rw [countsOf, kept, Option.getD_some]

/-- Some counts are added up exactly if their sum fits 32 bits. -/
theorem total_eq_ok_iff (counts : SortedMap Profile Nat) (n : Nat) :
    total counts = .ok n ↔ counts.values.sum = n ∧ n < Numeral.bound32 := by
  rw [total]
  suffices general : ∀ (values : List Nat) (first : Nat), first < Numeral.bound32 →
      (values.foldlM (fun sum n => if sum + n < Numeral.bound32 then .ok (sum + n) else .error .additionOverflow)
        first = (.ok n : Checked Nat) ↔ first + values.sum = n ∧ n < Numeral.bound32) by
    simpa using general counts.values 0 (Nat.two_pow_pos 32)
  intro values
  induction values with
  | nil =>
    intro first small
    rw [List.foldlM_nil, Checked.pure_eq_ok_iff, List.sum_nil, Nat.add_zero]
    exact ⟨fun same => ⟨same, same ▸ small⟩, And.left⟩
  | cons m rest ih =>
    intro first small
    rw [List.foldlM_cons, List.sum_cons, ← Nat.add_assoc]
    by_cases fits : first + m < Numeral.bound32
    · rw [if_pos fits]
      exact ih (first + m) fits
    · rw [if_neg fits]
      refine iff_of_false nofun fun ⟨same, few⟩ => ?_
      omega

/-- The counts of a job come to no more than the slots of the job that they count. -/
theorem sum_counts_le {slots : List Slot} {job : JobId}
    (counted : ∀ profile, ledger.count job profile = slots.countP (Slot.countsFor job profile)) :
    (ledger.countsOf job).values.sum ≤ slots.countP (·.job = job) := by
  have read : ∀ entry ∈ (ledger.countsOf job).entries, entry.2 = slots.countP (Slot.countsFor job entry.1) := by
    intro entry inside
    rw [← counted, count, (SortedMap.get?_eq_some_iff _ entry.1 entry.2).2 inside, Option.getD_some]
  have sums := Slot.sum_countsFor_le job (SortedMap.nodup_keys (ledger.countsOf job)) slots
  rw [SortedMap.keys, List.map_map] at sums
  rwa [SortedMap.values, List.map_congr_left read]

theorem total_overflows (counts : SortedMap Profile Nat) : OnlyOverflows (total counts) := by
  refine OnlyOverflows.foldlM (fun sum n => ?_) _ _
  split
  · exact .of_ok rfl
  · exact .of_overflow rfl

theorem acquire_overflows (ledger : Ledger) (job : JobId) (profile : Profile) :
    OnlyOverflows (ledger.acquire job profile) := by
  rw [acquire]
  split
  · exact .of_ok rfl
  · exact .of_overflow rfl

/-- Slots that were acquired one after the other are all counted. -/
theorem Tidy.acquireAll (tidy : ledger.Tidy) {slots : List Slot}
    (acquired : slots.foldlM (fun ledger slot => ledger.acquire slot.job slot.profile) ledger = .ok next) :
    next.Tidy ∧ ∀ job profile, next.count job profile =
      ledger.count job profile + slots.countP (Slot.countsFor job profile) := by
  induction slots generalizing ledger with
  | nil =>
    obtain rfl := Except.ok.inj acquired
    exact ⟨tidy, fun _ _ => rfl⟩
  | cons slot rest ih =>
    rw [List.foldlM_cons, Checked.bind_eq_ok_iff] at acquired
    obtain ⟨between, first, acquired⟩ := acquired
    obtain ⟨tidy', counted⟩ := tidy.acquire first
    obtain ⟨tidy'', counted'⟩ := ih tidy' acquired
    refine ⟨tidy'', fun job profile => ?_⟩
    rw [counted', counted, Nat.add_assoc, ← List.countP_append, List.singleton_append]

/-- Slots are acquired one after the other while the counts stay within 32 bits. -/
theorem Tidy.exists_acquireAll (tidy : ledger.Tidy) (slots : List Slot)
    (small : ∀ job profile,
      ledger.count job profile + slots.countP (Slot.countsFor job profile) < Numeral.bound32) :
    ∃ next, slots.foldlM (fun ledger slot => ledger.acquire slot.job slot.profile) ledger = .ok next := by
  induction slots generalizing ledger with
  | nil => exact ⟨ledger, rfl⟩
  | cons slot rest ih =>
    have few : ledger.count slot.job slot.profile + 1 < Numeral.bound32 := by
      have := small slot.job slot.profile
      simp only [List.countP_cons, Slot.countsFor, and_self, decide_true, if_true] at this
      omega
    have acquired := (acquire_eq_ok_iff slot.job slot.profile).2 ⟨few, rfl⟩
    obtain ⟨tidy', counted⟩ := tidy.acquire acquired
    obtain ⟨next, continued⟩ := ih tidy' fun job profile => by
      rw [counted, Nat.add_assoc, ← List.countP_append, List.singleton_append]
      exact small job profile
    refine ⟨next, ?_⟩
    rw [List.foldlM_cons, acquired]
    exact continued

/-- A ledger agrees with a tidy one about a job if it has the counts that the tidy one keeps and comes to the same
    total: what it has besides counts for nothing. -/
theorem Tidy.agrees_iff (tidy : next.Tidy) (ledger : Ledger) (job : JobId) :
    (∀ profile, ledger.count job profile = next.count job profile) ↔
      (∀ profile n, (next.countsOf job).get? profile = some n → ledger.count job profile = n) ∧
        (ledger.countsOf job).values.sum = (next.countsOf job).values.sum := by
  have read : ∀ {ledger : Ledger} {profile n}, (ledger.countsOf job).get? profile = some n →
      ledger.count job profile = n := fun found => by rw [count, found, Option.getD_some]
  have unread : ∀ {ledger : Ledger} {profile}, (ledger.countsOf job).get? profile = none →
      ledger.count job profile = 0 := fun absent => by rw [count, absent, Option.getD_none]
  have sums (kept : ∀ profile n, (next.countsOf job).get? profile = some n → ledger.count job profile = n) :=
    SortedMap.sum_values (next.countsOf job) (ledger.countsOf job) fun profile n found => by
      have pos := tidy.countsOf_pos found
      have counted := kept profile n found
      cases held : (ledger.countsOf job).get? profile with
      | none =>
        rw [unread held] at counted
        omega
      | some m => rw [← counted, read held]
  constructor
  · intro same
    have kept : ∀ profile n, (next.countsOf job).get? profile = some n → ledger.count job profile = n :=
      fun profile n found => (same profile).trans (read found)
    refine ⟨kept, (sums kept).trans ?_⟩
    rw [Nat.add_eq_left, List.sum_eq_zero_iff_forall_eq_nat]
    intro n listed
    obtain ⟨⟨profile, _⟩, inside, rfl⟩ := List.mem_map.1 listed
    obtain ⟨found, absent⟩ := List.mem_filter.1 inside
    rw [← read ((SortedMap.get?_eq_some_iff ..).2 found), same, unread (of_decide_eq_true absent)]
  · rintro ⟨kept, total⟩ profile
    cases found : (next.countsOf job).get? profile with
    | some n => rw [kept profile n found, read found]
    | none =>
      rw [unread found]
      cases held : (ledger.countsOf job).get? profile with
      | none => exact unread held
      | some m =>
        have others := sums kept
        rw [total, Nat.left_eq_add, List.sum_eq_zero_iff_forall_eq_nat] at others
        rw [read held]
        refine others m (List.mem_map.2 ⟨(profile, m), List.mem_filter.2 ⟨?_, decide_eq_true found⟩, rfl⟩)
        exact (SortedMap.get?_eq_some_iff ..).1 held

end Ledger

/-! ## The inventory -/

namespace Inventory

variable {Seed : Type} [Traversal Seed]
variable {inventory : Inventory}

/-- Workers and slots stand under their own ids. -/
structure Keyed (inventory : Inventory) : Prop where
  id_eq : ∀ {id worker}, inventory.worker? id = some worker → worker.id = id
  allocation_eq : ∀ {id worker allocation slot}, inventory.worker? id = some worker →
    worker.slot? allocation = some slot → slot.allocation = allocation

/-- Every slot names the worker that holds it, and the index of owners names exactly these. -/
structure Owned (inventory : Inventory) : Prop where
  placed : ∀ {id worker allocation slot}, inventory.worker? id = some worker →
    worker.slot? allocation = some slot → slot.worker = id
  owner_iff : ∀ allocation id, inventory.owners.get? allocation = some id ↔
    ∃ worker slot, inventory.worker? id = some worker ∧ worker.slot? allocation = some slot

theorem Owned.indexed (owned : inventory.Owned) (keyed : inventory.Keyed) : inventory.Indexed :=
  ⟨keyed.id_eq, fun registered held => ⟨keyed.allocation_eq registered held, owned.placed registered held⟩,
    owned.owner_iff⟩

theorem audit_fits (addable : ∀ id worker, inventory.worker? id = some worker → ∃ occupied accounted,
    worker.occupied? = some occupied ∧ worker.available.add? occupied = some accounted) : Fits inventory.audit := by
  refine Fits.bind (Fits.forM fun worker listed => ?_) fun _ _ => Fits.ite (.of_ok rfl) (.of_other (by simp))
  obtain ⟨id, registered⟩ := (SortedMap.mem_values ..).1 listed
  obtain ⟨occupied, accounted, sum, added⟩ := addable id worker registered
  refine Fits.bind ?_ fun _ _ => Fits.ite (.of_ok rfl) (.of_other (by simp))
  rw [Worker.occupied?] at sum
  rw [Worker.audit, Worker.auditIn, sum]
  refine (Fits.of_ok ((Profile.add_eq_ok_iff ..).2 added)).bind fun _ _ => ?_
  exact Fits.ite (Fits.ite (.of_ok rfl) (.of_other (by simp))) (.of_other (by simp))

/-- Slots whose worker is the one that the index names for them have distinct allocations. -/
private theorem Keyed.nodup_allocations (keyed : inventory.Keyed)
    (named : ∀ id worker, inventory.worker? id = some worker →
      ∀ slot ∈ worker.slots.values, inventory.owners.get? slot.allocation = some worker.id) :
    (inventory.slots.map Slot.allocation).Nodup := by
  rw [slots, SortedMap.values, List.flatMap_map, List.map_flatMap, List.nodup_flatMap]
  constructor
  · rintro ⟨id, worker⟩ listed
    have registered := (SortedMap.get?_eq_some_iff inventory.workers id worker).2 listed
    have keys : worker.slots.values.map Slot.allocation = worker.slots.keys := by
      rw [SortedMap.values, List.map_map]
      refine List.map_congr_left fun entry inside => ?_
      exact keyed.allocation_eq registered ((SortedMap.get?_eq_some_iff worker.slots entry.1 entry.2).2 inside)
    rw [keys]
    exact SortedMap.nodup_keys worker.slots
  · refine inventory.workers.sorted.imp_of_mem ?_
    rintro ⟨id, worker⟩ ⟨other, worker'⟩ listed listed' less allocation here there
    have registered := (SortedMap.get?_eq_some_iff inventory.workers id worker).2 listed
    have registered' := (SortedMap.get?_eq_some_iff inventory.workers other worker').2 listed'
    obtain ⟨slot, inside, rfl⟩ := List.mem_map.1 here
    obtain ⟨slot', inside', same⟩ := List.mem_map.1 there
    -- The index has one name for the allocation, and the workers would have two.
    have owner := named id worker registered slot inside
    rw [← same, named other worker' registered' slot' inside', keyed.id_eq registered, keyed.id_eq registered'] at owner
    simp [Option.some.inj owner] at less

/-- The index has no room for other entries than those of the slots: there are as many of them as there are slots, and
    every slot has one. -/
private theorem Keyed.owner_iff (keyed : inventory.Keyed)
    (named : ∀ id worker, inventory.worker? id = some worker →
      ∀ slot ∈ worker.slots.values, inventory.owners.get? slot.allocation = some worker.id)
    (count : inventory.slots.length = inventory.slotCount) (allocation : AllocationId) (id : WorkerId) :
    inventory.owners.get? allocation = some id ↔
      ∃ worker slot, inventory.worker? id = some worker ∧ worker.slot? allocation = some slot := by
  have owned : ∀ id worker slot, inventory.worker? id = some worker → worker.slot? allocation = some slot →
      inventory.owners.get? allocation = some id := by
    intro id worker slot registered held
    have owner := named id worker registered slot ((SortedMap.mem_values ..).2 ⟨allocation, held⟩)
    rwa [keyed.allocation_eq registered held, keyed.id_eq registered] at owner
  constructor
  · intro entry
    have subset : inventory.slots.map Slot.allocation ⊆ inventory.owners.keys := by
      intro other listed
      obtain ⟨slot, inside, rfl⟩ := List.mem_map.1 listed
      obtain ⟨worker, registered, inside⟩ := List.mem_flatMap.1 inside
      obtain ⟨id, registered⟩ := (SortedMap.mem_values ..).1 registered
      exact (SortedMap.mem_keys ..).2 ⟨_, named id worker registered slot inside⟩
    have perm := ((keyed.nodup_allocations named).subperm subset).perm_of_length_le (by
      rw [SortedMap.keys, List.length_map, List.length_map, count]
      exact Nat.le_refl _)
    obtain ⟨slot, inside, rfl⟩ := List.mem_map.1 (perm.mem_iff.2 ((SortedMap.mem_keys ..).2 ⟨id, entry⟩))
    obtain ⟨worker, registered, inside⟩ := List.mem_flatMap.1 inside
    obtain ⟨other, registered⟩ := (SortedMap.mem_values ..).1 registered
    obtain ⟨key, held⟩ := (SortedMap.mem_values ..).1 inside
    obtain rfl := keyed.allocation_eq registered held
    obtain rfl := Option.some.inj (entry.symm.trans (owned other worker slot registered held))
    exact ⟨worker, slot, registered, held⟩
  · rintro ⟨worker, slot, registered, held⟩
    exact owned id worker slot registered held

/-- The check of the inventory passes exactly if the capacity of every worker adds up, every slot names its worker, and
    the index names exactly the workers of the slots. -/
theorem Keyed.audit_eq_ok_iff (keyed : inventory.Keyed) : inventory.audit = .ok () ↔
    (∀ id worker, inventory.worker? id = some worker → ∃ occupied,
      worker.occupied? = some occupied ∧ worker.available.add? occupied = some worker.total) ∧ inventory.Owned := by
  rw [Inventory.audit_eq_ok_iff]
  simp only [auditWorker_eq_ok_iff, Worker.audit_eq_ok_iff]
  constructor
  · rintro ⟨checked, count⟩
    refine ⟨fun id worker registered => (checked id worker registered).1.1, ?_, ?_⟩
    · intro id worker allocation slot registered held
      rw [← keyed.id_eq registered]
      exact (checked id worker registered).1.2 slot ((SortedMap.mem_values ..).2 ⟨allocation, held⟩)
    · exact keyed.owner_iff (fun id worker registered => (checked id worker registered).2) count
  · rintro ⟨capacity, owned⟩
    have indexed := owned.indexed keyed
    exact ⟨fun id worker registered => ⟨⟨capacity id worker registered, indexed.named registered⟩,
      indexed.owner_of_mem registered⟩, indexed.slotCount_eq.symm⟩

end Inventory

/-! ## The whole state -/

namespace Cluster

section

variable {Seed : Type} [Traversal Seed]
variable {cluster : Cluster} {ledger tallied : Ledger} {job : JobId}

/-- Workers and slots stand under their own ids. -/
def Keyed (cluster : Cluster) : Prop := cluster.inventory.Keyed

/-- What the check is to establish. -/
structure Consistent (cluster : Cluster) : Prop where
  /-- What a worker has available and the profiles of its slots make up its total. -/
  capacity : ∀ id worker, cluster.inventory.worker? id = some worker → ∃ occupied,
    worker.occupied? = some occupied ∧ worker.available.add? occupied = some worker.total
  owned : cluster.inventory.Owned
  /-- The ledger counts for every job and every profile the slots that there are. -/
  count_eq : ∀ job profile, cluster.ledger.count job profile = cluster.inventory.held job profile

/-- No sum of the check is too large: neither one of the profiles on a worker, nor one of the counts or of the slots of
    a job. -/
structure Summable (cluster : Cluster) : Prop where
  workers : ∀ id worker, cluster.inventory.worker? id = some worker → ∃ occupied accounted,
    worker.occupied? = some occupied ∧ worker.available.add? occupied = some accounted
  counts : ∀ job counts, cluster.ledger.jobs.get? job = some counts → counts.values.sum < Numeral.bound32
  slots : ∀ job, cluster.inventory.slots.countP (·.job = job) < Numeral.bound32

theorem auditCounts_eq_ok_iff (counts : SortedMap Profile Nat) : auditCounts ledger job counts = .ok () ↔
    ∀ profile n, counts.get? profile = some n → ledger.count job profile = n := by
  rw [auditCounts, Checked.forM_eq_ok_iff, Prod.forall]
  simp only [SortedMap.get?_eq_some_iff]
  refine forall_congr' fun profile => forall_congr' fun n => imp_congr_right fun _ => ?_
  split <;> simp_all

theorem auditTotal_eq_ok_iff (counts : SortedMap Profile Nat) : auditTotal tallied job counts = .ok () ↔
    counts.values.sum = (tallied.countsOf job).values.sum ∧ counts.values.sum < Numeral.bound32 := by
  simp only [auditTotal, Checked.bind_eq_ok_iff, Ledger.total_eq_ok_iff]
  constructor
  · rintro ⟨_, ⟨rfl, small⟩, _, ⟨rfl, small'⟩, passed⟩
    split at passed
    · next same => exact ⟨same, small'⟩
    · cases passed
  · rintro ⟨same, small⟩
    refine ⟨_, ⟨rfl, same ▸ small⟩, _, ⟨rfl, small⟩, ?_⟩
    rw [if_pos same]
    rfl

theorem auditCounts_fits (counts : SortedMap Profile Nat) : Fits (auditCounts ledger job counts) :=
  Fits.forM fun _ _ => Fits.ite (.of_ok rfl) (.of_other (by simp))

theorem auditTotal_overflows {counts : SortedMap Profile Nat}
    (same : counts.values.sum = (tallied.countsOf job).values.sum) : OnlyOverflows (auditTotal tallied job counts) := by
  refine (Ledger.total_overflows _).bind fun expected found => (Ledger.total_overflows _).bind fun acquired found' => ?_
  refine OnlyOverflows.of_ok (if_pos ?_)
  rw [← ((Ledger.total_eq_ok_iff ..).1 found).1, ← ((Ledger.total_eq_ok_iff ..).1 found').1, same]

theorem auditTotal_fits {counts : SortedMap Profile Nat} (small : counts.values.sum < Numeral.bound32)
    (small' : (tallied.countsOf job).values.sum < Numeral.bound32) : Fits (auditTotal tallied job counts) := by
  have expected := (Ledger.total_eq_ok_iff (tallied.countsOf job) _).2 ⟨rfl, small'⟩
  have acquired := (Ledger.total_eq_ok_iff counts _).2 ⟨rfl, small⟩
  exact (Fits.of_ok expected).bind fun _ _ => (Fits.of_ok acquired).bind fun _ _ =>
    Fits.ite (.of_ok rfl) (.of_other (by simp))

/-- The parts of the check. -/
theorem audit_eq_ok_iff (cluster : Cluster) : cluster.audit = .ok () ↔ cluster.inventory.audit = .ok () ∧
    ∃ tallied, cluster.tally = .ok tallied ∧
      (∀ job counts, tallied.jobs.get? job = some counts → auditCounts cluster.ledger job counts = .ok ()) ∧
      ∀ job counts, cluster.ledger.jobs.get? job = some counts → auditTotal tallied job counts = .ok () := by
  have listed {ledger : Ledger} {check : JobId → SortedMap Profile Nat → Checked Unit} :
      ledger.jobs.entries.forM (fun entry => check entry.1 entry.2) = .ok () ↔
        ∀ job counts, ledger.jobs.get? job = some counts → check job counts = .ok () := by
    rw [Checked.forM_eq_ok_iff, Prod.forall]
    simp only [SortedMap.get?_eq_some_iff]
  simp only [audit, Checked.bind_eq_ok_iff]
  constructor
  · rintro ⟨⟨⟩, checked, tallied, counted, ⟨⟩, counts, totals⟩
    exact ⟨checked, tallied, counted, listed.1 counts, listed.1 totals⟩
  · rintro ⟨checked, tallied, counted, counts, totals⟩
    exact ⟨⟨⟩, checked, tallied, counted, ⟨⟩, listed.2 counts, listed.2 totals⟩

/-- The slots of the state are tallied. -/
theorem tally_counts (counted : cluster.tally = .ok tallied) :
    tallied.Tidy ∧ ∀ job profile, tallied.count job profile = cluster.inventory.held job profile := by
  obtain ⟨tidy, counts⟩ := Ledger.tidy_empty.acquireAll counted
  exact ⟨tidy, fun job profile => (counts job profile).trans (Nat.zero_add _)⟩

/-- A state that passes the check is as it should be. -/
theorem consistent_of_audit (keyed : cluster.Keyed) (passed : cluster.audit = .ok ()) : cluster.Consistent := by
  obtain ⟨checked, tallied, counted, counts, totals⟩ := (audit_eq_ok_iff cluster).1 passed
  obtain ⟨capacity, owned⟩ := (Inventory.Keyed.audit_eq_ok_iff keyed).1 checked
  obtain ⟨tidy, held⟩ := tally_counts counted
  refine ⟨capacity, owned, fun job profile => ?_⟩
  have kept : ∀ profile n, (tallied.countsOf job).get? profile = some n → cluster.ledger.count job profile = n := by
    intro profile n found
    cases present : tallied.jobs.get? job with
    | none =>
      rw [Ledger.countsOf, present] at found
      cases found
    | some entries =>
      rw [Ledger.countsOf_of_get? present] at found
      exact (auditCounts_eq_ok_iff entries).1 (counts job entries present) profile n found
  rw [← held]
  refine (tidy.agrees_iff cluster.ledger job).2 ⟨kept, ?_⟩ profile
  cases present : cluster.ledger.jobs.get? job with
  | some entries =>
    rw [Ledger.countsOf_of_get? present]
    exact ((auditTotal_eq_ok_iff entries).1 (totals job entries present)).1
  | none =>
    -- A job without an entry in the ledger has no total that is compared, but then nothing is tallied for it.
    have nothing : tallied.countsOf job = cluster.ledger.countsOf job := SortedMap.ext fun profile => by
      rw [Ledger.countsOf, Ledger.countsOf, present]
      cases found : (tallied.countsOf job).get? profile with
      | none => exact found
      | some n =>
        have pos := tidy.countsOf_pos found
        rw [← kept profile n found, Ledger.count, Ledger.countsOf, present] at pos
        exact absurd pos (Nat.lt_irrefl 0)
    rw [nothing]

/-- The check of a state that is as it should be fails at most because a sum is too large. -/
theorem Consistent.audit_overflows (consistent : cluster.Consistent) (keyed : cluster.Keyed) :
    OnlyOverflows cluster.audit := by
  have checked := (Inventory.Keyed.audit_eq_ok_iff keyed).2 ⟨consistent.capacity, consistent.owned⟩
  have tallies : OnlyOverflows cluster.tally :=
    OnlyOverflows.foldlM (fun ledger slot => ledger.acquire_overflows slot.job slot.profile) _ _
  refine (OnlyOverflows.of_ok checked).bind fun _ _ => tallies.bind fun tallied counted => ?_
  obtain ⟨tidy, held⟩ := tally_counts counted
  have agrees (job : JobId) := (tidy.agrees_iff cluster.ledger job).1 fun profile =>
    (consistent.count_eq job profile).trans (held job profile).symm
  refine (OnlyOverflows.of_ok (Checked.forM_eq_ok_iff.2 ?_)).bind fun _ _ => OnlyOverflows.forM ?_
  · rintro ⟨job, counts⟩ listed
    have kept := Ledger.countsOf_of_get? ((SortedMap.get?_eq_some_iff tallied.jobs job counts).2 listed)
    exact (auditCounts_eq_ok_iff counts).2 (kept ▸ (agrees job).1)
  · rintro ⟨job, counts⟩ listed
    have kept := Ledger.countsOf_of_get? ((SortedMap.get?_eq_some_iff cluster.ledger.jobs job counts).2 listed)
    exact auditTotal_overflows (kept ▸ (agrees job).2)

/-- A check whose sums fit does not overflow. -/
theorem Summable.audit_fits (summable : cluster.Summable) : Fits cluster.audit := by
  have few (job : JobId) (profile : Profile) : cluster.inventory.held job profile < Numeral.bound32 :=
    Nat.lt_of_le_of_lt (List.countP_mono_left fun slot _ counts => by
      simp only [Slot.countsFor, decide_eq_true_iff] at counts ⊢
      exact counts.1) (summable.slots job)
  obtain ⟨tallied, counted⟩ := Ledger.tidy_empty.exists_acquireAll cluster.inventory.slots
    fun job profile => (Nat.zero_add (cluster.inventory.held job profile)).symm ▸ few job profile
  have held := (tally_counts counted).2
  refine (Inventory.audit_fits summable.workers).bind fun _ _ => (Fits.of_ok counted).bind fun again same => ?_
  obtain rfl := Except.ok.inj (counted.symm.trans same)
  refine (Fits.forM fun entry _ => auditCounts_fits entry.2).bind fun _ _ => Fits.forM ?_
  rintro ⟨job, counts⟩ listed
  refine auditTotal_fits (summable.counts job counts ((SortedMap.get?_eq_some_iff ..).2 listed)) ?_
  exact Nat.lt_of_le_of_lt (Ledger.sum_counts_le (held job)) (summable.slots job)

/-- A state that is as it should be passes the check if no sum is too large. -/
theorem Consistent.audit (consistent : cluster.Consistent) (keyed : cluster.Keyed) (fits : Fits cluster.audit) :
    cluster.audit = .ok () := by
  rcases (consistent.audit_overflows keyed).cases with ⟨_, passed⟩ | overflows
  · exact passed
  · exact absurd overflows fits

/-- The check of a state in order passes, unless a sum is too large. -/
theorem Sound.audit (sound : cluster.Sound) (addable : cluster.inventory.Addable)
    (few : cluster.inventory.slots.length < Numeral.bound32) : cluster.audit = .ok () := by
  have indexed := sound.inventory.indexed
  have keyed : cluster.Keyed := ⟨indexed.id_eq, fun registered held => (indexed.housed registered held).1⟩
  obtain ⟨capacity, owned⟩ := (Inventory.Keyed.audit_eq_ok_iff keyed).1 (sound.inventory.audit addable)
  have few (job : JobId) : cluster.inventory.slots.countP (·.job = job) < Numeral.bound32 :=
    Nat.lt_of_le_of_lt List.countP_le_length few
  refine Consistent.audit ⟨capacity, owned, sound.balanced.count_eq⟩ keyed (Summable.audit_fits ⟨?_, ?_, few⟩)
  · intro id worker registered
    obtain ⟨occupied, sum, added⟩ := capacity id worker registered
    exact ⟨occupied, worker.total, sum, added⟩
  · intro job counts kept
    rw [← Ledger.countsOf_of_get? kept]
    exact Nat.lt_of_le_of_lt (Ledger.sum_counts_le (sound.balanced.count_eq job)) (few job)

/-- The check of any state whose workers and slots stand under their own ids. Unless a sum is too large, it passes
    exactly for the states that are as they should be; and if the sums are small, none is too large for it. -/
theorem audit_sound_and_complete (keyed : cluster.Keyed) :
    (cluster.audit ≠ .error .additionOverflow → (cluster.audit = .ok () ↔ cluster.Consistent)) ∧
      (cluster.Summable → cluster.audit ≠ .error .additionOverflow) :=
  ⟨fun fits => ⟨consistent_of_audit keyed, fun consistent => consistent.audit keyed fits⟩, Summable.audit_fits⟩

end

/-- A worker with one slot, and any index and ledger. -/
private def oneSlot (owners : SortedMap AllocationId WorkerId) (ledger : Ledger) : Cluster :=
  ⟨⟨SortedMap.empty.insert ⟨1⟩ ⟨⟨1⟩, .ofUnits 4 0, .ofUnits 3 0, .any,
    SortedMap.empty.insert ⟨0⟩ ⟨⟨0⟩, ⟨7⟩, .dynamic ⟨1⟩, .ofUnits 1 0, .pending⟩⟩, owners⟩, ledger⟩

/-- A ledger may keep a count of zero, which no run leaves behind; a wrong index is found out. -/
theorem audit_sound_and_complete_oneSlot :
    (oneSlot (SortedMap.empty.insert ⟨0⟩ ⟨1⟩) ⟨SortedMap.empty.insert ⟨7⟩
      ((SortedMap.empty.insert (.ofUnits 1 0) 1).insert .any 0)⟩).Consistent ∧
    ¬(oneSlot (SortedMap.empty.insert ⟨0⟩ ⟨2⟩) ⟨SortedMap.empty.insert ⟨7⟩
      (SortedMap.empty.insert (.ofUnits 1 0) 1)⟩).Consistent := by
  have keyed (owners : SortedMap AllocationId WorkerId) (ledger : Ledger) : (oneSlot owners ledger).Keyed := by
    constructor
    · rintro id worker registered
      obtain ⟨rfl, rfl⟩ := SortedMap.eq_of_get?_single registered
      rfl
    · rintro id worker allocation slot registered held
      obtain ⟨rfl, rfl⟩ := SortedMap.eq_of_get?_single registered
      obtain ⟨rfl, rfl⟩ := SortedMap.eq_of_get?_single held
      rfl
  constructor
  · exact ((audit_sound_and_complete (keyed ..)).1 (by decide +kernel)).1 (by decide +kernel)
  · intro consistent
    have passed := ((audit_sound_and_complete (keyed ..)).1 (by decide +kernel)).2 consistent
    exact absurd passed (by decide +kernel)

end Cluster

end SlotControl
