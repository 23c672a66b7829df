import SlotControl.Proofs.Enumeration
import SlotControl.Proofs.Transitions

/-!
Accounting is conserved: in every state that a run reaches, the ledger counts for every job and every
profile exactly the slots that are recorded. Main statements: `Ledger.Tidy` ledgers are determined by
their counts, and every operation keeps a state `Balanced`.
-/

namespace SlotControl

/-! ## All slots as a list -/

/-- The slot belongs to the job and has the profile. -/
def Slot.countsFor (job : JobId) (profile : Profile) (slot : Slot) : Bool :=
  slot.job = job ∧ slot.profile = profile

namespace Inventory

variable {inventory next : Inventory}

/-- How many of the recorded slots belong to a job and have a profile. -/
def held (inventory : Inventory) (job : JobId) (profile : Profile) : Nat :=
  inventory.slots.countP (Slot.countsFor job profile)

/-- The slots of other allocations. -/
def others (inventory : Inventory) (allocation : AllocationId) : List Slot :=
  inventory.slots.filter (·.allocation ≠ allocation)

/-- The listing is the slot of an allocation, if there is one, with those of all others. -/
theorem Indexed.slots_perm (indexed : inventory.Indexed) (allocation : AllocationId) :
    inventory.slots.Perm ((inventory.slot? allocation).toList ++ inventory.others allocation) := by
  have nodup : ((inventory.slot? allocation).toList ++ inventory.others allocation).Nodup := by
    refine List.nodup_append.2 ⟨?_, indexed.nodup_slots.filter _, ?_⟩
    · cases inventory.slot? allocation <;> simp
    · intro slot found slot' other same
      rw [Option.mem_toList] at found
      simp only [others, List.mem_filter, decide_eq_true_iff] at other
      exact other.2 (same ▸ indexed.allocation_eq found)
  refine (List.perm_ext_iff_of_nodup indexed.nodup_slots nodup).2 fun slot => ?_
  rw [List.mem_append, Option.mem_toList, others, List.mem_filter, indexed.mem_slots, decide_eq_true_iff]
  constructor
  · intro found
    by_cases this : slot.allocation = allocation
    · exact .inl (this ▸ found)
    · exact .inr ⟨found, this⟩
  · rintro (found | ⟨found, _⟩)
    · rwa [indexed.allocation_eq found]
    · exact found

/-- If only the slot of one allocation changes, then the listing of all others is the same. -/
theorem Indexed.others_perm (indexed : inventory.Indexed) (indexed' : next.Indexed) {allocation : AllocationId}
    (same : ∀ other, other ≠ allocation → next.slot? other = inventory.slot? other) :
    (next.others allocation).Perm (inventory.others allocation) := by
  refine (List.perm_ext_iff_of_nodup (indexed'.nodup_slots.filter _) (indexed.nodup_slots.filter _)).2 fun slot => ?_
  simp only [List.mem_filter, indexed.mem_slots, indexed'.mem_slots, decide_eq_true_iff]
  exact and_congr_left fun apart => by rw [same _ apart]

/-- A change of one slot changes the count by the new slot and the old one. -/
theorem Indexed.held_change (indexed : inventory.Indexed) (indexed' : next.Indexed) (allocation : AllocationId)
    (same : ∀ other, other ≠ allocation → next.slot? other = inventory.slot? other) (job : JobId)
    (profile : Profile) :
    next.held job profile + (inventory.slot? allocation).toList.countP (Slot.countsFor job profile) =
      inventory.held job profile + (next.slot? allocation).toList.countP (Slot.countsFor job profile) := by
  have before := (indexed.slots_perm allocation).countP_eq (Slot.countsFor job profile)
  have after := (indexed'.slots_perm allocation).countP_eq (Slot.countsFor job profile)
  have rest := (indexed.others_perm indexed' same).countP_eq (Slot.countsFor job profile)
  rw [List.countP_append] at before after
  simp only [held]
  omega

theorem Indexed.held_congr (indexed : inventory.Indexed) (indexed' : next.Indexed)
    (same : ∀ allocation, next.slot? allocation = inventory.slot? allocation) (job : JobId) (profile : Profile) :
    next.held job profile = inventory.held job profile := by
  refine List.Perm.countP_eq _ ((List.perm_ext_iff_of_nodup indexed'.nodup_slots indexed.nodup_slots).2 ?_)
  intro slot
  rw [indexed.mem_slots, indexed'.mem_slots, same]

end Inventory

/-! ## The ledger -/

namespace Ledger

variable {ledger next : Ledger}

/-- However the counts of a job come, sorting them gives one listing. -/
theorem sort_eq_acquired {job : JobId} {listing : List Requirement} (perm : listing.Perm (ledger.holdings job)) :
    Requirement.sort listing = ledger.acquired job :=
  Requirement.sort_eq_of_perm perm

/-- There is one count for each profile, so that the profiles alone give the order. -/
theorem acquired_eq_holdings (ledger : Ledger) (job : JobId) : ledger.acquired job = ledger.holdings job := by
  apply List.mergeSort_of_pairwise
  rw [holdings, List.pairwise_map]
  refine (ledger.countsOf job).sorted.imp fun {a b} less => ?_
  show (compareLex _ _ _ _ : Ordering).isLE
  rw [compareLex, compareOn, less]
  rfl

/-- Counts of zero and jobs without counts are not kept. -/
structure Tidy (ledger : Ledger) : Prop where
  job_nonempty : ∀ {job counts}, ledger.jobs.get? job = some counts → counts.isEmpty = false
  count_pos : ∀ {job counts profile n}, ledger.jobs.get? job = some counts → counts.get? profile = some n → 0 < n

theorem tidy_empty : empty.Tidy := ⟨nofun, nofun⟩

/-- The ledger with another count for one job and profile. -/
def setCount (ledger : Ledger) (job : JobId) (profile : Profile) (n : Nat) : Ledger :=
  let counts := if n = 0 then (ledger.countsOf job).erase profile else (ledger.countsOf job).insert profile n
  ⟨if counts.isEmpty then ledger.jobs.erase job else ledger.jobs.insert job counts⟩

private theorem countsOf_setCount (ledger : Ledger) (job other : JobId) (profile : Profile) (n : Nat) :
    (ledger.setCount job profile n).countsOf other = if other = job then
      if n = 0 then (ledger.countsOf job).erase profile else (ledger.countsOf job).insert profile n
      else ledger.countsOf other := by
  rw [setCount]
  generalize (if n = 0 then _ else _ : SortedMap Profile Nat) = counts
  simp only [countsOf]
  cases empty : counts.isEmpty with
  | false =>
    rw [if_neg Bool.false_ne_true, SortedMap.get?_insert]
    split <;> rfl
  | true =>
    -- A job without counts is erased, and reads as the empty map all the same.
    rw [if_pos rfl, SortedMap.get?_erase]
    split
    · exact SortedMap.ext fun key => ((SortedMap.isEmpty_iff counts).1 empty key).symm
    · rfl

theorem count_setCount (ledger : Ledger) (job other : JobId) (profile profile' : Profile) (n : Nat) :
    (ledger.setCount job profile n).count other profile' =
      if other = job ∧ profile' = profile then n else ledger.count other profile' := by
  rw [count, countsOf_setCount]
  by_cases same : other = job
  · subst same
    by_cases this : profile' = profile
    · by_cases zero : n = 0 <;> simp [this, zero]
    · by_cases zero : n = 0 <;> simp [this, zero, SortedMap.get?_insert, SortedMap.get?_erase, count]
  · simp [same, count]

theorem Tidy.countsOf_pos (tidy : ledger.Tidy) {job : JobId} {profile : Profile} {n : Nat}
    (present : (ledger.countsOf job).get? profile = some n) : 0 < n := by
  rw [countsOf] at present
  cases held : ledger.jobs.get? job with
  | none => rw [held] at present; cases present
  | some counts => rw [held] at present; exact tidy.count_pos held present

/-- A job is kept if it has counts. -/
theorem Tidy.get?_eq (tidy : ledger.Tidy) (job : JobId) : ledger.jobs.get? job =
    if (ledger.countsOf job).isEmpty then none else some (ledger.countsOf job) := by
  rw [countsOf]
  cases held : ledger.jobs.get? job with
  | none => rfl
  | some counts => simp [tidy.job_nonempty held]

theorem Tidy.setCount (tidy : ledger.Tidy) (job : JobId) (profile : Profile) (n : Nat) :
    (ledger.setCount job profile n).Tidy := by
  rw [Ledger.setCount]
  have pos' : ∀ {key m}, (if n = 0 then (ledger.countsOf job).erase profile
      else (ledger.countsOf job).insert profile n).get? key = some m → 0 < m := by
    intro key m present
    split at present
    · rw [SortedMap.get?_erase] at present
      split at present
      · cases present
      · exact tidy.countsOf_pos present
    · next nonzero =>
      rw [SortedMap.get?_insert] at present
      split at present
      · rw [← Option.some.inj present]; omega
      · exact tidy.countsOf_pos present
  revert pos'
  generalize (if n = 0 then _ else _ : SortedMap Profile Nat) = counts
  intro pos'
  cases empty : counts.isEmpty with
  | false =>
    refine ⟨fun {other _} present => ?_, fun {other _ _ _} present here => ?_⟩
    all_goals
      rw [if_neg Bool.false_ne_true, SortedMap.get?_insert] at present
      split at present
    · rw [← Option.some.inj present, empty]
    · exact tidy.job_nonempty present
    · obtain rfl := Option.some.inj present
      exact pos' here
    · exact tidy.count_pos present here
  | true =>
    refine ⟨fun {other _} present => ?_, fun {other _ _ _} present here => ?_⟩
    all_goals
      rw [if_pos rfl, SortedMap.get?_erase] at present
      split at present
    · cases present
    · exact tidy.job_nonempty present
    · cases present
    · exact tidy.count_pos present here

/-- Tidy ledgers with the same counts are the same. -/
theorem Tidy.ext (tidy : ledger.Tidy) (tidy' : next.Tidy)
    (same : ∀ job profile, ledger.count job profile = next.count job profile) : ledger = next := by
  have read : ∀ {ledger : Ledger}, ledger.Tidy → ∀ job profile,
      (ledger.countsOf job).get? profile =
        if ledger.count job profile = 0 then none else some (ledger.count job profile) := by
    intro ledger tidy job profile
    cases present : (ledger.countsOf job).get? profile with
    | none => simp [count, present]
    | some n =>
      have pos := tidy.countsOf_pos present
      simp [count, present, Nat.ne_of_gt pos]
  have counts : ∀ job, ledger.countsOf job = next.countsOf job := fun job =>
    SortedMap.ext fun profile => by rw [read tidy, read tidy', same]
  have jobs : ledger.jobs = next.jobs := SortedMap.ext fun job => by
    rw [tidy.get?_eq, tidy'.get?_eq, counts]
  cases ledger
  cases next
  exact congrArg Ledger.mk jobs

theorem acquire_eq_ok_iff (job : JobId) (profile : Profile) : ledger.acquire job profile = .ok next ↔
    ledger.count job profile + 1 < Numeral.bound32 ∧
      next = ledger.setCount job profile (ledger.count job profile + 1) := by
  have counted : ledger.setCount job profile (ledger.count job profile + 1) =
      ⟨ledger.jobs.insert job ((ledger.countsOf job).insert profile (ledger.count job profile + 1))⟩ := by
    simp [setCount]
  rw [acquire, counted]
  split
  · next small => simp [small, eq_comm]
  · next large => simp [large]

/-- A slot is lost by a job that holds one, and by no other. -/
theorem lose_eq_ok_iff (tidy : ledger.Tidy) (job : JobId) (profile : Profile) :
    ledger.lose job profile = .ok next ↔ 0 < ledger.count job profile ∧
      next = ledger.setCount job profile (ledger.count job profile - 1) := by
  rw [lose]
  cases held : ledger.jobs.get? job with
  | none => simp [count, countsOf, held]
  | some counts =>
    have countsOf_eq : ledger.countsOf job = counts := by rw [countsOf, held]; rfl
    rw [setCount, countsOf_eq]
    simp only [count, countsOf_eq]
    cases present : counts.get? profile with
    | none => simp
    | some n =>
      -- The last slot takes the count with it; of more slots one less is left.
      rcases n with _ | _ | n
      · exact absurd (tidy.count_pos held present) (Nat.lt_irrefl 0)
      · simp
        exact eq_comm
      · simp
        exact eq_comm

/-- One more slot is counted. -/
theorem Tidy.acquire (tidy : ledger.Tidy) {slot : Slot} (acquired : ledger.acquire slot.job slot.profile = .ok next) :
    next.Tidy ∧ ∀ job profile,
      next.count job profile = ledger.count job profile + [slot].countP (Slot.countsFor job profile) := by
  obtain ⟨-, rfl⟩ := (acquire_eq_ok_iff ..).1 acquired
  refine ⟨tidy.setCount .., fun job profile => ?_⟩
  rw [count_setCount, List.countP_singleton, Slot.countsFor]
  by_cases same : job = slot.job ∧ profile = slot.profile
  · simp [same]
  · have other : ¬(slot.job = job ∧ slot.profile = profile) := fun this => same ⟨this.1.symm, this.2.symm⟩
    simp [same, other]

/-- One slot less is counted. -/
theorem Tidy.discharge (tidy : ledger.Tidy) {slot : Slot} (lost : Cluster.discharge ledger slot = .ok next) :
    next.Tidy ∧ ∀ job profile,
      next.count job profile + [slot].countP (Slot.countsFor job profile) = ledger.count job profile := by
  obtain ⟨pos, rfl⟩ := (lose_eq_ok_iff tidy ..).1 lost
  refine ⟨tidy.setCount .., fun job profile => ?_⟩
  rw [count_setCount, List.countP_singleton, Slot.countsFor]
  by_cases same : job = slot.job ∧ profile = slot.profile
  · obtain ⟨rfl, rfl⟩ := same
    simp only [and_self, if_true, decide_true]
    omega
  · have other : ¬(slot.job = job ∧ slot.profile = profile) := fun this => same ⟨this.1.symm, this.2.symm⟩
    simp [same, other]

/-- Slots that are discharged one after the other are not counted any more. -/
theorem Tidy.dischargeAll (tidy : ledger.Tidy) {slots : List Slot}
    (lost : slots.foldlM Cluster.discharge ledger = .ok next) : next.Tidy ∧ ∀ job profile,
      next.count job profile + slots.countP (Slot.countsFor job profile) = ledger.count job profile := by
  induction slots generalizing ledger with
  | nil =>
    obtain rfl := Except.ok.inj lost
    exact ⟨tidy, fun _ _ => rfl⟩
  | cons slot rest ih =>
    rw [List.foldlM_cons, Checked.bind_eq_ok_iff] at lost
    obtain ⟨between, first, lost⟩ := lost
    obtain ⟨tidy', counted⟩ := tidy.discharge first
    obtain ⟨tidy'', counted'⟩ := ih tidy' lost
    refine ⟨tidy'', fun job profile => ?_⟩
    rw [← counted job profile, ← counted' job profile, ← List.singleton_append, List.countP_append]
    omega

/-- Slots that are all counted can be discharged one after the other. -/
theorem Tidy.exists_dischargeAll (tidy : ledger.Tidy) {slots : List Slot}
    (enough : ∀ job profile, slots.countP (Slot.countsFor job profile) ≤ ledger.count job profile) :
    ∃ next, slots.foldlM Cluster.discharge ledger = .ok next := by
  induction slots generalizing ledger with
  | nil => exact ⟨ledger, rfl⟩
  | cons slot rest ih =>
    have pos : 0 < ledger.count slot.job slot.profile := by
      have counted := enough slot.job slot.profile
      simp only [List.countP_cons, Slot.countsFor, and_self, decide_true, if_true] at counted
      omega
    have lost : Cluster.discharge ledger slot = .ok _ := (lose_eq_ok_iff tidy ..).2 ⟨pos, rfl⟩
    obtain ⟨tidy', counted⟩ := tidy.discharge lost
    obtain ⟨next, continued⟩ := ih tidy' fun job profile => by
      have enough := enough job profile
      have counted := counted job profile
      rw [← List.singleton_append, List.countP_append] at enough
      omega
    refine ⟨next, ?_⟩
    rw [List.foldlM_cons, lost]
    exact continued

/-- Nothing is kept exactly if nothing is counted. -/
theorem Tidy.isEmpty_iff (tidy : ledger.Tidy) :
    ledger.isEmpty = true ↔ ∀ job profile, ledger.count job profile = 0 := by
  constructor
  · intro nothing job profile
    rw [count, countsOf, (SortedMap.isEmpty_iff ledger.jobs).1 nothing]
    rfl
  · intro uncounted
    rw [tidy.ext tidy_empty fun job profile => by rw [uncounted]; rfl]
    rfl

end Ledger

/-! ## The state -/

namespace Cluster

section

variable {Seed : Type} [Traversal Seed]
variable {cluster next : Cluster}

/-- The index of owners is right, and the ledger counts every recorded slot once and nothing else. -/
structure Balanced (cluster : Cluster) : Prop where
  indexed : cluster.inventory.Indexed
  tidy : cluster.ledger.Tidy
  count_eq : ∀ job profile, cluster.ledger.count job profile = cluster.inventory.held job profile

theorem balanced_empty : empty.Balanced := ⟨Inventory.indexed_empty, Ledger.tidy_empty, fun _ _ => rfl⟩

/-- A change of one slot keeps the balance, if the ledger counts the new slot in place of the old one. -/
private theorem Balanced.change (balanced : cluster.Balanced) (indexed : next.inventory.Indexed)
    (allocation : AllocationId) (same : ∀ other, other ≠ allocation → next.slot? other = cluster.slot? other)
    (tidy : next.ledger.Tidy)
    (counted : ∀ job profile,
      next.ledger.count job profile + (cluster.slot? allocation).toList.countP (Slot.countsFor job profile) =
        cluster.ledger.count job profile +
          (next.slot? allocation).toList.countP (Slot.countsFor job profile)) : next.Balanced := by
  refine ⟨indexed, tidy, fun job profile => ?_⟩
  have held := balanced.indexed.held_change indexed allocation same job profile
  have counted := counted job profile
  rw [balanced.count_eq] at counted
  rw [slot?_def, slot?_def] at counted
  omega

theorem Balanced.register (balanced : cluster.Balanced) {worker : WorkerId} {total defaultSlot : Profile}
    (registered : cluster.register worker total defaultSlot = .ok next) : next.Balanced := by
  obtain ⟨indexed, same, slots⟩ := slot?_register balanced.indexed registered
  refine ⟨indexed, same ▸ balanced.tidy, fun job profile => ?_⟩
  rw [same, balanced.count_eq, balanced.indexed.held_congr indexed slots]

theorem Balanced.removeWorker (balanced : cluster.Balanced) {worker : WorkerId} {slots : List Slot}
    (removed : cluster.removeWorker worker = .ok (slots, next)) : next.Balanced := by
  obtain ⟨rfl, same, lost⟩ := (removeWorker_eq_ok_iff ..).1 removed
  obtain ⟨tidy, counted⟩ := balanced.tidy.dischargeAll lost
  refine ⟨(slot?_removeWorker balanced.indexed removed).1, tidy, fun job profile => ?_⟩
  have listed := (balanced.indexed.slots_removeWorker worker).countP_eq (Slot.countsFor job profile)
  have counted := counted job profile
  rw [List.countP_append] at listed
  rw [balanced.count_eq, Inventory.held] at counted
  rw [Inventory.held, same]
  omega

theorem Balanced.free (balanced : cluster.Balanced) {allocation : AllocationId} {result : Option Slot}
    (freed : cluster.free allocation = .ok (result, next)) : next.Balanced := by
  rcases (free_eq_ok_iff balanced.indexed ..).1 freed with ⟨-, -, rfl⟩ | ⟨slot, found, -, -, lost⟩
  · exact balanced
  · obtain ⟨indexed, slots⟩ := slot?_free balanced.indexed freed
    obtain ⟨tidy, counted⟩ := balanced.tidy.discharge lost
    refine balanced.change indexed allocation (fun other apart => by rw [slots, if_neg apart]) tidy ?_
    intro job profile
    rw [found, slots, if_pos rfl]
    exact counted job profile

theorem Balanced.occupy (balanced : cluster.Balanced) {slot : Slot} (absent : cluster.slot? slot.allocation = none)
    (occupied : cluster.occupy slot = .ok next) : next.Balanced := by
  obtain ⟨recorded, acquired⟩ := (occupy_eq_ok_iff slot).1 occupied
  obtain ⟨indexed, slots⟩ := slot?_record balanced.indexed recorded
  obtain ⟨tidy, counted⟩ := balanced.tidy.acquire acquired
  refine balanced.change indexed slot.allocation (fun other apart => by rw [slots, if_neg apart]) tidy ?_
  intro job profile
  rw [absent, slots, if_pos rfl]
  exact counted job profile

/-- A slot may change in everything but its job and profile, and its job is charged nothing. -/
private theorem Balanced.replace (balanced : cluster.Balanced) (indexed : next.inventory.Indexed)
    {old new : Slot} {allocation : AllocationId} (found : cluster.slot? allocation = some old)
    (slots : ∀ other, next.slot? other = if other = allocation then some new else cluster.slot? other)
    (job : new.job = old.job) (profile : new.profile = old.profile) (ledger : next.ledger = cluster.ledger) :
    next.Balanced := by
  refine balanced.change indexed allocation (fun other apart => by rw [slots, if_neg apart])
    (ledger ▸ balanced.tidy) ?_
  intro j p
  have same : Slot.countsFor j p new = Slot.countsFor j p old := by
    rw [Slot.countsFor, Slot.countsFor, job, profile]
  rw [ledger, found, slots, if_pos rfl, Option.toList_some, Option.toList_some, List.countP_singleton,
    List.countP_singleton, same]

theorem Balanced.reserve (balanced : cluster.Balanced) {worker : WorkerId} {job : JobId}
    {allocation : AllocationId} {profile : Profile}
    (reserved : cluster.reserve worker job allocation profile = .ok (.ok next)) : next.Balanced := by
  obtain ⟨-, absent, occupied⟩ := (reserve_eq_ok_iff ..).1 reserved
  exact balanced.occupy absent occupied

theorem Balanced.conclude (balanced : cluster.Balanced) {allocation : AllocationId} {job : JobId}
    {outcome told : Outcome} (concluded : cluster.conclude allocation job outcome = .ok (told, next)) :
    next.Balanced := by
  cases (conclude_eq_ok_iff ..).1 concluded with
  | late => exact balanced
  | @confirmed slot _ found its pending recorded ledger =>
    obtain ⟨indexed, slots⟩ := slot?_record balanced.indexed recorded
    have slots' : ∀ other, next.slot? other = if other = allocation then some { slot with state := .allocated }
        else cluster.slot? other := balanced.indexed.allocation_eq found ▸ slots
    exact balanced.replace indexed found slots' rfl rfl ledger
  | withdrawn found its pending freed => exact balanced.free freed

theorem Balanced.adopt (balanced : cluster.Balanced) {worker : WorkerId} {status : SlotStatus}
    {assignment : SlotAssignment} {applied : Bool}
    (adopted : cluster.adopt worker status assignment = .ok (applied, next)) : next.Balanced := by
  cases (adopt_eq_ok_iff ..).1 adopted with
  | elsewhere | refused => exact balanced
  | occupied absent room occupies => exact balanced.occupy absent occupies
  | placed found here moved ledger =>
    obtain ⟨indexed, slots⟩ := slot?_setPlace balanced.indexed found moved
    exact balanced.replace indexed found slots rfl rfl ledger

theorem Balanced.freeAll (balanced : cluster.Balanced) {allocations : List AllocationId}
    (freed : cluster.freeAll allocations = .ok next) : next.Balanced := by
  refine Checked.foldlM_keeps Balanced ?_ balanced freed
  intro state allocation after balanced' stepped
  simp only [Checked.bind_eq_ok_iff, Checked.pure_eq_ok_iff] at stepped
  obtain ⟨_, freed, rfl⟩ := stepped
  exact balanced'.free freed

theorem Balanced.report (balanced : cluster.Balanced) {worker : WorkerId} {report : SlotReport} {applied : Bool}
    (reported : cluster.report worker report = .ok (applied, next)) : next.Balanced := by
  rcases report_eq_ok reported with ⟨-, -, rfl⟩ | ⟨record, kept, registered, freed, adopted⟩
  · exact balanced
  · refine Checked.foldlM_keeps (fun state : Bool × Cluster => state.2.Balanced) ?_
      (balanced.freeAll freed) adopted
    rintro ⟨_, state⟩ entry ⟨_, after⟩ balanced' stepped
    simp only [Checked.bind_eq_ok_iff, Checked.pure_eq_ok_iff, Prod.mk.injEq] at stepped
    obtain ⟨_, adopted, _, rfl⟩ := stepped
    exact balanced'.adopt adopted

/-- Every operation keeps the balance, whatever it is asked to do. -/
theorem Balanced.perform (balanced : cluster.Balanced) {event : Event} {answer : Answer}
    (performed : cluster.perform event = .ok (answer, next)) : next.Balanced := by
  cases performed_of_perform performed with
  | notRegistered | notReserved => exact balanced
  | registered added => exact balanced.register added
  | workerRemoved removed => exact balanced.removeWorker removed
  | reserved accepted => exact balanced.reserve accepted
  | concluded concluded => exact balanced.conclude concluded
  | freed freed => exact balanced.free freed
  | reported reported => exact balanced.report reported

theorem Balanced.run (balanced : cluster.Balanced) {events : List Event}
    (performed : cluster.run events = .ok next) : next.Balanced := by
  induction events generalizing cluster with
  | nil => exact Except.ok.inj performed ▸ balanced
  | cons event rest ih =>
    obtain ⟨answer, between, first, continued⟩ := (run_cons_eq_ok_iff event rest).1 performed
    exact ih (balanced.perform first) continued

/-- The ledger is empty exactly if no slot is recorded. -/
theorem Balanced.isEmpty_iff (balanced : cluster.Balanced) :
    cluster.ledger.isEmpty = true ↔ cluster.inventory.slots = [] := by
  rw [balanced.tidy.isEmpty_iff]
  simp only [balanced.count_eq, Inventory.held, List.countP_eq_zero, List.eq_nil_iff_forall_not_mem]
  constructor
  · intro uncounted slot recorded
    exact uncounted slot.job slot.profile slot recorded (by simp [Slot.countsFor])
  · intro none_recorded job profile slot recorded
    exact absurd recorded (none_recorded slot)

/-- Accounting is conserved over every run: for each job and profile the ledger counts exactly the
    recorded slots, pending or allocated. It keeps neither zeros nor jobs without counts, so it is empty
    exactly if no slot is recorded. -/
theorem run_conserves {events : List Event} {cluster : Cluster} (reached : empty.run events = .ok cluster) :
    (∀ job profile, cluster.ledger.count job profile =
      cluster.inventory.slots.countP fun slot => slot.job = job ∧ slot.profile = profile) ∧
    (∀ job counts, cluster.ledger.jobs.get? job = some counts →
      counts.isEmpty = false ∧ ∀ profile n, counts.get? profile = some n → n ≠ 0) ∧
    (cluster.ledger.isEmpty = true ↔ cluster.inventory.slots = []) := by
  have balanced := balanced_empty.run reached
  refine ⟨balanced.count_eq, fun job counts kept => ⟨balanced.tidy.job_nonempty kept, ?_⟩, balanced.isEmpty_iff⟩
  intro profile n present
  exact Nat.ne_of_gt (balanced.tidy.count_pos kept present)

end

/-- A slot is confirmed for one job and reported for another: the slot and its account change the job. -/
theorem run_conserves_reassigned : ∃ cluster,
    empty.run [.register ⟨1⟩ .any .any, .reserve ⟨1⟩ ⟨7⟩ ⟨0⟩ .any, .conclude ⟨0⟩ ⟨7⟩ .success,
      .report ⟨1⟩ ⟨[⟨⟨⟨1⟩, 4⟩, .any, some ⟨⟨8⟩, ⟨0⟩⟩⟩]⟩] = .ok cluster ∧
    (∀ job profile, cluster.ledger.count job profile =
      cluster.inventory.slots.countP fun slot => slot.job = job ∧ slot.profile = profile) ∧
    (∀ job counts, cluster.ledger.jobs.get? job = some counts →
      counts.isEmpty = false ∧ ∀ profile n, counts.get? profile = some n → n ≠ 0) ∧
    (cluster.ledger.isEmpty = true ↔ cluster.inventory.slots = []) := by
  obtain ⟨cluster, reached⟩ := Checked.isOk_iff.1 (show (empty.run [.register ⟨1⟩ .any .any,
    .reserve ⟨1⟩ ⟨7⟩ ⟨0⟩ .any, .conclude ⟨0⟩ ⟨7⟩ .success,
    .report ⟨1⟩ ⟨[⟨⟨⟨1⟩, 4⟩, .any, some ⟨⟨8⟩, ⟨0⟩⟩⟩]⟩]).isOk = true from rfl)
  exact ⟨cluster, reached, run_conserves reached⟩

end Cluster

end SlotControl
