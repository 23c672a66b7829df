import SlotControl.Proofs.Adoption

/-!
Where slots and workers come from. After an operation every slot was there before with its profile, or the operation
claimed its allocation with that profile (`stems_of_perform`); and a worker was there before with its total, or it has
been registered (`Sound.total?_eq_registers`).
-/

namespace SlotControl

variable {Seed : Type} [Traversal Seed]

/-- The allocations that an operation may record slots for, with the profiles of these. -/
def Event.claims : Event → List (AllocationId × Profile)
  | .reserve _ _ allocation profile => [(allocation, profile)]
  | .report _ content => content.occupied.map fun entry => (entry.2.allocation, entry.1.profile)
  | .register .. | .removeWorker .. | .conclude .. | .free .. => []

namespace Cluster

variable {cluster between next : Cluster} {worker : WorkerId} {claims more : List (AllocationId × Profile)}

/-- Every slot was there before with its profile, or is claimed. -/
def Stems (cluster : Cluster) (claims : List (AllocationId × Profile)) (next : Cluster) : Prop :=
  ∀ allocation slot, next.slot? allocation = some slot →
    (∃ old, cluster.slot? allocation = some old ∧ old.profile = slot.profile) ∨ (allocation, slot.profile) ∈ claims

theorem Stems.refl (cluster : Cluster) (claims : List (AllocationId × Profile)) : cluster.Stems claims cluster :=
  fun _ slot found => .inl ⟨slot, found, rfl⟩

theorem Stems.trans (stems : cluster.Stems claims between) (onward : between.Stems more next) :
    cluster.Stems (claims ++ more) next := by
  intro allocation slot found
  rcases onward allocation slot found with ⟨old, held, same⟩ | claimed
  · rcases stems allocation old held with earlier | claimed
    · exact .inl (same ▸ earlier)
    · exact .inr (List.mem_append_left _ (same ▸ claimed))
  · exact .inr (List.mem_append_right _ claimed)

/-- One slot may be new. -/
theorem stems_of_added (slot : Slot) (added : ∀ other, next.slot? other =
    if other = slot.allocation then some slot else cluster.slot? other) :
    cluster.Stems [(slot.allocation, slot.profile)] next := by
  intro allocation held found
  rw [added] at found
  split at found
  · next same =>
    rw [same, ← Option.some.inj found]
    exact .inr (.head _)
  · exact .inl ⟨held, found, rfl⟩

/-- Slots may be gone. -/
theorem stems_of_kept (kept : ∀ allocation slot, next.slot? allocation = some slot →
    cluster.slot? allocation = some slot) : cluster.Stems [] next :=
  fun allocation slot found => .inl ⟨slot, kept allocation slot found, rfl⟩

theorem stems_of_free (indexed : cluster.inventory.Indexed) {allocation : AllocationId} {result : Option Slot}
    (freed : cluster.free allocation = .ok (result, next)) : cluster.Stems [] next := by
  refine stems_of_kept ?_
  intro other slot found
  rw [(slot?_free indexed freed).2] at found
  split at found
  · cases found
  · exact found

theorem stems_of_conclude (indexed : cluster.inventory.Indexed) {allocation : AllocationId} {job : JobId}
    {outcome told : Outcome} (concluded : cluster.conclude allocation job outcome = .ok (told, next)) :
    cluster.Stems [] next := by
  intro other slot found
  rw [(slot?_conclude indexed concluded).2] at found
  split at found
  · obtain ⟨old, held, left⟩ := Option.bind_eq_some_iff.1 found
    refine .inl ⟨old, held, ?_⟩
    unfold settled at left
    split at left
    · split at left
      · rw [← Option.some.inj left]
      · cases left
    · rw [Option.some.inj left]
  · exact .inl ⟨slot, found, rfl⟩

theorem stems_of_adopt (indexed : cluster.inventory.Indexed) {entry : SlotStatus × SlotAssignment} {applied : Bool}
    (adoption : Adoption worker cluster entry.1 entry.2 applied next) :
    cluster.Stems [(entry.2.allocation, entry.1.profile)] next := by
  cases adoption with
  | elsewhere | refused => exact .refl cluster _
  | occupied absent room occupies =>
    exact stems_of_added _ (slot?_record indexed ((occupy_eq_ok_iff _).1 occupies).1).2
  | @placed slot _ found here moved ledger =>
    intro allocation held found'
    rw [(slot?_setPlace indexed found moved).2] at found'
    split at found'
    · next same =>
      rw [← Option.some.inj found']
      exact .inl ⟨slot, same ▸ found, rfl⟩
    · exact .inl ⟨held, found', rfl⟩

theorem stems_of_adoptAll (indexed : cluster.inventory.Indexed) {entries : List (SlotStatus × SlotAssignment)}
    {applied : Bool} (adopted : cluster.adoptAll worker entries = .ok (applied, next)) :
    cluster.Stems (entries.map fun entry => (entry.2.allocation, entry.1.profile)) next := by
  induction entries generalizing cluster applied with
  | nil =>
    obtain ⟨-, rfl⟩ := Prod.mk.inj (Except.ok.inj adopted)
    exact .refl cluster []
  | cons entry rest ih =>
    obtain ⟨first, between, others, adopts, continued, -⟩ := (adoptAll_cons_eq_ok_iff ..).1 adopted
    have adoption := (adopt_eq_ok_iff ..).1 adopts
    exact (stems_of_adopt indexed adoption).trans (ih (slot?_adopt indexed adoption).1 continued)

theorem stems_of_report (indexed : cluster.inventory.Indexed) {content : SlotReport} {applied : Bool}
    (reported : cluster.report worker content = .ok (applied, next)) :
    cluster.Stems (Event.report worker content).claims next := by
  rcases report_eq_ok reported with ⟨-, -, rfl⟩ | ⟨record, kept, -, freed, adopted⟩
  · exact .refl _ _
  · obtain ⟨indexed', slots⟩ := slot?_freeAll indexed freed
    refine Stems.trans (stems_of_kept fun allocation slot found => ?_) (stems_of_adoptAll indexed' adopted)
    rw [slots] at found
    split at found
    · cases found
    · exact found

/-- After an operation every slot was there before with its profile, or is one that the operation claims. -/
theorem stems_of_perform (indexed : cluster.inventory.Indexed) {event : Event} {answer : Answer}
    (performed : cluster.perform event = .ok (answer, next)) : cluster.Stems event.claims next := by
  cases performed_of_perform performed with
  | notRegistered | notReserved => exact .refl cluster _
  | registered added =>
    refine stems_of_kept ?_
    intro allocation slot found
    rwa [(slot?_register indexed added).2.2] at found
  | workerRemoved removed =>
    refine stems_of_kept ?_
    intro allocation slot found
    rw [(slot?_removeWorker indexed removed).2, Option.filter_eq_some_iff] at found
    exact found.1
  | reserved accepted => exact stems_of_added ⟨_, _, _, _, _⟩ (slot?_reserve indexed accepted).2.2
  | concluded concluded => exact stems_of_conclude indexed concluded
  | freed freed => exact stems_of_free indexed freed
  | reported reported => exact stems_of_report indexed reported

end Cluster

/-- The total of a worker after an operation, by what it was before. -/
def Event.registers (id : WorkerId) : Event → Option Profile → Option Profile
  | .register worker total _, before => if worker = id then before.or (some total) else before
  | .removeWorker worker, before => if worker = id then none else before
  | .reserve .., before | .conclude .., before | .free .., before | .report .., before => before

namespace Cluster

variable {cluster next : Cluster}

/-- A worker is registered unless its id is taken, and removed with its id. Nothing else changes totals. -/
theorem Sound.total?_eq_registers (sound : cluster.Sound) {event : Event} {answer : Answer}
    (performed : cluster.perform event = .ok (answer, next)) (id : WorkerId) :
    next.inventory.total? id = event.registers id (cluster.inventory.total? id) := by
  cases performed_of_perform performed with
  | @registered worker total _ _ added =>
    obtain ⟨inventory, extended, rfl⟩ := (register_eq_ok_iff ..).1 added
    obtain ⟨unknown, rfl⟩ := (Inventory.addWorker_eq_ok_iff ..).1 extended
    rw [Event.registers, Inventory.total?, Inventory.total?, Inventory.worker?, SortedMap.get?_insert]
    by_cases its : worker = id
    · subst its
      rw [if_pos rfl, if_pos rfl, unknown]
      rfl
    · rw [if_neg (Ne.symm its), if_neg its]
      rfl
  | @notRegistered worker _ _ _ refused =>
    obtain ⟨known, -⟩ := (register_eq_error_iff ..).1 refused
    obtain ⟨record, registered⟩ := Option.ne_none_iff_exists'.1 known
    rw [Event.registers]
    split
    · next its =>
      rw [← its, Inventory.total?_of_registered registered]
      rfl
    · rfl
  | @workerRemoved worker _ _ removed =>
    rw [((removeWorker_eq_ok_iff ..).1 removed).2.1, Event.registers, Inventory.total?,
      (sound.inventory.indexed.removeWorker worker).2.1]
    by_cases its : id = worker
    · rw [if_pos its, if_pos its.symm]
      rfl
    · rw [if_neg its, if_neg (Ne.symm its)]
      rfl
  | notReserved => rfl
  | reserved accepted => exact sound.inventory.total?_leads (leads_reserve accepted) id
  | concluded concluded => exact sound.inventory.total?_leads (leads_conclude concluded) id
  | freed freed => exact sound.inventory.total?_leads (leads_free freed) id
  | reported reported => exact sound.inventory.total?_leads (leads_report reported) id

end Cluster

end SlotControl
