import SlotControl.Proofs.Capacity
import SlotControl.Proofs.Conservation

/-!
States whose accounts are all in order. Every operation comes down to steps on the inventory, so a run
from the start reaches such states only. They are determined by their slots and by what is registered
about the workers, and in them outcomes, frees and removals of workers do not fail.
-/

namespace SlotControl

variable {Seed : Type} [Traversal Seed]

/-! ## Steps on the inventory -/

namespace Inventory

/-- Slots are recorded, moved and removed from one inventory to the other. -/
inductive Leads (first : Inventory) : Inventory → Prop
  | refl : Leads first first
  | record {between last : Inventory} {slot : Slot} (leads : Leads first between)
      (recorded : between.record slot = .ok last) : Leads first last
  | setPlace {between last : Inventory} {allocation : AllocationId} {place : SlotId} (leads : Leads first between)
      (moved : between.setPlace allocation place = .ok last) : Leads first last
  | removeSlot {between last : Inventory} {allocation : AllocationId} {result : Option Slot}
      (leads : Leads first between) (removed : between.removeSlot allocation = .ok (result, last)) :
      Leads first last

theorem Leads.trans {first between last : Inventory} (leads : first.Leads between) (onward : between.Leads last) :
    first.Leads last := by
  induction onward with
  | refl => exact leads
  | record _ recorded ih => exact ih.record recorded
  | setPlace _ moved ih => exact ih.setPlace moved
  | removeSlot _ removed ih => exact ih.removeSlot removed

theorem Indexed.leads {first last : Inventory} (indexed : first.Indexed) (leads : first.Leads last) : last.Indexed := by
  induction leads with
  | refl => exact indexed
  | record _ recorded ih => exact ih.of_record recorded
  | setPlace _ moved ih => exact ih.of_setPlace moved
  | removeSlot _ removed ih => exact ih.of_removeSlot removed

/-- What lasts and holds of every worker holds of every worker after such steps. -/
theorem All.leads {Holds : Worker → Prop} {first last : Inventory} (all : first.All Holds)
    (lasting : Worker.Lasting Holds) (indexed : first.Indexed) (leads : first.Leads last) : last.All Holds := by
  induction leads with
  | refl => exact all
  | record before recorded ih => exact ih.record lasting (indexed.leads before) recorded
  | setPlace before moved ih => exact ih.setPlace lasting (indexed.leads before) moved
  | removeSlot before removed ih => exact ih.removeSlot lasting (indexed.leads before) removed

theorem Sound.leads {first last : Inventory} (sound : first.Sound) (leads : first.Leads last) : last.Sound :=
  ⟨sound.indexed.leads leads, sound.all.leads Worker.lasting_accounted sound.indexed leads⟩

/-- A slot that is confirmed stays on its worker and takes no more of it. -/
theorem Indexed.confirmable {inventory : Inventory} (indexed : inventory.Indexed) {allocation : AllocationId}
    {slot : Slot} (found : inventory.slot? allocation = some slot) :
    inventory.Movable { slot with state := .allocated } ∧ ∃ worker, inventory.worker? slot.worker = some worker ∧
      worker.slot? slot.allocation = some slot ∧
      worker.Leaves { slot with state := .allocated } worker.available := by
  obtain ⟨worker, registered, held⟩ := indexed.registered_of_slot? found
  have held : worker.slot? slot.allocation = some slot := indexed.allocation_eq found ▸ held
  refine ⟨fun owner entry => ?_, worker, registered, held, (Worker.leaves_iff_of_same held rfl).2 rfl⟩
  rw [indexed.owners_get?, indexed.allocation_eq found, found] at entry
  exact (Option.some.inj entry).symm

/-- Such steps leave the terms of all workers. -/
theorem Sound.terms_leads {first last : Inventory} (sound : first.Sound) (leads : first.Leads last) (id : WorkerId) :
    (last.worker? id).map Worker.terms = (first.worker? id).map Worker.terms := by
  induction leads with
  | refl => rfl
  | record before recorded ih => exact ((sound.leads before).indexed.terms_record recorded id).trans ih
  | setPlace before moved ih => exact ((sound.leads before).indexed.terms_setPlace moved id).trans ih
  | removeSlot before removed ih => exact ((sound.leads before).indexed.terms_removeSlot removed id).trans ih

/-- A worker whose slots and terms are the same in two inventories in order has one record in both. -/
theorem Sound.worker?_congr {inventory next : Inventory} (sound : inventory.Sound) (sound' : next.Sound)
    {id : WorkerId} (slots : ∀ allocation,
      (inventory.slot? allocation).filter (·.worker = id) = (next.slot? allocation).filter (·.worker = id))
    (terms : (inventory.worker? id).map Worker.terms = (next.worker? id).map Worker.terms) :
    inventory.worker? id = next.worker? id := by
  cases registered : inventory.worker? id with
  | none =>
    rw [registered] at terms
    exact (Option.map_eq_none_iff.1 terms.symm).symm
  | some worker =>
    rw [registered] at terms
    obtain ⟨worker', registered', equal⟩ := Option.map_eq_some_iff.1 terms.symm
    obtain ⟨total, defaultSlot⟩ := Prod.mk.inj equal
    have held : worker.slots = worker'.slots := by
      refine SortedMap.ext fun allocation => ?_
      show worker.slot? allocation = worker'.slot? allocation
      rw [sound.indexed.worker_slot? registered, sound'.indexed.worker_slot? registered', slots]
    have id_eq : worker.id = worker'.id :=
      (sound.indexed.id_eq registered).trans (sound'.indexed.id_eq registered').symm
    rw [registered']
    exact congrArg some ((sound.accounted registered).ext (sound'.accounted registered') id_eq total.symm
      defaultSlot.symm held)

end Inventory

/-! ## Totals that a run registers -/

namespace Event

/-- The total of the worker that an event registers. -/
def total? : Event → Option Profile
  | .register _ total _ => some total
  | _ => none

/-- For a given run it can be computed that no total has zeros at its end. -/
theorem trimmed_of_totals {events : List Event} (trimmed : ∀ total ∈ events.filterMap total?, total.Trimmed)
    (worker : WorkerId) (total defaultSlot : Profile) (inside : .register worker total defaultSlot ∈ events) :
    total.Trimmed :=
  trimmed total (List.mem_filterMap.2 ⟨.register worker total defaultSlot, inside, rfl⟩)

end Event

namespace Cluster

variable {cluster next : Cluster}

theorem leads_free {allocation : AllocationId} {result : Option Slot}
    (freed : cluster.free allocation = .ok (result, next)) : cluster.inventory.Leads next.inventory := by
  rw [free, Checked.bind_eq_ok_iff] at freed
  obtain ⟨⟨_ | slot, inventory⟩, removed, rest⟩ := freed
  · obtain ⟨rfl, rfl⟩ := Prod.mk.inj (Checked.pure_eq_ok_iff.1 rest)
    exact .removeSlot .refl removed
  · simp only [Checked.bind_eq_ok_iff, Checked.pure_eq_ok_iff, Prod.mk.injEq] at rest
    obtain ⟨_, _, rfl, rfl⟩ := rest
    exact .removeSlot .refl removed

theorem leads_conclude {allocation : AllocationId} {job : JobId} {outcome told : Outcome}
    (concluded : cluster.conclude allocation job outcome = .ok (told, next)) :
    cluster.inventory.Leads next.inventory := by
  cases (conclude_eq_ok_iff ..).1 concluded with
  | late => exact .refl
  | confirmed found its pending recorded ledger => exact .record .refl recorded
  | withdrawn found its pending freed => exact leads_free freed

theorem leads_reserve {worker : WorkerId} {job : JobId} {allocation : AllocationId} {profile : Profile}
    (accepted : cluster.reserve worker job allocation profile = .ok (.ok next)) :
    cluster.inventory.Leads next.inventory := by
  obtain ⟨-, -, occupied⟩ := (reserve_eq_ok_iff ..).1 accepted
  exact .record .refl ((occupy_eq_ok_iff _).1 occupied).1

theorem leads_freeAll {allocations : List AllocationId} (freed : cluster.freeAll allocations = .ok next) :
    cluster.inventory.Leads next.inventory := by
  refine Checked.foldlM_keeps (fun state : Cluster => cluster.inventory.Leads state.inventory) ?_ .refl freed
  intro state allocation after leads stepped
  simp only [Checked.bind_eq_ok_iff, Checked.pure_eq_ok_iff] at stepped
  obtain ⟨_, freed, rfl⟩ := stepped
  exact leads.trans (leads_free freed)

theorem leads_adopt {worker : WorkerId} {status : SlotStatus} {assignment : SlotAssignment} {applied : Bool}
    (adopted : cluster.adopt worker status assignment = .ok (applied, next)) :
    cluster.inventory.Leads next.inventory := by
  cases (adopt_eq_ok_iff ..).1 adopted with
  | elsewhere | refused => exact .refl
  | placed found here moved ledger => exact .setPlace .refl moved
  | occupied absent room occupies => exact .record .refl ((occupy_eq_ok_iff _).1 occupies).1

theorem leads_adoptAll {worker : WorkerId} {entries : List (SlotStatus × SlotAssignment)} {applied : Bool}
    (adopted : cluster.adoptAll worker entries = .ok (applied, next)) : cluster.inventory.Leads next.inventory := by
  refine Checked.foldlM_keeps (fun state : Bool × Cluster => cluster.inventory.Leads state.2.inventory) ?_ .refl
    adopted
  rintro ⟨_, state⟩ entry ⟨_, after⟩ leads stepped
  simp only [Checked.bind_eq_ok_iff, Checked.pure_eq_ok_iff, Prod.mk.injEq] at stepped
  obtain ⟨_, adopted, _, rfl⟩ := stepped
  exact leads.trans (leads_adopt adopted)

theorem leads_report {worker : WorkerId} {report : SlotReport} {applied : Bool}
    (reported : cluster.report worker report = .ok (applied, next)) : cluster.inventory.Leads next.inventory := by
  rcases report_eq_ok reported with ⟨-, -, rfl⟩ | ⟨record, kept, registered, freed, adopted⟩
  · exact .refl
  · exact (leads_freeAll freed).trans (leads_adoptAll adopted)

/-! ## What lasts -/

section Lasting

variable {Holds : Worker → Prop}

/-- What lasts holds of every worker after an operation, if it holds of the worker that the operation registers. -/
theorem Balanced.all_perform (balanced : cluster.Balanced) (lasting : Worker.Lasting Holds)
    (all : cluster.inventory.All Holds) {event : Event} {answer : Answer}
    (fresh : ∀ worker total defaultSlot, event = .register worker total defaultSlot →
      Holds (.register worker total defaultSlot))
    (performed : cluster.perform event = .ok (answer, next)) : next.inventory.All Holds := by
  have indexed := balanced.indexed
  cases performed_of_perform performed with
  | notRegistered | notReserved => exact all
  | registered registers =>
    obtain ⟨inventory, added, rfl⟩ := (register_eq_ok_iff ..).1 registers
    exact all.addWorker (fresh _ _ _ rfl) added
  | workerRemoved removed =>
    rw [((removeWorker_eq_ok_iff ..).1 removed).2.1]
    exact all.removeWorker indexed _
  | reserved accepted => exact all.leads lasting indexed (leads_reserve accepted)
  | concluded concluded => exact all.leads lasting indexed (leads_conclude concluded)
  | freed freed => exact all.leads lasting indexed (leads_free freed)
  | reported reported => exact all.leads lasting indexed (leads_report reported)

theorem Balanced.all_run (balanced : cluster.Balanced) (lasting : Worker.Lasting Holds)
    (all : cluster.inventory.All Holds) {events : List Event}
    (fresh : ∀ worker total defaultSlot, .register worker total defaultSlot ∈ events →
      Holds (.register worker total defaultSlot))
    (performed : cluster.run events = .ok next) : next.inventory.All Holds := by
  induction events generalizing cluster with
  | nil => exact Except.ok.inj performed ▸ all
  | cons event rest ih =>
    obtain ⟨answer, between, first, continued⟩ := (run_cons_eq_ok_iff event rest).1 performed
    refine ih (balanced.perform first) (balanced.all_perform lasting all ?_ first) ?_ continued
    · rintro worker total defaultSlot rfl
      exact fresh worker total defaultSlot (.head _)
    · exact fun worker total defaultSlot later => fresh worker total defaultSlot (.tail _ later)

end Lasting

/-! ## The accounts together -/

/-- The ledger counts every recorded slot once, and the account of every worker is in order. -/
structure Sound (cluster : Cluster) : Prop where
  balanced : cluster.Balanced
  inventory : cluster.inventory.Sound

theorem sound_empty : empty.Sound := ⟨balanced_empty, Inventory.sound_empty⟩

section Operations

variable {worker : WorkerId} {job : JobId} {allocation : AllocationId}

theorem Sound.register (sound : cluster.Sound) {total defaultSlot : Profile} (trimmed : total.Trimmed)
    (registered : cluster.register worker total defaultSlot = .ok next) : next.Sound := by
  refine ⟨sound.balanced.register registered, ?_⟩
  obtain ⟨inventory, added, rfl⟩ := (register_eq_ok_iff ..).1 registered
  exact sound.inventory.addWorker trimmed added

theorem Sound.removeWorker (sound : cluster.Sound) {slots : List Slot}
    (removed : cluster.removeWorker worker = .ok (slots, next)) : next.Sound := by
  refine ⟨sound.balanced.removeWorker removed, ?_⟩
  rw [((removeWorker_eq_ok_iff ..).1 removed).2.1]
  exact sound.inventory.removeWorker worker

theorem Sound.reserve (sound : cluster.Sound) {profile : Profile}
    (accepted : cluster.reserve worker job allocation profile = .ok (.ok next)) : next.Sound :=
  ⟨sound.balanced.reserve accepted, sound.inventory.leads (leads_reserve accepted)⟩

theorem Sound.conclude (sound : cluster.Sound) {outcome told : Outcome}
    (concluded : cluster.conclude allocation job outcome = .ok (told, next)) : next.Sound :=
  ⟨sound.balanced.conclude concluded, sound.inventory.leads (leads_conclude concluded)⟩

theorem Sound.free (sound : cluster.Sound) {result : Option Slot}
    (freed : cluster.free allocation = .ok (result, next)) : next.Sound :=
  ⟨sound.balanced.free freed, sound.inventory.leads (leads_free freed)⟩

theorem Sound.freeAll (sound : cluster.Sound) {allocations : List AllocationId}
    (freed : cluster.freeAll allocations = .ok next) : next.Sound :=
  ⟨sound.balanced.freeAll freed, sound.inventory.leads (leads_freeAll freed)⟩

theorem Sound.adopt (sound : cluster.Sound) {status : SlotStatus} {assignment : SlotAssignment} {applied : Bool}
    (adopted : cluster.adopt worker status assignment = .ok (applied, next)) : next.Sound :=
  ⟨sound.balanced.adopt adopted, sound.inventory.leads (leads_adopt adopted)⟩

theorem Sound.report (sound : cluster.Sound) {content : SlotReport} {applied : Bool}
    (reported : cluster.report worker content = .ok (applied, next)) : next.Sound :=
  ⟨sound.balanced.report reported, sound.inventory.leads (leads_report reported)⟩

end Operations

/-- Every operation keeps the accounts, if a total that it registers has no zeros at its end. -/
theorem Sound.perform (sound : cluster.Sound) {event : Event} {answer : Answer}
    (trimmed : ∀ worker total defaultSlot, event = .register worker total defaultSlot → total.Trimmed)
    (performed : cluster.perform event = .ok (answer, next)) : next.Sound :=
  have balanced := sound.balanced.perform performed
  ⟨balanced, balanced.indexed, sound.balanced.all_perform Worker.lasting_accounted sound.inventory.all
    (fun worker _ defaultSlot same => Worker.accounted_register worker defaultSlot (trimmed _ _ _ same)) performed⟩

theorem Sound.run (sound : cluster.Sound) {events : List Event}
    (trimmed : ∀ worker total defaultSlot, .register worker total defaultSlot ∈ events → total.Trimmed)
    (performed : cluster.run events = .ok next) : next.Sound :=
  have balanced := sound.balanced.run performed
  ⟨balanced, balanced.indexed, sound.balanced.all_run Worker.lasting_accounted sound.inventory.all
    (fun worker _ defaultSlot inside => Worker.accounted_register worker defaultSlot (trimmed _ _ _ inside)) performed⟩

/-- Whatever else was registered, a worker of a state that a run has reached has its account in order if its own total
    has no zeros at its end. -/
theorem accounted_of_run {events : List Event} (reached : empty.run events = .ok cluster) {id : WorkerId}
    {record : Worker} (registered : cluster.inventory.worker? id = some record) (trimmed : record.total.Trimmed) :
    record.Accounted :=
  balanced_empty.all_run Worker.lasting_accounted.of_trimmed nofun
    (fun worker _ defaultSlot _ => Worker.accounted_register worker defaultSlot) reached registered trimmed

/-- States in order with the same slots and the same terms of their workers are the same. -/
theorem Sound.ext (sound : cluster.Sound) (sound' : next.Sound)
    (slots : ∀ allocation, cluster.slot? allocation = next.slot? allocation)
    (terms : ∀ id, (cluster.inventory.worker? id).map Worker.terms =
      (next.inventory.worker? id).map Worker.terms) : cluster = next := by
  have indexed := sound.inventory.indexed
  have indexed' := sound'.inventory.indexed
  have ledgers : cluster.ledger = next.ledger := by
    refine sound.balanced.tidy.ext sound'.balanced.tidy fun job profile => ?_
    rw [sound.balanced.count_eq, sound'.balanced.count_eq]
    exact indexed'.held_congr indexed slots job profile
  have owners : cluster.inventory.owners = next.inventory.owners := by
    refine SortedMap.ext fun allocation => ?_
    rw [indexed.owners_get?, indexed'.owners_get?]
    exact congrArg _ (slots allocation)
  have workers : cluster.inventory.workers = next.inventory.workers :=
    SortedMap.ext fun id => sound.inventory.worker?_congr sound'.inventory
      (fun allocation => congrArg _ (slots allocation)) (terms id)
  obtain ⟨⟨_, _⟩, _⟩ := cluster
  obtain ⟨⟨_, _⟩, _⟩ := next
  simp_all

/-! ## What cannot fail -/

/-- A recorded slot is counted. -/
theorem Balanced.count_pos (balanced : cluster.Balanced) {allocation : AllocationId} {slot : Slot}
    (found : cluster.slot? allocation = some slot) : 0 < cluster.ledger.count slot.job slot.profile := by
  have this := balanced.indexed.allocation_eq found
  rw [balanced.count_eq, Inventory.held, List.countP_pos_iff]
  exact ⟨slot, balanced.indexed.mem_slots.2 (this.symm ▸ found), by simp [Slot.countsFor]⟩

/-- Freeing a slot fails at most for the sums of its own worker. -/
theorem Sound.exists_free_of (sound : cluster.Sound) (allocation : AllocationId)
    (small : ∀ slot record, cluster.slot? allocation = some slot →
      cluster.inventory.worker? slot.worker = some record → Profile.Addable record.profiles) :
    ∃ next, cluster.free allocation = .ok (cluster.slot? allocation, next) := by
  have indexed := sound.inventory.indexed
  obtain ⟨inventory, removed⟩ := sound.inventory.exists_removeSlot allocation small
  cases found : cluster.slot? allocation with
  | none => exact ⟨cluster, (free_eq_ok_iff indexed ..).2 (.inl ⟨found, rfl, rfl⟩)⟩
  | some slot =>
    rw [← slot?_def, found] at removed
    have lost := (Ledger.lose_eq_ok_iff sound.balanced.tidy ..).2 ⟨sound.balanced.count_pos found, rfl⟩
    exact ⟨⟨inventory, _⟩, (free_eq_ok_iff indexed ..).2 (.inr ⟨slot, found, rfl, removed, lost⟩)⟩

theorem Sound.exists_free (sound : cluster.Sound) (addable : cluster.inventory.Addable) (allocation : AllocationId) :
    ∃ result next, cluster.free allocation = .ok (result, next) ∧ next.inventory.Addable := by
  have indexed := sound.inventory.indexed
  obtain ⟨next, freed⟩ := sound.exists_free_of allocation fun _ _ _ registered => addable registered
  refine ⟨_, next, freed, ?_⟩
  rcases (free_eq_ok_iff indexed ..).1 freed with ⟨-, -, rfl⟩ | ⟨slot, -, -, removed, -⟩
  · exact addable
  · exact addable.removeSlot indexed removed

theorem Sound.exists_conclude (sound : cluster.Sound) (addable : cluster.inventory.Addable)
    (allocation : AllocationId) (job : JobId) (outcome : Outcome) :
    ∃ told next, cluster.conclude allocation job outcome = .ok (told, next) ∧ next.inventory.Addable := by
  have indexed := sound.inventory.indexed
  by_cases late : cluster.Late allocation job
  · exact ⟨.success, cluster, (conclude_eq_ok_iff ..).2 (.late late), addable⟩
  · simp only [Late, not_forall, not_not] at late
    obtain ⟨slot, found, rfl, pending⟩ := late
    cases outcome with
    | success =>
      obtain ⟨movable, worker, registered, held, leaves⟩ := indexed.confirmable found
      have same : (worker.keep { slot with state := .allocated } worker.available).profiles.Perm worker.profiles :=
        Worker.profiles_keep_perm worker.available held rfl
      have small := (addable registered).perm same.symm
      obtain ⟨inventory, recorded⟩ := sound.inventory.exists_record movable registered leaves small
      refine ⟨.success, ⟨inventory, cluster.ledger⟩,
        (conclude_eq_ok_iff ..).2 (.confirmed found rfl pending recorded rfl), addable.record indexed ?_ recorded⟩
      intro worker' registered'
      obtain rfl := Option.some.inj (registered.symm.trans registered')
      exact small
    | failure cause =>
      obtain ⟨result, next, freed, addable'⟩ := sound.exists_free addable allocation
      exact ⟨.failure cause, next, (conclude_eq_ok_iff ..).2 (.withdrawn found rfl pending freed), addable'⟩

/-- A worker can always be removed: its slots are all counted. -/
theorem Sound.removes (sound : cluster.Sound) (worker : WorkerId) :
    ∃ slots next, cluster.removeWorker worker = .ok (slots, next) := by
  have enough : ∀ job profile, (cluster.inventory.removeWorker worker).1.countP (Slot.countsFor job profile) ≤
      cluster.ledger.count job profile := by
    intro job profile
    have listed := (sound.inventory.indexed.slots_removeWorker worker).countP_eq (Slot.countsFor job profile)
    rw [sound.balanced.count_eq, Inventory.held, listed, List.countP_append]
    exact Nat.le_add_right ..
  obtain ⟨ledger, lost⟩ := sound.balanced.tidy.exists_dischargeAll enough
  exact ⟨_, ⟨(cluster.inventory.removeWorker worker).2, ledger⟩, (removeWorker_eq_ok_iff worker _).2 ⟨rfl, rfl, lost⟩⟩

theorem Sound.exists_removeWorker (sound : cluster.Sound) (addable : cluster.inventory.Addable) (worker : WorkerId) :
    ∃ slots next, cluster.removeWorker worker = .ok (slots, next) ∧ next.inventory.Addable := by
  obtain ⟨slots, next, removed⟩ := sound.removes worker
  refine ⟨slots, next, removed, ?_⟩
  rw [((removeWorker_eq_ok_iff ..).1 removed).2.1]
  exact addable.removeWorker sound.inventory.indexed worker

end Cluster

end SlotControl
