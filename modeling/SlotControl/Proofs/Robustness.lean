import SlotControl.Proofs.Adoption
import SlotControl.Proofs.Audit
import SlotControl.Proofs.Convergence

/-!
No operation fails while the numbers stay in bounds, whatever the operations are and in whatever order they
come, and the check of the whole state passes between them. Main statement: `run_never_fails`.
-/

namespace SlotControl

/-! ## What an operation asks for -/

namespace Cluster

variable {Seed : Type} [Traversal Seed]

/-- The new slots that the entries of a report ask for, each with the state in which its turn comes: the
    allocation of the entry has no slot there. -/
def demands (worker : WorkerId) (cluster : Cluster) : List (SlotStatus × SlotAssignment) → List (Cluster × Slot)
  | [] => []
  | entry :: rest =>
    let later := match cluster.adopt worker entry.1 entry.2 with
      | .ok (_, next) => next.demands worker rest
      | .error _ => []
    if cluster.slot? entry.2.allocation = none then (cluster, proposed worker entry) :: later else later

theorem mem_demands_first {cluster : Cluster} (worker : WorkerId) {entry : SlotStatus × SlotAssignment}
    (rest : List (SlotStatus × SlotAssignment)) (absent : cluster.slot? entry.2.allocation = none) :
    (cluster, proposed worker entry) ∈ cluster.demands worker (entry :: rest) := by
  rw [demands, if_pos absent]
  exact .head _

theorem mem_demands_later {cluster between : Cluster} {worker : WorkerId} {entry : SlotStatus × SlotAssignment}
    {rest : List (SlotStatus × SlotAssignment)} {applied : Bool} {demand : Cluster × Slot}
    (adopted : cluster.adopt worker entry.1 entry.2 = .ok (applied, between))
    (inside : demand ∈ between.demands worker rest) : demand ∈ cluster.demands worker (entry :: rest) := by
  rw [demands, adopted]
  split
  · exact .tail _ inside
  · exact inside

end Cluster

/-- The new slots that an operation asks for, with the states in which it does. -/
def Event.demands {Seed : Type} [Traversal Seed] (cluster : Cluster) : Event → List (Cluster × Slot)
  | .reserve worker job allocation profile => [(cluster, ⟨allocation, job, .dynamic worker, profile, .pending⟩)]
  | .report worker content =>
    match cluster.inventory.worker? worker with
    | none => []
    | some record =>
      match cluster.freeAll (Cluster.released record content) with
      | .ok kept => kept.demands worker content.occupied
      | .error _ => []
  | .register .. | .removeWorker .. | .conclude .. | .free .. => []

/-- An outcome, a free or a removal of a worker makes no new slot. -/
theorem Event.clear_none (allocation : AllocationId) (event : Event) : event.clear allocation none = none := by
  cases event <;> simp [clear]

namespace Cluster

section

variable {Seed : Type} [Traversal Seed]
variable {cluster next : Cluster} {slot : Slot} {worker : WorkerId}

/-- A new slot leaves the numbers in bounds: with it there are less than 2^32 slots, and if the total of its
    worker is the wildcard, then the slots of the worker come to less than 2^64 in every dimension. -/
structure Bears (cluster : Cluster) (slot : Slot) : Prop where
  few : cluster.inventory.slotCount + 1 < Numeral.bound32
  small : cluster.inventory.total? slot.worker = some .any →
    ∀ d, slot.profile.parts d + cluster.inventory.load slot.worker d < Numeral.bound64

/-- The caller keeps its side. A new total has no zeros at its end, an allocation is reserved only if it has no
    slot, and the new slots for which there is room leave the numbers in bounds. -/
def Regular (cluster : Cluster) (event : Event) : Prop :=
  (∀ demand ∈ event.demands cluster,
    demand.1.HasRoom demand.2.worker demand.2.profile → demand.1.Bears demand.2) ∧
  match event with
  | .register _ total _ => total.Trimmed
  | .reserve _ _ allocation _ => cluster.slot? allocation = none
  | _ => True

/-- Every operation of a run is regular when its turn comes. -/
def RegularRun : Cluster → List Event → Prop
  | _, [] => True
  | cluster, event :: rest =>
    cluster.Regular event ∧ ∀ answer next, cluster.perform event = .ok (answer, next) → next.RegularRun rest

/-! ## States in order and in bounds -/

/-- The accounts are in order and the numbers in bounds. -/
structure Healthy (cluster : Cluster) : Prop where
  sound : cluster.Sound
  addable : cluster.inventory.Addable
  few : cluster.inventory.slots.length < Numeral.bound32

theorem healthy_empty : empty.Healthy := ⟨sound_empty, nofun, Nat.two_pow_pos 32⟩

theorem Healthy.audit (healthy : cluster.Healthy) : cluster.audit = .ok () :=
  healthy.sound.audit healthy.addable healthy.few

/-- The numbers stay in bounds where no allocation gains a slot. -/
theorem Healthy.shrink (healthy : cluster.Healthy) (sound : next.Sound) (addable : next.inventory.Addable)
    (had : ∀ allocation slot, next.slot? allocation = some slot → cluster.slot? allocation ≠ none) : next.Healthy :=
  ⟨sound, addable, Nat.lt_of_le_of_lt
    (healthy.sound.inventory.indexed.length_slots_le sound.inventory.indexed had) healthy.few⟩

/-- Where there is room for a slot and the numbers bear it, its worker is not overloaded: a worker that is no
    wildcard holds no more than its total. -/
theorem Bears.not_overloaded (bears : cluster.Bears slot) (sound : cluster.Sound)
    (room : cluster.HasRoom slot.worker slot.profile) (d : Nat) :
    slot.profile.parts d + cluster.inventory.load slot.worker d < Numeral.bound64 := by
  obtain ⟨record, registered, fits⟩ := room
  by_cases wild : record.total = .any
  · exact bears.small (wild ▸ Inventory.total?_of_registered registered) d
  · obtain ⟨rest, taken⟩ := (Profile.exists_sub?_iff ..).2 fits
    have accounted := sound.inventory.accounted registered
    obtain ⟨trimmed, accounts⟩ := accounted.accounts.take taken
    rw [sound.inventory.indexed.load_eq registered, ← Profile.partsOf_cons]
    exact accounts.addable wild d

/-- A new slot that the numbers bear can be occupied. -/
theorem Healthy.exists_occupy (healthy : cluster.Healthy) (slot : Slot) (absent : cluster.slot? slot.allocation = none)
    (room : cluster.HasRoom slot.worker slot.profile) (bears : cluster.Bears slot) :
    ∃ next, cluster.occupy slot = .ok next ∧ next.Healthy := by
  have indexed := healthy.sound.inventory.indexed
  have small := bears.not_overloaded healthy.sound room
  have few : cluster.inventory.slots.length + 1 < Numeral.bound32 := indexed.slotCount_eq ▸ bears.few
  rcases healthy.sound.occupy_cases slot absent room small with ⟨next, occupied⟩ | ⟨-, many⟩
  · have recorded := ((occupy_eq_ok_iff slot).1 occupied).1
    obtain ⟨indexed', slots⟩ := slot?_record indexed recorded
    refine ⟨next, occupied, ⟨healthy.sound.balanced.occupy absent occupied, healthy.sound.inventory.record recorded⟩,
      indexed'.addable_iff.2 fun id d => ?_, ?_⟩
    · rw [load_occupy indexed absent occupied]
      split
      · next here => exact here ▸ small d
      · rw [Nat.zero_add]
        exact indexed.addable_iff.1 healthy.addable id d
    · rwa [(indexed.slots_cons indexed' absent slots).length_eq, List.length_cons]
  · have := healthy.sound.balanced.count_le slot.job slot.profile
    omega

/-! ## Operations -/

theorem Healthy.register (healthy : cluster.Healthy) {total defaultSlot : Profile} (trimmed : total.Trimmed)
    (registered : cluster.register worker total defaultSlot = .ok next) : next.Healthy := by
  have indexed := healthy.sound.inventory.indexed
  obtain ⟨-, -, slots⟩ := slot?_register indexed registered
  have sound := healthy.sound.register trimmed registered
  obtain ⟨inventory, added, rfl⟩ := (register_eq_ok_iff ..).1 registered
  exact healthy.shrink sound (healthy.addable.addWorker added) fun allocation slot found => by
    rw [← slots, found]
    exact nofun

/-- A reservation of a new slot is accepted if there is room, and refused if there is not. -/
theorem Healthy.exists_reserve (healthy : cluster.Healthy) (job : JobId) {allocation : AllocationId}
    {profile : Profile} (absent : cluster.slot? allocation = none) (bears : cluster.HasRoom worker profile →
      cluster.Bears ⟨allocation, job, .dynamic worker, profile, .pending⟩) :
    (∃ failure, cluster.reserve worker job allocation profile = .ok (.error failure)) ∨
      ∃ next, cluster.reserve worker job allocation profile = .ok (.ok next) ∧ next.Healthy := by
  by_cases room : cluster.HasRoom worker profile
  · obtain ⟨next, occupied, healthy'⟩ := healthy.exists_occupy
      ⟨allocation, job, .dynamic worker, profile, .pending⟩ absent room (bears room)
    exact .inr ⟨next, (reserve_eq_ok_iff ..).2 ⟨room, absent, occupied⟩, healthy'⟩
  · exact .inl (reserve_of_full room job allocation)

theorem Healthy.exists_adopt (healthy : cluster.Healthy) (worker : WorkerId)
    (entry : SlotStatus × SlotAssignment) (bears : cluster.slot? entry.2.allocation = none →
      cluster.HasRoom worker entry.1.profile → cluster.Bears (proposed worker entry)) :
    ∃ applied next, cluster.adopt worker entry.1 entry.2 = .ok (applied, next) ∧ next.Healthy := by
  have indexed := healthy.sound.inventory.indexed
  by_cases new : cluster.slot? entry.2.allocation = none ∧ cluster.HasRoom worker entry.1.profile
  · obtain ⟨absent, room⟩ := new
    obtain ⟨next, occupied, healthy'⟩ := healthy.exists_occupy (proposed worker entry) absent room
      (bears absent room)
    exact ⟨true, next, (adopt_eq_ok_iff ..).2 (.occupied absent room occupied), healthy'⟩
  · rcases healthy.sound.adopt_cases worker entry fun absent room => absurd ⟨absent, room⟩ new
      with ⟨applied, next, adopted⟩ | ⟨-, absent, room, -⟩
    · refine ⟨applied, next, adopted, ?_⟩
      cases (adopt_eq_ok_iff ..).1 adopted with
      | elsewhere | refused => exact healthy
      | occupied absent room => exact absurd ⟨absent, room⟩ new
      | placed found here moved ledger =>
        obtain ⟨-, slots⟩ := slot?_setPlace indexed found moved
        refine healthy.shrink (healthy.sound.adopt adopted) (healthy.addable.setPlace indexed moved) ?_
        intro allocation slot found'
        rw [slots] at found'
        split at found'
        · next same => rw [same, found]; exact nofun
        · rw [found']; exact nofun
    · exact absurd ⟨absent, room⟩ new

theorem Healthy.exists_adoptAll (healthy : cluster.Healthy) (entries : List (SlotStatus × SlotAssignment))
    (bears : ∀ demand ∈ cluster.demands worker entries,
      demand.1.HasRoom demand.2.worker demand.2.profile → demand.1.Bears demand.2) :
    ∃ applied next, cluster.adoptAll worker entries = .ok (applied, next) ∧ next.Healthy := by
  induction entries generalizing cluster with
  | nil => exact ⟨true, cluster, rfl, healthy⟩
  | cons entry rest ih =>
    obtain ⟨first, between, adopted, healthy'⟩ := healthy.exists_adopt worker entry
      fun absent => bears _ (mem_demands_first worker rest absent)
    obtain ⟨others, next, continued, healthy''⟩ := ih healthy' fun demand inside =>
      bears demand (mem_demands_later adopted inside)
    exact ⟨_, next, (adoptAll_cons_eq_ok_iff ..).2 ⟨first, between, others, adopted, continued, rfl⟩, healthy''⟩

theorem Healthy.exists_freeAll (healthy : cluster.Healthy) (allocations : List AllocationId) :
    ∃ next, cluster.freeAll allocations = .ok next ∧ next.Healthy := by
  have indexed := healthy.sound.inventory.indexed
  have small := indexed.addable_iff.1 healthy.addable
  obtain ⟨next, freed⟩ := healthy.sound.exists_freeAll allocations
    fun allocation _ slot _ => small slot.worker
  obtain ⟨indexed', slots⟩ := slot?_freeAll indexed freed
  refine ⟨next, freed, healthy.shrink (healthy.sound.freeAll freed) (indexed'.addable_iff.2 fun id d => ?_) ?_⟩
  · rw [Inventory.load, Slot.takenOn_perm (slots_freeAll indexed freed)]
    exact Nat.lt_of_le_of_lt (Slot.takenOn_filter_le _) (small id d)
  · intro allocation slot found
    rw [slots] at found
    split at found
    · cases found
    · rw [found]
      exact Option.some_ne_none slot

theorem Healthy.exists_report (healthy : cluster.Healthy) {report : SlotReport}
    (bears : ∀ demand ∈ Event.demands cluster (.report worker report),
      demand.1.HasRoom demand.2.worker demand.2.profile → demand.1.Bears demand.2) :
    ∃ applied next, cluster.report worker report = .ok (applied, next) ∧ next.Healthy := by
  cases registered : cluster.inventory.worker? worker with
  | none => exact ⟨false, cluster, report_of_unknown registered report, healthy⟩
  | some record =>
    obtain ⟨kept, freed, healthy'⟩ := healthy.exists_freeAll (released record report)
    obtain ⟨applied, next, adopted, healthy''⟩ := healthy'.exists_adoptAll report.occupied fun demand inside =>
      bears demand (by simpa only [Event.demands, registered, freed] using inside)
    refine ⟨applied, next, ?_, healthy''⟩
    rw [report_of_registered registered, freed]
    exact adopted

/-- An outcome, a free or a removal of a worker succeeds. -/
theorem Healthy.clears (healthy : cluster.Healthy) {event : Event} (clears : event.Clears) :
    ∃ answer next, cluster.perform event = .ok (answer, next) ∧ next.Healthy := by
  obtain ⟨answer, next, performed, sound, addable, slots, -⟩ := healthy.sound.clears healthy.addable clears
  refine ⟨answer, next, performed, healthy.shrink sound addable fun allocation slot found absent => ?_⟩
  rw [slots, absent, Event.clear_none] at found
  cases found

/-- A regular operation succeeds and keeps the state in order and in bounds. -/
theorem Healthy.perform (healthy : cluster.Healthy) {event : Event} (regular : cluster.Regular event) :
    ∃ answer next, cluster.perform event = .ok (answer, next) ∧ next.Healthy := by
  obtain ⟨bears, kept⟩ := regular
  cases event with
  | conclude | free | removeWorker => exact healthy.clears trivial
  | register worker total defaultSlot =>
    rw [Cluster.perform]
    cases registered : cluster.register worker total defaultSlot with
    | ok next => exact ⟨_, next, rfl, healthy.register kept registered⟩
    | error failure => exact ⟨_, cluster, rfl, healthy⟩
  | reserve worker job allocation profile =>
    rcases healthy.exists_reserve job kept fun room => bears _ (.head _) room with
      ⟨failure, refused⟩ | ⟨next, accepted, healthy'⟩
    · exact ⟨_, cluster, by rw [Cluster.perform, refused]; rfl, healthy⟩
    · exact ⟨_, next, by rw [Cluster.perform, accepted]; rfl, healthy'⟩
  | report worker report =>
    obtain ⟨applied, next, reported, healthy'⟩ := healthy.exists_report bears
    exact ⟨_, next, by rw [Cluster.perform, reported]; rfl, healthy'⟩

theorem Healthy.run (healthy : cluster.Healthy) {events : List Event} (regular : cluster.RegularRun events)
    {before : List Event} (initial : before <+: events) : ∃ next, cluster.run before = .ok next ∧ next.Healthy := by
  induction events generalizing cluster before with
  | nil =>
    obtain rfl := List.prefix_nil.1 initial
    exact ⟨cluster, rfl, healthy⟩
  | cons event rest ih =>
    cases before with
    | nil => exact ⟨cluster, rfl, healthy⟩
    | cons first before =>
      obtain ⟨rfl, onward⟩ := List.cons_prefix_cons.1 initial
      obtain ⟨answer, between, performed, healthy'⟩ := healthy.perform regular.1
      obtain ⟨next, continued, healthy''⟩ := ih healthy' (regular.2 answer between performed) onward
      exact ⟨next, (run_cons_eq_ok_iff ..).2 ⟨answer, between, performed, continued⟩, healthy''⟩

/-- Nothing fails in a run from the start whose caller keeps its side: every operation succeeds, and the check
    of the whole state passes at the start, at the end and between any two operations. -/
theorem run_never_fails {events : List Event} (regular : empty.RegularRun events) {before : List Event}
    (initial : before <+: events) : ∃ cluster, empty.run before = .ok cluster ∧ cluster.audit = .ok () := by
  obtain ⟨cluster, performed, healthy⟩ := healthy_empty.run regular initial
  exact ⟨cluster, performed, healthy.audit⟩

end

/-- A report names the reserved slot for two other jobs and one slot more than the worker has room for. -/
private def contradictoryEvents : List Event :=
  [.register ⟨1⟩ (.ofUnits 4 0) .any, .reserve ⟨1⟩ ⟨7⟩ ⟨0⟩ (.ofUnits 2 0),
    .report ⟨1⟩ ⟨[⟨⟨⟨1⟩, 0⟩, .ofUnits 3 0, some ⟨⟨8⟩, ⟨0⟩⟩⟩, ⟨⟨⟨1⟩, 1⟩, .any, some ⟨⟨9⟩, ⟨0⟩⟩⟩,
      ⟨⟨⟨1⟩, 2⟩, .ofUnits 2 0, some ⟨⟨7⟩, ⟨1⟩⟩⟩]⟩,
    .conclude ⟨0⟩ ⟨7⟩ (.failure (.unknownWorker ⟨1⟩)), .removeWorker ⟨1⟩]

theorem run_never_fails_contradictory :
    ∃ cluster, empty.run contradictoryEvents = .ok cluster ∧ cluster.audit = .ok () := by
  have regular : empty.RegularRun contradictoryEvents := by
    refine ⟨⟨nofun, ⟨_, rfl⟩⟩, fun answer next performed => ?_⟩
    obtain ⟨-, rfl⟩ := Prod.mk.inj (Except.ok.inj performed)
    refine ⟨⟨fun demand asked _ => ?_, rfl⟩, fun answer next performed => ?_⟩
    · obtain rfl := List.mem_singleton.1 asked
      exact ⟨by decide, nofun⟩
    obtain ⟨-, rfl⟩ := Prod.mk.inj (Except.ok.inj performed)
    refine ⟨⟨fun demand asked _ => ?_, trivial⟩, fun answer next performed => ?_⟩
    · -- The second entry finds the slot of the first one, so that the first and the third ask for one.
      rcases List.mem_cons.1 asked with rfl | asked
      · exact ⟨by decide, nofun⟩
      · obtain rfl := List.mem_singleton.1 asked
        exact ⟨by decide, nofun⟩
    obtain ⟨-, rfl⟩ := Prod.mk.inj (Except.ok.inj performed)
    refine ⟨⟨nofun, trivial⟩, fun answer next performed => ?_⟩
    obtain ⟨-, rfl⟩ := Prod.mk.inj (Except.ok.inj performed)
    exact ⟨⟨nofun, trivial⟩, fun _ _ _ => trivial⟩
  exact run_never_fails regular List.prefix_rfl

end Cluster

end SlotControl
