import SlotControl.Cluster.Event
import SlotControl.Proofs.Index

/-!
The operations on the state, each by what its success amounts to and by the slots that it leaves. The
index of owners stays right throughout. Slots become pending by a reservation only.
-/

namespace SlotControl.Cluster

variable {Seed : Type} [Traversal Seed]

variable {cluster next : Cluster}

/-! ## Single slots -/

theorem slot?_def (cluster : Cluster) (allocation : AllocationId) :
    cluster.slot? allocation = cluster.inventory.slot? allocation := rfl

/-- Freeing finds nothing and changes nothing, or it removes the slot and takes it from the account of its
    job. -/
theorem free_eq_ok_iff (indexed : cluster.inventory.Indexed) (allocation : AllocationId) (result : Option Slot) :
    cluster.free allocation = .ok (result, next) ↔
      (cluster.slot? allocation = none ∧ result = none ∧ next = cluster) ∨
      ∃ slot, cluster.slot? allocation = some slot ∧ result = some slot ∧
        cluster.inventory.removeSlot allocation = .ok (some slot, next.inventory) ∧
        cluster.ledger.lose slot.job slot.profile = .ok next.ledger := by
  rw [free, Checked.bind_eq_ok_iff]
  constructor
  · rintro ⟨⟨removed, inventory⟩, succeeded, rest⟩
    rcases indexed.removeSlot succeeded with ⟨absent, rfl, rfl⟩ | ⟨slot, _, _, found, rfl, -⟩
    · obtain ⟨rfl, rfl⟩ := Prod.mk.inj (Checked.pure_eq_ok_iff.1 rest)
      exact .inl ⟨absent, rfl, rfl⟩
    · simp only [Checked.bind_eq_ok_iff, Checked.pure_eq_ok_iff, Prod.mk.injEq] at rest
      obtain ⟨ledger, lost, rfl, rfl⟩ := rest
      exact .inr ⟨slot, found, rfl, succeeded, lost⟩
  · rintro (⟨absent, rfl, rfl⟩ | ⟨slot, found, rfl, succeeded, lost⟩)
    · exact ⟨_, indexed.removeSlot_of_none absent, rfl⟩
    · refine ⟨_, succeeded, ?_⟩
      simp only [discharge, lost]
      rfl

/-- Freeing an allocation empties it and no other. -/
theorem slot?_free (indexed : cluster.inventory.Indexed) {allocation : AllocationId} {result : Option Slot}
    (freed : cluster.free allocation = .ok (result, next)) : next.inventory.Indexed ∧
      ∀ other, next.slot? other = if other = allocation then none else cluster.slot? other := by
  rcases (free_eq_ok_iff indexed ..).1 freed with ⟨absent, -, rfl⟩ | ⟨slot, found, -, removed, -⟩
  · refine ⟨indexed, fun other => ?_⟩
    split
    · next same => rw [same, absent]
    · rfl
  · rcases indexed.removeSlot removed with ⟨absent, -⟩ | ⟨_, _, _, -, -, -, -, revision⟩
    · rw [← slot?_def, found] at absent
      cases absent
    · exact ⟨revision.indexed indexed, revision.slot? indexed⟩

/-- Occupying records the slot and charges it to its job. -/
theorem occupy_eq_ok_iff (slot : Slot) : cluster.occupy slot = .ok next ↔
    cluster.inventory.record slot = .ok next.inventory ∧
      cluster.ledger.acquire slot.job slot.profile = .ok next.ledger := by
  simp only [occupy, Checked.bind_eq_ok_iff, Checked.pure_eq_ok_iff]
  constructor
  · rintro ⟨inventory, recorded, ledger, acquired, rfl⟩
    exact ⟨recorded, acquired⟩
  · rintro ⟨recorded, acquired⟩
    exact ⟨_, recorded, _, acquired, rfl⟩

/-- Freeing tells the slot that was there. -/
theorem free_told (indexed : cluster.inventory.Indexed) {allocation : AllocationId} {result : Option Slot}
    (freed : cluster.free allocation = .ok (result, next)) : result = cluster.slot? allocation := by
  rcases (free_eq_ok_iff indexed ..).1 freed with ⟨absent, rfl, -⟩ | ⟨slot, found, rfl, -⟩
  · exact absent.symm
  · exact found.symm

theorem slot?_record (indexed : cluster.inventory.Indexed) {slot : Slot}
    (recorded : cluster.inventory.record slot = .ok next.inventory) : next.inventory.Indexed ∧
      ∀ other, next.slot? other = if other = slot.allocation then some slot else cluster.slot? other := by
  obtain ⟨worker, available, -, revision⟩ := indexed.record recorded
  exact ⟨revision.indexed indexed, revision.slot? indexed⟩

/-- A slot that moves keeps everything but its place. -/
theorem slot?_setPlace (indexed : cluster.inventory.Indexed) {allocation : AllocationId} {place : SlotId}
    {slot : Slot} (found : cluster.slot? allocation = some slot)
    (moved : cluster.inventory.setPlace allocation place = .ok next.inventory) : next.inventory.Indexed ∧
      ∀ other, next.slot? other = if other = allocation then some { slot with place } else cluster.slot? other := by
  obtain ⟨absent, -⟩ | ⟨_, _, found', -, revision⟩ := indexed.setPlace moved
  · rw [← slot?_def, found] at absent
    cases absent
  · obtain rfl := Option.some.inj (found.symm.trans found')
    exact ⟨revision.indexed indexed, revision.slot? indexed⟩

/-- The worker is registered and has room for the profile. -/
def HasRoom (cluster : Cluster) (worker : WorkerId) (profile : Profile) : Prop :=
  ∃ record, cluster.inventory.worker? worker = some record ∧ record.canFit profile = true

theorem hasRoom_iff (worker : WorkerId) (profile : Profile) : cluster.HasRoom worker profile ↔
    (cluster.inventory.worker? worker).any (·.canFit profile) = true := by
  rw [Option.any_eq_true, HasRoom]

/-- A reservation is accepted if its worker is known and has room; then its pending slot is occupied. -/
theorem reserve_eq_ok_iff (worker : WorkerId) (job : JobId) (allocation : AllocationId) (profile : Profile) :
    cluster.reserve worker job allocation profile = .ok (.ok next) ↔
      cluster.HasRoom worker profile ∧ cluster.slot? allocation = none ∧
      cluster.occupy ⟨allocation, job, .dynamic worker, profile, .pending⟩ = .ok next := by
  rw [reserve, HasRoom]
  cases cluster.inventory.worker? worker with
  | none => simp [pure, Except.pure]
  | some record =>
    cases fits : record.canFit profile with
    | false => simp [fits, pure, Except.pure]
    | true =>
      cases cluster.slot? allocation with
      | none =>
        generalize cluster.occupy _ = occupied
        cases occupied <;> simp [fits, bind, Except.bind, pure, Except.pure]
      | some slot => simp [fits, throw, throwThe, MonadExceptOf.throw, bind, Except.bind]

theorem reserve_of_unknown {worker : WorkerId} (unknown : cluster.inventory.worker? worker = none) (job : JobId)
    (allocation : AllocationId) (profile : Profile) :
    cluster.reserve worker job allocation profile = .ok (.error (.unknownWorker worker)) := by
  simp only [reserve, unknown]
  rfl

/-- A reservation is not refused where there is room. -/
theorem not_refused_of_room {worker : WorkerId} {profile : Profile} (room : cluster.HasRoom worker profile)
    {job : JobId} {allocation : AllocationId} {failure : Failure} :
    cluster.reserve worker job allocation profile ≠ .ok (.error failure) := by
  obtain ⟨record, registered, fits⟩ := room
  simp only [reserve, registered, fits, if_true]
  cases cluster.slot? allocation with
  | some slot => exact nofun
  | none =>
    simp only [Option.isSome_none]
    cases cluster.occupy ⟨allocation, job, .dynamic worker, profile, .pending⟩ <;> exact nofun

/-- A reservation without room is refused. -/
theorem reserve_of_full {worker : WorkerId} {profile : Profile} (full : ¬cluster.HasRoom worker profile) (job : JobId)
    (allocation : AllocationId) : ∃ failure, cluster.reserve worker job allocation profile = .ok (.error failure) := by
  rw [reserve]
  cases registered : cluster.inventory.worker? worker with
  | none => exact ⟨_, rfl⟩
  | some record =>
    have crowded : record.canFit profile ≠ true := fun fits => full ⟨record, registered, fits⟩
    exact ⟨_, if_neg crowded⟩

/-- A reservation makes one pending slot, under an allocation that had none. -/
theorem slot?_reserve (indexed : cluster.inventory.Indexed) {worker : WorkerId} {job : JobId}
    {allocation : AllocationId} {profile : Profile}
    (accepted : cluster.reserve worker job allocation profile = .ok (.ok next)) :
    next.inventory.Indexed ∧ cluster.slot? allocation = none ∧ ∀ other, next.slot? other =
      if other = allocation then some ⟨allocation, job, .dynamic worker, profile, .pending⟩
      else cluster.slot? other := by
  obtain ⟨-, absent, occupied⟩ := (reserve_eq_ok_iff ..).1 accepted
  obtain ⟨indexed', slots⟩ := slot?_record indexed ((occupy_eq_ok_iff _).1 occupied).1
  exact ⟨indexed', absent, slots⟩

/-! ## The outcome of a request -/

/-- An outcome comes too late for a slot that is not pending for the job any more. -/
def Late (cluster : Cluster) (allocation : AllocationId) (job : JobId) : Prop :=
  ∀ slot, cluster.slot? allocation = some slot → ¬(slot.job = job ∧ slot.state = .pending)

/-- The ways in which the outcome of a request is applied. -/
inductive Conclusion (cluster : Cluster) (allocation : AllocationId) (job : JobId) :
    Outcome → Outcome → Cluster → Prop
  /-- The outcome comes too late and changes nothing. -/
  | late {outcome : Outcome} (late : cluster.Late allocation job) :
      Conclusion cluster allocation job outcome .success cluster
  | confirmed {slot : Slot} {next : Cluster} (found : cluster.slot? allocation = some slot) (its : slot.job = job)
      (pending : slot.state = .pending)
      (recorded : cluster.inventory.record { slot with state := .allocated } = .ok next.inventory)
      (ledger : next.ledger = cluster.ledger) : Conclusion cluster allocation job .success .success next
  | withdrawn {slot : Slot} {result : Option Slot} {next : Cluster} {cause : Failure}
      (found : cluster.slot? allocation = some slot) (its : slot.job = job) (pending : slot.state = .pending)
      (freed : cluster.free allocation = .ok (result, next)) :
      Conclusion cluster allocation job (.failure cause) (.failure cause) next

theorem conclude_eq_ok_iff (allocation : AllocationId) (job : JobId) (outcome told : Outcome) :
    cluster.conclude allocation job outcome = .ok (told, next) ↔
      Conclusion cluster allocation job outcome told next := by
  rw [conclude]
  constructor
  · intro concluded
    split at concluded
    · next nobody =>
      obtain ⟨rfl, rfl⟩ := Prod.mk.inj (Checked.pure_eq_ok_iff.1 concluded)
      refine .late fun slot found waits => ?_
      have passed := Option.filter_eq_none_iff.1 nobody slot found
      simp [waits, Slot.isPending] at passed
    · next slot waiting =>
      obtain ⟨found, waits⟩ := Option.filter_eq_some_iff.1 waiting
      obtain ⟨its, pending⟩ : slot.job = job ∧ slot.state = .pending := by simpa [Slot.isPending] using waits
      cases outcome with
      | success =>
        simp only [Checked.bind_eq_ok_iff, Checked.pure_eq_ok_iff, Prod.mk.injEq] at concluded
        obtain ⟨inventory, recorded, rfl, rfl⟩ := concluded
        exact .confirmed found its pending recorded rfl
      | failure cause =>
        simp only [Checked.bind_eq_ok_iff, Checked.pure_eq_ok_iff, Prod.mk.injEq] at concluded
        obtain ⟨⟨result, _⟩, freed, rfl, rfl⟩ := concluded
        exact .withdrawn found its pending freed
  · have waiting : ∀ {slot : Slot}, cluster.slot? allocation = some slot → slot.job = job → slot.state = .pending →
        (cluster.slot? allocation).filter (fun slot => slot.job == job && slot.isPending) = some slot := by
      intro slot found its pending
      simp [found, Option.filter, Slot.isPending, its, pending]
    intro conclusion
    cases conclusion with
    | late late =>
      have nobody : (cluster.slot? allocation).filter (fun slot => slot.job == job && slot.isPending) = none := by
        rw [Option.filter_eq_none_iff]
        intro slot found
        simpa [Slot.isPending] using late slot found
      rw [nobody]
      rfl
    | confirmed found its pending recorded ledger =>
      simp only [waiting found its pending, recorded, bind, Except.bind, pure, Except.pure, ← ledger]
    | withdrawn found its pending freed =>
      simp only [waiting found its pending, freed, bind, Except.bind, pure, Except.pure]

/-- The caller is told the outcome if the slot still waits for it, and success otherwise. -/
theorem conclude_told {allocation : AllocationId} {job : JobId} {outcome told : Outcome}
    (concluded : cluster.conclude allocation job outcome = .ok (told, next)) :
    told = match (cluster.slot? allocation).filter fun slot => slot.job == job && slot.isPending with
      | none => .success
      | some _ => outcome := by
  rw [conclude] at concluded
  cases waiting : (cluster.slot? allocation).filter fun slot => slot.job == job && slot.isPending with
  | none =>
    rw [waiting] at concluded
    exact (Prod.mk.inj (Checked.pure_eq_ok_iff.1 concluded)).1.symm
  | some slot =>
    rw [waiting] at concluded
    cases outcome <;>
      simp only [Checked.bind_eq_ok_iff, Checked.pure_eq_ok_iff, Prod.mk.injEq] at concluded
    · obtain ⟨_, _, rfl, _⟩ := concluded
      rfl
    · obtain ⟨_, _, rfl, _⟩ := concluded
      rfl

/-- What an outcome makes of a slot. -/
def settled (job : JobId) (outcome : Outcome) (slot : Slot) : Option Slot :=
  if slot.job = job ∧ slot.state = .pending then
    match outcome with
    | .success => some { slot with state := .allocated }
    | .failure _ => none
  else some slot

theorem settled_of_allocated (job : JobId) (outcome : Outcome) {slot : Slot} (confirmed : slot.state = .allocated) :
    settled job outcome slot = some slot := by
  unfold settled
  rw [if_neg]
  rintro ⟨-, pending⟩
  rw [confirmed] at pending
  cases pending

/-- An outcome settles the slot of its allocation and no other. -/
theorem slot?_conclude (indexed : cluster.inventory.Indexed) {allocation : AllocationId} {job : JobId}
    {outcome told : Outcome} (concluded : cluster.conclude allocation job outcome = .ok (told, next)) :
    next.inventory.Indexed ∧ ∀ other, next.slot? other =
      if other = allocation then (cluster.slot? other).bind (settled job outcome) else cluster.slot? other := by
  cases (conclude_eq_ok_iff ..).1 concluded with
  | late late =>
    refine ⟨indexed, fun other => ?_⟩
    split
    · next same =>
      subst same
      cases found : cluster.slot? other with
      | none => rfl
      | some slot => simp [settled, late slot found]
    · rfl
  | @confirmed slot _ found its pending recorded ledger =>
    obtain ⟨indexed', slots⟩ := slot?_record indexed recorded
    have this : slot.allocation = allocation := indexed.allocation_eq found
    refine ⟨indexed', fun other => ?_⟩
    rw [slots, this]
    split
    · next same => simp [same, found, settled, its, pending, this]
    · rfl
  | withdrawn found its pending freed =>
    obtain ⟨indexed', slots⟩ := slot?_free indexed freed
    refine ⟨indexed', fun other => ?_⟩
    rw [slots]
    split
    · next same => simp [same, found, settled, its, pending]
    · rfl

section Pending

variable {allocation : AllocationId} {slot : Slot} {told : Outcome}

/-- Success replaces the pending slot by a confirmed one and changes nothing else. -/
theorem conclude_success_eq (indexed : cluster.inventory.Indexed) (found : cluster.slot? allocation = some slot)
    (pending : slot.state = .pending) (concluded : cluster.conclude allocation slot.job .success = .ok (told, next)) :
    told = .success ∧ ∃ record, cluster.inventory.worker? slot.worker = some record ∧
      next = ⟨⟨cluster.inventory.workers.insert slot.worker
          { record with slots := record.slots.insert allocation { slot with state := .allocated } },
        cluster.inventory.owners⟩, cluster.ledger⟩ := by
  cases (conclude_eq_ok_iff ..).1 concluded with
  | late late => exact absurd ⟨rfl, pending⟩ (late slot found)
  | confirmed found' its pending' recorded same =>
    obtain rfl := Option.some.inj (found.symm.trans found')
    obtain ⟨-, record, available, registered, leaves, -, changed⟩ := (Inventory.record_eq_ok_iff _).1 recorded
    obtain ⟨record', registered', held⟩ := indexed.registered_of_slot? found
    obtain rfl := Option.some.inj (registered.symm.trans registered')
    have this : slot.allocation = allocation := indexed.allocation_eq found
    have held' : record.slot? slot.allocation = some slot := by rw [this, held]
    have untouched : available = record.available := (Worker.leaves_iff_of_same held' rfl).1 leaves
    -- The index names the worker already, so that writing it again changes nothing.
    have owner : cluster.inventory.owners.insert allocation slot.worker = cluster.inventory.owners := by
      refine SortedMap.insert_of_get? ?_
      rw [indexed.owners_get?, ← slot?_def, found]
      rfl
    refine ⟨rfl, record, registered, ?_⟩
    obtain ⟨inventory, ledger⟩ := next
    obtain rfl : ledger = cluster.ledger := same
    obtain rfl : inventory = _ := changed
    rw [untouched, this]
    exact congrArg (fun owners => (⟨⟨_, owners⟩, cluster.ledger⟩ : Cluster)) (this ▸ owner)

/-- Failure removes the pending slot, gives its profile back to its worker and takes it from the account of
    its job. -/
theorem conclude_failure_eq (indexed : cluster.inventory.Indexed) {cause : Failure}
    (found : cluster.slot? allocation = some slot) (pending : slot.state = .pending)
    (concluded : cluster.conclude allocation slot.job (.failure cause) = .ok (told, next)) :
    told = .failure cause ∧ ∃ record rest ledger, cluster.inventory.worker? slot.worker = some record ∧
      record.available.add? slot.profile = some rest ∧ cluster.ledger.lose slot.job slot.profile = .ok ledger ∧
      next = ⟨⟨cluster.inventory.workers.insert slot.worker
          { record with available := rest, slots := record.slots.erase allocation },
        cluster.inventory.owners.erase allocation⟩, ledger⟩ := by
  cases (conclude_eq_ok_iff ..).1 concluded with
  | late late => exact absurd ⟨rfl, pending⟩ (late slot found)
  | withdrawn found' its pending' freed =>
    obtain ⟨absent, -⟩ | ⟨_, found'', -, removed, lost⟩ := (free_eq_ok_iff indexed ..).1 freed
    · rw [found] at absent
      cases absent
    obtain rfl := Option.some.inj (found.symm.trans found'')
    obtain ⟨record, rest, registered, given, -, -, changed⟩ := (indexed.removeSlot_eq_ok_iff found _).1 removed
    refine ⟨rfl, record, rest, next.ledger, registered, given, lost, ?_⟩
    obtain ⟨inventory, ledger⟩ := next
    obtain rfl : inventory = _ := changed
    rfl

end Pending

/-! ## Workers -/

theorem register_eq_ok_iff (worker : WorkerId) (total defaultSlot : Profile) :
    cluster.register worker total defaultSlot = .ok next ↔
      ∃ inventory, cluster.inventory.addWorker worker total defaultSlot = .ok inventory ∧
        ⟨inventory, cluster.ledger⟩ = next := by
  rw [register]
  cases cluster.inventory.addWorker worker total defaultSlot <;> simp [bind, Except.bind, pure, Except.pure]

theorem register_of_known {worker : WorkerId} {record : Worker}
    (known : cluster.inventory.worker? worker = some record) (total defaultSlot : Profile) :
    cluster.register worker total defaultSlot = .error (.duplicateWorker worker) := by
  rw [register, Inventory.addWorker, SortedMap.contains,
    show cluster.inventory.workers.get? worker = some record from known]
  rfl

/-- A registration is refused exactly if the id is taken. -/
theorem register_eq_error_iff (worker : WorkerId) (total defaultSlot : Profile) (failure : Failure) :
    cluster.register worker total defaultSlot = .error failure ↔
      cluster.inventory.worker? worker ≠ none ∧ failure = .duplicateWorker worker := by
  cases known : cluster.inventory.worker? worker with
  | some record =>
    rw [register_of_known known]
    simp [eq_comm]
  | none =>
    have accepted := (Inventory.addWorker_eq_ok_iff _ _ worker total defaultSlot).2 ⟨known, rfl⟩
    rw [(register_eq_ok_iff worker total defaultSlot).2 ⟨_, accepted, rfl⟩]
    simp

theorem slot?_register (indexed : cluster.inventory.Indexed) {worker : WorkerId} {total defaultSlot : Profile}
    (registered : cluster.register worker total defaultSlot = .ok next) :
    next.inventory.Indexed ∧ next.ledger = cluster.ledger ∧
      ∀ other, next.slot? other = cluster.slot? other := by
  obtain ⟨inventory, added, rfl⟩ := (register_eq_ok_iff ..).1 registered
  obtain ⟨indexed', slots⟩ := indexed.addWorker added
  exact ⟨indexed', rfl, slots⟩

theorem removeWorker_eq_ok_iff (worker : WorkerId) (slots : List Slot) :
    cluster.removeWorker worker = .ok (slots, next) ↔ slots = (cluster.inventory.removeWorker worker).1 ∧
      next.inventory = (cluster.inventory.removeWorker worker).2 ∧
      slots.foldlM discharge cluster.ledger = .ok next.ledger := by
  simp only [removeWorker, Checked.bind_eq_ok_iff, Checked.pure_eq_ok_iff, Prod.mk.injEq]
  constructor
  · rintro ⟨ledger, lost, rfl, rfl⟩
    exact ⟨rfl, rfl, lost⟩
  · rintro ⟨rfl, same, lost⟩
    exact ⟨_, lost, rfl, by rw [← same]⟩

/-- A removed worker takes its slots with it. -/
theorem slot?_removeWorker (indexed : cluster.inventory.Indexed) {worker : WorkerId} {slots : List Slot}
    (removed : cluster.removeWorker worker = .ok (slots, next)) :
    next.inventory.Indexed ∧ ∀ other, next.slot? other = (cluster.slot? other).filter (·.worker ≠ worker) := by
  obtain ⟨-, same, -⟩ := (removeWorker_eq_ok_iff worker slots).1 removed
  obtain ⟨indexed', -, kept⟩ := indexed.removeWorker worker
  rw [← same] at indexed' kept
  exact ⟨indexed', kept⟩

/-! ## Reports -/

/-- Frees allocations one after the other. -/
def freeAll (cluster : Cluster) (allocations : List AllocationId) : Checked Cluster :=
  allocations.foldlM (fun cluster allocation => do return (← cluster.free allocation).2) cluster

/-- The allocations of a worker that a report releases. -/
def released (record : Worker) (report : SlotReport) : List AllocationId :=
  (record.slots.values.filter (supersedes report.jobs)).map (·.allocation)

/-- A report of a worker releases the slot. -/
def Releases (worker : WorkerId) (report : SlotReport) (slot : Slot) : Prop :=
  slot.worker = worker ∧ supersedes report.jobs slot = true

instance (worker : WorkerId) (report : SlotReport) (slot : Slot) : Decidable (Releases worker report slot) :=
  inferInstanceAs (Decidable (_ ∧ _))

/-- The ways in which one reported slot is brought into line. -/
inductive Adoption (worker : WorkerId) (cluster : Cluster) (status : SlotStatus) (assignment : SlotAssignment) :
    Bool → Cluster → Prop
  /-- The slot is on the worker already and takes the reported place. -/
  | placed {slot : Slot} {next : Cluster} (found : cluster.slot? assignment.allocation = some slot)
      (here : slot.worker = worker)
      (moved : cluster.inventory.setPlace assignment.allocation ⟨worker, status.place.index⟩ = .ok next.inventory)
      (ledger : next.ledger = cluster.ledger) : Adoption worker cluster status assignment true next
  /-- The allocation is on another worker. -/
  | elsewhere {slot : Slot} (found : cluster.slot? assignment.allocation = some slot)
      (apart : slot.worker ≠ worker) : Adoption worker cluster status assignment false cluster
  /-- The allocation is new, and there is room for it. -/
  | occupied {next : Cluster} (absent : cluster.slot? assignment.allocation = none)
      (room : cluster.HasRoom worker status.profile)
      (occupies : cluster.occupy ⟨assignment.allocation, assignment.job, ⟨worker, status.place.index⟩,
        status.profile, .allocated⟩ = .ok next) : Adoption worker cluster status assignment true next
  /-- The allocation is new, and there is no room for it. -/
  | refused (absent : cluster.slot? assignment.allocation = none)
      (full : ¬cluster.HasRoom worker status.profile) :
      Adoption worker cluster status assignment false cluster

theorem adopt_eq_ok_iff (worker : WorkerId) (status : SlotStatus) (assignment : SlotAssignment) (applied : Bool) :
    cluster.adopt worker status assignment = .ok (applied, next) ↔
      Adoption worker cluster status assignment applied next := by
  constructor
  · intro adopted
    rw [adopt] at adopted
    split at adopted
    · next slot found =>
      split at adopted
      · next here =>
        simp only [Checked.bind_eq_ok_iff, Checked.pure_eq_ok_iff, Prod.mk.injEq] at adopted
        obtain ⟨inventory, moved, rfl, rfl⟩ := adopted
        exact .placed found here moved rfl
      · next apart =>
        obtain ⟨rfl, rfl⟩ := Prod.mk.inj (Checked.pure_eq_ok_iff.1 adopted)
        exact .elsewhere found apart
    · next absent =>
      split at adopted
      · next fits =>
        simp only [Checked.bind_eq_ok_iff, Checked.pure_eq_ok_iff, Prod.mk.injEq] at adopted
        obtain ⟨_, occupies, rfl, rfl⟩ := adopted
        exact .occupied absent ((hasRoom_iff ..).2 fits) occupies
      · next full =>
        obtain ⟨rfl, rfl⟩ := Prod.mk.inj (Checked.pure_eq_ok_iff.1 adopted)
        exact .refused absent fun room => full ((hasRoom_iff ..).1 room)
  · intro adoption
    rw [adopt]
    cases adoption with
    | placed found here moved ledger =>
      simp only [found, here, if_true, moved, bind, Except.bind, pure, Except.pure, ← ledger]
    | elsewhere found apart => simp only [found, apart, if_false]; rfl
    | occupied absent room occupies =>
      simp only [absent, (hasRoom_iff ..).1 room, if_true, occupies, bind, Except.bind, pure, Except.pure]
    | refused absent full =>
      have crowded : ¬(cluster.inventory.worker? worker).any (·.canFit status.profile) = true :=
        fun room => full ((hasRoom_iff ..).2 room)
      simp only [absent, crowded]
      rfl

/-- What a report may make of the slots that it leaves: one on its worker may move to another place
    there, and where nothing was recorded a confirmed slot of the worker may appear. -/
inductive Reported (worker : WorkerId) : Option Slot → Option Slot → Prop
  | same (slot : Option Slot) : Reported worker slot slot
  | moved (slot : Slot) (place : SlotId) (here : slot.worker = worker) (there : place.worker = worker) :
      Reported worker (some slot) (some { slot with place })
  | adopted (slot : Slot) (here : slot.worker = worker) (confirmed : slot.state = .allocated) :
      Reported worker none (some slot)

namespace Reported

variable {worker : WorkerId} {before between after : Option Slot}

theorem trans (first : Reported worker before between) (second : Reported worker between after) :
    Reported worker before after := by
  cases first with
  | same => exact second
  | moved slot place here there =>
    cases second with
    | same => exact .moved slot place here there
    | moved _ place' _ there' => exact .moved slot place' here there'
  | adopted slot here confirmed =>
    cases second with
    | same => exact .adopted slot here confirmed
    | moved _ place _ there => exact .adopted { slot with place } there confirmed

/-- A slot that a report leaves stays on its worker with its job, profile and state. -/
theorem some_left {slot : Slot} (reported : Reported worker (some slot) after) :
    ∃ place : SlotId, place.worker = slot.worker ∧ after = some { slot with place } := by
  cases reported with
  | same => exact ⟨slot.place, rfl, rfl⟩
  | moved _ place here there => exact ⟨place, there.trans here.symm, rfl⟩

/-- A slot of another worker stays as it is. -/
theorem eq_of_ne {slot : Slot} (reported : Reported worker (some slot) after) (apart : slot.worker ≠ worker) :
    after = some slot := by
  cases reported with
  | same => rfl
  | moved _ _ here => exact absurd here apart

/-- A slot that appears during a report is confirmed. -/
theorem none_left {slot : Slot} (reported : Reported worker none (some slot)) :
    slot.worker = worker ∧ slot.state = .allocated := by
  cases reported with
  | adopted _ here confirmed => exact ⟨here, confirmed⟩

end Reported

theorem slot?_adopt (indexed : cluster.inventory.Indexed) {worker : WorkerId} {status : SlotStatus}
    {assignment : SlotAssignment} {applied : Bool}
    (adoption : Adoption worker cluster status assignment applied next) :
    next.inventory.Indexed ∧ ∀ other, Reported worker (cluster.slot? other) (next.slot? other) := by
  cases adoption with
  | elsewhere | refused => exact ⟨indexed, fun other => .same _⟩
  | placed found here moved ledger =>
    obtain ⟨indexed', slots⟩ := slot?_setPlace indexed found moved
    refine ⟨indexed', fun other => ?_⟩
    rw [slots]
    split
    · next same => subst same; rw [found]; exact .moved _ _ here rfl
    · exact .same _
  | occupied absent room occupies =>
    obtain ⟨indexed', slots⟩ := slot?_record indexed ((occupy_eq_ok_iff _).1 occupies).1
    refine ⟨indexed', fun other => ?_⟩
    rw [slots]
    split
    · next same => subst same; rw [absent]; exact .adopted _ rfl rfl
    · exact .same _

theorem slot?_adoptAll (indexed : cluster.inventory.Indexed) {worker : WorkerId}
    {entries : List (SlotStatus × SlotAssignment)} {applied : Bool}
    (adopted : cluster.adoptAll worker entries = .ok (applied, next)) :
    next.inventory.Indexed ∧ ∀ other, Reported worker (cluster.slot? other) (next.slot? other) := by
  refine Checked.foldlM_keeps (fun state : Bool × Cluster => state.2.inventory.Indexed ∧
    ∀ other, Reported worker (cluster.slot? other) (state.2.slot? other)) ?_ ⟨indexed, fun _ => .same _⟩ adopted
  rintro ⟨_, state⟩ entry ⟨_, after⟩ ⟨indexed', reported⟩ stepped
  simp only [Checked.bind_eq_ok_iff, Checked.pure_eq_ok_iff, Prod.mk.injEq] at stepped
  obtain ⟨⟨_, _⟩, adopted, _, rfl⟩ := stepped
  obtain ⟨indexed'', reported'⟩ := slot?_adopt indexed' ((adopt_eq_ok_iff ..).1 adopted)
  exact ⟨indexed'', fun other => (reported other).trans (reported' other)⟩

theorem slot?_freeAll (indexed : cluster.inventory.Indexed) {allocations : List AllocationId}
    (freed : cluster.freeAll allocations = .ok next) : next.inventory.Indexed ∧
      ∀ other, next.slot? other = if other ∈ allocations then none else cluster.slot? other := by
  induction allocations generalizing cluster with
  | nil =>
    obtain rfl := Except.ok.inj freed
    exact ⟨indexed, fun other => by simp⟩
  | cons allocation rest ih =>
    rw [freeAll, List.foldlM_cons] at freed
    simp only [Checked.bind_eq_ok_iff, Checked.pure_eq_ok_iff] at freed
    obtain ⟨_, ⟨⟨result, between⟩, first, rfl⟩, freed⟩ := freed
    obtain ⟨indexed', slots⟩ := slot?_free indexed first
    obtain ⟨indexed'', slots'⟩ := ih indexed' freed
    refine ⟨indexed'', fun other => ?_⟩
    rw [slots', slots]
    by_cases later : other ∈ rest
    · simp [later]
    · by_cases same : other = allocation <;> simp [later, same]

theorem report_of_unknown {worker : WorkerId} (unknown : cluster.inventory.worker? worker = none)
    (report : SlotReport) : cluster.report worker report = .ok (false, cluster) := by
  simp only [Cluster.report, unknown]
  rfl

theorem report_of_registered {worker : WorkerId} {record : Worker}
    (registered : cluster.inventory.worker? worker = some record) (report : SlotReport) :
    cluster.report worker report =
      cluster.freeAll (released record report) >>= fun kept => kept.adoptAll worker report.occupied := by
  simp only [Cluster.report, registered]
  rfl

/-- A report of an unknown worker changes nothing; one of a registered worker releases slots first and adopts
    the reported ones then. -/
theorem report_eq_ok {worker : WorkerId} {report : SlotReport} {applied : Bool}
    (reported : cluster.report worker report = .ok (applied, next)) :
    (cluster.inventory.worker? worker = none ∧ applied = false ∧ next = cluster) ∨
      ∃ record kept, cluster.inventory.worker? worker = some record ∧
        cluster.freeAll (released record report) = .ok kept ∧
        kept.adoptAll worker report.occupied = .ok (applied, next) := by
  cases registered : cluster.inventory.worker? worker with
  | none =>
    rw [report_of_unknown registered] at reported
    obtain ⟨rfl, rfl⟩ := Prod.mk.inj (Except.ok.inj reported)
    exact .inl ⟨rfl, rfl, rfl⟩
  | some record =>
    rw [report_of_registered registered, Checked.bind_eq_ok_iff] at reported
    obtain ⟨kept, freed, adopted⟩ := reported
    exact .inr ⟨record, kept, rfl, freed, adopted⟩

theorem mem_released (indexed : cluster.inventory.Indexed) {worker : WorkerId} {record : Worker}
    (registered : cluster.inventory.worker? worker = some record) (report : SlotReport) (allocation : AllocationId) :
    allocation ∈ released record report ↔
      ∃ slot, cluster.slot? allocation = some slot ∧ Releases worker report slot := by
  simp only [released, List.mem_map, List.mem_filter, SortedMap.mem_values, Releases]
  constructor
  · rintro ⟨slot, ⟨⟨key, held⟩, superseded⟩, rfl⟩
    obtain ⟨same, here⟩ := indexed.housed registered held
    rw [same]
    exact ⟨slot, indexed.slot?_of_worker registered held, here, superseded⟩
  · rintro ⟨slot, found, here, superseded⟩
    have held := indexed.worker_slot? registered allocation
    rw [show cluster.inventory.slot? allocation = some slot from found] at held
    refine ⟨slot, ⟨⟨allocation, ?_⟩, superseded⟩, indexed.allocation_eq found⟩
    show record.slot? allocation = some slot
    simpa [Option.filter, here] using held

/-- The first pass of a report leaves the slots that it does not release. -/
theorem slot?_release (indexed : cluster.inventory.Indexed) {worker : WorkerId} {record : Worker}
    {report : SlotReport} (registered : cluster.inventory.worker? worker = some record)
    (freed : cluster.freeAll (released record report) = .ok next) : next.inventory.Indexed ∧
      ∀ other, next.slot? other = (cluster.slot? other).filter fun slot => ¬Releases worker report slot := by
  obtain ⟨indexed', slots⟩ := slot?_freeAll indexed freed
  refine ⟨indexed', fun other => ?_⟩
  rw [slots]
  cases found : cluster.slot? other with
  | none => simp
  | some slot => simp [mem_released indexed registered, found, Option.filter]

/-- An unknown worker has no slots that a report could release. -/
theorem filter_releases_of_unknown (indexed : cluster.inventory.Indexed) {worker : WorkerId}
    (unknown : cluster.inventory.worker? worker = none) (report : SlotReport) (other : AllocationId) :
    (cluster.slot? other).filter (fun slot => ¬Releases worker report slot) = cluster.slot? other := by
  cases found : cluster.slot? other with
  | none => rfl
  | some slot =>
    obtain ⟨record, here, _⟩ := indexed.registered_of_slot? found
    have apart : slot.worker ≠ worker := fun same => by rw [same, unknown] at here; cases here
    simp [Option.filter, Releases, apart]

/-- A report removes the slots that it releases, and what it makes of the others is `Reported`. -/
theorem slot?_report (indexed : cluster.inventory.Indexed) {worker : WorkerId} {report : SlotReport} {applied : Bool}
    (reported : cluster.report worker report = .ok (applied, next)) : next.inventory.Indexed ∧
      ∀ other, Reported worker ((cluster.slot? other).filter fun slot => ¬Releases worker report slot)
        (next.slot? other) := by
  rcases report_eq_ok reported with ⟨unknown, -, rfl⟩ | ⟨record, kept, registered, freed, adopted⟩
  · exact ⟨indexed, fun other => (filter_releases_of_unknown indexed unknown report other).symm ▸ .same _⟩
  · obtain ⟨indexed', left⟩ := slot?_release indexed registered freed
    obtain ⟨indexed'', changes⟩ := slot?_adoptAll indexed' adopted
    exact ⟨indexed'', fun other => left other ▸ changes other⟩

/-! ## Operations as values -/

/-- The ways in which an operation succeeds. -/
inductive Performed (cluster : Cluster) : Event → Answer → Cluster → Prop
  | registered {worker : WorkerId} {total defaultSlot : Profile} {next : Cluster}
      (added : cluster.register worker total defaultSlot = .ok next) :
      Performed cluster (.register worker total defaultSlot) (.outcome .success) next
  | notRegistered {worker : WorkerId} {total defaultSlot : Profile} {failure : Failure}
      (refused : cluster.register worker total defaultSlot = .error failure) :
      Performed cluster (.register worker total defaultSlot) (.outcome (.failure failure)) cluster
  | workerRemoved {worker : WorkerId} {slots : List Slot} {next : Cluster}
      (removed : cluster.removeWorker worker = .ok (slots, next)) :
      Performed cluster (.removeWorker worker) (.removed slots) next
  | reserved {worker : WorkerId} {job : JobId} {allocation : AllocationId} {profile : Profile} {next : Cluster}
      (accepted : cluster.reserve worker job allocation profile = .ok (.ok next)) :
      Performed cluster (.reserve worker job allocation profile) (.outcome .success) next
  | notReserved {worker : WorkerId} {job : JobId} {allocation : AllocationId} {profile : Profile} {failure : Failure}
      (refused : cluster.reserve worker job allocation profile = .ok (.error failure)) :
      Performed cluster (.reserve worker job allocation profile) (.outcome (.failure failure)) cluster
  | concluded {allocation : AllocationId} {job : JobId} {outcome told : Outcome} {next : Cluster}
      (concluded : cluster.conclude allocation job outcome = .ok (told, next)) :
      Performed cluster (.conclude allocation job outcome) (.outcome told) next
  | freed {allocation : AllocationId} {slot : Option Slot} {next : Cluster}
      (freed : cluster.free allocation = .ok (slot, next)) : Performed cluster (.free allocation) (.freed slot) next
  | reported {worker : WorkerId} {report : SlotReport} {applied : Bool} {next : Cluster}
      (reported : cluster.report worker report = .ok (applied, next)) :
      Performed cluster (.report worker report) (.applied applied) next

theorem performed_of_perform {event : Event} {answer : Answer}
    (performed : cluster.perform event = .ok (answer, next)) : Performed cluster event answer next := by
  cases event with
  | register worker total defaultSlot =>
    rw [perform] at performed
    split at performed
    · next added =>
      obtain ⟨rfl, rfl⟩ := Prod.mk.inj (Except.ok.inj performed)
      exact .registered added
    · next refused =>
      obtain ⟨rfl, rfl⟩ := Prod.mk.inj (Except.ok.inj performed)
      exact .notRegistered refused
  | removeWorker worker =>
    obtain ⟨⟨slots, _⟩, removed, same⟩ := Checked.map_eq_ok_iff.1 performed
    obtain ⟨rfl, rfl⟩ := Prod.mk.inj same
    exact .workerRemoved removed
  | reserve worker job allocation profile =>
    rw [perform, Checked.bind_eq_ok_iff] at performed
    obtain ⟨failure | reserved, decided, same⟩ := performed
    · obtain ⟨rfl, rfl⟩ := Prod.mk.inj (Checked.pure_eq_ok_iff.1 same)
      exact .notReserved decided
    · obtain ⟨rfl, rfl⟩ := Prod.mk.inj (Checked.pure_eq_ok_iff.1 same)
      exact .reserved decided
  | conclude allocation job outcome =>
    obtain ⟨⟨told, _⟩, concluded, same⟩ := Checked.map_eq_ok_iff.1 performed
    obtain ⟨rfl, rfl⟩ := Prod.mk.inj same
    exact .concluded concluded
  | free allocation =>
    obtain ⟨⟨slot, _⟩, freed, same⟩ := Checked.map_eq_ok_iff.1 performed
    obtain ⟨rfl, rfl⟩ := Prod.mk.inj same
    exact .freed freed
  | report worker report =>
    obtain ⟨⟨applied, _⟩, reported, same⟩ := Checked.map_eq_ok_iff.1 performed
    obtain ⟨rfl, rfl⟩ := Prod.mk.inj same
    exact .reported reported

/-- A run that begins with an operation performs it and then runs the others. -/
theorem run_cons_eq_ok_iff (event : Event) (rest : List Event) : cluster.run (event :: rest) = .ok next ↔
    ∃ answer between, cluster.perform event = .ok (answer, between) ∧ between.run rest = .ok next := by
  simp only [run, List.foldlM_cons, Checked.bind_eq_ok_iff, Checked.pure_eq_ok_iff]
  constructor
  · rintro ⟨_, ⟨⟨answer, between⟩, performed, rfl⟩, continued⟩
    exact ⟨answer, between, performed, continued⟩
  · rintro ⟨answer, between, performed, continued⟩
    exact ⟨between, ⟨_, performed, rfl⟩, continued⟩

end SlotControl.Cluster
