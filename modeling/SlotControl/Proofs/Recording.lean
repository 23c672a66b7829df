import SlotControl.Proofs.Headroom

/-!
When a slot is recorded and what that changes. An inventory that a run has reached records a slot if and only if it
`Accepts` it, which compares what is available with the profile dimension by dimension; and then one slot is another
one and the account of its worker is right again, while everything else stands as before. Main statement:
`record_takes_effect`.
-/

namespace SlotControl

namespace Worker

variable {worker : Worker} {slot : Slot}

/-- The worker has the resources for a slot: for a new one what is available, for one that is recorded already what is
    available together with its old profile, unless the profile is the same. -/
def Affords (worker : Worker) (slot : Slot) : Prop :=
  match worker.slot? slot.allocation with
  | none => worker.available.NoLess slot.profile
  | some previous => previous.profile = slot.profile ∨
      ∃ freed, worker.available.add? previous.profile = some freed ∧ freed.NoLess slot.profile

theorem exists_leaves_iff : (∃ available, worker.Leaves slot available) ↔ worker.Affords slot := by
  rw [Affords]
  unfold Leaves
  cases worker.slot? slot.allocation with
  | none => exact Profile.exists_sub?_iff_noLess ..
  | some previous =>
    by_cases same : previous.profile = slot.profile
    · simp [same]
    · simp only [if_neg same, or_iff_right same, ← Profile.exists_sub?_iff_noLess]
      rw [exists_comm]
      simp only [exists_and_left]

end Worker

namespace Inventory

section

variable {Seed : Type} [Traversal Seed]
variable {inventory next : Inventory} {slot : Slot}

/-- A slot is accepted on a registered worker that affords it, unless its allocation is on another worker. -/
def Accepts (inventory : Inventory) (slot : Slot) : Prop :=
  (∀ previous, inventory.slot? slot.allocation = some previous → previous.worker = slot.worker) ∧
    ∃ worker, inventory.worker? slot.worker = some worker ∧ worker.Affords slot

/-- The slot was recorded in an inventory and nothing else. -/
structure Recorded (inventory : Inventory) (slot : Slot) (next : Inventory) : Prop where
  /-- The slot is on its worker, which has its total less the profiles of all its slots available. -/
  recorded : ∃ worker available occupied, inventory.worker? slot.worker = some worker ∧
    next.worker? slot.worker = some (worker.keep slot available) ∧
    (worker.keep slot available).occupied? = some occupied ∧ worker.total.sub? occupied = some available
  /-- It is found under its allocation, and every other allocation has the slot that it had. -/
  slots : ∀ allocation, next.slot? allocation =
    if allocation = slot.allocation then some slot else inventory.slot? allocation
  /-- The other workers are as before, with all that is recorded of them. -/
  workers : ∀ id, id ≠ slot.worker → next.worker? id = inventory.worker? id
  /-- The index names the worker for the allocation, and has its other entries as before. -/
  owners : ∀ allocation, next.owners.get? allocation =
    if allocation = slot.allocation then some slot.worker else inventory.owners.get? allocation

/-! ## States that runs reach -/

/-- An operation that succeeds keeps the accounts, if a total that it registers has no zeros at its end. -/
theorem Sound.of_perform (sound : inventory.Sound) {operation : Operation}
    (trimmed : ∀ id total defaultSlot, operation = .addWorker id total defaultSlot → total.Trimmed)
    (performed : inventory.perform operation = .ok next) : next.Sound := by
  cases operation with
  | addWorker id total defaultSlot =>
    rw [Inventory.perform] at performed
    split at performed
    · next added => exact sound.addWorker (trimmed _ _ _ rfl) (Except.ok.inj performed ▸ added)
    · exact Except.ok.inj performed ▸ sound
  | record slot => exact sound.record performed
  | setPlace allocation place => exact sound.setPlace performed
  | removeSlot allocation =>
    obtain ⟨⟨result, _⟩, removed, rfl⟩ := Checked.map_eq_ok_iff.1 performed
    exact sound.removeSlot removed
  | removeWorker id => exact Except.ok.inj performed ▸ sound.removeWorker id

theorem Sound.of_run (sound : inventory.Sound) {operations : List Operation}
    (trimmed : ∀ id total defaultSlot, .addWorker id total defaultSlot ∈ operations → total.Trimmed)
    (performed : inventory.run operations = .ok next) : next.Sound := by
  induction operations generalizing inventory with
  | nil => exact Except.ok.inj performed ▸ sound
  | cons operation rest ih =>
    rw [Inventory.run, List.foldlM_cons, Checked.bind_eq_ok_iff] at performed
    obtain ⟨between, first, continued⟩ := performed
    refine ih (sound.of_perform ?_ first) (fun id total defaultSlot later => ?_) continued
    · rintro id total defaultSlot rfl
      exact trimmed id total defaultSlot (.head _)
    · exact trimmed id total defaultSlot (.tail _ later)

/-! ## Recording a slot -/

theorem Indexed.movable_iff (indexed : inventory.Indexed) : inventory.Movable slot ↔
    ∀ previous, inventory.slot? slot.allocation = some previous → previous.worker = slot.worker := by
  rw [Movable, indexed.owners_get?]
  cases inventory.slot? slot.allocation <;> simp

/-- A slot is recorded if and only if it is accepted. -/
theorem Sound.exists_record_iff (sound : inventory.Sound)
    (small : ∀ worker, inventory.worker? slot.worker = some worker → worker.total = .any →
      ∃ occupied, (worker.keep slot worker.available).occupied? = some occupied) :
    (∃ next, inventory.record slot = .ok next) ↔ inventory.Accepts slot := by
  simp only [record_eq_ok_iff]
  rw [Accepts, ← sound.indexed.movable_iff]
  constructor
  · rintro ⟨_, movable, worker, available, registered, leaves, -⟩
    exact ⟨movable, worker, registered, Worker.exists_leaves_iff.1 ⟨available, leaves⟩⟩
  · rintro ⟨movable, worker, registered, affords⟩
    obtain ⟨available, leaves⟩ := Worker.exists_leaves_iff.2 affords
    have checked := ((sound.accounted registered).keep leaves).audit_iff (sound.indexed.named_keep registered available)
    exact ⟨_, movable, worker, available, registered, leaves, checked.2 (small worker registered), rfl⟩

theorem Sound.recorded (sound : inventory.Sound) (recorded : inventory.record slot = .ok next) :
    inventory.Recorded slot next := by
  obtain ⟨-, worker, available, registered, leaves, checked, rfl⟩ := (record_eq_ok_iff next).1 recorded
  obtain ⟨_, _, -, revision⟩ := sound.indexed.record recorded
  obtain ⟨⟨occupied, sum, made_up⟩, -⟩ := (Worker.audit_eq_ok_iff _).1 checked
  have accounted := (sound.accounted registered).keep leaves
  refine ⟨⟨worker, available, occupied, registered, SortedMap.get?_insert_self .., sum, ?_⟩, ?_, ?_, ?_⟩
  · exact accounted.accounts.sub?_sum accounted.available_trimmed made_up
  · exact revision.slot? sound.indexed
  · exact fun id apart => (SortedMap.get?_insert ..).trans (if_neg apart)
  · exact fun allocation => SortedMap.get?_insert ..

/-- In an inventory that a run has reached, a slot is recorded if and only if it is accepted, where the slots that a
    wildcard worker would have come to a sum at all; and a recorded slot changes what it has to and nothing else. -/
theorem record_takes_effect {operations : List Operation} (performed : empty.run operations = .ok inventory)
    (trimmed : ∀ id total defaultSlot, .addWorker id total defaultSlot ∈ operations → total.Trimmed) (slot : Slot)
    (small : ∀ worker, inventory.worker? slot.worker = some worker → worker.total = .any →
      ∃ occupied, (worker.keep slot worker.available).occupied? = some occupied) :
    ((∃ next, inventory.record slot = .ok next) ↔ inventory.Accepts slot) ∧
      ∀ next, inventory.record slot = .ok next → inventory.Recorded slot next := by
  have sound := sound_empty.of_run trimmed performed
  exact ⟨sound.exists_record_iff small, fun next recorded => sound.recorded recorded⟩

end

/-- Two slots of a worker with four processors, and one of a wildcard. -/
private def recordedOperations : List Operation :=
  [.addWorker ⟨1⟩ (.ofUnits 4 0) .any, .addWorker ⟨2⟩ .any .any,
    .record ⟨⟨7⟩, ⟨3⟩, ⟨⟨1⟩, 0⟩, .ofUnits 1 0, .pending⟩, .record ⟨⟨8⟩, ⟨3⟩, ⟨⟨1⟩, 1⟩, .ofUnits 2 0, .allocated⟩,
    .record ⟨⟨9⟩, ⟨3⟩, ⟨⟨2⟩, 0⟩, .any, .pending⟩]

/-- The first slot of the worker, grown to what the second one leaves. -/
private def grownSlot : Slot := ⟨⟨7⟩, ⟨4⟩, ⟨⟨1⟩, 2⟩, .ofUnits 2 0, .allocated⟩

/-- The slot may grow into what is available together with its old profile. -/
theorem record_takes_effect_grown : ∃ inventory next, empty.run recordedOperations = .ok inventory ∧
    inventory.Accepts grownSlot ∧ inventory.record grownSlot = .ok next ∧ inventory.Recorded grownSlot next := by
  obtain ⟨inventory, performed⟩ := Checked.isOk_iff.1 (show (empty.run recordedOperations).isOk = true from rfl)
  have succeeds : (empty.run recordedOperations >>= fun inventory => inventory.record grownSlot).isOk = true := rfl
  have total : (empty.run recordedOperations).map (fun inventory => (inventory.worker? ⟨1⟩).map Worker.total) =
      .ok (some (.ofUnits 4 0)) := rfl
  rw [performed] at succeeds total
  have trimmed : ∀ id total defaultSlot, Operation.addWorker id total defaultSlot ∈ recordedOperations →
      total.Trimmed := by
    intro id total defaultSlot inside
    simp only [recordedOperations, List.mem_cons, Operation.addWorker.injEq, reduceCtorEq, List.not_mem_nil,
      or_false] at inside
    rcases inside with ⟨-, rfl, -⟩ | ⟨-, rfl, -⟩
    · exact ⟨_, rfl⟩
    · trivial
  have sized : ∀ worker, inventory.worker? grownSlot.worker = some worker → worker.total ≠ .any := by
    intro worker registered wild
    have known : (inventory.worker? grownSlot.worker).map Worker.total = some (.ofUnits 4 0) := Except.ok.inj total
    rw [registered, Option.map_some, wild] at known
    cases known
  obtain ⟨accepts, records⟩ := record_takes_effect performed trimmed grownSlot fun worker registered wild =>
    absurd wild (sized worker registered)
  obtain ⟨next, recorded⟩ := Checked.isOk_iff.1 succeeds
  exact ⟨inventory, next, performed, accepts.1 ⟨next, recorded⟩, recorded, records next recorded⟩

end Inventory

end SlotControl
