import SlotControl.Proofs.Enumeration

/-!
Capacity is accounted for: over every run of its operations that the caller keeps regular, an inventory
never fails, the slots of a worker and what it has available make up its total, and the index of owners
names exactly the workers that hold the allocations. Main statement: `run_accounts`.
-/

namespace SlotControl.Inventory

section

variable {Seed : Type} [Traversal Seed]
variable {inventory next : Inventory}

/-- The index is right, and the account of every worker is in order. -/
structure Sound (inventory : Inventory) : Prop where
  indexed : inventory.Indexed
  accounted : ∀ ⦃id worker⦄, inventory.worker? id = some worker → worker.Accounted

/-- The slots of each worker come to no more than 64 bits. -/
def Addable (inventory : Inventory) : Prop :=
  ∀ ⦃id worker⦄, inventory.worker? id = some worker → Profile.Addable worker.profiles

theorem sound_empty : empty.Sound := ⟨indexed_empty, nofun⟩

/-- The slots of a registered worker name it. -/
theorem Indexed.named (indexed : inventory.Indexed) {id : WorkerId} {worker : Worker}
    (registered : inventory.worker? id = some worker) : ∀ slot ∈ worker.slots.values, slot.worker = worker.id := by
  intro slot listed
  obtain ⟨allocation, held⟩ := (SortedMap.mem_values ..).1 listed
  rw [indexed.id_eq registered]
  exact (indexed.housed registered held).2

/-- So they do after one of them is recorded. -/
theorem Indexed.named_keep (indexed : inventory.Indexed) {slot : Slot} {worker : Worker}
    (registered : inventory.worker? slot.worker = some worker) (available : Profile) :
    ∀ other ∈ (worker.keep slot available).slots.values, other.worker = worker.id := by
  intro other listed
  obtain ⟨allocation, held⟩ := (SortedMap.mem_values ..).1 listed
  rw [Worker.keep, SortedMap.get?_insert] at held
  split at held
  · rw [← Option.some.inj held]
    exact (indexed.id_eq registered).symm
  · exact indexed.named registered other ((SortedMap.mem_values ..).2 ⟨allocation, held⟩)

/-- So they do after one of them is dropped. -/
theorem Indexed.named_drop (indexed : inventory.Indexed) {id : WorkerId} {worker : Worker}
    (registered : inventory.worker? id = some worker) (allocation : AllocationId) (available : Profile) :
    ∀ other ∈ (worker.drop allocation available).slots.values, other.worker = worker.id := by
  intro other listed
  obtain ⟨key, held⟩ := (SortedMap.mem_values ..).1 listed
  rw [Worker.drop, SortedMap.get?_erase] at held
  split at held
  · cases held
  · exact indexed.named registered other ((SortedMap.mem_values ..).2 ⟨key, held⟩)

/-! ## What the operations keep -/

/-- Something holds of every registered worker. -/
def All (inventory : Inventory) (Holds : Worker → Prop) : Prop :=
  ∀ ⦃id worker⦄, inventory.worker? id = some worker → Holds worker

namespace All

variable {Holds : Worker → Prop}

theorem addWorker (all : inventory.All Holds) {id : WorkerId} {total defaultSlot : Profile}
    (fresh : Holds (.register id total defaultSlot)) (added : inventory.addWorker id total defaultSlot = .ok next) :
    next.All Holds := by
  intro other worker registered
  obtain ⟨-, rfl⟩ := (addWorker_eq_ok_iff ..).1 added
  simp only [worker?, SortedMap.get?_insert] at registered
  split at registered
  · exact Option.some.inj registered ▸ fresh
  · exact all registered

theorem record (all : inventory.All Holds) (lasting : Worker.Lasting Holds) (indexed : inventory.Indexed) {slot : Slot}
    (recorded : inventory.record slot = .ok next) : next.All Holds := by
  obtain ⟨worker, available, leaves, revision⟩ := indexed.record recorded
  exact revision.all all (lasting.keep (all revision.registered) leaves)

theorem removeSlot (all : inventory.All Holds) (lasting : Worker.Lasting Holds) (indexed : inventory.Indexed)
    {allocation : AllocationId} {result : Option Slot}
    (removed : inventory.removeSlot allocation = .ok (result, next)) : next.All Holds := by
  rcases indexed.removeSlot removed with ⟨-, -, rfl⟩ | ⟨slot, worker, rest, -, -, held, given, revision⟩
  · exact all
  · exact revision.all all (lasting.drop (all revision.registered) held given)

theorem setPlace (all : inventory.All Holds) (lasting : Worker.Lasting Holds) (indexed : inventory.Indexed)
    {allocation : AllocationId} {place : SlotId} (moved : inventory.setPlace allocation place = .ok next) :
    next.All Holds := by
  rcases indexed.setPlace moved with ⟨-, rfl⟩ | ⟨slot, worker, found, held, revision⟩
  · exact all
  · have this : worker.slot? slot.allocation = some slot := indexed.allocation_eq found ▸ held
    have leaves : worker.Leaves { slot with place } worker.available :=
      (Worker.leaves_iff_of_same this rfl).2 rfl
    exact revision.all all (lasting.keep (all revision.registered) leaves)

theorem removeWorker (all : inventory.All Holds) (indexed : inventory.Indexed) (id : WorkerId) :
    (inventory.removeWorker id).2.All Holds := by
  intro other worker registered
  rw [(indexed.removeWorker id).2.1] at registered
  split at registered
  · cases registered
  · exact all registered

end All

namespace Indexed

theorem of_record (indexed : inventory.Indexed) {slot : Slot} (recorded : inventory.record slot = .ok next) :
    next.Indexed := by
  obtain ⟨worker, available, -, revision⟩ := indexed.record recorded
  exact revision.indexed indexed

theorem of_removeSlot (indexed : inventory.Indexed) {allocation : AllocationId} {result : Option Slot}
    (removed : inventory.removeSlot allocation = .ok (result, next)) : next.Indexed := by
  rcases indexed.removeSlot removed with ⟨-, -, rfl⟩ | ⟨slot, worker, rest, -, -, -, -, revision⟩
  · exact indexed
  · exact revision.indexed indexed

theorem of_setPlace (indexed : inventory.Indexed) {allocation : AllocationId} {place : SlotId}
    (moved : inventory.setPlace allocation place = .ok next) : next.Indexed := by
  rcases indexed.setPlace moved with ⟨-, rfl⟩ | ⟨slot, worker, -, -, revision⟩
  · exact indexed
  · exact revision.indexed indexed

end Indexed

namespace Sound

theorem all (sound : inventory.Sound) : inventory.All Worker.Accounted := sound.accounted

theorem addWorker (sound : inventory.Sound) {id : WorkerId} {total defaultSlot : Profile} (trimmed : total.Trimmed)
    (added : inventory.addWorker id total defaultSlot = .ok next) : next.Sound :=
  ⟨(sound.indexed.addWorker added).1, sound.all.addWorker (Worker.accounted_register id defaultSlot trimmed) added⟩

theorem record (sound : inventory.Sound) {slot : Slot} (recorded : inventory.record slot = .ok next) : next.Sound :=
  ⟨sound.indexed.of_record recorded, sound.all.record Worker.lasting_accounted sound.indexed recorded⟩

theorem removeSlot (sound : inventory.Sound) {allocation : AllocationId} {result : Option Slot}
    (removed : inventory.removeSlot allocation = .ok (result, next)) : next.Sound :=
  ⟨sound.indexed.of_removeSlot removed, sound.all.removeSlot Worker.lasting_accounted sound.indexed removed⟩

theorem setPlace (sound : inventory.Sound) {allocation : AllocationId} {place : SlotId}
    (moved : inventory.setPlace allocation place = .ok next) : next.Sound :=
  ⟨sound.indexed.of_setPlace moved, sound.all.setPlace Worker.lasting_accounted sound.indexed moved⟩

theorem removeWorker (sound : inventory.Sound) (id : WorkerId) : (inventory.removeWorker id).2.Sound :=
  ⟨(sound.indexed.removeWorker id).1, sound.all.removeWorker sound.indexed id⟩

end Sound

/-! ## What keeps the operations from failing -/

/-- Recording a slot asks for the account of its own worker only. -/
theorem Indexed.exists_record (indexed : inventory.Indexed) {slot : Slot} {worker : Worker} {available : Profile}
    (movable : inventory.Movable slot) (registered : inventory.worker? slot.worker = some worker)
    (accounted : worker.Accounted) (leaves : worker.Leaves slot available)
    (small : Profile.Addable (worker.keep slot available).profiles) : ∃ next, inventory.record slot = .ok next := by
  have checked := (accounted.keep leaves).audit small (indexed.named_keep registered available)
  exact ⟨_, (record_eq_ok_iff _).2 ⟨movable, worker, available, registered, leaves, checked, rfl⟩⟩

namespace Sound

theorem exists_record (sound : inventory.Sound) {slot : Slot} {worker : Worker} {available : Profile}
    (movable : inventory.Movable slot) (registered : inventory.worker? slot.worker = some worker)
    (leaves : worker.Leaves slot available) (small : Profile.Addable (worker.keep slot available).profiles) :
    ∃ next, inventory.record slot = .ok next :=
  sound.indexed.exists_record movable registered (sound.accounted registered) leaves small

/-- Removing a slot fails at most for the sums of its own worker. -/
theorem exists_removeSlot (sound : inventory.Sound) (allocation : AllocationId)
    (small : ∀ slot worker, inventory.slot? allocation = some slot → inventory.worker? slot.worker = some worker →
      Profile.Addable worker.profiles) :
    ∃ next, inventory.removeSlot allocation = .ok (inventory.slot? allocation, next) := by
  cases found : inventory.slot? allocation with
  | none => exact ⟨inventory, sound.indexed.removeSlot_of_none found⟩
  | some slot =>
    obtain ⟨worker, registered, held⟩ := sound.indexed.registered_of_slot? found
    obtain ⟨rest, given, accounted⟩ := (sound.accounted registered).drop held
    have small := (small slot worker found registered).perm (Worker.profiles_drop_perm rest held)
    have checked := accounted.audit small.tail (sound.indexed.named_drop registered allocation rest)
    exact ⟨_, (sound.indexed.removeSlot_eq_ok_iff found _).2 ⟨worker, rest, registered, given, checked, rfl, rfl⟩⟩

end Sound

theorem Indexed.exists_setPlace (indexed : inventory.Indexed) {allocation : AllocationId} {place : SlotId}
    (same : ∀ slot, inventory.slot? allocation = some slot → slot.worker = place.worker) :
    ∃ next, inventory.setPlace allocation place = .ok next := by
  cases found : inventory.slot? allocation with
  | none => exact ⟨inventory, indexed.setPlace_of_none found⟩
  | some slot =>
    obtain ⟨worker, registered, -⟩ := indexed.registered_of_slot? found
    exact ⟨_, (indexed.setPlace_eq_ok_iff found).2 ⟨same slot found, worker, registered, rfl⟩⟩

/-! ## Sums within 64 bits -/

namespace Addable

theorem addWorker (addable : inventory.Addable) {id : WorkerId} {total defaultSlot : Profile}
    (added : inventory.addWorker id total defaultSlot = .ok next) : next.Addable := by
  intro other worker registered
  obtain ⟨-, rfl⟩ := (addWorker_eq_ok_iff ..).1 added
  simp only [worker?, SortedMap.get?_insert] at registered
  split at registered
  · rw [← Option.some.inj registered]
    exact fun d => Nat.two_pow_pos 64
  · exact addable registered

theorem record (addable : inventory.Addable) (indexed : inventory.Indexed) {slot : Slot}
    (small : ∀ worker, inventory.worker? slot.worker = some worker →
      Profile.Addable ((worker.slots.insert slot.allocation slot).values.map (·.profile)))
    (recorded : inventory.record slot = .ok next) : next.Addable := by
  obtain ⟨worker, available, -, revision⟩ := indexed.record recorded
  have here : inventory.worker? slot.worker = some worker := by
    rw [(revision.named slot rfl).2]
    exact revision.registered
  exact revision.all addable (small worker here)

theorem removeSlot (addable : inventory.Addable) (indexed : inventory.Indexed) {allocation : AllocationId}
    {result : Option Slot} (removed : inventory.removeSlot allocation = .ok (result, next)) : next.Addable := by
  rcases indexed.removeSlot removed with ⟨-, -, rfl⟩ | ⟨slot, worker, rest, -, -, held, -, revision⟩
  · exact addable
  · have small := (addable revision.registered).perm (Worker.profiles_drop_perm rest held)
    exact revision.all addable small.tail

theorem setPlace (addable : inventory.Addable) (indexed : inventory.Indexed) {allocation : AllocationId}
    {place : SlotId} (moved : inventory.setPlace allocation place = .ok next) : next.Addable := by
  rcases indexed.setPlace moved with ⟨-, rfl⟩ | ⟨slot, worker, found, held, revision⟩
  · exact addable
  · have this : worker.slot? slot.allocation = some slot := indexed.allocation_eq found ▸ held
    have same : (worker.keep { slot with place } worker.available).profiles.Perm worker.profiles :=
      Worker.profiles_keep_perm worker.available this rfl
    exact revision.all addable ((addable revision.registered).perm same.symm)

theorem removeWorker (addable : inventory.Addable) (indexed : inventory.Indexed) (id : WorkerId) :
    (inventory.removeWorker id).2.Addable := by
  intro other worker registered
  rw [(indexed.removeWorker id).2.1] at registered
  split at registered
  · cases registered
  · exact addable registered

end Addable

theorem auditWorker_eq_ok_iff (worker : Worker) : inventory.auditWorker worker = .ok () ↔
    worker.audit = .ok () ∧
      ∀ slot ∈ worker.slots.values, inventory.owners.get? slot.allocation = some worker.id := by
  rw [auditWorker, Checked.bind_eq_ok_iff]
  constructor
  · rintro ⟨⟨⟩, checked, passed⟩
    split at passed
    · next named => exact ⟨checked, by simpa using named⟩
    · cases passed
  · rintro ⟨checked, named⟩
    refine ⟨(), checked, ?_⟩
    rw [if_pos (by simpa using named)]
    rfl

theorem audit_eq_ok_iff (inventory : Inventory) : inventory.audit = .ok () ↔
    (∀ id worker, inventory.worker? id = some worker → inventory.auditWorker worker = .ok ()) ∧
      inventory.slots.length = inventory.slotCount := by
  rw [audit, Checked.bind_eq_ok_iff, slotCount]
  have workers : inventory.workers.values.forM inventory.auditWorker = .ok () ↔
      ∀ id worker, inventory.worker? id = some worker → inventory.auditWorker worker = .ok () := by
    rw [Checked.forM_eq_ok_iff]
    simp only [SortedMap.mem_values, forall_exists_index]
    exact forall_comm
  rw [← workers]
  constructor
  · rintro ⟨⟨⟩, checked, passed⟩
    split at passed
    · next same => exact ⟨checked, same⟩
    · cases passed
  · rintro ⟨checked, same⟩
    refine ⟨(), checked, ?_⟩
    rw [if_pos same]
    rfl

/-- The check of the whole inventory passes. -/
theorem Sound.audit (sound : inventory.Sound) (addable : inventory.Addable) : inventory.audit = .ok () := by
  have indexed := sound.indexed
  refine (audit_eq_ok_iff inventory).2 ⟨fun id worker registered => ?_, indexed.slotCount_eq.symm⟩
  have checked := (sound.accounted registered).audit (addable registered) (indexed.named registered)
  exact (auditWorker_eq_ok_iff worker).2 ⟨checked, indexed.owner_of_mem registered⟩

/-! ## Runs -/

/-- One operation on the inventory. -/
inductive Operation where
  | addWorker (id : WorkerId) (total defaultSlot : Profile)
  | record (slot : Slot)
  | setPlace (allocation : AllocationId) (place : SlotId)
  | removeSlot (allocation : AllocationId)
  | removeWorker (id : WorkerId)

/-- Performs an operation. A worker whose id is taken is not added. -/
def perform (inventory : Inventory) : Operation → Checked Inventory
  | .addWorker id total defaultSlot =>
    match inventory.addWorker id total defaultSlot with
    | .ok added => .ok added
    | .error _ => .ok inventory
  | .record slot => inventory.record slot
  | .setPlace allocation place => inventory.setPlace allocation place
  | .removeSlot allocation => (inventory.removeSlot allocation).map (·.2)
  | .removeWorker id => .ok (inventory.removeWorker id).2

/-- Performs operations one after the other. -/
def run (inventory : Inventory) (operations : List Operation) : Checked Inventory :=
  operations.foldlM perform inventory

/-- A slot is refused: its allocation is on another worker, or its worker is unknown or full. -/
def Refusal : Defect → Prop
  | .allocationMoved .. | .unregisteredWorker .. | .cannotHold .. => True
  | _ => False

/-- The caller keeps its side. A new total has no zeros at its end, a slot moves on its own worker, the
    slots that a worker has then come to no more than 64 bits, and nothing is refused. -/
def Regular (inventory : Inventory) (operation : Operation) : Prop :=
  (∀ defect, inventory.perform operation = .error defect → ¬Refusal defect) ∧
  match operation with
  | .addWorker _ total _ => total.Trimmed
  | .record slot => ∀ worker, inventory.worker? slot.worker = some worker →
    Profile.Addable ((worker.slots.insert slot.allocation slot).values.map (·.profile))
  | .setPlace allocation place => ∀ slot, inventory.slot? allocation = some slot → slot.worker = place.worker
  | .removeSlot _ | .removeWorker _ => True

/-- Every operation of a run is regular when its turn comes. -/
def RegularRun : Inventory → List Operation → Prop
  | _, [] => True
  | inventory, operation :: rest =>
    inventory.Regular operation ∧ ∀ next, inventory.perform operation = .ok next → next.RegularRun rest

/-- A slot that is not refused is recorded. -/
theorem Sound.exists_record_of_regular (sound : inventory.Sound) {slot : Slot}
    (regular : inventory.Regular (.record slot)) : ∃ next, inventory.record slot = .ok next := by
  obtain ⟨accepted, small⟩ := regular
  rw [perform] at accepted
  by_cases movable : inventory.Movable slot
  · cases registered : inventory.worker? slot.worker with
    | none => exact absurd trivial (accepted _ (record_of_unknown movable registered))
    | some worker =>
      by_cases room : ∃ available, worker.Leaves slot available
      · obtain ⟨available, leaves⟩ := room
        exact sound.exists_record movable registered leaves (small worker registered)
      · obtain ⟨available, refused⟩ := (sound.accounted registered).record_of_full room
        rw [record_of_registered movable registered, refused] at accepted
        exact absurd trivial (accepted _ rfl)
  · obtain ⟨owner, refused⟩ := record_of_not_movable movable
    exact absurd trivial (accepted _ refused)

/-- A regular operation succeeds and keeps the accounts. -/
theorem Sound.perform (sound : inventory.Sound) (addable : inventory.Addable) {operation : Operation}
    (regular : inventory.Regular operation) :
    ∃ next, inventory.perform operation = .ok next ∧ next.Sound ∧ next.Addable := by
  cases operation with
  | addWorker id total defaultSlot =>
    rw [Inventory.perform]
    cases added : inventory.addWorker id total defaultSlot with
    | ok next => exact ⟨next, rfl, sound.addWorker regular.2 added, addable.addWorker added⟩
    | error failure => exact ⟨inventory, rfl, sound, addable⟩
  | record slot =>
    obtain ⟨next, recorded⟩ := sound.exists_record_of_regular regular
    exact ⟨next, recorded, sound.record recorded, addable.record sound.indexed regular.2 recorded⟩
  | setPlace allocation place =>
    obtain ⟨next, moved⟩ := sound.indexed.exists_setPlace regular.2
    exact ⟨next, moved, sound.setPlace moved, addable.setPlace sound.indexed moved⟩
  | removeSlot allocation =>
    obtain ⟨next, removed⟩ := sound.exists_removeSlot allocation fun _ _ _ registered =>
      addable registered
    exact ⟨next, by rw [Inventory.perform, removed]; rfl, sound.removeSlot removed,
      addable.removeSlot sound.indexed removed⟩
  | removeWorker id => exact ⟨_, rfl, sound.removeWorker id, addable.removeWorker sound.indexed id⟩

theorem Sound.run (sound : inventory.Sound) (addable : inventory.Addable) {operations : List Operation}
    (regular : inventory.RegularRun operations) :
    ∃ next, inventory.run operations = .ok next ∧ next.Sound ∧ next.Addable := by
  induction operations generalizing inventory with
  | nil => exact ⟨inventory, rfl, sound, addable⟩
  | cons operation rest ih =>
    obtain ⟨between, performed, sound', addable'⟩ := sound.perform addable regular.1
    obtain ⟨last, continued, accounts⟩ := ih sound' addable' (regular.2 between performed)
    refine ⟨last, ?_, accounts⟩
    rw [Inventory.run, List.foldlM_cons, performed]
    exact continued

/-- A run that is regular as a whole is regular up to any point. -/
theorem RegularRun.before {before after : List Operation} (regular : inventory.RegularRun (before ++ after)) :
    inventory.RegularRun before := by
  induction before generalizing inventory with
  | nil => trivial
  | cons operation rest ih => exact ⟨regular.1, fun next performed => ih (regular.2 next performed)⟩

/-! ## Totals -/

/-- What an operation makes of the total with which a worker is registered. -/
def Operation.registers (id : WorkerId) (total : Option Profile) : Operation → Option Profile
  | .addWorker other offered _ => if other = id then total.or (some offered) else total
  | .removeWorker other => if other = id then none else total
  | _ => total

/-- The total that a worker was registered with, if it is registered after the operations: that of its
    first registration since it was last removed. -/
def registeredTotal (operations : List Operation) (id : WorkerId) : Option Profile :=
  operations.foldl (Operation.registers id) none

theorem total_of_terms {left right : Option Worker}
    (same : left.map Worker.terms = right.map Worker.terms) : left.map Worker.total = right.map Worker.total := by
  have totals := congrArg (Option.map Prod.fst) same
  rwa [Option.map_map, Option.map_map] at totals

/-- Only registrations and removals change a total. -/
theorem Indexed.total_perform (indexed : inventory.Indexed) {operation : Operation}
    (performed : inventory.perform operation = .ok next) (id : WorkerId) : (next.worker? id).map Worker.total =
      operation.registers id ((inventory.worker? id).map Worker.total) := by
  cases operation with
  | addWorker other total defaultSlot =>
    have same : ∀ {added : Inventory}, inventory.addWorker other total defaultSlot = .ok added →
        (added.worker? id).map Worker.total =
          if other = id then ((inventory.worker? id).map Worker.total).or (some total)
          else (inventory.worker? id).map Worker.total := by
      intro added accepted
      obtain ⟨unknown, rfl⟩ := (addWorker_eq_ok_iff ..).1 accepted
      rw [worker?, SortedMap.get?_insert]
      by_cases this : other = id
      · rw [if_pos this.symm, if_pos this, ← this, unknown]
        rfl
      · rw [if_neg (Ne.symm this), if_neg this]
        rfl
    rw [perform] at performed
    cases added : inventory.addWorker other total defaultSlot with
    | ok inventory' =>
      rw [added] at performed
      rw [← Except.ok.inj performed]
      exact same added
    | error failure =>
      rw [added] at performed
      rw [← Except.ok.inj performed, Operation.registers]
      split
      · next this =>
        subst this
        cases registered : inventory.worker? other with
        | some worker => rfl
        | none => simp [(addWorker_eq_ok_iff inventory _ other total defaultSlot).2 ⟨registered, rfl⟩] at added
      · rfl
  | record slot => exact total_of_terms (indexed.terms_record performed id)
  | setPlace allocation place => exact total_of_terms (indexed.terms_setPlace performed id)
  | removeSlot allocation =>
    obtain ⟨⟨result, _⟩, removed, rfl⟩ := Checked.map_eq_ok_iff.1 performed
    exact total_of_terms (indexed.terms_removeSlot removed id)
  | removeWorker other =>
    obtain rfl := Except.ok.inj performed
    rw [(indexed.removeWorker other).2.1, Operation.registers]
    by_cases same : id = other
    · simp [same]
    · simp [same, Ne.symm same]

private theorem Sound.total_run (sound : inventory.Sound) (addable : inventory.Addable) {operations : List Operation}
    (regular : inventory.RegularRun operations) (performed : inventory.run operations = .ok next) (id : WorkerId) :
    (next.worker? id).map Worker.total =
      operations.foldl (Operation.registers id) ((inventory.worker? id).map Worker.total) := by
  induction operations generalizing inventory with
  | nil => rw [← Except.ok.inj performed]; rfl
  | cons operation rest ih =>
    obtain ⟨between, first, sound', addable'⟩ := sound.perform addable regular.1
    rw [Inventory.run, List.foldlM_cons, first] at performed
    rw [List.foldl_cons, ← sound.indexed.total_perform first]
    exact ih sound' addable' (regular.2 between first) performed

/-- Capacity is accounted for at every point of a regular run. Nothing has failed, and the check of the
    whole inventory passes; what each worker has available and the sum of its slots make up exactly the
    total that it was registered with; and the index names the one worker that holds an allocation. -/
theorem run_accounts {before after : List Operation} (regular : empty.RegularRun (before ++ after)) :
    ∃ inventory, empty.run before = .ok inventory ∧ inventory.audit = .ok () ∧
      (∀ id worker, inventory.worker? id = some worker → ∃ occupied,
        Profile.sum? (worker.slots.values.map (·.profile)) = some occupied ∧
        worker.available.add? occupied = some worker.total) ∧
      (∀ id, (inventory.worker? id).map Worker.total = registeredTotal before id) ∧
      (∀ allocation id, inventory.owners.get? allocation = some id ↔ ∃ worker slot,
        inventory.worker? id = some worker ∧ worker.slot? allocation = some slot) ∧
      (∀ allocation id worker slot other worker' slot', inventory.worker? id = some worker →
        worker.slot? allocation = some slot → inventory.worker? other = some worker' →
        worker'.slot? allocation = some slot' → id = other) ∧
      inventory.slotCount = inventory.slots.length := by
  obtain ⟨inventory, performed, sound, addable⟩ := sound_empty.run nofun regular.before
  have indexed := sound.indexed
  refine ⟨inventory, performed, sound.audit addable, ?_, ?_, indexed.owner_iff, ?_, indexed.slotCount_eq⟩
  · intro id worker registered
    have accounted := sound.accounted registered
    exact accounted.accounts.sum accounted.total_trimmed (addable registered)
  · exact sound_empty.total_run nofun regular.before performed
  · intro allocation id worker slot other worker' slot' registered held registered' held'
    have owner := (indexed.owner_iff allocation id).2 ⟨worker, slot, registered, held⟩
    rw [(indexed.owner_iff allocation other).2 ⟨worker', slot', registered', held'⟩] at owner
    exact (Option.some.inj owner).symm

end

/-- A slot of two processors is recorded on a worker that has four. -/
theorem run_accounts_recorded : ∃ inventory,
    empty.run [.addWorker ⟨1⟩ (.ofUnits 4 0) .any,
      .record ⟨⟨7⟩, ⟨3⟩, ⟨⟨1⟩, 0⟩, .ofUnits 2 0, .pending⟩] = .ok inventory ∧ inventory.audit = .ok () ∧
    (∀ id worker, inventory.worker? id = some worker → ∃ occupied,
      Profile.sum? (worker.slots.values.map (·.profile)) = some occupied ∧
      worker.available.add? occupied = some worker.total) ∧
    (inventory.worker? ⟨1⟩).map Worker.total = some (.ofUnits 4 0) ∧
    inventory.slotCount = inventory.slots.length := by
  have regular : empty.RegularRun ([.addWorker ⟨1⟩ (.ofUnits 4 0) .any,
      .record ⟨⟨7⟩, ⟨3⟩, ⟨⟨1⟩, 0⟩, .ofUnits 2 0, .pending⟩] ++ []) := by
    refine ⟨⟨nofun, ⟨_, rfl⟩⟩, fun next added => ⟨⟨?_, ?_⟩, fun _ _ => trivial⟩⟩
    all_goals obtain rfl := Except.ok.inj added
    · intro defect refused
      have failed : true = false := congrArg Except.isOk refused
      cases failed
    · intro worker registered d
      obtain rfl := Option.some.inj registered
      exact ResourceVector.parts_lt _ d
  obtain ⟨inventory, performed, checked, accounts, totals, -, -, counted⟩ := run_accounts regular
  exact ⟨inventory, performed, checked, accounts, totals ⟨1⟩, counted⟩

end SlotControl.Inventory
