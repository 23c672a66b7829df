import SlotControl.Proofs.Listing
import SlotControl.Proofs.Resources
import SlotControl.Worker

/-!
A worker and its slots. Main statement: recording or dropping a slot keeps the account of the worker,
and the check of an account that is in order passes.
-/

namespace SlotControl

variable {Seed : Type} [Traversal Seed]

/-- A sequence of two steps succeeds if the first does and then the second does. -/
theorem Checked.bind_eq_ok_iff {α β : Type} {x : Checked α} {f : α → Checked β} {b : β} :
    x >>= f = .ok b ↔ ∃ a, x = .ok a ∧ f a = .ok b := by
  cases x with
  | error defect => simp [bind, Except.bind]
  | ok a => simp [bind, Except.bind]

theorem Checked.pure_eq_ok_iff {α : Type} {a b : α} : (pure a : Checked α) = .ok b ↔ a = b := by
  simp [pure, Except.pure]

theorem Checked.isOk_iff {α : Type} {x : Checked α} : x.isOk = true ↔ ∃ a, x = .ok a := by
  cases x <;> simp [Except.isOk, Except.toBool]

theorem Checked.map_eq_ok_iff {α β : Type} {x : Checked α} {f : α → β} {b : β} :
    x.map f = .ok b ↔ ∃ a, x = .ok a ∧ f a = b := by
  cases x <;> simp [Except.map]

/-- What every step of a sequence keeps, the whole sequence keeps. -/
theorem Checked.foldlM_keeps {α β : Type} {step : β → α → Checked β} (Keeps : β → Prop)
    (keeps : ∀ {state item next}, Keeps state → step state item = .ok next → Keeps next) {items : List α}
    {first last : β} (start : Keeps first) (folded : items.foldlM step first = .ok last) : Keeps last := by
  induction items generalizing first with
  | nil => exact Except.ok.inj folded ▸ start
  | cons item rest ih =>
    rw [List.foldlM_cons, Checked.bind_eq_ok_iff] at folded
    obtain ⟨next, stepped, folded⟩ := folded
    exact ih (keeps start stepped) folded

/-- Checks pass together if and only if they pass one by one. -/
theorem Checked.forM_eq_ok_iff {α : Type} {check : α → Checked Unit} {items : List α} :
    items.forM check = .ok () ↔ ∀ item ∈ items, check item = .ok () := by
  induction items with
  | nil => exact iff_of_true rfl nofun
  | cons item rest ih =>
    rw [List.forall_mem_cons, ← ih]
    show check item >>= (fun _ => rest.forM check) = .ok () ↔ _
    rw [bind_eq_ok_iff]
    constructor
    · rintro ⟨⟨⟩, first, later⟩
      exact ⟨first, later⟩
    · rintro ⟨first, later⟩
      exact ⟨(), first, later⟩

namespace Worker

/-- What is registered about a worker besides its slots. -/
def terms (worker : Worker) : Profile × Profile := (worker.total, worker.defaultSlot)

/-- The profiles of the slots. -/
def profiles (worker : Worker) : List Profile := worker.slots.values.map (·.profile)

/-- What the capacity of a worker amounts to: what is available and the slots make up the total, and
    neither the total nor what is available has zeros at its end. -/
structure Accounted (worker : Worker) : Prop where
  total_trimmed : worker.total.Trimmed
  available_trimmed : worker.available.Trimmed
  accounts : Profile.Accounts worker.total worker.available worker.profiles

/-- The worker with a slot under its allocation and other resources available. -/
def keep (worker : Worker) (slot : Slot) (available : Profile) : Worker :=
  { worker with available, slots := worker.slots.insert slot.allocation slot }

/-- The worker without the slot of an allocation and with other resources available. -/
def drop (worker : Worker) (allocation : AllocationId) (available : Profile) : Worker :=
  { worker with available, slots := worker.slots.erase allocation }

/-- The available resources that are left when a slot is recorded. -/
def Leaves (worker : Worker) (slot : Slot) (available : Profile) : Prop :=
  match worker.slot? slot.allocation with
  | none => worker.available.sub? slot.profile = some available
  | some previous =>
    if previous.profile = slot.profile then available = worker.available
    else ∃ freed, worker.available.add? previous.profile = some freed ∧ freed.sub? slot.profile = some available

/-! ## The operations -/

theorem reserve_eq_ok_iff (worker reserved : Worker) (allocation : AllocationId) (profile : Profile) :
    worker.reserve allocation profile = .ok reserved ↔
      ∃ rest, worker.available.sub? profile = some rest ∧ reserved = { worker with available := rest } := by
  rw [reserve]
  cases worker.available.sub? profile <;> simp [eq_comm]

theorem release_eq_ok_iff (worker released : Worker) (profile : Profile) :
    worker.release profile = .ok released ↔
      ∃ rest, worker.available.add? profile = some rest ∧ released = { worker with available := rest } := by
  rw [release, Checked.bind_eq_ok_iff]
  simp only [Profile.add_eq_ok_iff, Checked.pure_eq_ok_iff]
  exact exists_congr fun _ => and_congr_right fun _ => eq_comm

/-- Recording puts the slot under its allocation, if the resources suffice. -/
theorem record_eq_ok_iff (worker updated : Worker) (slot : Slot) :
    worker.record slot = .ok updated ↔
      ∃ available, worker.Leaves slot available ∧ updated = worker.keep slot available := by
  unfold record Leaves keep
  cases worker.slot? slot.allocation with
  | none =>
    simp only [Checked.bind_eq_ok_iff, reserve_eq_ok_iff, Checked.pure_eq_ok_iff]
    constructor
    · rintro ⟨_, ⟨rest, taken, rfl⟩, rfl⟩
      exact ⟨rest, taken, by rw [SortedMap.insert_erase]⟩
    · rintro ⟨rest, taken, rfl⟩
      exact ⟨_, ⟨rest, taken, rfl⟩, by rw [SortedMap.insert_erase]⟩
  | some previous =>
    by_cases same : previous.profile = slot.profile
    · simp only [same, if_true, Checked.bind_eq_ok_iff, Checked.pure_eq_ok_iff]
      constructor
      · rintro ⟨_, rfl, rfl⟩
        exact ⟨_, rfl, by rw [SortedMap.insert_erase]⟩
      · rintro ⟨_, rfl, rfl⟩
        exact ⟨_, rfl, by rw [SortedMap.insert_erase]⟩
    · simp only [same, if_false, Checked.bind_eq_ok_iff, release_eq_ok_iff, reserve_eq_ok_iff,
        Checked.pure_eq_ok_iff]
      constructor
      · rintro ⟨_, ⟨freed, given, rfl⟩, _, ⟨rest, taken, rfl⟩, rfl⟩
        exact ⟨rest, ⟨freed, given, taken⟩, by rw [SortedMap.insert_erase]⟩
      · rintro ⟨rest, ⟨freed, given, taken⟩, rfl⟩
        exact ⟨_, ⟨freed, given, rfl⟩, _, ⟨rest, taken, rfl⟩, by rw [SortedMap.insert_erase]⟩

/-- The check passes if the sum of the slots and what is available make up the total and every slot
    names the worker. -/
theorem auditIn_eq_ok_iff (worker : Worker) (order : List Slot) :
    worker.auditIn order = .ok () ↔
      (∃ occupied, Profile.sum? (order.map (·.profile)) = some occupied ∧
        worker.available.add? occupied = some worker.total) ∧
        ∀ slot ∈ order, slot.worker = worker.id := by
  rw [auditIn]
  cases Profile.sum? (order.map (·.profile)) with
  | none => simp [throw, throwThe, MonadExceptOf.throw]
  | some occupied =>
    simp only [Checked.bind_eq_ok_iff, Profile.add_eq_ok_iff, Option.some.injEq, exists_eq_left']
    constructor
    · rintro ⟨accounted, added, checked⟩
      split at checked
      · next same =>
        split at checked
        · next named => exact ⟨same ▸ added, by simpa using named⟩
        · cases checked
      · cases checked
    · rintro ⟨added, named⟩
      refine ⟨_, added, ?_⟩
      rw [if_pos rfl, if_pos (by simpa using named)]
      rfl

/-- Every slot is visited once. -/
theorem visited_perm (worker : Worker) : worker.visited.Perm worker.slots.values := by
  rw [← SortedMap.filterMap_keys]
  exact (Traversal.perm _ _).filterMap _

theorem profiles_visited_perm (worker : Worker) : worker.profiles.Perm (worker.visited.map (·.profile)) :=
  (worker.visited_perm.map _).symm

/-- A slot that replaces one of the same profile is visited in its place. -/
theorem profiles_visited_keep (worker : Worker) {slot previous : Slot}
    (held : worker.slot? slot.allocation = some previous) (same : slot.profile = previous.profile)
    (available : Profile) :
    (worker.keep slot available).visited.map (·.profile) = worker.visited.map (·.profile) := by
  have keys : (worker.keep slot available).slots.keys = worker.slots.keys := SortedMap.keys_insert_of_get? held slot
  have found (allocation : AllocationId) :
      ((worker.keep slot available).slot? allocation).map (·.profile) = (worker.slot? allocation).map (·.profile) := by
    rw [slot?, keep, SortedMap.get?_insert]
    split
    · next its => rw [its, held, Option.map_some, Option.map_some, same]
    · rfl
  rw [visited, visited, keys, List.map_filterMap, List.map_filterMap]
  simp only [found]
  rfl

theorem audit_eq_ok_iff (worker : Worker) :
    worker.audit = .ok () ↔
      (∃ occupied, worker.occupied? = some occupied ∧ worker.available.add? occupied = some worker.total) ∧
        ∀ slot ∈ worker.slots.values, slot.worker = worker.id := by
  simp only [audit, auditIn_eq_ok_iff, worker.visited_perm.mem_iff]
  rfl

/-! ## The account -/

theorem accounted_register (id : WorkerId) {total : Profile} (defaultSlot : Profile) (trimmed : total.Trimmed) :
    (register id total defaultSlot).Accounted :=
  ⟨trimmed, trimmed, Profile.Accounts.nil total⟩

private theorem profiles_perm {worker : Worker} {allocation : AllocationId} {slot : Slot}
    (present : worker.slot? allocation = some slot) :
    worker.profiles.Perm (slot.profile :: (worker.slots.erase allocation).values.map (·.profile)) :=
  (SortedMap.values_erase_perm present).map _

private theorem profiles_insert_perm (worker : Worker) (slot : Slot) :
    ((worker.slots.insert slot.allocation slot).values.map (·.profile)).Perm
      (slot.profile :: (worker.slots.erase slot.allocation).values.map (·.profile)) :=
  (SortedMap.values_insert_perm ..).map _

/-- A new slot adds its profile to the others. -/
theorem profiles_keep_new_perm {worker : Worker} {slot : Slot} (available : Profile)
    (absent : worker.slot? slot.allocation = none) :
    (worker.keep slot available).profiles.Perm (slot.profile :: worker.profiles) := by
  have inserted := profiles_insert_perm worker slot
  rwa [SortedMap.erase_of_get? absent] at inserted

/-- A slot that replaces one of the same profile leaves the profiles as they are. -/
theorem profiles_keep_perm {worker : Worker} {slot previous : Slot} (available : Profile)
    (present : worker.slot? slot.allocation = some previous) (same : previous.profile = slot.profile) :
    (worker.keep slot available).profiles.Perm worker.profiles := by
  have before := profiles_perm present
  rw [same] at before
  exact (profiles_insert_perm worker slot).trans before.symm

/-- A slot that replaces one of the same profile takes nothing. -/
theorem leaves_iff_of_same {worker : Worker} {slot previous : Slot} {available : Profile}
    (present : worker.slot? slot.allocation = some previous) (same : previous.profile = slot.profile) :
    worker.Leaves slot available ↔ available = worker.available := by
  simp [Leaves, present, same]

theorem profiles_drop_perm {worker : Worker} {allocation : AllocationId} {slot : Slot} (rest : Profile)
    (present : worker.slot? allocation = some slot) :
    worker.profiles.Perm (slot.profile :: (worker.drop allocation rest).profiles) := profiles_perm present

/-- Recording a slot keeps the account. -/
theorem Accounted.keep {worker : Worker} {slot : Slot} {available : Profile} (accounted : worker.Accounted)
    (leaves : worker.Leaves slot available) : (worker.keep slot available).Accounted := by
  obtain ⟨total_trimmed, available_trimmed, accounts⟩ := accounted
  have inserted := (profiles_insert_perm worker slot).symm
  unfold Leaves at leaves
  cases present : worker.slot? slot.allocation with
  | none =>
    simp only [present] at leaves
    obtain ⟨trimmed, taken⟩ := accounts.take leaves
    exact ⟨total_trimmed, trimmed, taken.perm (profiles_keep_new_perm available present).symm⟩
  | some previous =>
    simp only [present] at leaves
    have apart := accounts.perm (profiles_perm present)
    split at leaves
    · next same =>
      subst leaves
      rw [same] at apart
      exact ⟨total_trimmed, available_trimmed, apart.perm inserted⟩
    · obtain ⟨freed, given, leaves⟩ := leaves
      obtain ⟨rest, given', _, released⟩ := apart.give
      obtain rfl := Option.some.inj (given.symm.trans given')
      obtain ⟨trimmed, taken⟩ := released.take leaves
      exact ⟨total_trimmed, trimmed, taken.perm inserted⟩

/-- Only a lack of resources keeps a slot from being recorded. -/
theorem Accounted.record_of_full {worker : Worker} {slot : Slot} (accounted : worker.Accounted)
    (full : ¬∃ available, worker.Leaves slot available) : ∃ available,
      worker.record slot = .error (.cannotHold worker.id slot.allocation slot.profile available) := by
  unfold Leaves at full
  rw [record]
  cases present : worker.slot? slot.allocation with
  | none =>
    simp only [present] at full
    refine ⟨worker.available, ?_⟩
    rw [reserve, Option.eq_none_iff_forall_ne_some.2 fun rest taken => full ⟨rest, taken⟩]
    rfl
  | some previous =>
    simp only [present] at full
    by_cases same : previous.profile = slot.profile
    · exact absurd ⟨worker.available, by rw [if_pos same]⟩ full
    · obtain ⟨freed, given, -⟩ := (accounted.accounts.perm (profiles_perm present)).give
      simp only [same, if_false, given, Option.some.injEq, exists_eq_left'] at full
      refine ⟨freed, ?_⟩
      have released := (release_eq_ok_iff { worker with slots := worker.slots.erase slot.allocation } _ _).2
        ⟨freed, given, rfl⟩
      simp only [same, if_false, released, bind, Except.bind]
      rw [reserve, Option.eq_none_iff_forall_ne_some.2 fun rest taken => full ⟨rest, taken⟩]

/-- A recorded slot can be dropped, and the account goes on without it. -/
theorem Accounted.drop {worker : Worker} {allocation : AllocationId} {slot : Slot} (accounted : worker.Accounted)
    (present : worker.slot? allocation = some slot) :
    ∃ rest, worker.available.add? slot.profile = some rest ∧ (worker.drop allocation rest).Accounted := by
  obtain ⟨rest, given, trimmed, accounts⟩ := (accounted.accounts.perm (profiles_perm present)).give
  exact ⟨rest, given, accounted.total_trimmed, trimmed, accounts⟩

/-- An account in order passes the check, unless its sums are too large. -/
theorem Accounted.audit {worker : Worker} (accounted : worker.Accounted) (small : Profile.Addable worker.profiles)
    (named : ∀ slot ∈ worker.slots.values, slot.worker = worker.id) : worker.audit = .ok () :=
  (audit_eq_ok_iff worker).2 ⟨(accounted.accounts.perm worker.profiles_visited_perm).sum accounted.total_trimmed
    (small.perm worker.profiles_visited_perm), named⟩

/-- What a worker keeps when one of its slots is recorded or dropped. -/
structure Lasting (Holds : Worker → Prop) : Prop where
  keep : ∀ {worker : Worker} {slot : Slot} {available : Profile}, Holds worker → worker.Leaves slot available →
    Holds (worker.keep slot available)
  drop : ∀ {worker : Worker} {allocation : AllocationId} {slot : Slot} {rest : Profile}, Holds worker →
    worker.slot? allocation = some slot → worker.available.add? slot.profile = some rest →
    Holds (worker.drop allocation rest)

theorem lasting_accounted : Lasting Accounted where
  keep := Accounted.keep
  drop accounted present given := by
    obtain ⟨rest, given', dropped⟩ := accounted.drop present
    exact Option.some.inj (given'.symm.trans given) ▸ dropped

/-- What asks for a total without zeros at its end still lasts, since the total stays. -/
theorem Lasting.of_trimmed {Holds : Worker → Prop} (lasting : Lasting Holds) :
    Lasting fun worker => worker.total.Trimmed → Holds worker where
  keep holds leaves trimmed := lasting.keep (holds trimmed) leaves
  drop holds present given trimmed := lasting.drop (holds trimmed) present given

/-- A worker with given slots and an account in order has no choice in what is available. -/
theorem Accounted.ext {left right : Worker} (accounted : left.Accounted) (accounted' : right.Accounted)
    (id : left.id = right.id) (total : left.total = right.total) (defaultSlot : left.defaultSlot = right.defaultSlot)
    (slots : left.slots = right.slots) : left = right := by
  have available : left.available = right.available := by
    have accounts := accounted'.accounts
    rw [profiles, ← total, ← slots] at accounts
    exact accounted.accounts.left_unique accounted.available_trimmed accounted'.available_trimmed accounts
  cases left; cases right; simp_all

end Worker

end SlotControl
