import SlotControl.Proofs.Soundness

/-!
What slots take of their workers, and what room that leaves. In a state in order the room of a worker
follows from its total and the listing of the slots, and occupying a slot for which there is room can
fail only for a sum or a count that is too large.
-/

namespace SlotControl

variable {Seed : Type} [Traversal Seed]

/-! ## Room in a capacity -/

namespace Profile

theorem partsOf_append (left right : List Profile) (d : Nat) :
    partsOf (left ++ right) d = partsOf left d + partsOf right d := by
  induction left with
  | nil => simp [partsOf]
  | cons p rest ih =>
    rw [List.cons_append, partsOf_cons, partsOf_cons, ih]
    omega

/-- A capacity of which some was taken has room for a profile. A wildcard has room for all profiles, and
    a vector for those vectors that are no greater than what remains in every dimension. -/
def RoomBeside : (total : Profile) → (taken : Nat → Nat) → Profile → Prop
  | .any, _, _ => True
  | .sized _, _, .any => False
  | .sized total, taken, .sized v => ∀ d, v.parts d ≤ total.parts d - taken d

instance : ∀ (total : Profile) (taken : Nat → Nat) (p : Profile), Decidable (RoomBeside total taken p)
  | .any, _, _ => isTrue trivial
  | .sized _, _, .any => isFalse id
  | .sized total, taken, .sized v =>
    -- Beyond the end of the vector nothing is asked for.
    decidable_of_iff (∀ d < v.amounts.length, v.parts d ≤ total.parts d - taken d)
      ⟨fun within d => by
        by_cases inside : d < v.amounts.length
        · exact within d inside
        · rw [ResourceVector.parts_of_length_le (Nat.le_of_not_lt inside)]
          exact Nat.zero_le _,
      fun room d _ => room d⟩

/-- Where less was taken there is no less room. -/
theorem RoomBeside.mono {total p : Profile} {taken other : Nat → Nat} (room : total.RoomBeside taken p)
    (less : ∀ d, other d ≤ taken d) : total.RoomBeside other p := by
  match total, p with
  | .any, _ => trivial
  | .sized _, .any => exact room
  | .sized total, .sized v =>
    intro d
    have := room d
    have := less d
    omega

/-- What is left of a capacity covers the profiles that it has room for. -/
theorem Accounts.covers_iff {total left : Profile} {taken : List Profile} (accounts : Accounts total left taken)
    (p : Profile) : left.covers p = true ↔ total.RoomBeside (partsOf taken) p := by
  match total, left, p, accounts with
  | .any, .any, _, _ => simp [covers, RoomBeside]
  | .sized _, .sized _, .any, _ => simp [covers, RoomBeside]
  | .sized total, .sized left, .sized v, ⟨_, sums⟩ =>
    rw [covers, ResourceVector.covers_iff, RoomBeside]
    refine forall_congr' fun d => ?_
    have := sums d
    omega

/-- What was taken of a vector comes to no more than that. -/
theorem Accounts.addable {total left : Profile} {taken : List Profile} (accounts : Accounts total left taken)
    (sized : total ≠ .any) : Addable taken := by
  intro d
  match total, left, accounts with
  | .any, .any, _ => exact absurd rfl sized
  | .sized total, .sized left, ⟨_, sums⟩ =>
    have := sums d
    have := total.parts_lt d
    omega

end Profile

namespace Worker

variable {worker : Worker}

theorem Accounted.canFit_iff (accounted : worker.Accounted) (profile : Profile) :
    worker.canFit profile = true ↔ worker.total.RoomBeside (Profile.partsOf worker.profiles) profile :=
  accounted.accounts.covers_iff profile

/-- An account in order passes the check, unless the slots of a wildcard come to more than their sum can hold: those
    of another worker come to no more than its total. -/
theorem Accounted.audit_iff (accounted : worker.Accounted)
    (named : ∀ slot ∈ worker.slots.values, slot.worker = worker.id) :
    worker.audit = .ok () ↔ (worker.total = .any → ∃ occupied, worker.occupied? = some occupied) := by
  rw [audit_eq_ok_iff, and_iff_left named]
  constructor
  · rintro ⟨occupied, sum, -⟩ -
    exact ⟨occupied, sum⟩
  · intro summed
    by_cases wild : worker.total = .any
    · obtain ⟨occupied, sum⟩ := summed wild
      have whole := (wild ▸ accounted.accounts).left_eq_any
      exact ⟨occupied, sum, by rw [whole, wild, Profile.any_add?]⟩
    · exact ((audit_eq_ok_iff worker).1 (accounted.audit (accounted.accounts.addable wild) named)).1

end Worker

/-! ## Listings of slots -/

namespace Inventory

variable {inventory next : Inventory}

theorem Indexed.slots_perm_of_mem (indexed : inventory.Indexed) {listing : List Slot} (nodup : listing.Nodup)
    (listed : ∀ slot, slot ∈ listing ↔ inventory.slot? slot.allocation = some slot) :
    inventory.slots.Perm listing := by
  refine (List.perm_ext_iff_of_nodup indexed.nodup_slots nodup).2 fun slot => ?_
  rw [indexed.mem_slots, listed]

/-- If the slots of some kind are kept and no others, then those are listed. -/
theorem Indexed.slots_filter (indexed : inventory.Indexed) (indexed' : next.Indexed) {stays : Slot → Bool}
    (kept : ∀ allocation, next.slot? allocation = (inventory.slot? allocation).filter stays) :
    next.slots.Perm (inventory.slots.filter stays) := by
  refine indexed'.slots_perm_of_mem (indexed.nodup_slots.filter _) fun slot => ?_
  rw [List.mem_filter, indexed.mem_slots, kept, Option.filter_eq_some_iff]

/-- A new slot is listed beside the others. -/
theorem Indexed.slots_cons (indexed : inventory.Indexed) (indexed' : next.Indexed) {slot : Slot}
    (absent : inventory.slot? slot.allocation = none)
    (added : ∀ other, next.slot? other = if other = slot.allocation then some slot else inventory.slot? other) :
    next.slots.Perm (slot :: inventory.slots) := by
  have new : slot ∉ inventory.slots := fun listed => by
    rw [indexed.mem_slots, absent] at listed
    cases listed
  refine indexed'.slots_perm_of_mem (List.nodup_cons.2 ⟨new, indexed.nodup_slots⟩) fun other => ?_
  rw [List.mem_cons, indexed.mem_slots, added]
  split
  · next same =>
    rw [same, absent, Option.some.injEq]
    simp [eq_comm]
  · next apart =>
    constructor
    · rintro (rfl | found)
      · exact absurd rfl apart
      · exact found
    · exact .inr

/-- A slot is replaced in the listing, and the others stay. -/
theorem Indexed.slots_replace (indexed : inventory.Indexed) (indexed' : next.Indexed) {allocation : AllocationId}
    {old new : Slot} (found : inventory.slot? allocation = some old)
    (changed : ∀ other, next.slot? other = if other = allocation then some new else inventory.slot? other) :
    ∃ others, inventory.slots.Perm (old :: others) ∧ next.slots.Perm (new :: others) := by
  have before := indexed.slots_perm allocation
  have after := indexed'.slots_perm allocation
  have rest := indexed.others_perm indexed' fun other apart => by rw [changed, if_neg apart]
  rw [found] at before
  rw [changed, if_pos rfl] at after
  exact ⟨_, before, after.trans (rest.cons new)⟩

end Inventory

/-! ## What slots take -/

/-- What those slots of a list that are on a worker take in a dimension. -/
def Slot.takenOn (id : WorkerId) (slots : List Slot) : Nat → Nat :=
  Profile.partsOf ((slots.filter (·.worker = id)).map (·.profile))

namespace Slot

variable {id : WorkerId} {slots : List Slot} {d : Nat}

theorem takenOn_cons (slot : Slot) :
    takenOn id (slot :: slots) d = (if slot.worker = id then slot.profile.parts d else 0) + takenOn id slots d := by
  by_cases here : slot.worker = id
  · simp [takenOn, here, Profile.partsOf_cons]
  · simp [takenOn, here]

theorem takenOn_perm {other : List Slot} (perm : slots.Perm other) : takenOn id slots d = takenOn id other d :=
  Profile.partsOf_perm ((perm.filter _).map _) d

theorem takenOn_filter_le (stays : Slot → Bool) : takenOn id (slots.filter stays) d ≤ takenOn id slots d :=
  Profile.partsOf_le_of_sublist ((List.filter_sublist.filter _).map _) d

end Slot

namespace Inventory

variable {inventory next : Inventory}

/-- What the slots of a worker take in a dimension. -/
def load (inventory : Inventory) (id : WorkerId) : Nat → Nat := Slot.takenOn id inventory.slots

/-- The slots of a registered worker are those that it lists. -/
theorem Indexed.slotsOn_perm (indexed : inventory.Indexed) {id : WorkerId} {worker : Worker}
    (registered : inventory.worker? id = some worker) :
    (inventory.slots.filter (·.worker = id)).Perm worker.slots.values := by
  refine (List.perm_ext_iff_of_nodup (indexed.nodup_slots.filter _) (indexed.nodup_values registered)).2 fun slot => ?_
  rw [List.mem_filter, indexed.mem_slots, indexed.mem_values registered, decide_eq_true_iff]

theorem Indexed.load_eq (indexed : inventory.Indexed) {id : WorkerId} {worker : Worker}
    (registered : inventory.worker? id = some worker) : inventory.load id = Profile.partsOf worker.profiles :=
  funext fun d => Profile.partsOf_perm ((indexed.slotsOn_perm registered).map _) d

/-- An unknown worker has no slots. -/
theorem Indexed.load_of_unknown (indexed : inventory.Indexed) {id : WorkerId} (unknown : inventory.worker? id = none)
    (d : Nat) : inventory.load id d = 0 := by
  have nobody : inventory.slots.filter (·.worker = id) = [] := by
    refine List.filter_eq_nil_iff.2 fun slot listed => ?_
    obtain ⟨worker, registered, -⟩ := indexed.registered_of_slot? (indexed.mem_slots.1 listed)
    rw [decide_eq_true_iff]
    rintro rfl
    rw [unknown] at registered
    cases registered
  rw [load, Slot.takenOn, nobody]
  rfl

/-- What is to come to the slots of a worker stays small in sum with what they take. -/
theorem Indexed.load_lt (indexed : inventory.Indexed) {id : WorkerId} {worker : Worker}
    (registered : inventory.worker? id = some worker) {more : List Profile}
    (small : Profile.Addable (worker.profiles ++ more)) (d : Nat) :
    Profile.partsOf more d + inventory.load id d < Numeral.bound64 := by
  have := small d
  rw [Profile.partsOf_append] at this
  rw [indexed.load_eq registered]
  omega

/-- Profiles that are added up with those that a worker is known to have. -/
theorem addable_of_profiles {id : WorkerId} {profiles more : List Profile}
    (known : (inventory.worker? id).map Worker.profiles = some profiles) (small : Profile.Addable (profiles ++ more)) :
    ∀ worker, inventory.worker? id = some worker → Profile.Addable (worker.profiles ++ more) := by
  intro worker registered
  rw [registered] at known
  exact Option.some.inj known ▸ small

theorem Indexed.addable_iff (indexed : inventory.Indexed) :
    inventory.Addable ↔ ∀ id d, inventory.load id d < Numeral.bound64 := by
  constructor
  · intro addable id d
    cases registered : inventory.worker? id with
    | none =>
      rw [indexed.load_of_unknown registered]
      exact Nat.two_pow_pos 64
    | some worker =>
      rw [indexed.load_eq registered]
      exact addable registered d
  · intro small id worker registered d
    rw [← indexed.load_eq registered]
    exact small id d

/-- A slot that changes neither its worker nor its profile takes the same. -/
theorem Indexed.load_replace (indexed : inventory.Indexed) (indexed' : next.Indexed) {allocation : AllocationId}
    {old new : Slot} (found : inventory.slot? allocation = some old)
    (changed : ∀ other, next.slot? other = if other = allocation then some new else inventory.slot? other)
    (worker : new.worker = old.worker) (profile : new.profile = old.profile) (id : WorkerId) (d : Nat) :
    next.load id d = inventory.load id d := by
  obtain ⟨others, before, after⟩ := indexed.slots_replace indexed' found changed
  rw [load, load, Slot.takenOn_perm before, Slot.takenOn_perm after, Slot.takenOn_cons, Slot.takenOn_cons, worker,
    profile]

/-- The total of a registered worker. -/
def total? (inventory : Inventory) (id : WorkerId) : Option Profile := (inventory.worker? id).map Worker.total

theorem total?_of_registered {id : WorkerId} {worker : Worker} (registered : inventory.worker? id = some worker) :
    inventory.total? id = some worker.total := congrArg (Option.map Worker.total) registered

theorem total?_eq_none_iff (inventory : Inventory) (id : WorkerId) :
    inventory.total? id = none ↔ inventory.worker? id = none := Option.map_eq_none_iff

theorem worker?_ne_none {id : WorkerId} {total : Profile} (offered : inventory.total? id = some total) :
    inventory.worker? id ≠ none := by
  rintro unknown
  rw [total?, unknown] at offered
  cases offered

theorem Sound.total?_leads (sound : inventory.Sound) (leads : inventory.Leads next) (id : WorkerId) :
    next.total? id = inventory.total? id := total_of_terms (sound.terms_leads leads id)

end Inventory

namespace Cluster

variable {cluster next : Cluster}

/-- A worker has room for a profile if its total has it beside the slots. -/
theorem Sound.hasRoom_iff (sound : cluster.Sound) {worker : WorkerId} {total : Profile}
    (offered : cluster.inventory.total? worker = some total) (profile : Profile) :
    cluster.HasRoom worker profile ↔ total.RoomBeside (cluster.inventory.load worker) profile := by
  obtain ⟨record, registered, rfl⟩ := Option.map_eq_some_iff.1 offered
  rw [sound.inventory.indexed.load_eq registered, ← (sound.inventory.accounted registered).canFit_iff, HasRoom,
    registered]
  simp

/-- A worker of the same total that bears no more has no less room. -/
theorem Sound.hasRoom_mono (sound : cluster.Sound) (sound' : next.Sound) {worker : WorkerId} {profile : Profile}
    (totals : next.inventory.total? worker = cluster.inventory.total? worker)
    (less : ∀ d, next.inventory.load worker d ≤ cluster.inventory.load worker d)
    (room : cluster.HasRoom worker profile) : next.HasRoom worker profile := by
  have ⟨record, registered, _⟩ := room
  have offered := Inventory.total?_of_registered registered
  exact (sound'.hasRoom_iff (totals.trans offered) profile).2 (((sound.hasRoom_iff offered profile).1 room).mono less)

theorem Balanced.count_le (balanced : cluster.Balanced) (job : JobId) (profile : Profile) :
    cluster.ledger.count job profile ≤ cluster.inventory.slots.length := by
  rw [balanced.count_eq]
  exact List.countP_le_length

section Occupy

variable {slot : Slot}

/-- A new slot may be recorded where there is room for it. -/
theorem recordable (indexed : cluster.inventory.Indexed) (slot : Slot) (absent : cluster.slot? slot.allocation = none)
    (room : cluster.HasRoom slot.worker slot.profile) : cluster.inventory.Movable slot ∧
      ∃ record rest, cluster.inventory.worker? slot.worker = some record ∧
        record.slot? slot.allocation = none ∧ record.Leaves slot rest := by
  obtain ⟨record, registered, fits⟩ := room
  obtain ⟨rest, taken⟩ := (Profile.exists_sub?_iff ..).2 fits
  have new : record.slot? slot.allocation = none := by
    rw [indexed.worker_slot? registered, ← slot?_def, absent]
    rfl
  refine ⟨fun owner entry => ?_, record, rest, registered, new, by simpa [Worker.Leaves, new] using taken⟩
  rw [indexed.owners_get?, ← slot?_def, absent] at entry
  cases entry

/-- Occupying a new slot for which there is room succeeds or fails for one reason: that the count of its job
    becomes too large. Of the accounts only that of its worker has to be in order. -/
theorem occupy_cases (indexed : cluster.inventory.Indexed) (slot : Slot)
    (absent : cluster.slot? slot.allocation = none) (room : cluster.HasRoom slot.worker slot.profile)
    (accounted : ∀ record, cluster.inventory.worker? slot.worker = some record → record.Accounted)
    (small : ∀ d, slot.profile.parts d + cluster.inventory.load slot.worker d < Numeral.bound64) :
    (∃ next, cluster.occupy slot = .ok next) ∨
      (cluster.occupy slot = .error .additionOverflow ∧
        Numeral.bound32 ≤ cluster.ledger.count slot.job slot.profile + 1) := by
  obtain ⟨movable, record, rest, registered, new, leaves⟩ := recordable indexed slot absent room
  have sums : Profile.Addable (record.keep slot rest).profiles := fun d => by
    have := small d
    rw [indexed.load_eq registered, ← Profile.partsOf_cons] at this
    rwa [Profile.partsOf_perm (Worker.profiles_keep_new_perm rest new)]
  obtain ⟨inventory, recorded⟩ :=
    indexed.exists_record movable registered (accounted record registered) leaves sums
  by_cases few : cluster.ledger.count slot.job slot.profile + 1 < Numeral.bound32
  · have acquired : cluster.ledger.acquire slot.job slot.profile = .ok _ :=
      (Ledger.acquire_eq_ok_iff slot.job slot.profile).2 ⟨few, rfl⟩
    exact .inl ⟨⟨inventory, _⟩, (occupy_eq_ok_iff slot).2 ⟨recorded, acquired⟩⟩
  · have refused : cluster.ledger.acquire slot.job slot.profile = .error .additionOverflow := if_neg few
    refine .inr ⟨?_, Nat.le_of_not_lt few⟩
    simp only [occupy, recorded, refused, bind, Except.bind]

theorem Sound.occupy_cases (sound : cluster.Sound) (slot : Slot) (absent : cluster.slot? slot.allocation = none)
    (room : cluster.HasRoom slot.worker slot.profile)
    (small : ∀ d, slot.profile.parts d + cluster.inventory.load slot.worker d < Numeral.bound64) :
    (∃ next, cluster.occupy slot = .ok next) ∨
      (cluster.occupy slot = .error .additionOverflow ∧
        Numeral.bound32 ≤ cluster.ledger.count slot.job slot.profile + 1) :=
  Cluster.occupy_cases sound.inventory.indexed slot absent room (fun _ same => sound.inventory.accounted same) small

/-- A new slot for which there is room is occupied exactly if one more of its kind can be counted. -/
theorem Sound.exists_occupy_iff (sound : cluster.Sound) (slot : Slot) (absent : cluster.slot? slot.allocation = none)
    (room : cluster.HasRoom slot.worker slot.profile)
    (small : ∀ d, slot.profile.parts d + cluster.inventory.load slot.worker d < Numeral.bound64) :
    (∃ next, cluster.occupy slot = .ok next) ↔ cluster.ledger.count slot.job slot.profile + 1 < Numeral.bound32 := by
  constructor
  · rintro ⟨next, occupied⟩
    exact ((Ledger.acquire_eq_ok_iff ..).1 ((occupy_eq_ok_iff slot).1 occupied).2).1
  · intro few
    rcases sound.occupy_cases slot absent room small with succeeds | ⟨-, many⟩
    · exact succeeds
    · omega

/-- An occupied slot adds to the load of its worker. -/
theorem load_occupy (indexed : cluster.inventory.Indexed) (absent : cluster.slot? slot.allocation = none)
    (occupied : cluster.occupy slot = .ok next) (id : WorkerId) (d : Nat) :
    next.inventory.load id d =
      (if slot.worker = id then slot.profile.parts d else 0) + cluster.inventory.load id d := by
  obtain ⟨indexed', slots⟩ := slot?_record indexed ((occupy_eq_ok_iff slot).1 occupied).1
  rw [Inventory.load, Slot.takenOn_perm (indexed.slots_cons indexed' absent slots), Slot.takenOn_cons]
  rfl

end Occupy

end Cluster

end SlotControl
