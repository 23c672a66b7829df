import SlotControl.Proofs.Overflow

/-!
States that lie within others. `Within inner outer` says that every slot of the first state is in the second
one as well, if at another place. The inner state then has the more room: where the outer one holds the slot
that an entry of a report stands for, the inner one can adopt it and lies within the outer one still
(`Within.exists_adopt`). What fits in the end fits on the way.
-/

namespace SlotControl

variable {Seed : Type} [Traversal Seed]

namespace Slot

variable {slots others : List Slot}

/-- The slot, at no particular place of its worker. -/
def unplaced (slot : Slot) : Slot := { slot with place := .dynamic slot.worker }

@[simp] theorem unplaced_allocation (slot : Slot) : slot.unplaced.allocation = slot.allocation := rfl
@[simp] theorem unplaced_worker (slot : Slot) : slot.unplaced.worker = slot.worker := rfl
@[simp] theorem unplaced_profile (slot : Slot) : slot.unplaced.profile = slot.profile := rfl

theorem unplaced_move (slot : Slot) {place : SlotId} (same : place.worker = slot.worker) :
    unplaced { slot with place } = slot.unplaced := by
  simp [unplaced, Slot.worker, same]

theorem eq_of_unplaced {slot other : Slot} (alike : slot.unplaced = other.unplaced)
    (place : slot.place = other.place) : slot = other := by
  cases slot
  cases other
  simp_all [unplaced]

/-- A change of the slots that leaves their workers and profiles leaves what they take. -/
theorem takenOn_map (id : WorkerId) {change : Slot → Slot} (worker : ∀ slot, (change slot).worker = slot.worker)
    (profile : ∀ slot, (change slot).profile = slot.profile) (slots : List Slot) (d : Nat) :
    takenOn id (slots.map change) d = takenOn id slots d := by
  induction slots with
  | nil => rfl
  | cons slot rest ih => rw [List.map_cons, takenOn_cons, takenOn_cons, ih, worker, profile]

theorem takenOn_le_of_subperm (fewer : slots.Subperm others) (id : WorkerId) (d : Nat) :
    takenOn id slots d ≤ takenOn id others d := by
  obtain ⟨between, perm, sublist⟩ := fewer
  rw [← takenOn_perm perm]
  exact Profile.partsOf_le_of_sublist ((sublist.filter _).map _) d

end Slot

/-- A profile that was taken has room beside less than the others. -/
theorem Profile.Accounts.roomBeside {total left p : Profile} {taken : List Profile} {less : Nat → Nat}
    (accounts : Accounts total left taken) (inside : p ∈ taken) (beside : ∀ d, p.parts d + less d ≤ partsOf taken d) :
    total.RoomBeside less p := by
  match total, left, p, accounts with
  | .any, .any, _, _ => trivial
  | .sized _, .sized _, .any, ⟨tame, _⟩ => exact tame inside
  | .sized total, .sized left, .sized v, ⟨_, sums⟩ =>
    intro d
    have := sums d
    have := beside d
    simp only [parts] at this
    omega

namespace Cluster

variable {cluster next inner outer : Cluster} {slot : Slot} {worker : WorkerId}

/-! ## Slots that a state has -/

/-- The state has the slot, if at another place of its worker. -/
def Holds (cluster : Cluster) (slot : Slot) : Prop :=
  (cluster.slot? slot.allocation).map Slot.unplaced = some slot.unplaced

theorem holds_iff : cluster.Holds slot ↔
    ∃ held, cluster.slot? slot.allocation = some held ∧ held.unplaced = slot.unplaced := Option.map_eq_some_iff

theorem holds_of_found (indexed : cluster.inventory.Indexed) {allocation : AllocationId}
    (found : cluster.slot? allocation = some slot) : cluster.Holds slot := by
  rw [Holds, indexed.allocation_eq found, found]
  rfl

theorem Holds.congr {other : Slot} (holds : cluster.Holds slot) (alike : slot.unplaced = other.unplaced) :
    cluster.Holds other := by
  have this : slot.allocation = other.allocation := by simpa using congrArg Slot.allocation alike
  rwa [Holds, ← this, ← alike]

section Listing

variable {listing : List Slot}

/-- Slots that the state has, no allocation twice, are part of its listing. -/
private theorem subperm_slots (indexed : cluster.inventory.Indexed) (distinct : (listing.map Slot.allocation).Nodup)
    (held : ∀ slot ∈ listing, cluster.Holds slot) :
    (listing.map Slot.unplaced).Subperm (cluster.inventory.slots.map Slot.unplaced) := by
  have nodup : (listing.map Slot.unplaced).Nodup := by
    refine List.Nodup.of_map Slot.allocation ?_
    rwa [List.map_map]
  refine nodup.subperm fun image inside => ?_
  obtain ⟨slot, listed, rfl⟩ := List.mem_map.1 inside
  obtain ⟨other, found, alike⟩ := holds_iff.1 (held slot listed)
  refine List.mem_map.2 ⟨other, indexed.mem_slots.2 ?_, alike⟩
  rwa [indexed.allocation_eq found]

theorem takenOn_le_load (indexed : cluster.inventory.Indexed) (distinct : (listing.map Slot.allocation).Nodup)
    (held : ∀ slot ∈ listing, cluster.Holds slot) (id : WorkerId) (d : Nat) :
    Slot.takenOn id listing d ≤ cluster.inventory.load id d := by
  have part := Slot.takenOn_le_of_subperm (subperm_slots indexed distinct held) id d
  rwa [Slot.takenOn_map _ Slot.unplaced_worker Slot.unplaced_profile,
    Slot.takenOn_map _ Slot.unplaced_worker Slot.unplaced_profile] at part

theorem countP_le_held (indexed : cluster.inventory.Indexed) (distinct : (listing.map Slot.allocation).Nodup)
    (held : ∀ slot ∈ listing, cluster.Holds slot) (job : JobId) (profile : Profile) :
    listing.countP (Slot.countsFor job profile) ≤ cluster.inventory.held job profile := by
  have part := (subperm_slots indexed distinct held).countP_le (Slot.countsFor job profile)
  rwa [List.countP_map, List.countP_map] at part

end Listing

/-! ## One state within another -/

/-- Both states are in order with the same workers, and the slots of the first are in the second. -/
structure Within (inner outer : Cluster) : Prop where
  sound : inner.Sound
  sound' : outer.Sound
  terms : ∀ id, (inner.inventory.worker? id).map Worker.terms = (outer.inventory.worker? id).map Worker.terms
  slots : ∀ {allocation slot}, inner.slot? allocation = some slot → outer.Holds slot

namespace Within

variable {allocation : AllocationId} {profile : Profile}

/-- Steps of a report that leave what is recorded lead outwards. -/
theorem of_reported (sound : inner.Sound) (sound' : outer.Sound) (leads : inner.inventory.Leads outer.inventory)
    (reported : ∀ other, Reported worker (inner.slot? other) (outer.slot? other)) : Within inner outer := by
  refine ⟨sound, sound', fun id => (sound.inventory.terms_leads leads id).symm, fun {allocation slot} found => ?_⟩
  have reported := reported allocation
  rw [found] at reported
  obtain ⟨place, here, after⟩ := reported.some_left
  rw [Holds, sound.inventory.indexed.allocation_eq found, after, Option.map_some, slot.unplaced_move here]

theorem of_adopt (sound : inner.Sound) {entry : SlotStatus × SlotAssignment} {applied : Bool}
    (adopted : inner.adopt worker entry.1 entry.2 = .ok (applied, outer)) : Within inner outer :=
  of_reported sound (sound.adopt adopted) (leads_adopt adopted)
    (slot?_adopt sound.inventory.indexed ((adopt_eq_ok_iff ..).1 adopted)).2

theorem of_adoptAll (sound : inner.Sound) {entries : List (SlotStatus × SlotAssignment)} {applied : Bool}
    (adopted : inner.adoptAll worker entries = .ok (applied, outer)) : Within inner outer :=
  of_reported sound (sound.adoptAll adopted) (leads_adoptAll adopted)
    (slot?_adoptAll sound.inventory.indexed adopted).2

/-- What is left after freeing lies within what was there. -/
theorem of_freeAll (sound : outer.Sound) {allocations : List AllocationId}
    (freed : outer.freeAll allocations = .ok inner) : Within inner outer := by
  refine ⟨sound.freeAll freed, sound, sound.inventory.terms_leads (leads_freeAll freed),
    fun {allocation slot} found => ?_⟩
  rw [(slot?_freeAll sound.inventory.indexed freed).2] at found
  split at found
  · cases found
  · exact holds_of_found sound.inventory.indexed found

theorem total?_eq (within : Within inner outer) (id : WorkerId) :
    inner.inventory.total? id = outer.inventory.total? id :=
  Inventory.total_of_terms (within.terms id)

theorem exists_slot (within : Within inner outer) (found : inner.slot? allocation = some slot) :
    ∃ held, outer.slot? allocation = some held ∧ held.unplaced = slot.unplaced := by
  have held := holds_iff.1 (within.slots found)
  rwa [within.sound.inventory.indexed.allocation_eq found] at held

theorem slot?_eq_none (within : Within inner outer) (absent : outer.slot? allocation = none) :
    inner.slot? allocation = none := by
  cases found : inner.slot? allocation with
  | none => rfl
  | some slot =>
    obtain ⟨held, found', -⟩ := within.exists_slot found
    rw [absent] at found'
    cases found'

/-! ### Loads and counts -/

theorem load_le (within : Within inner outer) (id : WorkerId) (d : Nat) :
    inner.inventory.load id d ≤ outer.inventory.load id d :=
  takenOn_le_load within.sound'.inventory.indexed within.sound.inventory.indexed.nodup_allocations
    (fun _ listed => within.slots (within.sound.inventory.indexed.mem_slots.1 listed)) id d

section New

variable (within : Within inner outer) (absent : inner.slot? slot.allocation = none) (holds : outer.Holds slot)

include within absent holds

/-- The inner state together with a slot that only the outer one has is a part of that still. -/
private theorem listing : ((slot :: inner.inventory.slots).map Slot.allocation).Nodup ∧
    ∀ other ∈ slot :: inner.inventory.slots, outer.Holds other := by
  have indexed := within.sound.inventory.indexed
  refine ⟨List.nodup_cons.2 ⟨fun listed => ?_, indexed.nodup_allocations⟩, List.forall_mem_cons.2 ⟨holds, ?_⟩⟩
  · obtain ⟨other, found⟩ := indexed.mem_allocations.1 listed
    rw [← slot?_def, absent] at found
    cases found
  · exact fun other listed => within.slots (indexed.mem_slots.1 listed)

theorem load_new_le (d : Nat) :
    slot.profile.parts d + inner.inventory.load slot.worker d ≤ outer.inventory.load slot.worker d := by
  obtain ⟨distinct, held⟩ := within.listing absent holds
  have taken := takenOn_le_load within.sound'.inventory.indexed distinct held slot.worker d
  rwa [Slot.takenOn_cons, if_pos rfl] at taken

theorem count_new_lt : inner.ledger.count slot.job slot.profile < outer.ledger.count slot.job slot.profile := by
  obtain ⟨distinct, held⟩ := within.listing absent holds
  have counted := countP_le_held within.sound'.inventory.indexed distinct held slot.job slot.profile
  rw [List.countP_cons_of_pos (by simp [Slot.countsFor])] at counted
  rw [within.sound.balanced.count_eq, within.sound'.balanced.count_eq]
  exact counted

/-- What fits in the outer state fits in the inner one. -/
theorem hasRoom : inner.HasRoom slot.worker slot.profile := by
  obtain ⟨held, found, alike⟩ := holds_iff.1 holds
  obtain ⟨record, registered, slots⟩ := within.sound'.inventory.indexed.registered_of_slot? found
  have here : held.worker = slot.worker := by simpa using congrArg Slot.worker alike
  have same : held.profile = slot.profile := by simpa using congrArg Slot.profile alike
  rw [here] at registered
  have offered := (within.total?_eq slot.worker).trans (Inventory.total?_of_registered registered)
  have inside : slot.profile ∈ record.profiles :=
    List.mem_map.2 ⟨held, (SortedMap.mem_values ..).2 ⟨_, slots⟩, same⟩
  refine (within.sound.hasRoom_iff offered _).2
    ((within.sound'.inventory.accounted registered).accounts.roomBeside inside fun d => ?_)
  rw [← within.sound'.inventory.indexed.load_eq registered]
  exact within.load_new_le absent holds d

end New

/-- Where the outer state has room, the inner one has it too. -/
theorem hasRoom_of_outer (within : Within inner outer) (room : outer.HasRoom worker profile) :
    inner.HasRoom worker profile :=
  within.sound'.hasRoom_mono within.sound (within.total?_eq worker) (within.load_le worker) room

/-! ### Adoption -/

section Adopt

variable {entry : SlotStatus × SlotAssignment} {applied : Bool}

/-- The inner state can adopt what the outer one has: neither the sums nor the counts come to more than there. -/
private theorem adopts (within : Within inner outer) (bounded : outer.ledger.Bounded)
    (small : ∀ d, outer.inventory.load worker d < Numeral.bound64)
    (wanted : inner.slot? entry.2.allocation = none → inner.HasRoom worker entry.1.profile →
      outer.Holds (proposed worker entry)) :
    ∃ applied next, inner.adopt worker entry.1 entry.2 = .ok (applied, next) := by
  cases found : inner.slot? entry.2.allocation with
  | some slot => exact exists_adopt_of_some within.sound.inventory.indexed found
  | none =>
    by_cases room : inner.HasRoom worker entry.1.profile
    · have holds := wanted found room
      have few : ∀ d, entry.1.profile.parts d + inner.inventory.load worker d < Numeral.bound64 := fun d =>
        Nat.lt_of_le_of_lt (within.load_new_le found holds d) (small d)
      rcases within.sound.occupy_cases (proposed worker entry) found room few with ⟨next, occupies⟩ | ⟨-, many⟩
      · exact ⟨true, next, (adopt_eq_ok_iff ..).2 (.occupied found room occupies)⟩
      · have := within.count_new_lt found holds
        have := bounded (proposed worker entry).job (proposed worker entry).profile
        omega
    · exact ⟨false, inner, (adopt_eq_ok_iff ..).2 (.refused found room)⟩

private theorem adopted_within (within : Within inner outer)
    (wanted : inner.slot? entry.2.allocation = none → inner.HasRoom worker entry.1.profile →
      outer.Holds (proposed worker entry))
    (adopted : inner.adopt worker entry.1 entry.2 = .ok (applied, next)) : Within next outer := by
  have indexed := within.sound.inventory.indexed
  have onward := of_adopt within.sound adopted
  refine ⟨onward.sound', within.sound', fun id => (onward.terms id).symm.trans (within.terms id),
    fun {allocation slot} after => ?_⟩
  cases before : inner.slot? allocation with
  | some old =>
    obtain ⟨moved, found, alike⟩ := onward.exists_slot before
    obtain rfl := Option.some.inj (found.symm.trans after)
    exact (within.slots before).congr alike.symm
  | none =>
    -- Only the slot that the entry stands for can have appeared.
    by_cases its : allocation = entry.2.allocation
    · subst its
      rcases slot?_adopt_of_none indexed before adopted with ⟨room, appeared⟩ | ⟨-, rfl⟩
      · exact Option.some.inj (appeared.symm.trans after) ▸ wanted before room
      · rw [before] at after
        cases after
    · rw [slot?_adopt_of_ne indexed adopted its, before] at after
      cases after

/-- What the outer state has of an entry, the inner one has after it. -/
private theorem adopted_present (within : Within inner outer) (holds : outer.Holds (proposed worker entry))
    (adopted : inner.adopt worker entry.1 entry.2 = .ok (applied, next)) : next.slot? entry.2.allocation ≠ none := by
  intro absent
  have before := (of_adopt within.sound adopted).slot?_eq_none absent
  rcases slot?_adopt_of_none within.sound.inventory.indexed before adopted with ⟨-, appeared⟩ | ⟨full, -⟩
  · rw [absent] at appeared
    cases appeared
  · exact full (within.hasRoom before holds)

/-- An entry is brought into line in the inner state, which lies within the outer one still if that holds what
    the entry makes the inner one adopt. -/
theorem exists_adopt (within : Within inner outer) (bounded : outer.ledger.Bounded)
    (small : ∀ d, outer.inventory.load worker d < Numeral.bound64)
    (wanted : inner.slot? entry.2.allocation = none → inner.HasRoom worker entry.1.profile →
      outer.Holds (proposed worker entry)) :
    ∃ applied next, inner.adopt worker entry.1 entry.2 = .ok (applied, next) ∧ Within next outer ∧
      (outer.Holds (proposed worker entry) → next.slot? entry.2.allocation ≠ none) := by
  obtain ⟨applied, next, adopted⟩ := within.adopts bounded small wanted
  exact ⟨applied, next, adopted, within.adopted_within wanted adopted, fun holds =>
    within.adopted_present holds adopted⟩

/-- Entries are all brought into line within a state that has what they make the inner one adopt. -/
theorem exists_adoptAll {entries : List (SlotStatus × SlotAssignment)} (within : Within inner outer)
    (bounded : outer.ledger.Bounded) (small : ∀ d, outer.inventory.load worker d < Numeral.bound64)
    (wanted : ∀ entry ∈ entries, inner.slot? entry.2.allocation = none → outer.Holds (proposed worker entry)) :
    ∃ applied next, inner.adoptAll worker entries = .ok (applied, next) ∧
      ∀ entry ∈ entries, next.slot? entry.2.allocation ≠ none := by
  induction entries generalizing inner with
  | nil => exact ⟨true, inner, rfl, nofun⟩
  | cons entry rest ih =>
    obtain ⟨now, later⟩ := List.forall_mem_cons.1 wanted
    obtain ⟨first, between, adopted, within', gained⟩ := within.exists_adopt bounded small fun absent _ => now absent
    have grown := of_adopt within.sound adopted
    obtain ⟨others, next, continued, present⟩ := ih within' fun other inside absent =>
      later other inside (grown.slot?_eq_none absent)
    refine ⟨_, next, (adoptAll_cons_eq_ok_iff ..).2 ⟨first, between, others, adopted, continued, rfl⟩,
      List.forall_mem_cons.2 ⟨fun gone => ?_, present⟩⟩
    have missing := (of_adoptAll within'.sound continued).slot?_eq_none gone
    exact gained (now (grown.slot?_eq_none missing)) missing

end Adopt

end Within

end Cluster

end SlotControl
