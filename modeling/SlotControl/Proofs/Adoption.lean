import SlotControl.Proofs.Headroom

/-!
The two passes of a report, slot by slot. The first frees slots, and the second brings the reported
entries into line: each changes the slot of its own allocation at most, and whether a new slot is adopted
depends on what the others on the worker take. Neither pass fails but for sums or counts that are too large.
-/

namespace SlotControl

variable {Seed : Type} [Traversal Seed]

/-- An entry of the report is for the allocation. -/
def SlotReport.Names (report : SlotReport) (allocation : AllocationId) : Prop :=
  ∃ entry ∈ report.occupied, entry.2.allocation = allocation

instance (report : SlotReport) (allocation : AllocationId) : Decidable (report.Names allocation) :=
  inferInstanceAs (Decidable (∃ entry ∈ report.occupied, _))

/-- The last entries of a report tell the jobs of all allocations that it names. -/
theorem SlotReport.jobs_get?_eq_none_iff {report : SlotReport} {allocation : AllocationId} :
    report.jobs.get? allocation = none ↔ ¬report.Names allocation := by
  rw [jobs, SortedMap.get?_ofList_eq_none_iff, List.map_map, List.mem_map]
  exact Iff.rfl

namespace Cluster

variable {cluster next : Cluster} {worker : WorkerId} {total : Profile}

/-! ## Freeing -/

theorem slots_freeAll (indexed : cluster.inventory.Indexed) {allocations : List AllocationId}
    (freed : cluster.freeAll allocations = .ok next) :
    next.inventory.slots.Perm (cluster.inventory.slots.filter (·.allocation ∉ allocations)) := by
  obtain ⟨indexed', slots⟩ := slot?_freeAll indexed freed
  refine indexed.slots_filter indexed' fun allocation => ?_
  rw [← slot?_def, slots, slot?_def]
  cases found : cluster.inventory.slot? allocation with
  | none => simp
  | some slot => simp [Option.filter, indexed.allocation_eq found]

theorem freeAll_cons (allocation : AllocationId) (rest : List AllocationId) :
    cluster.freeAll (allocation :: rest) = (do (← cluster.free allocation).2.freeAll rest) := by
  rw [Cluster.freeAll, List.foldlM_cons, bind_assoc]
  rfl

/-- Freeing fails at most for the sums of workers that slots are taken from. -/
theorem Sound.exists_freeAll (sound : cluster.Sound) (allocations : List AllocationId)
    (small : ∀ allocation ∈ allocations, ∀ slot, cluster.slot? allocation = some slot →
      ∀ d, cluster.inventory.load slot.worker d < Numeral.bound64) :
    ∃ next, cluster.freeAll allocations = .ok next := by
  induction allocations generalizing cluster with
  | nil => exact ⟨cluster, rfl⟩
  | cons allocation rest ih =>
    have indexed := sound.inventory.indexed
    obtain ⟨between, freed⟩ := sound.exists_free_of allocation fun slot record found registered => by
      have this := small allocation (.head _) slot found
      rwa [indexed.load_eq registered] at this
    have alone : cluster.freeAll [allocation] = .ok between := by
      rw [freeAll_cons, freed]
      rfl
    obtain ⟨next, continued⟩ := ih (sound.freeAll alone) fun other inside slot found d => by
      rw [(slot?_freeAll indexed alone).2] at found
      split at found
      · cases found
      · rw [Inventory.load, Slot.takenOn_perm (slots_freeAll indexed alone)]
        exact Nat.lt_of_le_of_lt (Slot.takenOn_filter_le _) (small other (.tail _ inside) slot found d)
    exact ⟨next, by rw [freeAll_cons, freed]; exact continued⟩

/-! ## One entry -/

/-- The confirmed slot that an entry of a worker's report stands for. -/
def proposed (worker : WorkerId) (entry : SlotStatus × SlotAssignment) : Slot :=
  ⟨entry.2.allocation, entry.2.job, ⟨worker, entry.1.place.index⟩, entry.1.profile, .allocated⟩

/-- What an entry makes of the slot of its allocation. One on the worker takes the reported place, and one on
    another worker stays; where there is none, the reported one is adopted if there is room for it. -/
def aligned (worker : WorkerId) (entry : SlotStatus × SlotAssignment) (room : Prop) [Decidable room] :
    Option Slot → Option Slot
  | some slot => some (if slot.worker = worker then { slot with place := ⟨worker, entry.1.place.index⟩ } else slot)
  | none => if room then some (proposed worker entry) else none

section Entry

variable {entry : SlotStatus × SlotAssignment} {applied : Bool}

theorem aligned_congr {room room' : Prop} [Decidable room] [Decidable room'] {slot : Option Slot}
    (same : slot = none → (room ↔ room')) :
    aligned worker entry room slot = aligned worker entry room' slot := by
  cases slot with
  | some slot => rfl
  | none => exact if_congr (same rfl) rfl rfl

/-- An entry aligns the slot of its allocation and no other, and it is applied if the slot is then on the
    worker. -/
theorem Sound.slot?_adopt (sound : cluster.Sound) (offered : cluster.inventory.total? worker = some total)
    (adopted : cluster.adopt worker entry.1 entry.2 = .ok (applied, next)) :
    (∀ other, next.slot? other = if other = entry.2.allocation then
      aligned worker entry (total.RoomBeside (cluster.inventory.load worker) entry.1.profile)
        (cluster.slot? entry.2.allocation) else cluster.slot? other) ∧
    applied = (next.slot? entry.2.allocation).any (·.worker = worker) := by
  have indexed := sound.inventory.indexed
  have room := sound.hasRoom_iff offered entry.1.profile
  cases (adopt_eq_ok_iff ..).1 adopted with
  | placed found here moved ledger =>
    obtain ⟨-, slots⟩ := slot?_setPlace indexed found moved
    rw [slots, if_pos rfl, found, aligned, if_pos here]
    exact ⟨slots, by simp [Slot.worker]⟩
  | @elsewhere slot found apart =>
    rw [found, aligned, if_neg apart]
    refine ⟨fun other => ?_, by simp [apart]⟩
    split
    · next same => rw [same, found]
    · rfl
  | occupied absent fits occupies =>
    obtain ⟨-, slots⟩ := slot?_record indexed ((occupy_eq_ok_iff _).1 occupies).1
    rw [slots, if_pos rfl, absent, aligned, if_pos (room.1 fits)]
    exact ⟨slots, by simp [Slot.worker]⟩
  | refused absent full =>
    rw [absent, aligned, if_neg (fun fits => full (room.2 fits))]
    refine ⟨fun other => ?_, rfl⟩
    split
    · next same => rw [same, absent]
    · rfl

theorem slot?_adopt_of_ne (indexed : cluster.inventory.Indexed)
    (adopted : cluster.adopt worker entry.1 entry.2 = .ok (applied, next)) {other : AllocationId}
    (apart : other ≠ entry.2.allocation) : next.slot? other = cluster.slot? other := by
  cases (adopt_eq_ok_iff ..).1 adopted with
  | elsewhere | refused => rfl
  | placed found here moved ledger => rw [(slot?_setPlace indexed found moved).2, if_neg apart]
  | occupied absent fits occupies =>
    rw [(slot?_record indexed ((occupy_eq_ok_iff _).1 occupies).1).2]
    exact if_neg apart

/-- An entry whose allocation has no slot is adopted if there is room, and leaves everything if there is not. -/
theorem slot?_adopt_of_none (indexed : cluster.inventory.Indexed) (absent : cluster.slot? entry.2.allocation = none)
    (adopted : cluster.adopt worker entry.1 entry.2 = .ok (applied, next)) :
    (cluster.HasRoom worker entry.1.profile ∧ next.slot? entry.2.allocation = some (proposed worker entry)) ∨
      (¬cluster.HasRoom worker entry.1.profile ∧ next = cluster) := by
  cases (adopt_eq_ok_iff ..).1 adopted with
  | placed found | elsewhere found =>
    rw [absent] at found
    cases found
  | occupied _ fits occupies =>
    refine .inl ⟨fits, ?_⟩
    rw [(slot?_record indexed ((occupy_eq_ok_iff _).1 occupies).1).2]
    exact if_pos rfl
  | refused _ full => exact .inr ⟨full, rfl⟩

/-- Only an adopted slot adds to what the slots of the worker take. -/
theorem Sound.load_adopt (sound : cluster.Sound) (offered : cluster.inventory.total? worker = some total)
    (adopted : cluster.adopt worker entry.1 entry.2 = .ok (applied, next)) (d : Nat) :
    next.inventory.load worker d = cluster.inventory.load worker d +
      (if cluster.slot? entry.2.allocation = none ∧
        total.RoomBeside (cluster.inventory.load worker) entry.1.profile then entry.1.profile.parts d else 0) := by
  have indexed := sound.inventory.indexed
  have room := sound.hasRoom_iff offered entry.1.profile
  cases (adopt_eq_ok_iff ..).1 adopted with
  | placed found here moved ledger =>
    obtain ⟨indexed', slots⟩ := slot?_setPlace indexed found moved
    rw [indexed.load_replace indexed' found slots here.symm rfl, found, if_neg (by simp)]
    rfl
  | elsewhere found apart => simp [found]
  | occupied absent fits occupies =>
    rw [load_occupy indexed absent occupies, if_pos (show Slot.worker _ = worker from rfl),
      if_pos ⟨absent, room.1 fits⟩, Nat.add_comm]
  | refused absent full => rw [if_neg fun taken => full (room.2 taken.2), Nat.add_zero]

theorem Sound.load_adopt_le (sound : cluster.Sound) (offered : cluster.inventory.total? worker = some total)
    (adopted : cluster.adopt worker entry.1 entry.2 = .ok (applied, next)) (d : Nat) :
    next.inventory.load worker d ≤ entry.1.profile.parts d + cluster.inventory.load worker d := by
  rw [sound.load_adopt offered adopted]
  split <;> omega

/-- An entry adds one slot at most. -/
theorem length_adopt (indexed : cluster.inventory.Indexed)
    (adopted : cluster.adopt worker entry.1 entry.2 = .ok (applied, next)) :
    next.inventory.slots.length ≤ cluster.inventory.slots.length + 1 := by
  cases (adopt_eq_ok_iff ..).1 adopted with
  | elsewhere | refused => exact Nat.le_succ _
  | placed found here moved ledger =>
    obtain ⟨indexed', slots⟩ := slot?_setPlace indexed found moved
    obtain ⟨others, before, after⟩ := indexed.slots_replace indexed' found slots
    rw [before.length_eq, after.length_eq, List.length_cons, List.length_cons]
    exact Nat.le_succ _
  | occupied absent fits occupies =>
    obtain ⟨indexed', slots⟩ := slot?_record indexed ((occupy_eq_ok_iff _).1 occupies).1
    have added : next.inventory.slots.Perm (proposed worker entry :: cluster.inventory.slots) :=
      indexed.slots_cons indexed' absent slots
    exact Nat.le_of_eq (added.length_eq.trans List.length_cons)

/-- An entry whose allocation has a slot can be brought into line. -/
theorem exists_adopt_of_some (indexed : cluster.inventory.Indexed) {slot : Slot}
    (found : cluster.slot? entry.2.allocation = some slot) :
    ∃ applied next, cluster.adopt worker entry.1 entry.2 = .ok (applied, next) := by
  by_cases here : slot.worker = worker
  · have placed : ∃ inventory, cluster.inventory.setPlace entry.2.allocation ⟨worker, entry.1.place.index⟩ =
        .ok inventory := indexed.exists_setPlace fun other found' => by
      rw [← slot?_def, found] at found'
      rw [← Option.some.inj found', here]
    obtain ⟨inventory, moved⟩ := placed
    exact ⟨true, ⟨inventory, cluster.ledger⟩, (adopt_eq_ok_iff ..).2 (.placed found here moved rfl)⟩
  · exact ⟨false, cluster, (adopt_eq_ok_iff ..).2 (.elsewhere found here)⟩

/-- Bringing an entry into line succeeds, or a new slot for which there is room makes a count too large. -/
theorem Sound.adopt_cases (sound : cluster.Sound) (worker : WorkerId) (entry : SlotStatus × SlotAssignment)
    (small : cluster.slot? entry.2.allocation = none → cluster.HasRoom worker entry.1.profile →
      ∀ d, entry.1.profile.parts d + cluster.inventory.load worker d < Numeral.bound64) :
    (∃ applied next, cluster.adopt worker entry.1 entry.2 = .ok (applied, next)) ∨
      (cluster.adopt worker entry.1 entry.2 = .error .additionOverflow ∧
        cluster.slot? entry.2.allocation = none ∧ cluster.HasRoom worker entry.1.profile ∧
        Numeral.bound32 ≤ cluster.inventory.slots.length + 1) := by
  cases found : cluster.slot? entry.2.allocation with
  | some slot => exact .inl (exists_adopt_of_some sound.inventory.indexed found)
  | none =>
    by_cases fits : cluster.HasRoom worker entry.1.profile
    · have room := (Cluster.hasRoom_iff ..).1 fits
      rcases sound.occupy_cases (proposed worker entry) found fits (small found fits) with
        ⟨next, occupies⟩ | ⟨failed, many⟩
      · exact .inl ⟨true, next, (adopt_eq_ok_iff ..).2 (.occupied found fits occupies)⟩
      · refine .inr ⟨?_, rfl, fits, Nat.le_trans many (Nat.succ_le_succ (sound.balanced.count_le ..))⟩
        rw [proposed] at failed
        simp only [Cluster.adopt, found, room, if_true, failed, bind, Except.bind]
    · exact .inl ⟨false, cluster, (adopt_eq_ok_iff ..).2 (.refused found fits)⟩

/-- Bringing an entry into line succeeds exactly if a new slot for which there is room can be counted. -/
theorem Sound.exists_adopt_iff (sound : cluster.Sound) (worker : WorkerId) (entry : SlotStatus × SlotAssignment)
    (small : ∀ d, entry.1.profile.parts d + cluster.inventory.load worker d < Numeral.bound64) :
    (∃ result, cluster.adopt worker entry.1 entry.2 = .ok result) ↔
      (cluster.slot? entry.2.allocation = none → cluster.HasRoom worker entry.1.profile →
        cluster.ledger.count entry.2.job entry.1.profile + 1 < Numeral.bound32) := by
  constructor
  · rintro ⟨⟨applied, next⟩, adopted⟩ absent room
    cases (adopt_eq_ok_iff ..).1 adopted with
    | placed found | elsewhere found =>
      rw [absent] at found
      cases found
    | occupied _ _ occupies => exact (sound.exists_occupy_iff (proposed worker entry) absent room small).1 ⟨_, occupies⟩
    | refused _ full => exact absurd room full
  · intro few
    rcases sound.adopt_cases worker entry fun _ _ => small with ⟨applied, next, adopted⟩ | ⟨-, absent, room, -⟩
    · exact ⟨_, adopted⟩
    · obtain ⟨next, occupies⟩ := (sound.exists_occupy_iff (proposed worker entry) absent room small).2 (few absent room)
      exact ⟨_, (adopt_eq_ok_iff ..).2 (.occupied absent room occupies)⟩

end Entry

/-! ## All entries -/

section Entries

variable {entries : List (SlotStatus × SlotAssignment)} {applied : Bool}

/-- One step of the second pass: an entry is brought into line, and the pass goes on having applied all. -/
private def adoptNext (worker : WorkerId) (state : Bool × Cluster) (entry : SlotStatus × SlotAssignment) :
    Checked (Bool × Cluster) := do
  let (adopted, cluster) ← state.2.adopt worker entry.1 entry.2
  return (state.1 && adopted, cluster)

private theorem adoptAll_eq : cluster.adoptAll worker entries = entries.foldlM (adoptNext worker) (true, cluster) :=
  rfl

private theorem foldlM_adoptNext (applied earlier : Bool) (entries : List (SlotStatus × SlotAssignment)) :
    entries.foldlM (adoptNext worker) (applied && earlier, cluster) =
      (entries.foldlM (adoptNext worker) (earlier, cluster)).map fun (others, next) => (applied && others, next) := by
  induction entries generalizing earlier cluster with
  | nil => rfl
  | cons entry rest ih =>
    rw [List.foldlM_cons, List.foldlM_cons, adoptNext, adoptNext]
    cases cluster.adopt worker entry.1 entry.2 with
    | error defect => rfl
    | ok result =>
      have continued := @ih result.2 (earlier && result.1)
      rwa [← Bool.and_assoc] at continued

/-- The first entry is brought into line, and then the others are. -/
theorem adoptAll_cons (entry : SlotStatus × SlotAssignment) (rest : List (SlotStatus × SlotAssignment)) :
    cluster.adoptAll worker (entry :: rest) = (do
      let (first, between) ← cluster.adopt worker entry.1 entry.2
      let (others, next) ← between.adoptAll worker rest
      return (first && others, next)) := by
  rw [adoptAll_eq, List.foldlM_cons, adoptNext]
  cases cluster.adopt worker entry.1 entry.2 with
  | error defect => rfl
  | ok result =>
    obtain ⟨first, between⟩ := result
    show rest.foldlM (adoptNext worker) (true && first, between) =
      between.adoptAll worker rest >>= fun result => pure (first && result.1, result.2)
    rw [Bool.true_and, ← Bool.and_true first, foldlM_adoptNext, ← adoptAll_eq, Bool.and_true]
    cases between.adoptAll worker rest <;> rfl

theorem adoptAll_cons_eq_ok_iff (entry : SlotStatus × SlotAssignment)
    (rest : List (SlotStatus × SlotAssignment)) : cluster.adoptAll worker (entry :: rest) = .ok (applied, next) ↔
      ∃ first between others, cluster.adopt worker entry.1 entry.2 = .ok (first, between) ∧
        between.adoptAll worker rest = .ok (others, next) ∧ applied = (first && others) := by
  simp only [adoptAll_cons, Checked.bind_eq_ok_iff, Checked.pure_eq_ok_iff, Prod.mk.injEq]
  constructor
  · rintro ⟨⟨first, between⟩, adopted, ⟨others, _⟩, continued, rfl, rfl⟩
    exact ⟨first, between, others, adopted, continued, rfl⟩
  · rintro ⟨first, between, others, adopted, continued, rfl⟩
    exact ⟨_, adopted, _, continued, rfl, rfl⟩

theorem Sound.adoptAll (sound : cluster.Sound) (adopted : cluster.adoptAll worker entries = .ok (applied, next)) :
    next.Sound := by
  induction entries generalizing cluster applied with
  | nil =>
    obtain ⟨-, rfl⟩ := Prod.mk.inj (Except.ok.inj adopted)
    exact sound
  | cons entry rest ih =>
    obtain ⟨first, between, others, adopts, continued, -⟩ := (adoptAll_cons_eq_ok_iff ..).1 adopted
    exact ih (sound.adopt adopts) continued

theorem slot?_adoptAll_of_unnamed (indexed : cluster.inventory.Indexed)
    (adopted : cluster.adoptAll worker entries = .ok (applied, next)) {allocation : AllocationId}
    (unnamed : ∀ entry ∈ entries, entry.2.allocation ≠ allocation) :
    next.slot? allocation = cluster.slot? allocation := by
  induction entries generalizing cluster applied with
  | nil =>
    obtain ⟨-, rfl⟩ := Prod.mk.inj (Except.ok.inj adopted)
    rfl
  | cons entry rest ih =>
    obtain ⟨first, between, others, adopts, continued, -⟩ := (adoptAll_cons_eq_ok_iff ..).1 adopted
    obtain ⟨now, later⟩ := List.forall_mem_cons.1 unnamed
    have indexed' := (slot?_adopt indexed ((adopt_eq_ok_iff ..).1 adopts)).1
    rw [ih indexed' continued later, slot?_adopt_of_ne indexed adopts (Ne.symm now)]

/-- The entries add no more to what the slots of the worker take than what they ask for. -/
theorem Sound.load_adoptAll_le (sound : cluster.Sound) (offered : cluster.inventory.total? worker = some total)
    (adopted : cluster.adoptAll worker entries = .ok (applied, next)) (d : Nat) :
    next.inventory.load worker d ≤ Profile.partsOf (entries.map (·.1.profile)) d + cluster.inventory.load worker d := by
  induction entries generalizing cluster applied with
  | nil =>
    obtain ⟨-, rfl⟩ := Prod.mk.inj (Except.ok.inj adopted)
    exact Nat.le_add_left ..
  | cons entry rest ih =>
    obtain ⟨first, between, others, adopts, continued, -⟩ := (adoptAll_cons_eq_ok_iff ..).1 adopted
    have offered' : between.inventory.total? worker = some total := by
      rw [sound.inventory.total?_leads (leads_adopt adopts), offered]
    have later := ih (sound.adopt adopts) offered' continued
    have now := sound.load_adopt_le offered adopts d
    rw [List.map_cons, Profile.partsOf_cons]
    omega

/-- The entries add no more slots than they are. -/
theorem length_adoptAll (indexed : cluster.inventory.Indexed)
    (adopted : cluster.adoptAll worker entries = .ok (applied, next)) :
    next.inventory.slots.length ≤ cluster.inventory.slots.length + entries.length := by
  induction entries generalizing cluster applied with
  | nil =>
    obtain ⟨-, rfl⟩ := Prod.mk.inj (Except.ok.inj adopted)
    exact Nat.le_refl _
  | cons entry rest ih =>
    obtain ⟨first, between, others, adopts, continued, -⟩ := (adoptAll_cons_eq_ok_iff ..).1 adopted
    have later := ih (slot?_adopt indexed ((adopt_eq_ok_iff ..).1 adopts)).1 continued
    have now := length_adopt indexed adopts
    rw [List.length_cons]
    omega

/-- Bringing entries into line succeeds while the sums stay small, or a count becomes too large. -/
theorem Sound.adoptAll_cases (sound : cluster.Sound) (offered : cluster.inventory.total? worker = some total)
    (entries : List (SlotStatus × SlotAssignment))
    (small : ∀ d, Profile.partsOf (entries.map (·.1.profile)) d + cluster.inventory.load worker d < Numeral.bound64) :
    (∃ applied next, cluster.adoptAll worker entries = .ok (applied, next)) ∨
      (cluster.adoptAll worker entries = .error .additionOverflow ∧
        Numeral.bound32 ≤ cluster.inventory.slots.length + entries.length) := by
  induction entries generalizing cluster with
  | nil => exact .inl ⟨true, cluster, rfl⟩
  | cons entry rest ih =>
    simp only [List.map_cons, Profile.partsOf_cons] at small
    rcases sound.adopt_cases worker entry (fun _ _ d => by have := small d; omega) with
      ⟨first, between, adopted⟩ | ⟨failed, -, -, many⟩
    · have offered' : between.inventory.total? worker = some total := by
        rw [sound.inventory.total?_leads (leads_adopt adopted), offered]
      have added := sound.load_adopt_le offered adopted
      have length := length_adopt sound.inventory.indexed adopted
      rcases ih (sound.adopt adopted) offered' (fun d => by
          have := small d
          have := added d
          omega) with ⟨others, next, continued⟩ | ⟨failed, many⟩
      · exact .inl ⟨_, next, (adoptAll_cons_eq_ok_iff ..).2 ⟨first, between, others, adopted, continued, rfl⟩⟩
      · refine .inr ⟨?_, ?_⟩
        · rw [adoptAll_cons, adopted]
          simp only [bind, Except.bind, failed]
        · rw [List.length_cons]
          omega
    · refine .inr ⟨?_, ?_⟩
      · rw [adoptAll_cons, failed]
        rfl
      · rw [List.length_cons]
        omega

end Entries

/-! ## Both passes -/

section Passes

variable {record : Worker} {report : SlotReport} {applied : Bool}

/-- Of an allocation that it does not name, a report removes the slot or leaves it. -/
theorem slot?_report_of_unnamed (indexed : cluster.inventory.Indexed)
    (reported : cluster.report worker report = .ok (applied, next)) {allocation : AllocationId}
    (unnamed : ¬report.Names allocation) :
    next.slot? allocation = (cluster.slot? allocation).filter fun slot => ¬Releases worker report slot := by
  rcases report_eq_ok reported with ⟨unknown, -, rfl⟩ | ⟨record, kept, registered, freed, adopted⟩
  · exact (filter_releases_of_unknown indexed unknown report allocation).symm
  · obtain ⟨indexed', left⟩ := slot?_release indexed registered freed
    rw [slot?_adoptAll_of_unnamed indexed' adopted fun entry inside same => unnamed ⟨entry, inside, same⟩, left]

/-- The first pass leaves what the slots of the worker take or less. -/
private theorem load_freeAll_le (indexed : cluster.inventory.Indexed) {allocations : List AllocationId}
    (freed : cluster.freeAll allocations = .ok next) (id : WorkerId) (d : Nat) :
    next.inventory.load id d ≤ cluster.inventory.load id d := by
  rw [Inventory.load, Slot.takenOn_perm (slots_freeAll indexed freed)]
  exact Slot.takenOn_filter_le _

theorem Sound.total?_freeAll (sound : cluster.Sound) (registered : cluster.inventory.worker? worker = some record)
    {allocations : List AllocationId} (freed : cluster.freeAll allocations = .ok next) :
    next.inventory.total? worker = some record.total := by
  rw [sound.inventory.total?_leads (leads_freeAll freed), Inventory.total?_of_registered registered]

/-- The first pass succeeds while what the slots of the worker take stays small. -/
theorem Sound.exists_release (sound : cluster.Sound) (registered : cluster.inventory.worker? worker = some record)
    (report : SlotReport) (small : ∀ d, cluster.inventory.load worker d < Numeral.bound64) :
    ∃ kept, cluster.freeAll (released record report) = .ok kept := by
  refine sound.exists_freeAll _ fun allocation inside slot found d => ?_
  obtain ⟨_, found', here, -⟩ := (mem_released sound.inventory.indexed registered report allocation).1 inside
  rw [Option.some.inj (found.symm.trans found'), here]
  exact small d

/-- What a report and the slots of its worker come to stays small, whatever the report adopts. -/
theorem Sound.load_report_lt (sound : cluster.Sound) (registered : cluster.inventory.worker? worker = some record)
    (small : Profile.Addable (record.profiles ++ report.occupied.map (·.1.profile)))
    (reported : cluster.report worker report = .ok (applied, next)) (d : Nat) :
    next.inventory.load worker d < Numeral.bound64 := by
  rw [report_of_registered registered, Checked.bind_eq_ok_iff] at reported
  obtain ⟨kept, freed, adopted⟩ := reported
  have left := load_freeAll_le sound.inventory.indexed freed worker d
  have grown := (sound.freeAll freed).load_adoptAll_le (sound.total?_freeAll registered freed) adopted d
  have small := sound.inventory.indexed.load_lt registered small d
  omega

/-- A report of a registered worker is applied, unless a job would have more slots than its count holds. -/
theorem Sound.report_or_overflow (sound : cluster.Sound) (registered : cluster.inventory.worker? worker = some record)
    (small : Profile.Addable (record.profiles ++ report.occupied.map (·.1.profile))) :
    (∃ applied next, cluster.report worker report = .ok (applied, next)) ∨
    (cluster.report worker report = .error .additionOverflow ∧
      Numeral.bound32 ≤ cluster.inventory.slotCount + report.occupied.length) := by
  have indexed := sound.inventory.indexed
  have small := indexed.load_lt registered small
  obtain ⟨kept, freed⟩ := sound.exists_release registered report fun d => by
    have := small d
    omega
  rw [report_of_registered registered, freed]
  rcases (sound.freeAll freed).adoptAll_cases (sound.total?_freeAll registered freed) report.occupied (fun d => by
      have := small d
      have := load_freeAll_le indexed freed worker d
      omega) with succeeds | ⟨failed, many⟩
  · exact .inl succeeds
  · refine .inr ⟨failed, Nat.le_trans many (Nat.add_le_add_right ?_ _)⟩
    rw [indexed.slotCount_eq, (slots_freeAll indexed freed).length_eq]
    exact List.length_filter_le ..

/-- A report adds no more slots than it has entries. -/
theorem slotCount_report_le (indexed : cluster.inventory.Indexed)
    (reported : cluster.report worker report = .ok (applied, next)) :
    next.inventory.slotCount ≤ cluster.inventory.slotCount + report.occupied.length := by
  rcases report_eq_ok reported with ⟨-, -, rfl⟩ | ⟨record, kept, registered, freed, adopted⟩
  · exact Nat.le_add_right ..
  · obtain ⟨indexed', -⟩ := slot?_freeAll indexed freed
    have grown := length_adoptAll indexed' adopted
    have left : kept.inventory.slots.length ≤ cluster.inventory.slots.length :=
      (slots_freeAll indexed freed).length_eq ▸ List.length_filter_le ..
    rw [indexed.slotCount_eq, (slot?_report indexed reported).1.slotCount_eq]
    omega

end Passes

end Cluster

end SlotControl
