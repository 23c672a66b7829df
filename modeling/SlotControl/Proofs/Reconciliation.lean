import SlotControl.Proofs.Adoption

/-!
What a report makes of a state, slot by slot and worker by worker. The worker keeps what the report names
for its own job and what is pending and not named; slots on other workers stay; every other reported slot
is adopted if it fits beside these and beside those adopted before it. Main statement: `report_reconciles`.
-/

namespace SlotControl

/-! ## What a report names -/

namespace SlotReport

variable {report : SlotReport}

/-- A report keeps a slot that it names for its own job, and one that it does not name as long as that is
    pending. -/
def Keeps (report : SlotReport) (slot : Slot) : Prop :=
  (∃ entry ∈ report.occupied, entry.2 = ⟨slot.job, slot.allocation⟩) ∨
    slot.state = .pending ∧ ¬report.Names slot.allocation

instance (report : SlotReport) (slot : Slot) : Decidable (report.Keeps slot) :=
  inferInstanceAs (Decidable (_ ∨ _))

/-- No allocation is named twice. -/
def Distinct (report : SlotReport) : Prop := (report.occupied.map (·.2.allocation)).Nodup

instance (report : SlotReport) : Decidable report.Distinct := inferInstanceAs (Decidable (List.Nodup _))

theorem Distinct.jobs_get?_eq_some_iff (distinct : report.Distinct) (allocation : AllocationId) (job : JobId) :
    report.jobs.get? allocation = some job ↔ ∃ entry ∈ report.occupied, entry.2 = ⟨job, allocation⟩ := by
  have keys : ((report.occupied.map fun entry => (entry.2.allocation, entry.2.job)).map (·.1)).Nodup := by
    rwa [List.map_map]
  rw [jobs, SortedMap.get?_ofList_eq_some_iff keys, List.mem_map]
  refine exists_congr fun entry => and_congr_right fun _ => ?_
  cases entry.2
  simp [and_comm]

theorem Distinct.supersedes_iff (distinct : report.Distinct) (slot : Slot) :
    Cluster.supersedes report.jobs slot = true ↔ ¬report.Keeps slot := by
  have own := distinct.jobs_get?_eq_some_iff slot.allocation slot.job
  rw [Cluster.supersedes, Keeps, ← own]
  cases named : report.jobs.get? slot.allocation with
  | some job =>
    obtain ⟨entry, inside, assigned⟩ := (distinct.jobs_get?_eq_some_iff ..).1 named
    have here : report.Names slot.allocation := ⟨entry, inside, by rw [assigned]⟩
    simp [here]
  | none =>
    have unnamed : ¬report.Names slot.allocation := by
      rintro ⟨entry, inside, same⟩
      rw [(distinct.jobs_get?_eq_some_iff slot.allocation entry.2.job).2 ⟨entry, inside, by rw [← same]⟩] at named
      cases named
    cases state : slot.state <;> simp [unnamed]

end SlotReport

namespace Cluster

section

variable {Seed : Type} [Traversal Seed]
variable {cluster next : Cluster} {worker : WorkerId} {total : Profile} {report : SlotReport}
variable {entries : List (SlotStatus × SlotAssignment)} {applied : Bool}

/-! ## The entries that find room -/

/-- The entries that find room in a capacity one after the other, each beside what was taken before and the
    entries chosen before it. -/
def chosen (total : Profile) :
    (taken : Nat → Nat) → List (SlotStatus × SlotAssignment) → List (SlotStatus × SlotAssignment)
  | _, [] => []
  | taken, entry :: rest =>
    if total.RoomBeside taken entry.1.profile then
      entry :: chosen total (fun d => taken d + entry.1.profile.parts d) rest
    else chosen total taken rest

theorem chosen_sublist (taken : Nat → Nat) : (chosen total taken entries).Sublist entries := by
  induction entries generalizing taken with
  | nil => exact .slnil
  | cons entry rest ih =>
    rw [chosen]
    split
    · exact (ih _).cons_cons entry
    · exact (ih _).cons entry

/-- The entries whose allocation has no slot. -/
def unrecorded (cluster : Cluster) (entries : List (SlotStatus × SlotAssignment)) :
    List (SlotStatus × SlotAssignment) :=
  entries.filter fun entry => cluster.slot? entry.2.allocation = none

/-- The first entry is chosen if it has no slot and there is room; the others are chosen in the state that the
    first one leaves. -/
private theorem Sound.chosen_cons (sound : cluster.Sound) (offered : cluster.inventory.total? worker = some total)
    {entry : SlotStatus × SlotAssignment} {rest : List (SlotStatus × SlotAssignment)}
    (apart : ∀ other ∈ rest, other.2.allocation ≠ entry.2.allocation)
    (adopted : cluster.adopt worker entry.1 entry.2 = .ok (applied, next)) :
    chosen total (cluster.inventory.load worker) (cluster.unrecorded (entry :: rest)) =
      if cluster.slot? entry.2.allocation = none ∧
          total.RoomBeside (cluster.inventory.load worker) entry.1.profile then
        entry :: chosen total (next.inventory.load worker) (next.unrecorded rest)
      else chosen total (next.inventory.load worker) (next.unrecorded rest) := by
  obtain ⟨slots, -⟩ := sound.slot?_adopt offered adopted
  have later : next.unrecorded rest = cluster.unrecorded rest :=
    List.filter_congr fun other inside => by rw [slots, if_neg (apart other inside)]
  have load := funext (sound.load_adopt offered adopted)
  rw [later, load, unrecorded, unrecorded, List.filter_cons]
  by_cases absent : cluster.slot? entry.2.allocation = none
  · by_cases room : total.RoomBeside (cluster.inventory.load worker) entry.1.profile
    · simp [absent, room, chosen]
    · simp [absent, room, chosen]
  · simp [absent]

/-- The second pass of a report aligns the slots of its entries, of which those without a slot are adopted in
    their order as far as they find room. It applies all of them if their slots are all on the worker then. -/
theorem Sound.slot?_adoptAll (sound : cluster.Sound) (offered : cluster.inventory.total? worker = some total)
    (distinct : (entries.map (·.2.allocation)).Nodup)
    (adopted : cluster.adoptAll worker entries = .ok (applied, next)) :
    (∀ allocation, (∀ entry ∈ entries, entry.2.allocation ≠ allocation) →
      next.slot? allocation = cluster.slot? allocation) ∧
    (∀ entry ∈ entries, next.slot? entry.2.allocation = aligned worker entry
      (entry ∈ chosen total (cluster.inventory.load worker) (cluster.unrecorded entries))
      (cluster.slot? entry.2.allocation)) ∧
    (applied = true ↔ ∀ entry ∈ entries, (next.slot? entry.2.allocation).any (·.worker = worker) = true) := by
  induction entries generalizing cluster applied with
  | nil =>
    obtain ⟨rfl, rfl⟩ := Prod.mk.inj (Except.ok.inj adopted)
    exact ⟨fun _ _ => rfl, nofun, by simp⟩
  | cons entry rest ih =>
    obtain ⟨new, distinct⟩ := List.nodup_cons.1 distinct
    have apart : ∀ other ∈ rest, other.2.allocation ≠ entry.2.allocation := fun other inside same =>
      new (List.mem_map.2 ⟨other, inside, same⟩)
    obtain ⟨first, between, others, adopts, continued, rfl⟩ := (adoptAll_cons_eq_ok_iff ..).1 adopted
    have offered' : between.inventory.total? worker = some total := by
      rw [sound.inventory.total?_leads (leads_adopt adopts), offered]
    obtain ⟨slots, applies⟩ := sound.slot?_adopt offered adopts
    obtain ⟨unnamed, named, all⟩ := ih (sound.adopt adopts) offered' distinct continued
    have chooses := sound.chosen_cons offered apart adopts
    have untouched : next.slot? entry.2.allocation = between.slot? entry.2.allocation := unnamed _ apart
    -- Chosen entries are from the list, so that the first one is not chosen among the others.
    have single : entry ∉ chosen total (between.inventory.load worker) (between.unrecorded rest) := fun inside =>
      apart entry (List.mem_of_mem_filter ((chosen_sublist _).subset inside)) rfl
    refine ⟨fun allocation absent => ?_, fun other inside => ?_, ?_⟩
    · obtain ⟨here, there⟩ := List.forall_mem_cons.1 absent
      rw [unnamed allocation there, slots, if_neg (Ne.symm here)]
    · rw [chooses]
      rcases List.mem_cons.1 inside with rfl | later
      · rw [untouched, slots, if_pos rfl]
        refine aligned_congr fun absent => ?_
        split
        · next fits => simp [fits.2]
        · next full => simp [single, show ¬total.RoomBeside _ _ from fun room => full ⟨absent, room⟩]
      · rw [named other later, slots, if_neg (apart other later)]
        refine aligned_congr fun _ => ?_
        have different : other ≠ entry := fun same => apart other later (by rw [same])
        split
        · simp [different]
        · rfl
    · rw [Bool.and_eq_true, all, applies, List.forall_mem_cons, untouched]

/-! ## The whole report -/

/-- The slots of a worker that its report keeps. -/
def kept (cluster : Cluster) (worker : WorkerId) (report : SlotReport) : List Slot :=
  cluster.inventory.slots.filter fun slot => slot.worker = worker ∧ report.Keeps slot

/-- The entries of a report that have no slot, but for slots of the worker that the report does not keep. -/
def newcomers (cluster : Cluster) (worker : WorkerId) (report : SlotReport) : List (SlotStatus × SlotAssignment) :=
  report.occupied.filter fun entry =>
    (cluster.slot? entry.2.allocation).all fun slot => slot.worker = worker ∧ ¬report.Keeps slot

/-- A report of a worker with a given total was applied to a state. -/
structure Reconciled (before : Cluster) (worker : WorkerId) (total : Profile) (report : SlotReport) (applied : Bool)
    (after : Cluster) : Prop where
  /-- A slot that is named for its own job takes the reported place. -/
  placed : ∀ entry ∈ report.occupied, ∀ slot, before.slot? entry.2.allocation = some slot → slot.worker = worker →
    slot.job = entry.2.job →
    after.slot? entry.2.allocation = some { slot with place := ⟨worker, entry.1.place.index⟩ }
  /-- A slot of another worker stays, named or not. -/
  elsewhere : ∀ allocation slot, before.slot? allocation = some slot → slot.worker ≠ worker →
    after.slot? allocation = some slot
  /-- The other entries are adopted in their order as far as they fit beside the slots that are kept, and the
      slots that they replace are gone. -/
  adopted : ∀ entry ∈ before.newcomers worker report, after.slot? entry.2.allocation =
    if entry ∈ chosen total (Profile.partsOf ((before.kept worker report).map (·.profile)))
        (before.newcomers worker report) then some (proposed worker entry)
    else none
  /-- Of the slots that are not named, the worker loses those that were confirmed. -/
  unnamed : ∀ allocation, ¬report.Names allocation →
    after.slot? allocation = (before.slot? allocation).filter fun slot =>
      slot.worker ≠ worker ∨ slot.state = .pending
  /-- The report is fully applied if every slot that it names is on the worker. -/
  applied_iff : applied = true ↔
    ∀ entry ∈ report.occupied, (after.slot? entry.2.allocation).any (·.worker = worker) = true
  /-- The other workers are as before, with all that is recorded of them. -/
  others : ∀ id, id ≠ worker → after.inventory.worker? id = before.inventory.worker? id
  /-- The worker stays registered on its terms. -/
  terms : (after.inventory.worker? worker).map Worker.terms = (before.inventory.worker? worker).map Worker.terms
  /-- Capacities, owners and the accounts of the jobs agree with the slots. -/
  sound : after.Sound

/-- What a report leaves of the slots of another worker. -/
theorem Reported.filter_eq {before after : Option Slot} (reported : Reported worker before after) {id : WorkerId}
    (apart : id ≠ worker) : after.filter (·.worker = id) = before.filter (·.worker = id) := by
  cases reported with
  | same => rfl
  | moved slot place here there =>
    have gone : Slot.worker { slot with place } ≠ id := fun same => apart (same.symm.trans there)
    have gone' : slot.worker ≠ id := fun same => apart (same.symm.trans here)
    simp [Option.filter, gone, gone']
  | adopted slot here confirmed =>
    have gone : slot.worker ≠ id := fun same => apart (same.symm.trans here)
    simp [Option.filter, gone]

/-- A report leaves the slots of other workers. -/
theorem filter_slot?_report (indexed : cluster.inventory.Indexed)
    (reported : cluster.report worker report = .ok (applied, next)) {id : WorkerId} (apart : id ≠ worker)
    (allocation : AllocationId) :
    (next.slot? allocation).filter (·.worker = id) = (cluster.slot? allocation).filter (·.worker = id) := by
  rw [((slot?_report indexed reported).2 allocation).filter_eq apart, Option.filter_filter]
  refine congrArg (Option.filter · _) (funext fun slot => ?_)
  by_cases here : slot.worker = id
  · simp [here, Releases, apart]
  · simp [here]

section Passes

variable {record : Worker}

/-- The first pass of a report leaves the slots of other workers and those that the report keeps. -/
private theorem slot?_release_of_distinct (indexed : cluster.inventory.Indexed) (distinct : report.Distinct)
    (registered : cluster.inventory.worker? worker = some record)
    (freed : cluster.freeAll (released record report) = .ok next) : next.inventory.Indexed ∧
      ∀ allocation, next.slot? allocation =
        (cluster.slot? allocation).filter fun slot => slot.worker = worker → report.Keeps slot := by
  obtain ⟨indexed', left⟩ := slot?_release indexed registered freed
  refine ⟨indexed', fun allocation => (left allocation).trans (congrArg (Option.filter · _) (funext fun slot => ?_))⟩
  simp [Releases, distinct.supersedes_iff]

/-- What the slots that are left take of the worker is what those take that the report keeps. -/
private theorem load_release (indexed : cluster.inventory.Indexed) (distinct : report.Distinct)
    (registered : cluster.inventory.worker? worker = some record)
    (freed : cluster.freeAll (released record report) = .ok next) :
    next.inventory.load worker = Profile.partsOf ((cluster.kept worker report).map (·.profile)) := by
  obtain ⟨indexed', left⟩ := slot?_release_of_distinct indexed distinct registered freed
  have slots := (indexed.slots_filter indexed' left).filter (·.worker = worker)
  have keeps : ∀ slot : Slot, (decide (slot.worker = worker) && decide (slot.worker = worker → report.Keeps slot)) =
      decide (slot.worker = worker ∧ report.Keeps slot) := by
    intro slot
    by_cases here : slot.worker = worker <;> simp [here]
  rw [List.filter_filter, List.filter_congr fun slot _ => keeps slot] at slots
  exact funext (Profile.partsOf_perm (slots.map _))

/-- After the first pass the newcomers are the entries without a slot. -/
private theorem unrecorded_release (indexed : cluster.inventory.Indexed) (distinct : report.Distinct)
    (registered : cluster.inventory.worker? worker = some record)
    (freed : cluster.freeAll (released record report) = .ok next) :
    next.unrecorded report.occupied = cluster.newcomers worker report := by
  obtain ⟨-, left⟩ := slot?_release_of_distinct indexed distinct registered freed
  refine List.filter_congr fun entry _ => ?_
  rw [left]
  cases cluster.slot? entry.2.allocation <;> simp [Option.filter]

/-- Both passes of a report together reconcile the state with it. -/
private theorem Sound.reconciled (sound : cluster.Sound) (distinct : report.Distinct)
    (registered : cluster.inventory.worker? worker = some record)
    (freed : cluster.freeAll (released record report) = .ok next) {after : Cluster}
    (adopted : next.adoptAll worker report.occupied = .ok (applied, after)) :
    Reconciled cluster worker record.total report applied after := by
  have indexed := sound.inventory.indexed
  have reported : cluster.report worker report = .ok (applied, after) := by
    rw [report_of_registered registered, freed]
    exact adopted
  obtain ⟨-, left⟩ := slot?_release_of_distinct indexed distinct registered freed
  have offered := sound.total?_freeAll registered freed
  obtain ⟨unnamed, named, all⟩ := (sound.freeAll freed).slot?_adoptAll offered distinct adopted
  rw [unrecorded_release indexed distinct registered freed, load_release indexed distinct registered freed] at named
  have sound' := sound.report reported
  have terms := sound.inventory.terms_leads (leads_report reported)
  have stays : ∀ {allocation slot}, cluster.slot? allocation = some slot →
      (slot.worker = worker → report.Keeps slot) → next.slot? allocation = some slot := by
    intro allocation slot found keeps
    simpa [left, found, Option.filter] using keeps
  constructor
  case applied_iff => exact all
  case terms => exact terms worker
  case sound => exact sound'
  case placed =>
    intro entry inside slot found here own
    have keeps : report.Keeps slot := .inl ⟨entry, inside, by rw [own, indexed.allocation_eq found]⟩
    rw [named entry inside, stays found fun _ => keeps, aligned, if_pos here]
  case elsewhere =>
    intro allocation slot found apart
    have stays := stays found fun here => absurd here apart
    by_cases names : report.Names allocation
    · obtain ⟨entry, inside, rfl⟩ := names
      rw [named entry inside, stays, aligned, if_neg apart]
    · rw [unnamed allocation fun entry inside same => names ⟨entry, inside, same⟩, stays]
  case adopted =>
    intro entry new
    have absent : next.slot? entry.2.allocation = none := by
      rw [← unrecorded_release indexed distinct registered freed, unrecorded, List.mem_filter] at new
      exact of_decide_eq_true new.2
    rw [named entry (List.mem_of_mem_filter new), absent]
    rfl
  case unnamed =>
    intro allocation nobody
    rw [unnamed allocation fun entry inside same => nobody ⟨entry, inside, same⟩, left]
    cases found : cluster.slot? allocation with
    | none => rfl
    | some slot =>
      have nobody : ¬report.Names slot.allocation := indexed.allocation_eq found ▸ nobody
      have keeps : report.Keeps slot ↔ slot.state = .pending := by
        rw [SlotReport.Keeps, and_iff_left nobody, or_iff_right]
        rintro ⟨entry, inside, same⟩
        exact nobody ⟨entry, inside, by rw [same]⟩
      simp [Option.filter, keeps, imp_iff_not_or]
  case others =>
    intro id apart
    exact sound'.inventory.worker?_congr sound.inventory (filter_slot?_report indexed reported apart) (terms id)

/-- A report of a registered worker is applied and reconciles the state with it, unless a job would have more
    slots than its count holds. -/
theorem Sound.report_cases (sound : cluster.Sound) (distinct : report.Distinct)
    (registered : cluster.inventory.worker? worker = some record)
    (small : Profile.Addable (record.profiles ++ report.occupied.map (·.1.profile))) :
    (∃ applied next, cluster.report worker report = .ok (applied, next) ∧
      Reconciled cluster worker record.total report applied next) ∨
    (cluster.report worker report = .error .additionOverflow ∧
      Numeral.bound32 ≤ cluster.inventory.slotCount + report.occupied.length) := by
  rcases sound.report_or_overflow registered small with ⟨applied, next, reported⟩ | overflows
  · have passes := reported
    rw [report_of_registered registered, Checked.bind_eq_ok_iff] at passes
    obtain ⟨kept, freed, adopted⟩ := passes
    exact .inl ⟨applied, next, reported, sound.reconciled distinct registered freed adopted⟩
  · exact .inr overflows

end Passes

/-- What a report does to a state that a run has reached, where it names no allocation twice and what it
    reports and the slots of its worker come to no more than 64 bits. One of an unknown worker changes nothing;
    one of a registered worker reconciles the state with it, unless there are so many slots that a count of
    32 bits overflows. -/
theorem report_reconciles (worker : WorkerId) {history : List Event} (reached : empty.run history = .ok cluster)
    (trimmed : ∀ worker total defaultSlot, .register worker total defaultSlot ∈ history → total.Trimmed)
    (distinct : report.Distinct) (small : ∀ record, cluster.inventory.worker? worker = some record →
      Profile.Addable (record.profiles ++ report.occupied.map (·.1.profile))) :
    match cluster.inventory.worker? worker with
    | none => cluster.report worker report = .ok (false, cluster)
    | some record =>
      (∃ applied next, cluster.report worker report = .ok (applied, next) ∧
        Reconciled cluster worker record.total report applied next) ∨
      (cluster.report worker report = .error .additionOverflow ∧
        Numeral.bound32 ≤ cluster.inventory.slotCount + report.occupied.length) := by
  cases registered : cluster.inventory.worker? worker with
  | none => exact report_of_unknown registered report
  | some record => exact (sound_empty.run trimmed reached).report_cases distinct registered (small record registered)

end

/-- Two slots of one worker, the second confirmed, and one of another worker. -/
private def mixedHistory : List Event :=
  [.register ⟨1⟩ (.ofUnits 4 0) .any, .register ⟨2⟩ .any .any, .reserve ⟨1⟩ ⟨7⟩ ⟨0⟩ (.ofUnits 2 0),
    .reserve ⟨1⟩ ⟨7⟩ ⟨1⟩ (.ofUnits 2 0), .conclude ⟨1⟩ ⟨7⟩ .success, .reserve ⟨2⟩ ⟨7⟩ ⟨2⟩ .any]

/-- The first slot, the one of the other worker, and two that are unknown. -/
private def mixedReport : SlotReport :=
  ⟨[⟨⟨⟨1⟩, 4⟩, .ofUnits 2 0, some ⟨⟨7⟩, ⟨0⟩⟩⟩, ⟨⟨⟨1⟩, 5⟩, .any, some ⟨⟨7⟩, ⟨2⟩⟩⟩,
    ⟨⟨⟨1⟩, 6⟩, .ofUnits 2 0, some ⟨⟨8⟩, ⟨3⟩⟩⟩, ⟨⟨⟨1⟩, 7⟩, .ofUnits 1 0, some ⟨⟨8⟩, ⟨4⟩⟩⟩]⟩

/-- The second slot is not named and makes room for one of the unknown ones, but not for the other. -/
theorem report_reconciles_mixed : ∃ cluster next, empty.run mixedHistory = .ok cluster ∧
    cluster.report ⟨1⟩ mixedReport = .ok (false, next) ∧
    Reconciled cluster ⟨1⟩ (.ofUnits 4 0) mixedReport false next := by
  obtain ⟨cluster, reached⟩ := Checked.isOk_iff.1 (show (empty.run mixedHistory).isOk = true from rfl)
  have worker : (empty.run mixedHistory).map (fun cluster =>
      (cluster.inventory.worker? ⟨1⟩).map fun record => (record.total, record.profiles)) =
      .ok (some (.ofUnits 4 0, [.ofUnits 2 0, .ofUnits 2 0])) := rfl
  have answer : (empty.run mixedHistory >>= fun cluster => cluster.report ⟨1⟩ mixedReport).map (·.1) = .ok false :=
    rfl
  rw [reached] at worker answer
  obtain ⟨record, registered, known⟩ := Option.map_eq_some_iff.1 (Except.ok.inj worker)
  obtain ⟨total, profiles⟩ := Prod.mk.inj known
  have trimmed := Event.trimmed_of_totals (show ∀ total ∈ mixedHistory.filterMap Event.total?, _ by decide)
  have small : ∀ record, cluster.inventory.worker? ⟨1⟩ = some record →
      Profile.Addable (record.profiles ++ mixedReport.occupied.map (·.1.profile)) := by
    intro other registered'
    rw [← Option.some.inj (registered.symm.trans registered'), profiles]
    rintro (_ | d)
    · decide
    · exact Nat.two_pow_pos 64
  have reconciles := report_reconciles ⟨1⟩ reached trimmed (show mixedReport.Distinct by decide) small
  rw [registered] at reconciles
  rcases reconciles with ⟨applied, next, reported, reconciled⟩ | ⟨failed, -⟩
  · have answer : (cluster.report ⟨1⟩ mixedReport).map (·.1) = .ok false := answer
    rw [reported] at answer
    obtain rfl : applied = false := Except.ok.inj answer
    exact ⟨cluster, next, reached, reported, total ▸ reconciled⟩
  · have answer : (cluster.report ⟨1⟩ mixedReport).map (·.1) = .ok false := answer
    rw [failed] at answer
    cases answer

end Cluster

end SlotControl
