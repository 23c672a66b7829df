import SlotControl.Proofs.Lifecycle

/-!
What the state shows of a report that was fully applied. Every reported allocation is then on the worker. It has
the job of its last entry if its slot was there for that job before, and the job of its first entry if it was
not: the release of slots looks at the last entry for an allocation, and the adoption at the first. Hence
entries that agree about the job of their allocation are reflected, and of two that do not, one is passed over
without a word. Main statement: `fully_applied_reflected`.
-/

namespace SlotControl

/-- The first of some entries for an allocation. -/
def SlotReport.first? (entries : List (SlotStatus × SlotAssignment)) (allocation : AllocationId) :
    Option (SlotStatus × SlotAssignment) :=
  entries.find? (·.2.allocation = allocation)

namespace Cluster

section

variable {Seed : Type} [Traversal Seed]
variable {cluster next : Cluster} {worker : WorkerId} {report : SlotReport} {allocation : AllocationId}
variable {entries : List (SlotStatus × SlotAssignment)}

/-- The state shows what an entry of a worker's report says: the allocation is on the worker, and for that job. -/
def Reflects (cluster : Cluster) (worker : WorkerId) (assignment : SlotAssignment) : Prop :=
  ∃ slot, cluster.slot? assignment.allocation = some slot ∧ slot.worker = worker ∧ slot.job = assignment.job

/-- The allocation has a slot on the worker for the job that its last entry names. -/
def Keeps (cluster : Cluster) (worker : WorkerId) (report : SlotReport) (allocation : AllocationId) : Prop :=
  ∃ slot, cluster.slot? allocation = some slot ∧ slot.worker = worker ∧ report.jobs.get? allocation = some slot.job

/-- If all entries are applied, an allocation that they name is on the worker in the end, for the job that it had
    before or, if it had no slot, for the job of its first entry. -/
theorem adoptAll_applied (indexed : cluster.inventory.Indexed)
    (adopted : cluster.adoptAll worker entries = .ok (true, next)) {entry : SlotStatus × SlotAssignment}
    (first : SlotReport.first? entries allocation = some entry) :
    (∀ slot, cluster.slot? allocation = some slot → slot.worker = worker) ∧
      ∃ slot, next.slot? allocation = some slot ∧ slot.worker = worker ∧
        slot.job = ((cluster.slot? allocation).map Slot.job).getD entry.2.job := by
  induction entries generalizing cluster with
  | nil => cases first
  | cons head rest ih =>
    obtain ⟨now, between, later, adopts, continued, both⟩ := (adoptAll_cons_eq_ok_iff ..).1 adopted
    obtain ⟨rfl, rfl⟩ := Bool.and_eq_true_iff.1 both.symm
    have adoption := (adopt_eq_ok_iff ..).1 adopts
    have indexed' := (slot?_adopt indexed adoption).1
    by_cases its : head.2.allocation = allocation
    · subst its
      obtain rfl : head = entry := by simpa [SlotReport.first?] using first
      -- What the first entry has made of the slot, the others may move, but they do not take it away.
      have lasts : ∀ {slot}, between.slot? head.2.allocation = some slot → slot.worker = worker →
          ∃ last, next.slot? head.2.allocation = some last ∧ last.worker = worker ∧ last.job = slot.job := by
        intro slot found here
        have reported := (slot?_adoptAll indexed' continued).2 head.2.allocation
        rw [found] at reported
        obtain ⟨place, there, moved⟩ := reported.some_left
        exact ⟨_, moved, there.trans here, rfl⟩
      cases adoption with
      | @placed slot _ found here moved =>
        obtain ⟨-, slots⟩ := slot?_setPlace indexed found moved
        refine ⟨fun other found' => Option.some.inj (found.symm.trans found') ▸ here, ?_⟩
        have moved := (slots head.2.allocation).trans (if_pos rfl)
        rw [found]
        obtain ⟨last, final, there, its_job⟩ := lasts moved rfl
        exact ⟨last, final, there, its_job⟩
      | occupied absent _ occupies =>
        obtain ⟨-, slots⟩ := slot?_record indexed ((occupy_eq_ok_iff _).1 occupies).1
        have recorded := (slots head.2.allocation).trans (if_pos rfl)
        rw [absent]
        obtain ⟨last, final, there, its_job⟩ := lasts recorded rfl
        exact ⟨nofun, last, final, there, its_job⟩
    · rw [← slot?_adopt_of_ne indexed adopts (Ne.symm its)]
      refine ih indexed' continued ?_
      simpa [SlotReport.first?, its] using first

/-- Of the slot of an allocation that it names, a report that was fully applied keeps the job or sets it. -/
theorem job_of_fully_applied (indexed : cluster.inventory.Indexed)
    (reported : cluster.report worker report = .ok (true, next)) {entry : SlotStatus × SlotAssignment}
    (first : SlotReport.first? report.occupied allocation = some entry) :
    ∃ slot, next.slot? allocation = some slot ∧ slot.worker = worker ∧
      (cluster.Keeps worker report allocation → report.jobs.get? allocation = some slot.job) ∧
      (¬cluster.Keeps worker report allocation → slot.job = entry.2.job) := by
  rcases report_eq_ok reported with ⟨-, unapplied, -⟩ | ⟨record, kept, registered, freed, adopted⟩
  · cases unapplied
  obtain ⟨indexed', left⟩ := slot?_release indexed registered freed
  obtain ⟨here, slot, found, on_worker, its_job⟩ := adoptAll_applied indexed' adopted first
  refine ⟨slot, found, on_worker, ?_, ?_⟩
  · rintro ⟨before, found', on_worker', same⟩
    have stays : ¬Releases worker report before := by
      rintro ⟨-, superseded⟩
      rw [supersedes, indexed.allocation_eq found', same] at superseded
      simp at superseded
    rw [left, found', Option.filter_some, if_pos (by simpa using stays)] at its_job
    rw [same, its_job]
    rfl
  · intro released
    rw [left] at its_job here
    cases found' : cluster.slot? allocation with
    | none => rwa [found'] at its_job
    | some before =>
      -- A slot that is left is on the worker, and its last entry names its job.
      have gone : Releases worker report before := by
        by_contra stays
        have this := here before (by rw [found', Option.filter_some, if_pos (by simpa using stays)])
        refine released ⟨before, found', this, ?_⟩
        have named : report.jobs.get? allocation ≠ none := fun unnamed => by
          refine SlotReport.jobs_get?_eq_none_iff.1 unnamed ⟨entry, List.mem_of_find?_eq_some first, ?_⟩
          simpa using List.find?_some first
        obtain ⟨job, told⟩ := Option.ne_none_iff_exists'.1 named
        by_contra other
        refine stays ⟨this, ?_⟩
        rw [supersedes, indexed.allocation_eq found', told]
        simpa using fun same : job = before.job => other (same ▸ told)
      rw [found', Option.filter_some, if_neg (by simpa using gone)] at its_job
      exact its_job

/-- The job that an entry names is the one that counts for its allocation: the job of the last entry for it, if the
    slot was there for that job before, and the job of the first entry for it otherwise. -/
def Decides (cluster : Cluster) (worker : WorkerId) (report : SlotReport) (assignment : SlotAssignment) : Prop :=
  (cluster.Keeps worker report assignment.allocation → report.jobs.get? assignment.allocation = some assignment.job) ∧
    (¬cluster.Keeps worker report assignment.allocation →
      (SlotReport.first? report.occupied assignment.allocation).map (·.2.job) = some assignment.job)

/-- A report that was fully applied has put every allocation that it names on its worker. It is reflected in exactly
    the entries whose job is the one that counts for their allocation, and so in all entries that agree with the
    others for their allocation. -/
theorem fully_applied_reflected {history : List Event} (reached : empty.run history = .ok cluster)
    (reported : cluster.report worker report = .ok (true, next)) {entry : SlotStatus × SlotAssignment}
    (named : entry ∈ report.occupied) :
    (∃ slot, next.slot? entry.2.allocation = some slot ∧ slot.worker = worker) ∧
      (next.Reflects worker entry.2 ↔ cluster.Decides worker report entry.2) ∧
      ((∀ other ∈ report.occupied, other.2.allocation = entry.2.allocation → other.2.job = entry.2.job) →
        next.Reflects worker entry.2) := by
  have indexed := (balanced_empty.run reached).indexed
  obtain ⟨head, first⟩ : ∃ head, SlotReport.first? report.occupied entry.2.allocation = some head :=
    Option.isSome_iff_exists.1 (List.find?_isSome.2 ⟨entry, named, by simp⟩)
  obtain ⟨slot, found, here, keeps, sets⟩ := job_of_fully_applied indexed reported first
  have reflects : next.Reflects worker entry.2 ↔ slot.job = entry.2.job := by
    constructor
    · rintro ⟨other, found', -, its⟩
      rwa [Option.some.inj (found.symm.trans found')]
    · exact fun its => ⟨slot, found, here, its⟩
  have decides : cluster.Decides worker report entry.2 ↔ slot.job = entry.2.job := by
    rw [Decides, first, Option.map_some, Option.some.injEq]
    by_cases kept : cluster.Keeps worker report entry.2.allocation
    · simp [kept, keeps kept]
    · simp [kept, sets kept]
  refine ⟨⟨slot, found, here⟩, reflects.trans decides.symm, fun agree => reflects.2 ?_⟩
  by_cases kept : cluster.Keeps worker report entry.2.allocation
  · obtain ⟨_, last, _, split, assigned, -⟩ := SlotReport.jobs_get?_eq_some_iff.1 (keeps kept)
    have same := agree last (by simp [split]) (by rw [assigned])
    rwa [assigned] at same
  · rw [sets kept]
    exact agree head (List.mem_of_find?_eq_some first) (by simpa using List.find?_some first)

end

/-- A pending slot under another job first and under its own then, and a new slot. -/
private def disputedReport : SlotReport :=
  ⟨[⟨⟨⟨1⟩, 4⟩, .ofUnits 2 0, some ⟨⟨8⟩, ⟨0⟩⟩⟩, ⟨⟨⟨1⟩, 5⟩, .ofUnits 2 0, some ⟨⟨7⟩, ⟨0⟩⟩⟩,
    ⟨⟨⟨1⟩, 6⟩, .ofUnits 1 0, some ⟨⟨9⟩, ⟨1⟩⟩⟩]⟩

theorem fully_applied_reflected_mixed : ∃ cluster next,
    empty.run [.register ⟨1⟩ (.ofUnits 4 0) .any, .reserve ⟨1⟩ ⟨7⟩ ⟨0⟩ (.ofUnits 2 0)] = .ok cluster ∧
    cluster.report ⟨1⟩ disputedReport = .ok (true, next) ∧ cluster.Decides ⟨1⟩ disputedReport ⟨⟨7⟩, ⟨0⟩⟩ ∧
    next.Reflects ⟨1⟩ ⟨⟨7⟩, ⟨0⟩⟩ ∧ next.Reflects ⟨1⟩ ⟨⟨9⟩, ⟨1⟩⟩ := by
  obtain ⟨cluster, reached⟩ := Checked.isOk_iff.1 (show (empty.run [.register ⟨1⟩ (.ofUnits 4 0) .any,
    .reserve ⟨1⟩ ⟨7⟩ ⟨0⟩ (.ofUnits 2 0)]).isOk = true from rfl)
  have effect : (empty.run [.register ⟨1⟩ (.ofUnits 4 0) .any, .reserve ⟨1⟩ ⟨7⟩ ⟨0⟩ (.ofUnits 2 0)]).map
      (fun cluster => ((cluster.report ⟨1⟩ disputedReport).map (·.1), cluster.slot? ⟨0⟩)) =
      .ok (.ok true, some ⟨⟨0⟩, ⟨7⟩, .dynamic ⟨1⟩, .ofUnits 2 0, .pending⟩) := rfl
  rw [reached] at effect
  obtain ⟨applied, found⟩ := Prod.mk.inj (Except.ok.inj effect)
  obtain ⟨⟨_, next⟩, reported, rfl⟩ := Checked.map_eq_ok_iff.1 applied
  have keeps : cluster.Keeps ⟨1⟩ disputedReport ⟨0⟩ := ⟨_, found, rfl, rfl⟩
  have decides : cluster.Decides ⟨1⟩ disputedReport ⟨⟨7⟩, ⟨0⟩⟩ := ⟨fun _ => rfl, fun released => absurd keeps released⟩
  have second : (⟨⟨⟨1⟩, 5⟩, .ofUnits 2 0, some ⟨⟨7⟩, ⟨0⟩⟩⟩, ⟨⟨7⟩, ⟨0⟩⟩) ∈ disputedReport.occupied := by decide
  have third : (⟨⟨⟨1⟩, 6⟩, .ofUnits 1 0, some ⟨⟨9⟩, ⟨1⟩⟩⟩, ⟨⟨9⟩, ⟨1⟩⟩) ∈ disputedReport.occupied := by decide
  obtain ⟨-, exactly, -⟩ := fully_applied_reflected reached reported second
  obtain ⟨-, -, agreed⟩ := fully_applied_reflected reached reported third
  exact ⟨cluster, next, reached, reported, decides, exactly.2 decides, agreed (by decide)⟩

/-- One allocation under two jobs. -/
private def contradictoryReport : SlotReport :=
  ⟨[⟨⟨⟨1⟩, 0⟩, .ofUnits 1 0, some ⟨⟨7⟩, ⟨0⟩⟩⟩, ⟨⟨⟨1⟩, 1⟩, .ofUnits 1 0, some ⟨⟨8⟩, ⟨0⟩⟩⟩]⟩

/-- A report can count as fully applied although an entry of it is not reflected: of two entries that name one new
    allocation for different jobs, the second one is taken for a change of place. -/
theorem fully_applied_but_contradicted : ∃ cluster next, ∃ entry ∈ contradictoryReport.occupied,
    empty.run [.register ⟨1⟩ (.ofUnits 4 0) .any] = .ok cluster ∧
    cluster.report ⟨1⟩ contradictoryReport = .ok (true, next) ∧ ¬next.Reflects ⟨1⟩ entry.2 := by
  have effect : (empty.run [.register ⟨1⟩ (.ofUnits 4 0) .any] >>= fun cluster =>
      cluster.report ⟨1⟩ contradictoryReport).map (fun result => (result.1, result.2.slot? ⟨0⟩)) =
      .ok (true, some ⟨⟨0⟩, ⟨7⟩, ⟨⟨1⟩, 1⟩, .ofUnits 1 0, .allocated⟩) := rfl
  obtain ⟨⟨_, next⟩, performed, changed⟩ := Checked.map_eq_ok_iff.1 effect
  obtain ⟨cluster, reached, reported⟩ := Checked.bind_eq_ok_iff.1 performed
  obtain ⟨rfl, found⟩ := Prod.mk.inj changed
  refine ⟨cluster, next, (⟨⟨⟨1⟩, 1⟩, .ofUnits 1 0, some ⟨⟨8⟩, ⟨0⟩⟩⟩, ⟨⟨8⟩, ⟨0⟩⟩), by decide, reached, reported, ?_⟩
  rintro ⟨slot, found', -, its⟩
  rw [← Option.some.inj (found.symm.trans found')] at its
  cases its

end Cluster

end SlotControl
