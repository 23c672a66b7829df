import SlotControl.Proofs.Containment
import SlotControl.Proofs.Reconciliation

/-!
Reports in another order. Where all entries of a report were applied, the state that they lead to has all that any of
them makes the state adopt, so that every entry finds room whatever was adopted before it. Main statement:
`report_rearranged`.
-/

namespace SlotControl

namespace SlotReport

variable {report other : SlotReport}

/-- The occupied slots of a report stand in another order. Free ones may come anywhere or be left out. -/
def Rearranges (other report : SlotReport) : Prop :=
  (other.slots.filter (·.assignment.isSome)).Perm (report.slots.filter (·.assignment.isSome))

private theorem occupied_eq (report : SlotReport) : report.occupied =
    (report.slots.filter (·.assignment.isSome)).filterMap fun status => status.assignment.map (status, ·) := by
  rw [List.filterMap_filter]
  refine List.filterMap_congr fun status _ => ?_
  cases status.assignment <;> rfl

theorem Rearranges.occupied (rearranged : other.Rearranges report) : other.occupied.Perm report.occupied := by
  rw [occupied_eq, occupied_eq]
  exact rearranged.filterMap _

theorem Rearranges.distinct (rearranged : other.Rearranges report) (distinct : report.Distinct) : other.Distinct := by
  rw [Distinct] at *
  exact (rearranged.occupied.map _).nodup_iff.2 distinct

/-- Where no allocation is named twice, the order does not decide about the jobs. -/
theorem Rearranges.jobs_eq (rearranged : other.Rearranges report) (distinct : report.Distinct) :
    other.jobs = report.jobs := by
  refine SortedMap.ext fun allocation => Option.ext fun job => ?_
  rw [(rearranged.distinct distinct).jobs_get?_eq_some_iff, distinct.jobs_get?_eq_some_iff]
  exact exists_congr fun entry => and_congr_left fun _ => rearranged.occupied.mem_iff

end SlotReport

namespace Cluster

section

variable {Seed : Type} [Traversal Seed]
variable {cluster last next : Cluster} {worker : WorkerId} {total : Profile} {report other : SlotReport}
variable {entries others : List (SlotStatus × SlotAssignment)} {applied applied' : Bool}

/-! ## One pass in another order -/

/-- An entry that has a slot after the pass has been aligned, with room for it. -/
private theorem Sound.aligned_of_present (sound : cluster.Sound)
    (offered : cluster.inventory.total? worker = some total) (distinct : (entries.map (·.2.allocation)).Nodup)
    (adopted : cluster.adoptAll worker entries = .ok (applied, next)) {entry : SlotStatus × SlotAssignment}
    (inside : entry ∈ entries) (present : next.slot? entry.2.allocation ≠ none) :
    next.slot? entry.2.allocation = aligned worker entry True (cluster.slot? entry.2.allocation) := by
  obtain ⟨-, named, -⟩ := sound.slot?_adoptAll offered distinct adopted
  have named := named entry inside
  rw [named]
  refine aligned_congr fun absent => ⟨fun _ => trivial, fun _ => ?_⟩
  by_contra full
  rw [named, absent, aligned, if_neg full] at present
  exact present rfl

/-- Passes over the same entries that leave a slot for every one of them end in the same state. -/
private theorem Sound.adoptAll_unique (sound : cluster.Sound) (offered : cluster.inventory.total? worker = some total)
    (distinct : (entries.map (·.2.allocation)).Nodup) (perm : others.Perm entries)
    (adopted : cluster.adoptAll worker entries = .ok (applied, next))
    (present : ∀ entry ∈ entries, next.slot? entry.2.allocation ≠ none)
    (adopted' : cluster.adoptAll worker others = .ok (applied', last))
    (present' : ∀ entry ∈ others, last.slot? entry.2.allocation ≠ none) : last = next := by
  have distinct' : (others.map (·.2.allocation)).Nodup := (perm.map _).nodup_iff.2 distinct
  have indexed := sound.inventory.indexed
  have slots : ∀ allocation, last.slot? allocation = next.slot? allocation := by
    intro allocation
    by_cases named : ∃ entry ∈ entries, entry.2.allocation = allocation
    · obtain ⟨entry, inside, rfl⟩ := named
      have inside' := perm.mem_iff.2 inside
      rw [sound.aligned_of_present offered distinct adopted inside (present entry inside),
        sound.aligned_of_present offered distinct' adopted' inside' (present' entry inside')]
    · have apart : ∀ entry ∈ entries, entry.2.allocation ≠ allocation := fun entry inside same =>
        named ⟨entry, inside, same⟩
      rw [slot?_adoptAll_of_unnamed indexed adopted apart,
        slot?_adoptAll_of_unnamed indexed adopted' fun entry inside => apart entry (perm.mem_iff.1 inside)]
  refine (sound.adoptAll adopted').ext (sound.adoptAll adopted) slots fun id => ?_
  exact ((Within.of_adoptAll sound adopted').terms id).symm.trans ((Within.of_adoptAll sound adopted).terms id)

/-- A pass that applies all entries leads to the same state in every order of them. -/
private theorem Sound.adoptAll_perm (sound : cluster.Sound) (bounded : next.ledger.Bounded)
    (small : ∀ d, next.inventory.load worker d < Numeral.bound64)
    (offered : cluster.inventory.total? worker = some total) (distinct : (entries.map (·.2.allocation)).Nodup)
    (perm : others.Perm entries) (adopted : cluster.adoptAll worker entries = .ok (true, next)) :
    cluster.adoptAll worker others = .ok (true, next) := by
  obtain ⟨-, -, all⟩ := sound.slot?_adoptAll offered distinct adopted
  have within := Within.of_adoptAll sound adopted
  have present : ∀ entry ∈ entries, next.slot? entry.2.allocation ≠ none := by
    intro entry inside gone
    have here := all.1 rfl entry inside
    rw [gone] at here
    cases here
  -- Whatever an entry makes the state adopt in the other order, the pass has adopted in this one.
  have wanted : ∀ entry ∈ others, cluster.slot? entry.2.allocation = none → next.Holds (proposed worker entry) := by
    intro entry inside absent
    have inside := perm.mem_iff.1 inside
    have found := sound.aligned_of_present offered distinct adopted inside (present entry inside)
    rw [absent] at found
    exact holds_of_found within.sound'.inventory.indexed found
  obtain ⟨applied, last, adopted', present'⟩ := within.exists_adoptAll bounded small wanted
  obtain rfl := sound.adoptAll_unique offered distinct perm adopted present adopted' present'
  obtain ⟨-, -, all'⟩ := sound.slot?_adoptAll offered ((perm.map _).nodup_iff.2 distinct) adopted'
  rw [adopted', all'.2 fun entry inside => all.1 rfl entry (perm.mem_iff.1 inside)]

/-! ## The report -/

/-- A report that was fully applied to a state that a run has reached is fully applied in every order of its entries,
    with free ones or without, and leads to the same state, where what it reports and the slots of its worker come to
    no more than 64 bits and it names no allocation twice. -/
theorem report_rearranged (worker : WorkerId) {history : List Event} (reached : empty.run history = .ok cluster)
    (trimmed : ∀ worker total defaultSlot, .register worker total defaultSlot ∈ history → total.Trimmed)
    (distinct : report.Distinct) (small : ∀ record, cluster.inventory.worker? worker = some record →
      Profile.Addable (record.profiles ++ report.occupied.map (·.1.profile)))
    (reported : cluster.report worker report = .ok (true, next)) (rearranged : other.Rearranges report) :
    cluster.report worker other = .ok (true, next) := by
  have sound := sound_empty.run trimmed reached
  have bounded := balanced_empty.bounded_run Ledger.bounded_empty reached
  rcases report_eq_ok reported with ⟨-, refused, -⟩ | ⟨record, kept, registered, freed, adopted⟩
  · cases refused
  · have load := sound.load_report_lt registered (small record registered) reported
    have same : released record other = released record report := by
      rw [released, released, rearranged.jobs_eq distinct]
    rw [report_of_registered registered, same, freed]
    exact (sound.freeAll freed).adoptAll_perm (sound.balanced.bounded_report bounded reported) load
      (sound.total?_freeAll registered freed) distinct rearranged.occupied adopted

end

/-- A confirmed slot of the worker, and a pending one. -/
private def rearrangedHistory : List Event :=
  [.register ⟨1⟩ (.ofUnits 4 0) .any, .reserve ⟨1⟩ ⟨7⟩ ⟨0⟩ (.ofUnits 3 0), .conclude ⟨0⟩ ⟨7⟩ .success,
    .reserve ⟨1⟩ ⟨7⟩ ⟨1⟩ (.ofUnits 1 0)]

/-- The pending slot, two new ones that fill the worker if the confirmed one is released, and a free one. -/
private def orderedReport : SlotReport :=
  ⟨[⟨⟨⟨1⟩, 4⟩, .ofUnits 1 0, some ⟨⟨7⟩, ⟨1⟩⟩⟩, ⟨⟨⟨1⟩, 5⟩, .ofUnits 2 0, none⟩,
    ⟨⟨⟨1⟩, 6⟩, .ofUnits 2 0, some ⟨⟨8⟩, ⟨2⟩⟩⟩, ⟨⟨⟨1⟩, 7⟩, .ofUnits 1 0, some ⟨⟨8⟩, ⟨3⟩⟩⟩]⟩

private def rearrangedReport : SlotReport :=
  ⟨[⟨⟨⟨1⟩, 8⟩, .any, none⟩, ⟨⟨⟨1⟩, 7⟩, .ofUnits 1 0, some ⟨⟨8⟩, ⟨3⟩⟩⟩,
    ⟨⟨⟨1⟩, 6⟩, .ofUnits 2 0, some ⟨⟨8⟩, ⟨2⟩⟩⟩, ⟨⟨⟨1⟩, 4⟩, .ofUnits 1 0, some ⟨⟨7⟩, ⟨1⟩⟩⟩]⟩

theorem report_rearranged_filled : ∃ cluster next, empty.run rearrangedHistory = .ok cluster ∧
    orderedReport.Distinct ∧ cluster.report ⟨1⟩ orderedReport = .ok (true, next) ∧
    rearrangedReport.Rearranges orderedReport ∧ cluster.report ⟨1⟩ rearrangedReport = .ok (true, next) := by
  obtain ⟨cluster, reached⟩ := Checked.isOk_iff.1 (show (empty.run rearrangedHistory).isOk = true from rfl)
  have worker : (empty.run rearrangedHistory).map (fun cluster =>
      (cluster.inventory.worker? ⟨1⟩).map (·.profiles)) = .ok (some [.ofUnits 3 0, .ofUnits 1 0]) := rfl
  have answer : (empty.run rearrangedHistory >>= fun cluster => cluster.report ⟨1⟩ orderedReport).map (·.1) =
      .ok true := rfl
  rw [reached] at worker answer
  obtain ⟨⟨applied, next⟩, reported, rfl⟩ := Checked.map_eq_ok_iff.1 answer
  have reported : cluster.report ⟨1⟩ orderedReport = .ok (true, next) := reported
  have trimmed := Event.trimmed_of_totals (show ∀ total ∈ rearrangedHistory.filterMap Event.total?, _ by decide)
  have distinct : orderedReport.Distinct := by decide
  have small : Profile.Addable ([.ofUnits 3 0, .ofUnits 1 0] ++ orderedReport.occupied.map (·.1.profile)) := by decide
  have rearranged : rearrangedReport.Rearranges orderedReport := by
    unfold SlotReport.Rearranges
    decide
  exact ⟨cluster, next, reached, distinct, reported, rearranged,
    report_rearranged ⟨1⟩ reached trimmed distinct (Inventory.addable_of_profiles (Except.ok.inj worker) small) reported
      rearranged⟩

end Cluster

end SlotControl
