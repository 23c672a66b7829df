import SlotControl.Proofs.Adoption

/-!
The life of a slot. It stays on its worker, and once it is confirmed it is never pending again. Short of a report that
gives it to another job in the last entry for it, it also keeps its job and its profile, only the success of its request
confirms it, and only a report of its worker that names it moves it. Main statement: `slot_advances`.
-/

namespace SlotControl

/-! ## The last entry for a slot -/

namespace SlotReport

variable {report : SlotReport} {slot : Slot}

theorem jobs_get?_eq_some_iff {allocation : AllocationId} {job : JobId} : report.jobs.get? allocation = some job ↔
    ∃ earlier entry later, report.occupied = earlier ++ entry :: later ∧ entry.2 = ⟨job, allocation⟩ ∧
      ∀ other ∈ later, other.2.allocation ≠ allocation := by
  rw [jobs, SortedMap.get?_ofList_eq_some_iff_last]
  constructor
  · rintro ⟨_, _, split, unlisted⟩
    obtain ⟨earlier, others, whole, -, split⟩ := List.map_eq_append_iff.1 split
    obtain ⟨⟨status, assignment⟩, later, rfl, assigned, rfl⟩ := List.map_eq_cons_iff.1 split
    obtain ⟨rfl, rfl⟩ := Prod.mk.inj assigned
    refine ⟨earlier, (status, assignment), later, whole, rfl, fun other inside same => unlisted ?_⟩
    rw [List.map_map]
    exact List.mem_map.2 ⟨other, inside, same⟩
  · rintro ⟨earlier, entry, later, split, assigned, unnamed⟩
    refine ⟨_, _, by rw [split, List.map_append, List.map_cons, assigned], fun listed => ?_⟩
    rw [List.map_map] at listed
    obtain ⟨other, inside, same⟩ := List.mem_map.1 listed
    exact unnamed other inside same

/-- The last entry of the report for the slot names another job. -/
def Reassigns (report : SlotReport) (slot : Slot) : Prop :=
  ∃ earlier entry later, report.occupied = earlier ++ entry :: later ∧ entry.2.allocation = slot.allocation ∧
    entry.2.job ≠ slot.job ∧ ∀ other ∈ later, other.2.allocation ≠ slot.allocation

theorem reassigns_iff : report.Reassigns slot ↔
    ∃ job, report.jobs.get? slot.allocation = some job ∧ job ≠ slot.job := by
  constructor
  · rintro ⟨earlier, entry, later, split, this, other, unnamed⟩
    exact ⟨entry.2.job, jobs_get?_eq_some_iff.2 ⟨earlier, entry, later, split, by rw [← this], unnamed⟩, other⟩
  · rintro ⟨job, told, other⟩
    obtain ⟨earlier, entry, later, split, assigned, unnamed⟩ := jobs_get?_eq_some_iff.1 told
    exact ⟨earlier, entry, later, split, by rw [assigned], by rwa [assigned], unnamed⟩

end SlotReport

/-- A report releases the slots of its worker that it reassigns, and the confirmed ones that it does not name. -/
theorem Cluster.releases_iff {worker : WorkerId} {report : SlotReport} {slot : Slot} :
    Releases worker report slot ↔ slot.worker = worker ∧
      (report.Reassigns slot ∨ ¬report.Names slot.allocation ∧ slot.state = .allocated) := by
  rw [Releases, SlotReport.reassigns_iff, supersedes, ← SlotReport.jobs_get?_eq_none_iff]
  cases report.jobs.get? slot.allocation <;> simp

/-- The operation is a report of the worker of the slot that reassigns it. -/
def Event.Reassigns (event : Event) (slot : Slot) : Prop :=
  ∃ report, event = .report slot.worker report ∧ report.Reassigns slot

/-! ## One operation -/

/-- What an operation may make of a slot that stays recorded. -/
structure Slot.Advances (event : Event) (before after : Slot) : Prop where
  worker : after.worker = before.worker
  confirmed : before.state = .allocated → after.state = .allocated
  /-- A slot that is given to another job is replaced by a confirmed one. -/
  replaced : event.Reassigns before → after.state = .allocated
  job : ¬event.Reassigns before → after.job = before.job
  profile : ¬event.Reassigns before → after.profile = before.profile
  /-- Only the success of its own request confirms a slot. -/
  state : ¬event.Reassigns before → after.state ≠ before.state →
    event = .conclude before.allocation before.job .success
  /-- Only a report of its worker moves a slot, and only one that it names. -/
  place : ¬event.Reassigns before → after.place ≠ before.place →
    ∃ report, event = .report before.worker report ∧ report.Names before.allocation

theorem Slot.advances_refl {event : Event} {slot : Slot} (kept : ¬event.Reassigns slot) : slot.Advances event slot where
  worker := rfl
  confirmed := id
  replaced reassigned := absurd reassigned kept
  job _ := rfl
  profile _ := rfl
  state _ changed := absurd rfl changed
  place _ changed := absurd rfl changed

theorem Slot.advances_of_reassigned {event : Event} {before after : Slot} (reassigned : event.Reassigns before)
    (worker : after.worker = before.worker) (confirmed : after.state = .allocated) : before.Advances event after where
  worker := worker
  confirmed _ := confirmed
  replaced _ := confirmed
  job kept := absurd reassigned kept
  profile kept := absurd reassigned kept
  state kept := absurd reassigned kept
  place kept := absurd reassigned kept

namespace Cluster

section

variable {Seed : Type} [Traversal Seed]
variable {cluster next : Cluster} {allocation : AllocationId} {before after : Slot}

private theorem advances_settled {job : JobId} {outcome : Outcome} (settles : settled job outcome before = some after) :
    before.Advances (.conclude before.allocation job outcome) after := by
  have kept : ¬Event.Reassigns (.conclude before.allocation job outcome) before := nofun
  unfold settled at settles
  split at settles
  · next waits =>
    obtain ⟨rfl, pending⟩ := waits
    cases outcome with
    | failure cause => cases settles
    | success =>
      obtain rfl := Option.some.inj settles
      exact { Slot.advances_refl kept with confirmed := fun _ => rfl, replaced := nofun, state := fun _ _ => rfl }
  · exact Option.some.inj settles ▸ Slot.advances_refl kept

/-- A report replaces a slot by a confirmed one, moves it or leaves it. -/
private theorem advances_report (indexed : cluster.inventory.Indexed) {worker : WorkerId} {report : SlotReport}
    {applied : Bool} (reported : cluster.report worker report = .ok (applied, next))
    (found : cluster.slot? allocation = some before) (found' : next.slot? allocation = some after) :
    before.Advances (.report worker report) after := by
  obtain rfl := indexed.allocation_eq found
  have course := (slot?_report indexed reported).2 before.allocation
  have leaves : ¬report.Names before.allocation → next.slot? before.allocation =
      (cluster.slot? before.allocation).filter fun slot => ¬Releases worker report slot :=
    slot?_report_of_unnamed indexed reported
  rw [found, found'] at course leaves
  by_cases releases : Releases worker report before
  · -- Only a report that names the slot makes it appear again.
    rw [Option.filter_some_neg (by simpa using releases)] at course leaves
    obtain ⟨there, confirmed⟩ := course.none_left
    obtain ⟨here, reassigned | ⟨unnamed, -⟩⟩ := releases_iff.1 releases
    · exact Slot.advances_of_reassigned ⟨report, by rw [here], reassigned⟩ (there.trans here.symm) confirmed
    · cases leaves unnamed
  · have kept : ¬Event.Reassigns (.report worker report) before := by
      rintro ⟨content, same, reassigned⟩
      obtain ⟨rfl, rfl⟩ := Event.report.inj same
      exact releases (releases_iff.2 ⟨rfl, .inl reassigned⟩)
    rw [Option.filter_some_pos (by simpa using releases)] at course leaves
    obtain ⟨place, there, moved⟩ := course.some_left
    obtain rfl := Option.some.inj moved
    refine { Slot.advances_refl kept with worker := there, place := fun _ changed => ?_ }
    have here : before.worker = worker := by
      by_contra apart
      exact changed (congrArg Slot.place (Option.some.inj (course.eq_of_ne apart)))
    refine ⟨report, by rw [here], ?_⟩
    by_contra unnamed
    exact changed (congrArg Slot.place (Option.some.inj (leaves unnamed)))

theorem advances_perform (indexed : cluster.inventory.Indexed) {event : Event} {answer : Answer}
    (performed : cluster.perform event = .ok (answer, next)) (found : cluster.slot? allocation = some before)
    (found' : next.slot? allocation = some after) : before.Advances event after := by
  have unchanged : ¬event.Reassigns before → next.slot? allocation = cluster.slot? allocation →
      before.Advances event after := by
    intro kept same
    rw [found', found] at same
    obtain rfl := Option.some.inj same
    exact Slot.advances_refl kept
  cases performed_of_perform performed with
  | notRegistered | notReserved => exact unchanged nofun rfl
  | registered added => exact unchanged nofun ((slot?_register indexed added).2.2 allocation)
  | workerRemoved removed =>
    have left := (slot?_removeWorker indexed removed).2 allocation
    refine unchanged nofun ?_
    rw [found', found] at left
    rw [found', found, (Option.filter_eq_some_iff.1 left.symm).1]
  | reserved accepted =>
    obtain ⟨-, absent, slots⟩ := slot?_reserve indexed accepted
    refine unchanged nofun ?_
    rw [slots, if_neg]
    rintro rfl
    rw [absent] at found
    cases found
  | freed freed =>
    have left := (slot?_free indexed freed).2 allocation
    rw [found'] at left
    split at left
    · cases left
    · exact unchanged nofun (found'.trans left)
  | @concluded concerned job outcome told _ concluded =>
    have settles := (slot?_conclude indexed concluded).2 allocation
    by_cases its : allocation = concerned
    · rw [if_pos its, found', found] at settles
      obtain rfl : before.allocation = concerned := its ▸ indexed.allocation_eq found
      exact advances_settled settles.symm
    · exact unchanged nofun (settles.trans (if_neg its))
  | reported reported => exact advances_report indexed reported found found'

/-- A slot that is recorded throughout a run stays on its worker, and once it is confirmed it stays so. -/
theorem Balanced.run_one_way (balanced : cluster.Balanced) {events : List Event}
    (performed : cluster.run events = .ok next)
    (recorded : ∀ first between, first <+: events → cluster.run first = .ok between → between.slot? allocation ≠ none)
    (found : cluster.slot? allocation = some before) (found' : next.slot? allocation = some after) :
    after.worker = before.worker ∧ (before.state = .allocated → after.state = .allocated) := by
  induction events generalizing cluster before with
  | nil =>
    obtain rfl := Except.ok.inj performed
    obtain rfl := Option.some.inj (found.symm.trans found')
    exact ⟨rfl, id⟩
  | cons event rest ih =>
    obtain ⟨answer, between, first, continued⟩ := (run_cons_eq_ok_iff event rest).1 performed
    have onward : ∀ {events last}, between.run events = .ok last → cluster.run (event :: events) = .ok last :=
      fun ran => (run_cons_eq_ok_iff ..).2 ⟨answer, between, first, ran⟩
    have present := recorded [event] between (List.prefix_cons_iff.2 (.inr ⟨[], rfl, List.nil_prefix⟩)) (onward rfl)
    obtain ⟨middle, found''⟩ := Option.ne_none_iff_exists'.1 present
    have advances := advances_perform balanced.indexed first found found''
    obtain ⟨worker, confirmed⟩ := ih (balanced.perform first) continued (fun events last initial ran =>
      recorded _ last (List.cons_prefix_cons.2 ⟨rfl, initial⟩) (onward ran)) found''
    exact ⟨worker.trans advances.worker, confirmed ∘ advances.confirmed⟩

/-- What any operation makes of a slot in a state that a run has reached, if it succeeds and the slot is recorded
    before and after it. -/
theorem slot_advances {history : List Event} (reached : empty.run history = .ok cluster) {event : Event}
    {answer : Answer} (performed : cluster.perform event = .ok (answer, next))
    (found : cluster.slot? allocation = some before) (found' : next.slot? allocation = some after) :
    before.Advances event after :=
  advances_perform (balanced_empty.run reached).indexed performed found found'

end

/-- A pending slot. -/
private def pendingHistory : List Event :=
  [.register ⟨1⟩ (.ofUnits 4 0) .any, .reserve ⟨1⟩ ⟨7⟩ ⟨0⟩ (.ofUnits 2 0)]

/-- The slot under its own job first and under another one then, so that it is replaced by a smaller one. -/
private def replacingReport : SlotReport :=
  ⟨[⟨⟨⟨1⟩, 4⟩, .ofUnits 1 0, some ⟨⟨7⟩, ⟨0⟩⟩⟩, ⟨⟨⟨1⟩, 5⟩, .ofUnits 2 0, some ⟨⟨8⟩, ⟨0⟩⟩⟩]⟩

theorem slot_advances_replaced : ∃ cluster next before after, empty.run pendingHistory = .ok cluster ∧
    cluster.perform (.report ⟨1⟩ replacingReport) = .ok (.applied true, next) ∧
    cluster.slot? ⟨0⟩ = some before ∧ next.slot? ⟨0⟩ = some after ∧
    Event.Reassigns (.report ⟨1⟩ replacingReport) before ∧
    before.Advances (.report ⟨1⟩ replacingReport) after := by
  obtain ⟨cluster, reached⟩ := Checked.isOk_iff.1 (show (empty.run pendingHistory).isOk = true from rfl)
  have waiting : (empty.run pendingHistory).map (·.slot? ⟨0⟩) =
      .ok (some ⟨⟨0⟩, ⟨7⟩, .dynamic ⟨1⟩, .ofUnits 2 0, .pending⟩) := rfl
  have effect : (empty.run pendingHistory >>= fun cluster => cluster.perform (.report ⟨1⟩ replacingReport)).map
      (fun result => (result.1, result.2.slot? ⟨0⟩)) =
      .ok (.applied true, some ⟨⟨0⟩, ⟨7⟩, ⟨⟨1⟩, 5⟩, .ofUnits 1 0, .allocated⟩) := rfl
  rw [reached] at waiting effect
  obtain ⟨⟨answer, next⟩, performed, changed⟩ := Checked.map_eq_ok_iff.1 effect
  obtain ⟨rfl, found'⟩ := Prod.mk.inj changed
  have found := Except.ok.inj waiting
  exact ⟨cluster, next, _, _, reached, performed, found, found',
    ⟨replacingReport, rfl, [_], _, [], rfl, rfl, by decide, nofun⟩, slot_advances reached performed found found'⟩

/-- The slot under another job first and under its own then. -/
private def keepingReport : SlotReport :=
  ⟨[⟨⟨⟨1⟩, 4⟩, .ofUnits 2 0, some ⟨⟨8⟩, ⟨0⟩⟩⟩, ⟨⟨⟨1⟩, 5⟩, .ofUnits 2 0, some ⟨⟨7⟩, ⟨0⟩⟩⟩]⟩

/-- An entry for another job does not confirm a slot if the last one is for its own: the slot is pending still. -/
theorem named_for_another_job_but_pending : ∃ cluster next before after, empty.run pendingHistory = .ok cluster ∧
    cluster.perform (.report ⟨1⟩ keepingReport) = .ok (.applied true, next) ∧
    cluster.slot? ⟨0⟩ = some before ∧ next.slot? ⟨0⟩ = some after ∧ before.worker = ⟨1⟩ ∧
    (∃ entry ∈ keepingReport.occupied, entry.2.allocation = ⟨0⟩ ∧ entry.2.job ≠ before.job) ∧
    after.state ≠ .allocated := by
  obtain ⟨cluster, reached⟩ := Checked.isOk_iff.1 (show (empty.run pendingHistory).isOk = true from rfl)
  have waiting : (empty.run pendingHistory).map (·.slot? ⟨0⟩) =
      .ok (some ⟨⟨0⟩, ⟨7⟩, .dynamic ⟨1⟩, .ofUnits 2 0, .pending⟩) := rfl
  have effect : (empty.run pendingHistory >>= fun cluster => cluster.perform (.report ⟨1⟩ keepingReport)).map
      (fun result => (result.1, result.2.slot? ⟨0⟩)) =
      .ok (.applied true, some ⟨⟨0⟩, ⟨7⟩, ⟨⟨1⟩, 5⟩, .ofUnits 2 0, .pending⟩) := rfl
  rw [reached] at waiting effect
  obtain ⟨⟨answer, next⟩, performed, changed⟩ := Checked.map_eq_ok_iff.1 effect
  obtain ⟨rfl, found'⟩ := Prod.mk.inj changed
  exact ⟨cluster, next, _, _, reached, performed, Except.ok.inj waiting, found', rfl,
    ⟨_, .head _, rfl, by decide⟩, by decide⟩

end Cluster

end SlotControl
