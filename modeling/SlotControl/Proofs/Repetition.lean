import SlotControl.Proofs.Containment
import SlotControl.Proofs.Reconciliation

/-!
A report that arrives again. Its first pass releases the slots that the report names for several jobs, and its second
pass then makes the same choices as before. Entry by entry it goes on from a state that lies between the one that it
went on from the first time and the one that it ended in: an entry that was refused has no more room now, and what was
adopted fits as it did in the end. Main statement: `report_twice`.
-/

namespace SlotControl.Cluster

section

variable {Seed : Type} [Traversal Seed]
variable {cluster kept last next : Cluster} {worker : WorkerId} {report : SlotReport}
variable {entry : SlotStatus × SlotAssignment} {entries rest : List (SlotStatus × SlotAssignment)}
variable {applied others : Bool}

/-! ## One pass twice -/

/-- A pass over the entries goes from the start to the last state; another one starts with no fewer slots and has
    what the last state has, but for slots of the worker that the entries name. -/
structure Repeats (worker : WorkerId) (entries : List (SlotStatus × SlotAssignment)) (start again last : Cluster) :
    Prop where
  within : Within start last
  within' : Within again last
  had : ∀ {allocation}, again.slot? allocation = none → start.slot? allocation = none
  elsewhere : ∀ {allocation slot}, last.slot? allocation = some slot → slot.worker ≠ worker →
    again.slot? allocation = some slot
  unnamed : ∀ {allocation}, (∀ entry ∈ entries, entry.2.allocation ≠ allocation) →
    again.slot? allocation = last.slot? allocation

/-- After an entry its slot, if it is on the worker, has the reported place. -/
private theorem place_adopt (indexed : cluster.inventory.Indexed)
    (adopted : cluster.adopt worker entry.1 entry.2 = .ok (applied, next)) {slot : Slot}
    (after : next.slot? entry.2.allocation = some slot) (here : slot.worker = worker) :
    slot.place = ⟨worker, entry.1.place.index⟩ := by
  cases (adopt_eq_ok_iff ..).1 adopted with
  | placed found _ moved ledger =>
    rw [(slot?_setPlace indexed found moved).2, if_pos rfl] at after
    rw [← Option.some.inj after]
  | occupied absent fits occupies =>
    rcases slot?_adopt_of_none indexed absent adopted with ⟨-, appeared⟩ | ⟨full, -⟩
    · rw [← Option.some.inj (appeared.symm.trans after)]
      rfl
    · exact absurd fits full
  | elsewhere found apart =>
    rw [found] at after
    exact absurd (Option.some.inj after ▸ here) apart
  | refused absent =>
    rw [absent] at after
    cases after

namespace Repeats

variable {start again : Cluster}

private theorem between (repeats : Repeats worker entries start again last) : Within start again := by
  refine ⟨repeats.within.sound, repeats.within'.sound, fun id => (repeats.within.terms id).trans
    (repeats.within'.terms id).symm, fun {allocation slot} found => ?_⟩
  cases present : again.slot? allocation with
  | none =>
    rw [repeats.had present] at found
    cases found
  | some other =>
    -- Both are the slot that the last state has for the allocation.
    obtain ⟨held, found', alike⟩ := repeats.within.exists_slot found
    obtain ⟨held', found'', alike'⟩ := repeats.within'.exists_slot present
    obtain rfl := Option.some.inj (found'.symm.trans found'')
    exact (holds_of_found repeats.within'.sound.inventory.indexed present).congr (alike'.symm.trans alike)

/-- Both passes leave the same slot of the worker for an entry, at the place that it reports. -/
private theorem placed (within : Within next last) (indexed : again.inventory.Indexed)
    (adopted : again.adopt worker entry.1 entry.2 = .ok (applied, next)) {slot : Slot}
    (found : last.slot? entry.2.allocation = some slot) (here : slot.worker = worker)
    (place : slot.place = ⟨worker, entry.1.place.index⟩) (present : next.slot? entry.2.allocation ≠ none) :
    next.slot? entry.2.allocation = some slot := by
  obtain ⟨other, after⟩ := Option.ne_none_iff_exists'.1 present
  obtain ⟨held, found', alike⟩ := within.exists_slot after
  obtain rfl := Option.some.inj (found.symm.trans found')
  have same : slot.worker = other.worker := by simpa using congrArg Slot.worker alike
  have place' := place_adopt indexed adopted after (same ▸ here)
  rw [after, Slot.eq_of_unplaced alike (place.trans place'.symm)]

/-- What the second pass has room for, the first one had room for, and so it is in the last state. -/
private theorem wanted (repeats : Repeats worker entries start again last)
    (adopted : start.adopt worker entry.1 entry.2 = .ok (applied, next)) (onward : Within next last)
    (absent : again.slot? entry.2.allocation = none) (room : again.HasRoom worker entry.1.profile) :
    last.Holds (proposed worker entry) := by
  have absent := repeats.had absent
  have room := repeats.between.hasRoom_of_outer room
  rcases slot?_adopt_of_none repeats.within.sound.inventory.indexed absent adopted with ⟨-, appeared⟩ | ⟨full, -⟩
  · exact onward.slots appeared
  · exact absurd room full

/-- An entry is brought into line again, and the passes go on side by side. -/
private theorem step (repeats : Repeats worker (entry :: rest) start again last) (bounded : last.ledger.Bounded)
    (small : ∀ d, last.inventory.load worker d < Numeral.bound64)
    (adopted : start.adopt worker entry.1 entry.2 = .ok (applied, next))
    (continued : next.adoptAll worker rest = .ok (others, last)) :
    ∃ applied' next', again.adopt worker entry.1 entry.2 = .ok (applied', next') ∧
      Repeats worker rest next next' last := by
  have indexed := repeats.within.sound.inventory.indexed
  have indexed' := repeats.within'.sound.inventory.indexed
  have onward := Within.of_adoptAll (repeats.within.sound.adopt adopted) continued
  have wanted := repeats.wanted adopted onward
  obtain ⟨applied', next', adopted', within, gained⟩ := repeats.within'.exists_adopt bounded small wanted
  have grown := Within.of_adopt repeats.within'.sound adopted'
  have had : ∀ {allocation}, next'.slot? allocation = none → next.slot? allocation = none := by
    intro allocation gone
    have before := repeats.had (grown.slot?_eq_none gone)
    by_cases its : allocation = entry.2.allocation
    · subst its
      rcases slot?_adopt_of_none indexed before adopted with ⟨-, appeared⟩ | ⟨-, rfl⟩
      · exact absurd gone (gained (onward.slots appeared))
      · exact before
    · rw [slot?_adopt_of_ne indexed adopted its, before]
  have elsewhere : ∀ {allocation slot}, last.slot? allocation = some slot → slot.worker ≠ worker →
      next'.slot? allocation = some slot := by
    intro allocation slot found apart
    have reported := (slot?_adopt indexed' ((adopt_eq_ok_iff ..).1 adopted')).2 allocation
    rw [repeats.elsewhere found apart] at reported
    exact reported.eq_of_ne apart
  refine ⟨applied', next', adopted', onward, within, had, elsewhere, fun {allocation} unnamed => ?_⟩
  by_cases its : allocation = entry.2.allocation
  · subst its
    -- No later entry names the allocation: the first pass left its slot as it is in the last state.
    have left := slot?_adoptAll_of_unnamed onward.sound.inventory.indexed continued unnamed
    cases found : last.slot? entry.2.allocation with
    | none => exact within.slot?_eq_none found
    | some slot =>
      by_cases here : slot.worker = worker
      · refine placed within indexed' adopted' found here (place_adopt indexed adopted (left ▸ found) here)
          fun gone => ?_
        rw [left, had gone] at found
        cases found
      · exact elsewhere found here
  · rw [slot?_adopt_of_ne indexed' adopted' its]
    exact repeats.unnamed (List.forall_mem_cons.2 ⟨Ne.symm its, unnamed⟩)

/-- The second pass ends in the same state. -/
theorem adoptAll (repeats : Repeats worker entries start again last) (bounded : last.ledger.Bounded)
    (small : ∀ d, last.inventory.load worker d < Numeral.bound64)
    (adopted : start.adoptAll worker entries = .ok (applied, last)) :
    ∃ applied', again.adoptAll worker entries = .ok (applied', last) := by
  induction entries generalizing start again applied with
  | nil =>
    have same : again = last := repeats.within'.sound.ext repeats.within'.sound' (fun _ => repeats.unnamed nofun)
      repeats.within'.terms
    exact ⟨true, same ▸ rfl⟩
  | cons entry rest ih =>
    obtain ⟨now, next, others, adopts, continued, -⟩ := (adoptAll_cons_eq_ok_iff ..).1 adopted
    obtain ⟨applied', next', adopts', repeats'⟩ := repeats.step bounded small adopts continued
    obtain ⟨others', continued'⟩ := ih repeats' continued
    exact ⟨_, (adoptAll_cons_eq_ok_iff ..).2 ⟨applied', next', others', adopts', continued', rfl⟩⟩

end Repeats

/-! ## The report twice -/

section Passes

variable {record : Worker}

/-- The same report releases a slot at any place of its worker. -/
theorem releases_move (slot : Slot) {place : SlotId} (same : place.worker = slot.worker) :
    Releases worker report { slot with place } ↔ Releases worker report slot := by
  rw [Releases, Releases, show ({ slot with place } : Slot).worker = slot.worker from same]
  exact Iff.rfl

/-- What the report releases when it arrives again are slots that it has adopted itself. -/
private theorem repeats_of_report (sound : cluster.Sound) (registered : cluster.inventory.worker? worker = some record)
    (freed : cluster.freeAll (released record report) = .ok kept)
    (adopted : kept.adoptAll worker report.occupied = .ok (applied, last)) {record' : Worker}
    (registered' : last.inventory.worker? worker = some record')
    (freed' : last.freeAll (released record' report) = .ok next) : Repeats worker report.occupied kept next last := by
  have sound' := sound.freeAll freed
  have sound'' := sound'.adoptAll adopted
  obtain ⟨-, stays⟩ := slot?_release sound.inventory.indexed registered freed
  obtain ⟨-, stays'⟩ := slot?_release sound''.inventory.indexed registered' freed'
  have reported := (slot?_adoptAll sound'.inventory.indexed adopted).2
  refine ⟨.of_adoptAll sound' adopted, .of_freeAll sound'' freed', fun {allocation} gone => ?_,
    fun {allocation slot} found apart => ?_, fun {allocation} unnamed => ?_⟩
  · cases left : kept.slot? allocation with
    | none => rfl
    | some slot =>
      have reported := reported allocation
      rw [left] at reported
      obtain ⟨place, same, found⟩ := reported.some_left
      rw [stays, Option.filter_eq_some_iff] at left
      rw [stays', found, Option.filter_eq_none_iff] at gone
      exact absurd (by simpa [releases_move slot same] using left.2) (gone _ rfl)
  · rw [stays', found]
    simp [Option.filter, Releases, apart]
  · rw [stays', slot?_adoptAll_of_unnamed sound'.inventory.indexed adopted unnamed, stays, Option.filter_filter]
    simp

/-- A report that was applied leads to the same state again. -/
private theorem Sound.report_again (sound : cluster.Sound) (bounded : cluster.ledger.Bounded)
    (registered : cluster.inventory.worker? worker = some record)
    (small : Profile.Addable (record.profiles ++ report.occupied.map (·.1.profile)))
    (reported : cluster.report worker report = .ok (applied, last)) :
    ∃ again, last.report worker report = .ok (again, last) ∧ (report.Distinct → again = applied) := by
  have passes := reported
  rw [report_of_registered registered, Checked.bind_eq_ok_iff] at passes
  obtain ⟨kept, freed, adopted⟩ := passes
  have sound' := sound.report reported
  have load := sound.load_report_lt registered small reported
  have offered := sound.total?_freeAll registered freed
  obtain ⟨record', registered', terms⟩ : ∃ record', last.inventory.worker? worker = some record' ∧
      record'.total = record.total := Option.map_eq_some_iff.1
    ((sound.inventory.total?_leads (leads_report reported) worker).trans (Inventory.total?_of_registered registered))
  obtain ⟨left, freed'⟩ := sound'.exists_release registered' report load
  have repeats := repeats_of_report sound registered freed adopted registered' freed'
  obtain ⟨again, adopted'⟩ := repeats.adoptAll (sound.balanced.bounded_report bounded reported) load adopted
  refine ⟨again, ?_, fun distinct => ?_⟩
  · rw [report_of_registered registered', freed']
    exact adopted'
  · -- Both passes end in one state, in which the answer can be read off.
    have offered' := sound'.total?_freeAll registered' freed'
    obtain ⟨-, -, all⟩ := (sound.freeAll freed).slot?_adoptAll offered distinct adopted
    obtain ⟨-, -, all'⟩ := (sound'.freeAll freed').slot?_adoptAll offered' distinct adopted'
    exact Bool.eq_iff_iff.2 (all'.trans all.symm)

end Passes

/-- In a state that a run has reached, a report has the same effect once and twice, where what it reports and the
    slots of its worker come to no more than 64 bits; and if it names no allocation twice, then both have one answer.
    Otherwise there are so many slots that a count of 32 bits overflows. -/
theorem report_twice (worker : WorkerId) {history : List Event} (reached : empty.run history = .ok cluster)
    (trimmed : ∀ worker total defaultSlot, .register worker total defaultSlot ∈ history → total.Trimmed)
    (small : ∀ record, cluster.inventory.worker? worker = some record →
      Profile.Addable (record.profiles ++ report.occupied.map (·.1.profile))) :
    (∃ applied last again, cluster.report worker report = .ok (applied, last) ∧
      last.report worker report = .ok (again, last) ∧ (report.Distinct → again = applied)) ∨
    (cluster.report worker report = .error .additionOverflow ∧
      Numeral.bound32 ≤ cluster.inventory.slotCount + report.occupied.length) := by
  have sound := sound_empty.run trimmed reached
  have bounded := balanced_empty.bounded_run Ledger.bounded_empty reached
  cases registered : cluster.inventory.worker? worker with
  | none =>
    have unknown := report_of_unknown registered report
    exact .inl ⟨false, cluster, false, unknown, unknown, fun _ => rfl⟩
  | some record =>
    rcases sound.report_or_overflow registered (small record registered) with ⟨applied, last, reported⟩ | overflows
    · obtain ⟨again, repeated, answer⟩ := sound.report_again bounded registered (small record registered) reported
      exact .inl ⟨applied, last, again, reported, repeated, answer⟩
    · exact .inr overflows

end

/-- A slot of the worker and one of another worker. -/
private def repeatedHistory : List Event :=
  [.register ⟨1⟩ (.ofUnits 4 0) .any, .register ⟨2⟩ .any .any, .reserve ⟨1⟩ ⟨7⟩ ⟨0⟩ (.ofUnits 2 0),
    .reserve ⟨2⟩ ⟨7⟩ ⟨5⟩ .any]

/-- The first slot under two other jobs, one that does not fit beside it, one that does, and the one of the other
    worker. -/
private def repeatedReport : SlotReport :=
  ⟨[⟨⟨⟨1⟩, 4⟩, .ofUnits 3 0, some ⟨⟨8⟩, ⟨0⟩⟩⟩, ⟨⟨⟨1⟩, 5⟩, .ofUnits 2 0, some ⟨⟨7⟩, ⟨1⟩⟩⟩,
    ⟨⟨⟨1⟩, 6⟩, .ofUnits 1 0, some ⟨⟨7⟩, ⟨2⟩⟩⟩, ⟨⟨⟨1⟩, 7⟩, .any, some ⟨⟨9⟩, ⟨0⟩⟩⟩,
    ⟨⟨⟨1⟩, 8⟩, .ofUnits 1 0, some ⟨⟨7⟩, ⟨5⟩⟩⟩]⟩

/-- The first slot is adopted for the first of the jobs, and it is released and adopted again the second time. -/
theorem report_twice_contradictory : ∃ cluster last again slot, empty.run repeatedHistory = .ok cluster ∧
    cluster.report ⟨1⟩ repeatedReport = .ok (false, last) ∧ last.slot? ⟨0⟩ = some slot ∧
    Releases ⟨1⟩ repeatedReport slot ∧ last.report ⟨1⟩ repeatedReport = .ok (again, last) := by
  obtain ⟨cluster, reached⟩ := Checked.isOk_iff.1 (show (empty.run repeatedHistory).isOk = true from rfl)
  have worker : (empty.run repeatedHistory).map (fun cluster =>
      (cluster.inventory.worker? ⟨1⟩).map (·.profiles)) = .ok (some [.ofUnits 2 0]) := rfl
  have effect : (empty.run repeatedHistory >>= fun cluster => cluster.report ⟨1⟩ repeatedReport).map
      (fun result => (result.1, result.2.slot? ⟨0⟩)) =
      .ok (false, some ⟨⟨0⟩, ⟨8⟩, ⟨⟨1⟩, 7⟩, .ofUnits 3 0, .allocated⟩) := rfl
  rw [reached] at worker effect
  have trimmed := Event.trimmed_of_totals (show ∀ total ∈ repeatedHistory.filterMap Event.total?, _ by decide)
  have small : Profile.Addable ([.ofUnits 2 0] ++ repeatedReport.occupied.map (·.1.profile)) := by decide
  have effect : (cluster.report ⟨1⟩ repeatedReport).map (fun result => (result.1, result.2.slot? ⟨0⟩)) = _ := effect
  rcases report_twice ⟨1⟩ reached trimmed (Inventory.addable_of_profiles (Except.ok.inj worker) small) with
    ⟨applied, last, again, reported, repeated, -⟩ | ⟨failed, -⟩
  · rw [reported] at effect
    obtain ⟨rfl, found⟩ := Prod.mk.inj (Except.ok.inj effect)
    exact ⟨cluster, last, again, _, reached, reported, found, by decide, repeated⟩
  · rw [failed] at effect
    cases effect

end SlotControl.Cluster
