import SlotControl.Proofs.Reconciliation
import SlotControl.Proofs.Withdrawal

/-!
Reports of different workers, one after the other. What a report makes of a state depends only on the slots of its
worker and of the allocations that it names: states that are `Alike` in these stay so, entry by entry. A report of
another worker that names other allocations leaves them alone, so that the order of two such reports does not show.
Main statement: `reports_commute`.
-/

namespace SlotControl.Cluster

section

variable {Seed : Type} [Traversal Seed]
variable {cluster next left right left' right' : Cluster} {worker other : WorkerId} {content content' : SlotReport}
variable {entries : List (SlotStatus × SlotAssignment)} {applied applied' : Bool}

/-! ## What a report looks at -/

/-- Both states are in order, and the worker has the same terms and slots in both, as have the allocations of some
    entries. -/
private structure Alike (worker : WorkerId) (entries : List (SlotStatus × SlotAssignment)) (left right : Cluster) :
    Prop where
  sound : left.Sound
  sound' : right.Sound
  terms : (left.inventory.worker? worker).map Worker.terms = (right.inventory.worker? worker).map Worker.terms
  held : ∀ allocation, (left.slot? allocation).filter (·.worker = worker) =
    (right.slot? allocation).filter (·.worker = worker)
  named : ∀ entry ∈ entries, left.slot? entry.2.allocation = right.slot? entry.2.allocation

namespace Alike

/-- The worker has one record in both states. -/
private theorem worker?_eq (alike : Alike worker entries left right) :
    left.inventory.worker? worker = right.inventory.worker? worker :=
  alike.sound.inventory.worker?_congr alike.sound'.inventory alike.held alike.terms

private theorem load_eq (alike : Alike worker entries left right) :
    left.inventory.load worker = right.inventory.load worker := by
  have indexed := alike.sound.inventory.indexed
  have indexed' := alike.sound'.inventory.indexed
  have same := alike.worker?_eq
  cases registered : left.inventory.worker? worker with
  | none =>
    rw [registered] at same
    exact funext fun d => (indexed.load_of_unknown registered d).trans (indexed'.load_of_unknown same.symm d).symm
  | some record =>
    rw [registered] at same
    rw [indexed.load_eq registered, indexed'.load_eq same.symm]

private theorem slot?_eq (alike : Alike worker content.occupied left right) {allocation : AllocationId}
    (named : content.Names allocation) : left.slot? allocation = right.slot? allocation := by
  obtain ⟨entry, inside, rfl⟩ := named
  exact alike.named entry inside

/-- Freeing the same allocations leaves the states alike. -/
private theorem freeAll (alike : Alike worker entries left right) {allocations : List AllocationId}
    (freed : left.freeAll allocations = .ok left') (freed' : right.freeAll allocations = .ok right') :
    Alike worker entries left' right' := by
  obtain ⟨-, slots⟩ := slot?_freeAll alike.sound.inventory.indexed freed
  obtain ⟨-, slots'⟩ := slot?_freeAll alike.sound'.inventory.indexed freed'
  refine ⟨alike.sound.freeAll freed, alike.sound'.freeAll freed', ?_, fun allocation => ?_, fun entry inside => ?_⟩
  · rw [alike.sound.inventory.terms_leads (leads_freeAll freed), alike.terms,
      alike.sound'.inventory.terms_leads (leads_freeAll freed')]
  · rw [slots, slots']
    split
    · rfl
    · exact alike.held allocation
  · rw [slots, slots', alike.named entry inside]

/-- An entry is applied in both states or in none, and leaves them alike. -/
private theorem adopt (alike : Alike worker entries left right) {total : Profile}
    (offered : left.inventory.total? worker = some total) {entry : SlotStatus × SlotAssignment}
    (inside : entry ∈ entries) (adopted : left.adopt worker entry.1 entry.2 = .ok (applied, left'))
    (adopted' : right.adopt worker entry.1 entry.2 = .ok (applied', right')) :
    applied' = applied ∧ Alike worker entries left' right' := by
  have offered' : right.inventory.total? worker = some total := by
    rw [Inventory.total?, ← alike.worker?_eq]
    exact offered
  obtain ⟨slots, applies⟩ := alike.sound.slot?_adopt offered adopted
  obtain ⟨slots', applies'⟩ := alike.sound'.slot?_adopt offered' adopted'
  rw [← alike.load_eq, ← alike.named entry inside] at slots'
  have own : left'.slot? entry.2.allocation = right'.slot? entry.2.allocation := by
    rw [slots, slots', if_pos rfl, if_pos rfl]
  refine ⟨?_, alike.sound.adopt adopted, alike.sound'.adopt adopted', ?_, fun allocation => ?_,
    fun later inside' => ?_⟩
  · rw [applies', applies, own]
  · rw [alike.sound.inventory.terms_leads (leads_adopt adopted), alike.terms,
      alike.sound'.inventory.terms_leads (leads_adopt adopted')]
  · by_cases same : allocation = entry.2.allocation
    · rw [same, own]
    · rw [slots, slots', if_neg same, if_neg same, alike.held]
  · rw [slots, slots', alike.named later inside']

/-- A pass over some of the entries applies them in both states or in none. -/
private theorem adoptAll (alike : Alike worker entries left right) {total : Profile}
    (offered : left.inventory.total? worker = some total) {part : List (SlotStatus × SlotAssignment)}
    (inside : part ⊆ entries) (adopted : left.adoptAll worker part = .ok (applied, left'))
    (adopted' : right.adoptAll worker part = .ok (applied', right')) :
    applied' = applied ∧ Alike worker entries left' right' := by
  induction part generalizing left right applied applied' with
  | nil =>
    obtain ⟨rfl, rfl⟩ := Prod.mk.inj (Except.ok.inj adopted)
    obtain ⟨rfl, rfl⟩ := Prod.mk.inj (Except.ok.inj adopted')
    exact ⟨rfl, alike⟩
  | cons entry rest ih =>
    obtain ⟨first, between, others, adopts, continued, rfl⟩ := (adoptAll_cons_eq_ok_iff ..).1 adopted
    obtain ⟨first', between', others', adopts', continued', rfl⟩ := (adoptAll_cons_eq_ok_iff ..).1 adopted'
    obtain ⟨here, rest_inside⟩ := List.cons_subset.1 inside
    obtain ⟨rfl, alike'⟩ := alike.adopt offered here adopts adopts'
    have offered' : between.inventory.total? worker = some total := by
      rw [alike.sound.inventory.total?_leads (leads_adopt adopts), offered]
    obtain ⟨rfl, alike''⟩ := ih alike' offered' rest_inside continued continued'
    exact ⟨rfl, alike''⟩

/-- A report is fully applied in both states or in none, and leaves them alike. -/
private theorem report (alike : Alike worker content.occupied left right)
    (reported : left.report worker content = .ok (applied, left'))
    (reported' : right.report worker content = .ok (applied', right')) :
    applied' = applied ∧ Alike worker content.occupied left' right' := by
  have same := alike.worker?_eq
  rcases report_eq_ok reported with ⟨unknown, rfl, rfl⟩ | ⟨record, kept, registered, freed, adopted⟩
  · rw [unknown] at same
    rw [report_of_unknown same.symm] at reported'
    obtain ⟨rfl, rfl⟩ := Prod.mk.inj (Except.ok.inj reported')
    exact ⟨rfl, alike⟩
  · rw [registered] at same
    rw [report_of_registered same.symm, Checked.bind_eq_ok_iff] at reported'
    obtain ⟨kept', freed', adopted'⟩ := reported'
    exact (alike.freeAll freed freed').adoptAll (alike.sound.total?_freeAll registered freed)
      (List.Subset.refl _) adopted adopted'

end Alike

/-! ## What a report leaves alone -/

/-- A report leaves the slot of an allocation that it does not name, unless that slot is on its worker. -/
theorem slot?_report_of_elsewhere (indexed : cluster.inventory.Indexed)
    (reported : cluster.report worker content = .ok (applied, next)) {allocation : AllocationId}
    (unnamed : ¬content.Names allocation)
    (elsewhere : ∀ slot, cluster.slot? allocation = some slot → slot.worker ≠ worker) :
    next.slot? allocation = cluster.slot? allocation := by
  rw [slot?_report_of_unnamed indexed reported unnamed]
  cases found : cluster.slot? allocation with
  | none => rfl
  | some slot => simp [Option.filter, Releases, elsewhere slot found]

/-- A report puts no slot on another worker. -/
theorem slot?_report_elsewhere (indexed : cluster.inventory.Indexed)
    (reported : cluster.report worker content = .ok (applied, next)) (apart : worker ≠ other)
    {allocation : AllocationId} (elsewhere : ∀ slot, cluster.slot? allocation = some slot → slot.worker ≠ other) :
    ∀ slot, next.slot? allocation = some slot → slot.worker ≠ other := by
  rintro slot found rfl
  have there := filter_slot?_report indexed reported apart.symm allocation
  rw [found, Option.filter_some_pos (by simp), eq_comm, Option.filter_eq_some_iff] at there
  exact elsewhere slot there.1 rfl

/-- Two reports of different workers have no allocation in common, and what one of them names is not on the worker of
    the other. -/
structure Separate (cluster : Cluster) (worker : WorkerId) (content : SlotReport) (other : WorkerId)
    (content' : SlotReport) : Prop where
  workers : worker ≠ other
  named : ∀ allocation, content.Names allocation → ¬content'.Names allocation
  elsewhere : ∀ allocation slot, content.Names allocation → cluster.slot? allocation = some slot → slot.worker ≠ other
  elsewhere' : ∀ allocation slot, content'.Names allocation → cluster.slot? allocation = some slot →
    slot.worker ≠ worker

namespace Separate

theorem symm (separate : cluster.Separate worker content other content') :
    cluster.Separate other content' worker content :=
  ⟨separate.workers.symm, fun allocation named' named => separate.named allocation named named',
    separate.elsewhere', separate.elsewhere⟩

/-- What the second report looks at is the same after the first one. -/
private theorem alike (separate : cluster.Separate worker content other content') (sound : cluster.Sound)
    (reported : cluster.report worker content = .ok (applied, next)) :
    Alike other content'.occupied cluster next := by
  have indexed := sound.inventory.indexed
  refine ⟨sound, sound.report reported, (sound.inventory.terms_leads (leads_report reported) other).symm,
    fun allocation => (filter_slot?_report indexed reported separate.workers.symm allocation).symm, ?_⟩
  intro entry inside
  have named : content'.Names entry.2.allocation := ⟨entry, inside, rfl⟩
  exact (slot?_report_of_elsewhere indexed reported (fun first => separate.named _ first named)
    fun slot found => separate.elsewhere' _ slot named found).symm

/-- The second report leaves what the first one has made of the allocations that it names. -/
private theorem slot?_second (separate : cluster.Separate worker content other content') (sound : cluster.Sound)
    (reported : cluster.report worker content = .ok (applied, next)) {last : Cluster}
    (reported' : next.report other content' = .ok (applied', last)) {allocation : AllocationId}
    (named : content.Names allocation) : last.slot? allocation = next.slot? allocation := by
  have indexed := sound.inventory.indexed
  refine slot?_report_of_elsewhere (sound.report reported).inventory.indexed reported'
    (separate.named allocation named) ?_
  exact slot?_report_elsewhere indexed reported separate.workers fun slot => separate.elsewhere allocation slot named

/-- Both orders lead to the same state with the same answers. -/
private theorem unique (separate : cluster.Separate worker content other content') (sound : cluster.Sound)
    {first second last last' : Cluster} {again again' : Bool}
    (reported : cluster.report worker content = .ok (applied, first))
    (later : first.report other content' = .ok (applied', last))
    (reported' : cluster.report other content' = .ok (again', second))
    (later' : second.report worker content = .ok (again, last')) :
    again = applied ∧ again' = applied' ∧ last' = last := by
  have indexed := sound.inventory.indexed
  have indexed_first := (sound.report reported).inventory.indexed
  have indexed_second := (sound.report reported').inventory.indexed
  obtain ⟨rfl, own⟩ := (separate.symm.alike sound reported').report reported later'
  obtain ⟨rfl, own'⟩ := (separate.alike sound reported).report reported' later
  have slots : ∀ allocation, last'.slot? allocation = last.slot? allocation := by
    intro allocation
    by_cases named : content.Names allocation
    · rw [separate.slot?_second sound reported later named, own.slot?_eq named]
    by_cases named' : content'.Names allocation
    · rw [separate.symm.slot?_second sound reported' later' named', own'.slot?_eq named']
    · -- Nobody names it, so that each report at most releases its slot.
      rw [slot?_report_of_unnamed indexed_second later' named, slot?_report_of_unnamed indexed reported' named',
        slot?_report_of_unnamed indexed_first later named', slot?_report_of_unnamed indexed reported named,
        Option.filter_filter, Option.filter_filter]
      exact congrArg (Option.filter · _) (funext fun slot => Bool.and_comm ..)
  refine ⟨rfl, rfl, ((sound.report reported').report later').ext ((sound.report reported).report later) slots ?_⟩
  intro id
  rw [(sound.report reported').inventory.terms_leads (leads_report later'),
    sound.inventory.terms_leads (leads_report reported'),
    (sound.report reported).inventory.terms_leads (leads_report later),
    sound.inventory.terms_leads (leads_report reported)]

end Separate

/-! ## In either order -/

private theorem replies_reports {last : Cluster} (reported : cluster.report worker content = .ok (applied, next))
    (later : next.report other content' = .ok (applied', last)) :
    cluster.replies [.report worker content, .report other content'] =
      .ok ([.applied applied, .applied applied'], last) := by
  have first : cluster.perform (.report worker content) = .ok (.applied applied, next) :=
    Checked.map_eq_ok_iff.2 ⟨_, reported, rfl⟩
  have second : next.perform (.report other content') = .ok (.applied applied', last) :=
    Checked.map_eq_ok_iff.2 ⟨_, later, rfl⟩
  exact replies_cons_eq_ok_iff.2 ⟨_, _, _, first, replies_cons_eq_ok_iff.2 ⟨_, _, _, second, rfl, rfl⟩, rfl⟩

/-- A report is applied, or a count of 32 bits overflows. -/
private theorem Sound.report_outcome (sound : cluster.Sound)
    (small : ∀ record, cluster.inventory.worker? worker = some record →
      Profile.Addable (record.profiles ++ content.occupied.map (·.1.profile))) :
    (∃ applied next, cluster.report worker content = .ok (applied, next)) ∨
      (cluster.report worker content = .error .additionOverflow ∧
        Numeral.bound32 ≤ cluster.inventory.slotCount + content.occupied.length) := by
  cases registered : cluster.inventory.worker? worker with
  | none => exact .inl ⟨false, cluster, report_of_unknown registered content⟩
  | some record => exact sound.report_or_overflow registered (small record registered)

/-- Two reports one after the other are applied, or a count of 32 bits overflows. -/
private theorem Separate.outcome (separate : cluster.Separate worker content other content') (sound : cluster.Sound)
    (small : ∀ record, cluster.inventory.worker? worker = some record →
      Profile.Addable (record.profiles ++ content.occupied.map (·.1.profile)))
    (small' : ∀ record, cluster.inventory.worker? other = some record →
      Profile.Addable (record.profiles ++ content'.occupied.map (·.1.profile))) :
    (∃ applied applied' first last, cluster.report worker content = .ok (applied, first) ∧
      first.report other content' = .ok (applied', last)) ∨
    (Numeral.bound32 ≤ cluster.inventory.slotCount + content.occupied.length + content'.occupied.length ∧
      cluster.replies [.report worker content, .report other content'] = .error .additionOverflow) := by
  rcases sound.report_outcome small with ⟨applied, first, reported⟩ | ⟨failed, many⟩
  · have few := slotCount_report_le sound.inventory.indexed reported
    rw [(separate.alike sound reported).worker?_eq] at small'
    rcases (sound.report reported).report_outcome small' with ⟨applied', last, later⟩ | ⟨failed, many⟩
    · exact .inl ⟨applied, applied', first, last, reported, later⟩
    · refine .inr ⟨by omega, ?_⟩
      simp only [replies, perform, reported, failed, Except.map, bind, Except.bind]
  · refine .inr ⟨by omega, ?_⟩
    simp only [replies, perform, failed, Except.map, bind, Except.bind]

/-- In a state that a run has reached, two reports of different workers have the same effect and the same answers in
    either order, where they name no allocation in common and none that is on the other worker, and what each of them
    reports and the slots of its worker come to no more than 64 bits. A report fails in neither order, unless there are
    so many slots that a count of 32 bits overflows. -/
theorem reports_commute {history : List Event} (reached : empty.run history = .ok cluster)
    (trimmed : ∀ worker total defaultSlot, .register worker total defaultSlot ∈ history → total.Trimmed)
    (separate : cluster.Separate worker content other content')
    (small : ∀ record, cluster.inventory.worker? worker = some record →
      Profile.Addable (record.profiles ++ content.occupied.map (·.1.profile)))
    (small' : ∀ record, cluster.inventory.worker? other = some record →
      Profile.Addable (record.profiles ++ content'.occupied.map (·.1.profile))) :
    (∃ applied applied' last,
      cluster.replies [.report worker content, .report other content'] =
        .ok ([.applied applied, .applied applied'], last) ∧
      cluster.replies [.report other content', .report worker content] =
        .ok ([.applied applied', .applied applied], last)) ∨
    (Numeral.bound32 ≤ cluster.inventory.slotCount + content.occupied.length + content'.occupied.length ∧
      (cluster.replies [.report worker content, .report other content'] = .error .additionOverflow ∨
        cluster.replies [.report other content', .report worker content] = .error .additionOverflow)) := by
  have sound := sound_empty.run trimmed reached
  rcases separate.outcome sound small small' with ⟨applied, applied', first, last, reported, later⟩ | ⟨many, failed⟩
  · rcases separate.symm.outcome sound small' small with
      ⟨again', again, second, last', reported', later'⟩ | ⟨many, failed⟩
    · obtain ⟨rfl, rfl, rfl⟩ := separate.unique sound reported later reported' later'
      exact .inl ⟨_, _, _, replies_reports reported later, replies_reports reported' later'⟩
    · exact .inr ⟨by omega, .inr failed⟩
  · exact .inr ⟨many, .inl failed⟩

/-- A confirmed slot of one job on each of two workers, and a pending one on a third. -/
private def separateHistory : List Event :=
  [.register ⟨1⟩ (.ofUnits 4 0) .any, .register ⟨2⟩ .any .any, .register ⟨3⟩ .any .any,
    .reserve ⟨1⟩ ⟨7⟩ ⟨0⟩ (.ofUnits 3 0), .conclude ⟨0⟩ ⟨7⟩ .success, .reserve ⟨2⟩ ⟨7⟩ ⟨1⟩ (.ofUnits 3 0),
    .conclude ⟨1⟩ ⟨7⟩ .success, .reserve ⟨3⟩ ⟨7⟩ ⟨2⟩ .any]

/-- A new slot of the job, the one of the third worker, and one for which there is no room. -/
private def leftReport : SlotReport :=
  ⟨[⟨⟨⟨1⟩, 4⟩, .ofUnits 3 0, some ⟨⟨7⟩, ⟨3⟩⟩⟩, ⟨⟨⟨1⟩, 5⟩, .any, some ⟨⟨7⟩, ⟨2⟩⟩⟩,
    ⟨⟨⟨1⟩, 6⟩, .ofUnits 2 0, some ⟨⟨8⟩, ⟨4⟩⟩⟩]⟩

/-- A new slot of the job, reported twice. -/
private def rightReport : SlotReport :=
  ⟨[⟨⟨⟨2⟩, 4⟩, .ofUnits 3 0, some ⟨⟨7⟩, ⟨5⟩⟩⟩, ⟨⟨⟨2⟩, 5⟩, .ofUnits 1 0, some ⟨⟨8⟩, ⟨5⟩⟩⟩]⟩

/-- Where the slots are that a report names. -/
private theorem elsewhere_of_places {places : List (Option WorkerId)}
    (listed : content.occupied.map (fun entry => (cluster.slot? entry.2.allocation).map Slot.worker) = places)
    (apart : some other ∉ places) :
    ∀ allocation slot, content.Names allocation → cluster.slot? allocation = some slot → slot.worker ≠ other := by
  rintro allocation slot ⟨entry, inside, rfl⟩ found rfl
  refine apart (listed ▸ List.mem_map.2 ⟨entry, inside, ?_⟩)
  rw [found, Option.map_some]

end

/-- Each report releases a slot of the job and adopts another one. -/
theorem reports_commute_exchanged : ∃ cluster last, empty.run separateHistory = .ok cluster ∧
    cluster.Separate ⟨1⟩ leftReport ⟨2⟩ rightReport ∧
    cluster.replies [.report ⟨1⟩ leftReport, .report ⟨2⟩ rightReport] = .ok ([.applied false, .applied true], last) ∧
    cluster.replies [.report ⟨2⟩ rightReport, .report ⟨1⟩ leftReport] =
      .ok ([.applied true, .applied false], last) := by
  obtain ⟨cluster, reached⟩ := Checked.isOk_iff.1 (show (empty.run separateHistory).isOk = true from rfl)
  have left : (empty.run separateHistory).map (fun cluster => ((cluster.inventory.worker? ⟨1⟩).map Worker.profiles,
      leftReport.occupied.map fun entry => (cluster.slot? entry.2.allocation).map Slot.worker)) =
      .ok (some [.ofUnits 3 0], [none, some ⟨3⟩, none]) := rfl
  have right : (empty.run separateHistory).map (fun cluster => ((cluster.inventory.worker? ⟨2⟩).map Worker.profiles,
      rightReport.occupied.map fun entry => (cluster.slot? entry.2.allocation).map Slot.worker)) =
      .ok (some [.ofUnits 3 0], [none, none]) := rfl
  have count : (empty.run separateHistory).map (·.inventory.slotCount) = .ok 3 := rfl
  have answers : (empty.run separateHistory >>= fun cluster =>
      cluster.replies [.report ⟨1⟩ leftReport, .report ⟨2⟩ rightReport]).map (·.1) =
      .ok [.applied false, .applied true] := rfl
  rw [reached] at left right count answers
  obtain ⟨profiles, places⟩ := Prod.mk.inj (Except.ok.inj left)
  obtain ⟨profiles', places'⟩ := Prod.mk.inj (Except.ok.inj right)
  have count : cluster.inventory.slotCount = 3 := Except.ok.inj count
  have trimmed := Event.trimmed_of_totals (show ∀ total ∈ separateHistory.filterMap Event.total?, _ by decide)
  have separate : cluster.Separate ⟨1⟩ leftReport ⟨2⟩ rightReport := by
    refine ⟨by decide, ?_, ?_, ?_⟩
    · rintro allocation ⟨entry, inside, rfl⟩
      revert entry
      decide
    · exact elsewhere_of_places places (by decide)
    · exact elsewhere_of_places places' (by decide)
  have small : Profile.Addable ([.ofUnits 3 0] ++ leftReport.occupied.map (·.1.profile)) := by decide
  have small' : Profile.Addable ([.ofUnits 3 0] ++ rightReport.occupied.map (·.1.profile)) := by decide
  rcases reports_commute reached trimmed separate (Inventory.addable_of_profiles profiles small)
    (Inventory.addable_of_profiles profiles' small') with ⟨applied, applied', last, replied, replied'⟩ | ⟨many, -⟩
  · have answers : (cluster.replies [.report ⟨1⟩ leftReport, .report ⟨2⟩ rightReport]).map (·.1) =
        .ok [.applied false, .applied true] := answers
    rw [replied] at answers
    obtain ⟨first, rest⟩ := List.cons.inj (Except.ok.inj answers)
    obtain rfl := Answer.applied.inj first
    obtain rfl := Answer.applied.inj (List.cons.inj rest).1
    exact ⟨cluster, last, reached, separate, replied, replied'⟩
  · rw [count] at many
    exact absurd many (by decide)

end SlotControl.Cluster
