import SlotControl.Proofs.Containment

/-!
The success of a request and a report of a worker, in either order. Two states that differ by the confirmation of one
slot go through the report side by side: what they take of the workers and the counts of the jobs are the same, so
that the same entries find room, and what the report makes of the slot it makes of the confirmed one as well. Main
statement: `confirmation_report_comm`.
-/

namespace SlotControl

/-! ## Computations side by side -/

/-- Both fail in the same way, or their results are related. -/
def Checked.Agree {α β : Type} (related : α → β → Prop) : Checked α → Checked β → Prop
  | .ok a, .ok b => related a b
  | .error defect, .error other => defect = other
  | .ok _, .error _ | .error _, .ok _ => False

theorem Checked.Agree.bind {α β γ δ : Type} {related : α → β → Prop} {related' : γ → δ → Prop} {x : Checked α}
    {y : Checked β} {f : α → Checked γ} {g : β → Checked δ} (first : Agree related x y)
    (onward : ∀ a b, x = .ok a → y = .ok b → related a b → Agree related' (f a) (g b)) :
    Agree related' (x >>= f) (y >>= g) := by
  match x, y, first with
  | .ok a, .ok b, first => exact onward a b rfl rfl first
  | .error _, .error _, first => exact first

/-- Computations that fail for sums only agree if either both succeed or none, and their results are related. -/
theorem Checked.OnlyOverflows.agree {α β : Type} {related : α → β → Prop} {x : Checked α} {y : Checked β}
    (only : OnlyOverflows x) (only' : OnlyOverflows y) (both : (∃ a, x = .ok a) ↔ ∃ b, y = .ok b)
    (results : ∀ a b, x = .ok a → y = .ok b → related a b) : Agree related x y := by
  match x, y with
  | .ok a, .ok b => exact results a b rfl rfl
  | .error _, .error _ => exact (only _ rfl).trans (only' _ rfl).symm
  | .ok a, .error _ =>
    obtain ⟨b, failed⟩ := both.1 ⟨a, rfl⟩
    cases failed
  | .error _, .ok b =>
    obtain ⟨a, failed⟩ := both.2 ⟨b, rfl⟩
    cases failed

/-! ## One slot confirmed -/

namespace Slot

variable {allocation : AllocationId} {job : JobId}

/-- The slot after a success for the job under the allocation. -/
def confirmedFor (allocation : AllocationId) (job : JobId) (slot : Slot) : Slot :=
  if slot.allocation = allocation ∧ slot.job = job ∧ slot.state = .pending then { slot with state := .allocated }
  else slot

@[simp] theorem confirmedFor_allocation (slot : Slot) :
    (slot.confirmedFor allocation job).allocation = slot.allocation := by
  unfold confirmedFor
  split <;> rfl

@[simp] theorem confirmedFor_job (slot : Slot) : (slot.confirmedFor allocation job).job = slot.job := by
  unfold confirmedFor
  split <;> rfl

@[simp] theorem confirmedFor_worker (slot : Slot) : (slot.confirmedFor allocation job).worker = slot.worker := by
  unfold confirmedFor
  split <;> rfl

@[simp] theorem confirmedFor_profile (slot : Slot) : (slot.confirmedFor allocation job).profile = slot.profile := by
  unfold confirmedFor
  split <;> rfl

theorem confirmedFor_move (slot : Slot) (place : SlotId) :
    confirmedFor allocation job { slot with place } = { slot.confirmedFor allocation job with place } := by
  unfold confirmedFor
  by_cases waits : slot.allocation = allocation ∧ slot.job = job ∧ slot.state = .pending
  · rw [if_pos waits, if_pos waits]
  · rw [if_neg waits, if_neg waits]

theorem confirmedFor_of_allocated {slot : Slot} (confirmed : slot.state = .allocated) :
    slot.confirmedFor allocation job = slot := by
  simp [confirmedFor, confirmed]

end Slot

namespace Cluster

section

variable {Seed : Type} [Traversal Seed]
variable {cluster next before after : Cluster} {worker : WorkerId} {allocation : AllocationId} {job : JobId}
variable {content : SlotReport} {applied applied' : Bool}

/-- Both states are in order with the same workers, and they differ by a success for the job under the allocation. -/
structure Confirmed (allocation : AllocationId) (job : JobId) (before after : Cluster) : Prop where
  sound : before.Sound
  sound' : after.Sound
  terms : ∀ id, (after.inventory.worker? id).map Worker.terms = (before.inventory.worker? id).map Worker.terms
  slots : ∀ other, after.slot? other = (before.slot? other).map (Slot.confirmedFor allocation job)

namespace Confirmed

/-- A success that is applied makes the difference. -/
theorem of_conclude (sound : before.Sound) {told : Outcome}
    (concluded : before.conclude allocation job .success = .ok (told, after)) :
    Confirmed allocation job before after := by
  have indexed := sound.inventory.indexed
  refine ⟨sound, sound.conclude concluded, sound.inventory.terms_leads (leads_conclude concluded), fun other => ?_⟩
  rw [(slot?_conclude indexed concluded).2]
  cases found : before.slot? other with
  | none => simp
  | some slot =>
    have this := indexed.allocation_eq found
    by_cases its : other = allocation
    · by_cases waits : slot.job = job ∧ slot.state = .pending <;> simp [its, this, settled, Slot.confirmedFor, waits]
    · simp [its, this, Slot.confirmedFor]

/-- The difference determines the second state. -/
theorem unique (confirmed : Confirmed allocation job before after) (confirmed' : Confirmed allocation job before next) :
    after = next :=
  confirmed.sound'.ext confirmed'.sound' (fun other => (confirmed.slots other).trans (confirmed'.slots other).symm)
    fun id => (confirmed.terms id).trans (confirmed'.terms id).symm

/-! ### What the states have in common -/

theorem total?_eq (confirmed : Confirmed allocation job before after) (id : WorkerId) :
    after.inventory.total? id = before.inventory.total? id := Inventory.total_of_terms (confirmed.terms id)

theorem slot?_eq_none_iff (confirmed : Confirmed allocation job before after) (other : AllocationId) :
    after.slot? other = none ↔ before.slot? other = none := by
  rw [confirmed.slots, Option.map_eq_none_iff]

private theorem slots_perm (confirmed : Confirmed allocation job before after) :
    after.inventory.slots.Perm (before.inventory.slots.map (Slot.confirmedFor allocation job)) := by
  have indexed := confirmed.sound.inventory.indexed
  refine confirmed.sound'.inventory.indexed.slots_perm_of_mem ?_ fun slot => ?_
  · refine List.Nodup.of_map Slot.allocation ?_
    rw [List.map_map, show Slot.allocation ∘ Slot.confirmedFor allocation job = Slot.allocation from
      funext Slot.confirmedFor_allocation]
    exact indexed.nodup_allocations
  · rw [List.mem_map, ← slot?_def, confirmed.slots, Option.map_eq_some_iff]
    constructor
    · rintro ⟨other, listed, rfl⟩
      rw [Slot.confirmedFor_allocation]
      exact ⟨other, indexed.mem_slots.1 listed, rfl⟩
    · rintro ⟨other, found, rfl⟩
      rw [Slot.confirmedFor_allocation] at found
      exact ⟨other, indexed.mem_slots.2 found, rfl⟩

theorem load_eq (confirmed : Confirmed allocation job before after) (id : WorkerId) (d : Nat) :
    after.inventory.load id d = before.inventory.load id d := by
  rw [Inventory.load, Slot.takenOn_perm confirmed.slots_perm,
    Slot.takenOn_map id Slot.confirmedFor_worker Slot.confirmedFor_profile]
  rfl

theorem count_eq (confirmed : Confirmed allocation job before after) (other : JobId) (profile : Profile) :
    after.ledger.count other profile = before.ledger.count other profile := by
  rw [confirmed.sound'.balanced.count_eq, confirmed.sound.balanced.count_eq, Inventory.held,
    confirmed.slots_perm.countP_eq, List.countP_map]
  refine List.countP_congr fun slot _ => ?_
  simp [Slot.countsFor]

theorem hasRoom_iff (confirmed : Confirmed allocation job before after) (profile : Profile) :
    after.HasRoom worker profile ↔ before.HasRoom worker profile := by
  have totals := confirmed.total?_eq worker
  have loads := confirmed.load_eq worker
  exact ⟨confirmed.sound'.hasRoom_mono confirmed.sound totals.symm fun d => Nat.le_of_eq (loads d).symm,
    confirmed.sound.hasRoom_mono confirmed.sound' totals fun d => Nat.le_of_eq (loads d)⟩

/-! ### Entries -/

section Entries

variable {entry : SlotStatus × SlotAssignment} {total : Profile} {next' : Cluster}

/-- What an entry makes of a slot it makes of the confirmed one as well, and what it makes appear is confirmed. -/
private theorem aligned_confirmed (entry : SlotStatus × SlotAssignment) (room : Prop) [Decidable room]
    (slot : Option Slot) : aligned worker entry room (slot.map (Slot.confirmedFor allocation job)) =
      (aligned worker entry room slot).map (Slot.confirmedFor allocation job) := by
  cases slot with
  | some slot =>
    rw [Option.map_some, aligned, aligned, Option.map_some, Slot.confirmedFor_worker]
    split
    · exact congrArg some (Slot.confirmedFor_move slot _).symm
    · rfl
  | none =>
    rw [Option.map_none, aligned]
    split
    · exact congrArg some (Slot.confirmedFor_of_allocated rfl).symm
    · rfl

/-- An entry that is brought into line in both states leaves the difference. -/
private theorem of_adopt (confirmed : Confirmed allocation job before after)
    (offered : before.inventory.total? worker = some total)
    (adopted : before.adopt worker entry.1 entry.2 = .ok (applied, next))
    (adopted' : after.adopt worker entry.1 entry.2 = .ok (applied', next')) :
    applied' = applied ∧ Confirmed allocation job next next' := by
  obtain ⟨slots, applies⟩ := confirmed.sound.slot?_adopt offered adopted
  obtain ⟨slots', applies'⟩ := confirmed.sound'.slot?_adopt ((confirmed.total?_eq worker).trans offered) adopted'
  have same : ∀ other, next'.slot? other = (next.slot? other).map (Slot.confirmedFor allocation job) := by
    intro other
    rw [slots', slots]
    split
    · rw [confirmed.slots, ← aligned_confirmed]
      refine aligned_congr fun _ => ?_
      rw [show after.inventory.load worker = before.inventory.load worker from funext (confirmed.load_eq worker)]
    · exact confirmed.slots other
  refine ⟨?_, confirmed.sound.adopt adopted, confirmed.sound'.adopt adopted', fun id => ?_, same⟩
  · rw [applies', applies, same]
    cases next.slot? entry.2.allocation <;> simp
  · rw [confirmed.sound.inventory.terms_leads (leads_adopt adopted),
      confirmed.sound'.inventory.terms_leads (leads_adopt adopted'), confirmed.terms]

theorem adopt (confirmed : Confirmed allocation job before after)
    (offered : before.inventory.total? worker = some total)
    (small : ∀ d, entry.1.profile.parts d + before.inventory.load worker d < Numeral.bound64) :
    Checked.Agree (fun result result' => result'.1 = result.1 ∧ Confirmed allocation job result.2 result'.2)
      (before.adopt worker entry.1 entry.2) (after.adopt worker entry.1 entry.2) := by
  refine (confirmed.sound.adopt_overflows entry).agree (confirmed.sound'.adopt_overflows entry) ?_
    fun _ _ adopted adopted' => confirmed.of_adopt offered adopted adopted'
  have small' : ∀ d, entry.1.profile.parts d + after.inventory.load worker d < Numeral.bound64 := fun d => by
    rw [confirmed.load_eq]
    exact small d
  rw [confirmed.sound.exists_adopt_iff worker entry small, confirmed.sound'.exists_adopt_iff worker entry small',
    confirmed.slot?_eq_none_iff, confirmed.hasRoom_iff, confirmed.count_eq]

theorem adoptAll (confirmed : Confirmed allocation job before after)
    (offered : before.inventory.total? worker = some total) (entries : List (SlotStatus × SlotAssignment))
    (small : ∀ d, Profile.partsOf (entries.map (·.1.profile)) d + before.inventory.load worker d < Numeral.bound64) :
    Checked.Agree (fun result result' => result'.1 = result.1 ∧ Confirmed allocation job result.2 result'.2)
      (before.adoptAll worker entries) (after.adoptAll worker entries) := by
  induction entries generalizing before after with
  | nil => exact ⟨rfl, confirmed⟩
  | cons entry rest ih =>
    simp only [List.map_cons, Profile.partsOf_cons] at small
    rw [adoptAll_cons, adoptAll_cons]
    refine (confirmed.adopt offered fun d => by have := small d; omega).bind ?_
    rintro ⟨first, between⟩ ⟨first', between'⟩ adopts adopts' ⟨rfl, confirmed'⟩
    have offered' : between.inventory.total? worker = some total := by
      rw [confirmed.sound.inventory.total?_leads (leads_adopt adopts), offered]
    refine (ih confirmed' offered' fun d => ?_).bind ?_
    · show _ + between.inventory.load worker d < _
      have := small d
      have := confirmed.sound.load_adopt_le offered adopts d
      omega
    · rintro ⟨others, last⟩ ⟨others', last'⟩ - - ⟨rfl, confirmed''⟩
      exact ⟨rfl, confirmed''⟩

end Entries

/-! ### The whole report -/

section Report

/-- A report releases a slot whether it is confirmed or not, if it names it where that makes a difference. -/
private theorem releases_confirmedFor {slot : Slot} (named : slot.allocation = allocation → slot.job = job →
      slot.state = .pending → slot.worker = worker → content.Names allocation) :
    Releases worker content (slot.confirmedFor allocation job) ↔ Releases worker content slot := by
  rw [Releases, Releases, Slot.confirmedFor_worker]
  refine and_congr_right fun here => ?_
  unfold Slot.confirmedFor
  split
  · next waits =>
    obtain ⟨this, its, pending⟩ := waits
    -- The state counts only for slots that are not named.
    cases found : content.jobs.get? slot.allocation with
    | none => exact absurd (named this its pending here) (SlotReport.jobs_get?_eq_none_iff.1 (this ▸ found))
    | some other => simp [supersedes, found]
  · rfl

theorem report (confirmed : Confirmed allocation job before after)
    (small : ∀ record, before.inventory.worker? worker = some record →
      Profile.Addable (record.profiles ++ content.occupied.map (·.1.profile)))
    (named : ∀ slot, before.slot? allocation = some slot → slot.job = job → slot.state = .pending →
      slot.worker = worker → content.Names allocation) :
    Checked.Agree (fun result result' => result'.1 = result.1 ∧ Confirmed allocation job result.2 result'.2)
      (before.report worker content) (after.report worker content) := by
  have indexed := confirmed.sound.inventory.indexed
  have indexed' := confirmed.sound'.inventory.indexed
  have terms := confirmed.terms worker
  cases registered : before.inventory.worker? worker with
  | none =>
    rw [registered, Option.map_none, Option.map_eq_none_iff] at terms
    rw [report_of_unknown registered, report_of_unknown terms]
    exact ⟨rfl, confirmed⟩
  | some record =>
    rw [registered] at terms
    obtain ⟨record', registered', -⟩ := Option.map_eq_some_iff.1 terms
    have small := indexed.load_lt registered (small record registered)
    have taken : ∀ d, before.inventory.load worker d < Numeral.bound64 := fun d => by
      have := small d
      omega
    obtain ⟨kept, freed⟩ := confirmed.sound.exists_release registered content taken
    obtain ⟨kept', freed'⟩ := confirmed.sound'.exists_release registered' content fun d =>
      confirmed.load_eq worker d ▸ taken d
    have within := Within.of_freeAll confirmed.sound freed
    have within' := Within.of_freeAll confirmed.sound' freed'
    have left : Confirmed allocation job kept kept' := by
      refine ⟨within.sound, within'.sound, fun id => ?_, fun other => ?_⟩
      · rw [within'.terms, within.terms, confirmed.terms]
      · rw [(slot?_release indexed registered freed).2, (slot?_release indexed' registered' freed').2, confirmed.slots]
        cases found : before.slot? other with
        | none => rfl
        | some slot =>
          have same : Releases worker content (slot.confirmedFor allocation job) ↔ Releases worker content slot :=
            releases_confirmedFor fun this its pending here =>
              named slot (by rw [← this, indexed.allocation_eq found, found]) its pending here
          by_cases releases : Releases worker content slot <;> simp [Option.filter, same, releases]
    rw [report_of_registered registered, report_of_registered registered', freed, freed']
    refine left.adoptAll (confirmed.sound.total?_freeAll registered freed) content.occupied fun d => ?_
    have := small d
    have := within.load_le worker d
    omega

end Report

end Confirmed

/-! ## In either order -/

/-- A success can always be applied: the worker of the slot has passed its check, and its sums stay as they are. -/
theorem Sound.exists_confirm (sound : cluster.Sound) (audited : cluster.inventory.Audited) (allocation : AllocationId)
    (job : JobId) : ∃ next, cluster.conclude allocation job .success = .ok (.success, next) := by
  have indexed := sound.inventory.indexed
  by_cases late : cluster.Late allocation job
  · exact ⟨cluster, (conclude_eq_ok_iff ..).2 (.late late)⟩
  · simp only [Late, not_forall, not_not] at late
    obtain ⟨slot, found, its, pending⟩ := late
    obtain ⟨movable, record, registered, held, leaves⟩ := indexed.confirmable found
    have checked : (record.keep { slot with state := .allocated } record.available).audit = .ok () :=
      audited.audit_keep indexed registered held rfl
    have recorded := (Inventory.record_eq_ok_iff _).2 ⟨movable, record, _, registered, leaves, checked, rfl⟩
    exact ⟨⟨_, cluster.ledger⟩, (conclude_eq_ok_iff ..).2 (.confirmed found its pending recorded rfl)⟩

/-- The order matters for a slot that waits on the worker and is not named: it is gone if its success comes before the
    report, and confirmed if it comes after. -/
theorem confirmation_report_differ (indexed : cluster.inventory.Indexed) {slot : Slot}
    (found : cluster.slot? allocation = some slot) (pending : slot.state = .pending)
    (unnamed : ¬content.Names allocation) {confirmed reported last last' : Cluster} {told told' : Outcome}
    (concluded : cluster.conclude allocation slot.job .success = .ok (told, confirmed))
    (second : confirmed.report slot.worker content = .ok (applied, last))
    (first : cluster.report slot.worker content = .ok (applied', reported))
    (concluded' : reported.conclude allocation slot.job .success = .ok (told', last')) :
    last.slot? allocation = none ∧ last'.slot? allocation = some { slot with state := .allocated } := by
  obtain ⟨indexed', settles⟩ := slot?_conclude indexed concluded
  obtain ⟨-, settles'⟩ := slot?_conclude (slot?_report indexed first).1 concluded'
  have unlisted : content.jobs.get? slot.allocation = none :=
    SlotReport.jobs_get?_eq_none_iff.2 (indexed.allocation_eq found ▸ unnamed)
  constructor
  · rw [slot?_report_of_unnamed indexed' second unnamed, settles, if_pos rfl, found]
    simp [settled, pending, Option.filter, Releases, Slot.worker, supersedes, unlisted]
  · rw [settles', if_pos rfl, slot?_report_of_unnamed indexed first unnamed, found]
    simp [settled, pending, Option.filter, Releases, supersedes, unlisted]

/-- In a state that a run has reached, the success of a request and a report have the same effect and the same answers
    in either order, where what is reported and the slots of its worker come to no more than 64 bits, unless the slot
    waits on that worker for the success and the report does not name it. If there are so many slots that a count of 32
    bits overflows, then the report fails in either order. -/
theorem confirmation_report_comm (worker : WorkerId) (allocation : AllocationId) (job : JobId) {history : List Event}
    (reached : empty.run history = .ok cluster)
    (trimmed : ∀ worker total defaultSlot, .register worker total defaultSlot ∈ history → total.Trimmed)
    (small : ∀ record, cluster.inventory.worker? worker = some record →
      Profile.Addable (record.profiles ++ content.occupied.map (·.1.profile)))
    (named : ∀ slot, cluster.slot? allocation = some slot → slot.job = job → slot.state = .pending →
      slot.worker = worker → content.Names allocation) :
    ∃ confirmed, cluster.conclude allocation job .success = .ok (.success, confirmed) ∧
      ((∃ applied reported last, cluster.report worker content = .ok (applied, reported) ∧
        reported.conclude allocation job .success = .ok (.success, last) ∧
        confirmed.report worker content = .ok (applied, last)) ∨
      (cluster.report worker content = .error .additionOverflow ∧
        confirmed.report worker content = .error .additionOverflow ∧
        Numeral.bound32 ≤ cluster.inventory.slotCount + content.occupied.length)) := by
  have sound := sound_empty.run trimmed reached
  have audited := sound_empty.audited_run Inventory.audited_empty trimmed reached
  obtain ⟨confirmed, concluded⟩ := sound.exists_confirm audited allocation job
  refine ⟨confirmed, concluded, ?_⟩
  have agree := (Confirmed.of_conclude sound concluded).report small named
  match reported : cluster.report worker content, reported' : confirmed.report worker content, agree with
  | .ok (applied, next), .ok (_, last), ⟨rfl, differ⟩ =>
    obtain ⟨last', concluded'⟩ := (sound.report reported).exists_confirm
      (sound.inventory.audited_leads audited (leads_report reported)) allocation job
    obtain rfl := differ.unique (.of_conclude (sound.report reported) concluded')
    exact .inl ⟨applied, next, last, rfl, concluded', rfl⟩
  | .error defect, .error _, rfl =>
    cases registered : cluster.inventory.worker? worker with
    | none =>
      rw [report_of_unknown registered] at reported
      cases reported
    | some record =>
      rcases sound.report_or_overflow registered (small record registered) with ⟨_, _, succeeds⟩ | ⟨failed, many⟩
      · rw [reported] at succeeds
        cases succeeds
      · obtain rfl := Except.error.inj (reported.symm.trans failed)
        exact .inr ⟨rfl, rfl, many⟩

end

/-- A pending slot and another one that the report does not name. -/
private def confirmationHistory : List Event :=
  [.register ⟨1⟩ (.ofUnits 4 0) .any, .reserve ⟨1⟩ ⟨7⟩ ⟨0⟩ (.ofUnits 2 0), .reserve ⟨1⟩ ⟨7⟩ ⟨1⟩ (.ofUnits 1 0)]

/-- The pending slot under another job first and then under its own, and one that does not fit. -/
private def confirmationReport : SlotReport :=
  ⟨[⟨⟨⟨1⟩, 4⟩, .ofUnits 1 0, some ⟨⟨8⟩, ⟨0⟩⟩⟩, ⟨⟨⟨1⟩, 5⟩, .ofUnits 2 0, some ⟨⟨9⟩, ⟨2⟩⟩⟩,
    ⟨⟨⟨1⟩, 6⟩, .ofUnits 2 0, some ⟨⟨7⟩, ⟨0⟩⟩⟩]⟩

/-- The pending slot moves to its reported place, confirmed before or after. -/
theorem confirmation_report_comm_kept : ∃ cluster confirmed reported last,
    empty.run confirmationHistory = .ok cluster ∧ cluster.conclude ⟨0⟩ ⟨7⟩ .success = .ok (.success, confirmed) ∧
    cluster.report ⟨1⟩ confirmationReport = .ok (false, reported) ∧
    reported.conclude ⟨0⟩ ⟨7⟩ .success = .ok (.success, last) ∧
    confirmed.report ⟨1⟩ confirmationReport = .ok (false, last) ∧ reported ≠ last := by
  obtain ⟨cluster, reached⟩ := Checked.isOk_iff.1 (show (empty.run confirmationHistory).isOk = true from rfl)
  have worker : (empty.run confirmationHistory).map (fun cluster =>
      (cluster.inventory.worker? ⟨1⟩).map (·.profiles)) = .ok (some [.ofUnits 2 0, .ofUnits 1 0]) := rfl
  have effect : (empty.run confirmationHistory >>= fun cluster => cluster.report ⟨1⟩ confirmationReport).map
      (fun result => (result.1, result.2.slot? ⟨0⟩)) =
      .ok (false, some ⟨⟨0⟩, ⟨7⟩, ⟨⟨1⟩, 6⟩, .ofUnits 2 0, .pending⟩) := rfl
  rw [reached] at worker effect
  have trimmed := Event.trimmed_of_totals (show ∀ total ∈ confirmationHistory.filterMap Event.total?, _ by decide)
  have small : Profile.Addable ([.ofUnits 2 0, .ofUnits 1 0] ++ confirmationReport.occupied.map (·.1.profile)) := by
    decide
  have named : ∀ slot, cluster.slot? ⟨0⟩ = some slot → slot.job = ⟨7⟩ → slot.state = .pending →
      slot.worker = ⟨1⟩ → confirmationReport.Names ⟨0⟩ := fun _ _ _ _ _ => by decide
  have effect : (cluster.report ⟨1⟩ confirmationReport).map (fun result => (result.1, result.2.slot? ⟨0⟩)) = _ := effect
  obtain ⟨confirmed, concluded, ⟨applied, reported, last, first, after, second⟩ | ⟨failed, -⟩⟩ :=
    confirmation_report_comm ⟨1⟩ ⟨0⟩ ⟨7⟩ reached trimmed (Inventory.addable_of_profiles (Except.ok.inj worker) small)
      named
  · rw [first] at effect
    obtain ⟨rfl, found⟩ := Prod.mk.inj (Except.ok.inj effect)
    refine ⟨cluster, confirmed, reported, last, reached, concluded, first, after, second, fun same => ?_⟩
    -- The slot was pending after the report alone, and it is confirmed in the end.
    have settles := (slot?_conclude ((sound_empty.run trimmed reached).report first).inventory.indexed after).2 ⟨0⟩
    rw [← same, if_pos rfl, show reported.slot? ⟨0⟩ = _ from found] at settles
    simp [settled] at settles
  · rw [failed] at effect
    cases effect

end Cluster

end SlotControl
