import SlotControl.Proofs.Adoption

/-!
What can fail in a state in order. The accounts are right there, so that an operation fails for a sum or a
count that is too large and for nothing else, unless it reserves an allocation that is in use. And as workers
are checked when they change, every worker of a state that was reached passes its check; as counts are checked
when they grow, all of them fit their width.
-/

namespace SlotControl

variable {Seed : Type} [Traversal Seed]

/-- Nothing fails but for a sum or a count that is too large. -/
def Checked.OnlyOverflows {α : Type} (x : Checked α) : Prop := ∀ defect, x = .error defect → defect = .additionOverflow

namespace Checked.OnlyOverflows

variable {α β : Type} {x : Checked α}

theorem of_ok {a : α} (succeeds : x = .ok a) : OnlyOverflows x := by
  rintro defect failed
  rw [succeeds] at failed
  cases failed

theorem of_overflow (fails : x = .error .additionOverflow) : OnlyOverflows x := by
  rintro defect failed
  rw [fails] at failed
  exact (Except.error.inj failed).symm

theorem bind {f : α → Checked β} (first : OnlyOverflows x) (onward : ∀ a, x = .ok a → OnlyOverflows (f a)) :
    OnlyOverflows (x >>= f) := by
  intro defect failed
  cases result : x with
  | error earlier =>
    rw [result] at failed
    exact Except.error.inj failed ▸ first earlier result
  | ok a =>
    rw [result] at failed
    exact onward a result defect failed

/-- What succeeds in every case succeeds after it. -/
theorem then_ok {f : α → Checked β} (first : OnlyOverflows x) {g : α → β} (onward : ∀ a, f a = .ok (g a)) :
    OnlyOverflows (x >>= f) := first.bind fun a _ => of_ok (onward a)

theorem map {f : α → β} (first : OnlyOverflows x) : OnlyOverflows (x.map f) := by
  intro defect failed
  cases result : x with
  | error earlier =>
    rw [result] at failed
    exact Except.error.inj failed ▸ first earlier result
  | ok a =>
    rw [result] at failed
    cases failed

theorem cases (only : OnlyOverflows x) : (∃ a, x = .ok a) ∨ x = .error .additionOverflow := by
  cases result : x with
  | ok a => exact .inl ⟨a, rfl⟩
  | error defect => exact .inr (by rw [only defect result])

end Checked.OnlyOverflows

open Checked (OnlyOverflows)

/-! ## Failures of the inventory -/

/-- The check of an account in order fails at most because the sum of the slots is too large. -/
theorem Worker.Accounted.audit_overflows {worker : Worker} (accounted : worker.Accounted)
    (named : ∀ slot ∈ worker.slots.values, slot.worker = worker.id) : OnlyOverflows worker.audit := by
  cases sum : worker.occupied? with
  | none =>
    refine .of_overflow ?_
    rw [Worker.occupied?] at sum
    rw [Worker.audit, Worker.auditIn, sum]
    rfl
  | some occupied => exact .of_ok ((accounted.audit_iff named).2 fun _ => ⟨occupied, sum⟩)

namespace Inventory

variable {inventory next : Inventory}

theorem Sound.record_overflows (sound : inventory.Sound) {slot : Slot} {worker : Worker} {available : Profile}
    (movable : inventory.Movable slot) (registered : inventory.worker? slot.worker = some worker)
    (leaves : worker.Leaves slot available) : OnlyOverflows (inventory.record slot) := by
  rw [record_of_registered movable registered, (Worker.record_eq_ok_iff ..).2 ⟨available, leaves, rfl⟩]
  have checks := ((sound.accounted registered).keep leaves).audit_overflows
    (sound.indexed.named_keep registered available)
  exact checks.then_ok fun _ => rfl

theorem Sound.removeSlot_overflows (sound : inventory.Sound) (allocation : AllocationId) :
    OnlyOverflows (inventory.removeSlot allocation) := by
  cases found : inventory.slot? allocation with
  | none => exact .of_ok (sound.indexed.removeSlot_of_none found)
  | some slot =>
    obtain ⟨worker, registered, held⟩ := sound.indexed.registered_of_slot? found
    have owner : inventory.owners.get? allocation = some slot.worker := by
      rw [sound.indexed.owners_get?, found]
      rfl
    obtain ⟨rest, given, accounted⟩ := (sound.accounted registered).drop held
    have released := (Worker.release_eq_ok_iff { worker with slots := worker.slots.erase allocation } _ _).2
      ⟨rest, given, rfl⟩
    simp only [Inventory.removeSlot, owner, registered, held, released]
    exact (accounted.audit_overflows (sound.indexed.named_drop registered allocation rest)).then_ok fun _ => rfl

end Inventory

/-! ## Failures of the operations -/

namespace Cluster

variable {cluster next : Cluster} {worker : WorkerId} {allocation : AllocationId}

theorem Sound.free_overflows (sound : cluster.Sound) (allocation : AllocationId) :
    OnlyOverflows (cluster.free allocation) := by
  refine (sound.inventory.removeSlot_overflows allocation).bind ?_
  rintro ⟨_ | slot, inventory⟩ removed
  · exact .of_ok rfl
  · rcases sound.inventory.indexed.removeSlot removed with ⟨-, absent, -⟩ | ⟨_, _, _, found, same, -⟩
    · cases absent
    · obtain rfl := Option.some.inj same
      have lost : discharge cluster.ledger slot = .ok _ :=
        (Ledger.lose_eq_ok_iff sound.balanced.tidy ..).2 ⟨sound.balanced.count_pos found, rfl⟩
      exact (OnlyOverflows.of_ok lost).then_ok fun _ => rfl

theorem Sound.occupy_overflows (sound : cluster.Sound) (slot : Slot) (absent : cluster.slot? slot.allocation = none)
    (room : cluster.HasRoom slot.worker slot.profile) : OnlyOverflows (cluster.occupy slot) := by
  obtain ⟨movable, record, rest, registered, -, leaves⟩ := recordable sound.inventory.indexed slot absent room
  refine (sound.inventory.record_overflows movable registered leaves).bind fun inventory _ => ?_
  refine OnlyOverflows.then_ok ?_ fun _ => rfl
  rw [Ledger.acquire]
  split
  · exact .of_ok rfl
  · exact .of_overflow rfl

theorem Sound.conclude_overflows (sound : cluster.Sound) (allocation : AllocationId) (job : JobId)
    (outcome : Outcome) : OnlyOverflows (cluster.conclude allocation job outcome) := by
  rw [Cluster.conclude]
  split
  · exact .of_ok rfl
  · next slot waiting =>
    obtain ⟨found, -⟩ := Option.filter_eq_some_iff.1 waiting
    cases outcome with
    | success =>
      obtain ⟨movable, record, registered, -, leaves⟩ := sound.inventory.indexed.confirmable found
      exact (sound.inventory.record_overflows movable registered leaves).then_ok fun _ => rfl
    | failure cause => exact (sound.free_overflows allocation).then_ok fun _ => rfl

theorem Sound.freeAll_overflows (sound : cluster.Sound) (allocations : List AllocationId) :
    OnlyOverflows (cluster.freeAll allocations) := by
  induction allocations generalizing cluster with
  | nil => exact .of_ok rfl
  | cons allocation rest ih =>
    rw [freeAll_cons]
    exact (sound.free_overflows allocation).bind fun ⟨result, between⟩ freed => ih (sound.free freed)

theorem Sound.adopt_overflows (sound : cluster.Sound) (entry : SlotStatus × SlotAssignment) :
    OnlyOverflows (cluster.adopt worker entry.1 entry.2) := by
  cases found : cluster.slot? entry.2.allocation with
  | some slot =>
    obtain ⟨applied, next, adopted⟩ := exists_adopt_of_some sound.inventory.indexed found
    exact .of_ok adopted
  | none =>
    by_cases fits : cluster.HasRoom worker entry.1.profile
    · have occupies := sound.occupy_overflows (proposed worker entry) found fits
      simp only [Cluster.adopt, found, (Cluster.hasRoom_iff ..).1 fits, if_true]
      exact occupies.then_ok fun _ => rfl
    · exact .of_ok ((adopt_eq_ok_iff ..).2 (.refused found fits))

theorem Sound.adoptAll_overflows (sound : cluster.Sound) (entries : List (SlotStatus × SlotAssignment)) :
    OnlyOverflows (cluster.adoptAll worker entries) := by
  induction entries generalizing cluster with
  | nil => exact .of_ok rfl
  | cons entry rest ih =>
    rw [adoptAll_cons]
    refine (sound.adopt_overflows entry).bind fun ⟨first, between⟩ adopted => ?_
    exact (ih (sound.adopt adopted)).then_ok fun _ => rfl

theorem Sound.report_overflows (sound : cluster.Sound) (worker : WorkerId) (report : SlotReport) :
    OnlyOverflows (cluster.report worker report) := by
  cases registered : cluster.inventory.worker? worker with
  | none => exact .of_ok (report_of_unknown registered report)
  | some record =>
    rw [report_of_registered registered]
    exact (sound.freeAll_overflows _).bind fun kept freed => (sound.freeAll freed).adoptAll_overflows report.occupied

theorem Sound.reserve_overflows (sound : cluster.Sound) (worker : WorkerId) (job : JobId) (profile : Profile)
    (fresh : cluster.HasRoom worker profile → cluster.slot? allocation = none) :
    OnlyOverflows (cluster.reserve worker job allocation profile) := by
  by_cases room : cluster.HasRoom worker profile
  · have absent := fresh room
    have occupies := sound.occupy_overflows ⟨allocation, job, .dynamic worker, profile, .pending⟩ absent room
    obtain ⟨record, registered, fits⟩ := room
    simp only [Cluster.reserve, registered, fits, absent, if_true]
    exact occupies.then_ok fun _ => rfl
  · exact .of_ok (reserve_of_full room job allocation).choose_spec

/-- In a state in order an operation fails only because a sum or a count is too large, unless it reserves an
    allocation that is in use. -/
theorem Sound.perform_overflows (sound : cluster.Sound) {event : Event}
    (fresh : ∀ worker job allocation profile, event = .reserve worker job allocation profile →
      cluster.HasRoom worker profile → cluster.slot? allocation = none) : OnlyOverflows (cluster.perform event) := by
  cases event with
  | register worker total defaultSlot =>
    rw [Cluster.perform]
    split <;> exact .of_ok rfl
  | removeWorker worker => exact (OnlyOverflows.of_ok (sound.removes worker).choose_spec.choose_spec).map
  | conclude allocation job outcome => exact (sound.conclude_overflows allocation job outcome).map
  | free allocation => exact (sound.free_overflows allocation).map
  | report worker report => exact (sound.report_overflows worker report).map
  | reserve worker job allocation profile =>
    refine (sound.reserve_overflows worker job profile (fresh _ _ _ _ rfl)).bind fun decided _ => ?_
    cases decided <;> exact .of_ok rfl

end Cluster

/-! ## Checks that were passed -/

namespace Inventory

variable {inventory next : Inventory}

/-- Every worker passes its check. -/
def Audited (inventory : Inventory) : Prop := ∀ ⦃id worker⦄, inventory.worker? id = some worker → worker.audit = .ok ()

theorem audited_empty : empty.Audited := nofun

private theorem Audited.insert (audited : inventory.Audited) {id : WorkerId} {worker : Worker}
    (checked : worker.audit = .ok ()) (owners : SortedMap AllocationId WorkerId) :
    Audited ⟨inventory.workers.insert id worker, owners⟩ := by
  intro other record registered
  rw [worker?, SortedMap.get?_insert] at registered
  split at registered
  · exact Option.some.inj registered ▸ checked
  · exact audited registered

theorem Audited.addWorker (audited : inventory.Audited) {id : WorkerId} {total defaultSlot : Profile}
    (trimmed : total.Trimmed) (added : inventory.addWorker id total defaultSlot = .ok next) : next.Audited := by
  obtain ⟨-, rfl⟩ := (addWorker_eq_ok_iff ..).1 added
  exact audited.insert ((Worker.accounted_register id defaultSlot trimmed).audit (fun d => Nat.two_pow_pos 64) nofun) _

theorem Audited.removeWorker (audited : inventory.Audited) (indexed : inventory.Indexed) (id : WorkerId) :
    (inventory.removeWorker id).2.Audited := by
  intro other worker registered
  rw [(indexed.removeWorker id).2.1] at registered
  split at registered
  · cases registered
  · exact audited registered

theorem Audited.record (audited : inventory.Audited) {slot : Slot} (recorded : inventory.record slot = .ok next) :
    next.Audited := by
  obtain ⟨-, worker, available, -, -, checked, rfl⟩ := (record_eq_ok_iff _).1 recorded
  exact audited.insert checked _

theorem Audited.removeSlot (audited : inventory.Audited) (indexed : inventory.Indexed) {allocation : AllocationId}
    {result : Option Slot} (removed : inventory.removeSlot allocation = .ok (result, next)) : next.Audited := by
  cases found : inventory.slot? allocation with
  | none =>
    rw [indexed.removeSlot_of_none found] at removed
    exact (Prod.mk.inj (Except.ok.inj removed)).2 ▸ audited
  | some slot =>
    obtain ⟨worker, rest, -, -, checked, -, rfl⟩ := (indexed.removeSlot_eq_ok_iff found _).1 removed
    exact audited.insert checked _

/-- A worker on which a slot is replaced by one of the same profile passes its check: it visits the same profiles in
    the same order. -/
theorem Audited.audit_keep (audited : inventory.Audited) (indexed : inventory.Indexed) {worker : Worker}
    {slot previous : Slot} (registered : inventory.worker? slot.worker = some worker)
    (held : worker.slot? slot.allocation = some previous) (same : slot.profile = previous.profile) :
    (worker.keep slot worker.available).audit = .ok () := by
  have profiles := worker.profiles_visited_keep held same worker.available
  obtain ⟨⟨occupied, sum, made_up⟩, -⟩ := (Worker.audit_eq_ok_iff worker).1 (audited registered)
  exact (Worker.audit_eq_ok_iff (worker.keep slot worker.available)).2
    ⟨⟨occupied, (congrArg Profile.sum? profiles).trans sum, made_up⟩, indexed.named_keep registered worker.available⟩

/-- A slot that moves is not checked again. -/
theorem Audited.setPlace (audited : inventory.Audited) (indexed : inventory.Indexed) {allocation : AllocationId}
    {place : SlotId} (moved : inventory.setPlace allocation place = .ok next) : next.Audited := by
  cases found : inventory.slot? allocation with
  | none =>
    rw [indexed.setPlace_of_none found] at moved
    exact Except.ok.inj moved ▸ audited
  | some slot =>
    obtain ⟨same, worker, registered, rfl⟩ := (indexed.setPlace_eq_ok_iff found).1 moved
    have held : worker.slot? slot.allocation = some slot := by
      rw [indexed.worker_slot? registered, indexed.allocation_eq found, found]
      simp [Option.filter]
    have here : inventory.worker? ({ slot with place } : Slot).worker = some worker :=
      (congrArg inventory.worker? same.symm).trans registered
    exact audited.insert (audited.audit_keep indexed here held rfl) _

theorem Sound.audited_leads {first last : Inventory} (sound : first.Sound) (audited : first.Audited)
    (leads : first.Leads last) : last.Audited := by
  induction leads with
  | refl => exact audited
  | record _ recorded ih => exact ih.record recorded
  | setPlace before moved ih => exact ih.setPlace (sound.leads before).indexed moved
  | removeSlot before removed ih => exact ih.removeSlot (sound.leads before).indexed removed

end Inventory

namespace Cluster

variable {cluster next : Cluster}

theorem Sound.audited_perform (sound : cluster.Sound) (audited : cluster.inventory.Audited) {event : Event}
    {answer : Answer}
    (trimmed : ∀ worker total defaultSlot, event = .register worker total defaultSlot → total.Trimmed)
    (performed : cluster.perform event = .ok (answer, next)) : next.inventory.Audited := by
  have onward : cluster.inventory.Leads next.inventory → next.inventory.Audited :=
    sound.inventory.audited_leads audited
  cases performed_of_perform performed with
  | notRegistered | notReserved => exact audited
  | registered added =>
    obtain ⟨inventory, accepted, rfl⟩ := (register_eq_ok_iff ..).1 added
    exact audited.addWorker (trimmed _ _ _ rfl) accepted
  | workerRemoved removed =>
    rw [((removeWorker_eq_ok_iff ..).1 removed).2.1]
    exact audited.removeWorker sound.inventory.indexed _
  | reserved accepted => exact onward (leads_reserve accepted)
  | concluded concluded => exact onward (leads_conclude concluded)
  | freed freed => exact onward (leads_free freed)
  | reported reported => exact onward (leads_report reported)

theorem Sound.audited_run (sound : cluster.Sound) (audited : cluster.inventory.Audited) {events : List Event}
    (trimmed : ∀ worker total defaultSlot, .register worker total defaultSlot ∈ events → total.Trimmed)
    (performed : cluster.run events = .ok next) : next.inventory.Audited := by
  induction events generalizing cluster with
  | nil => exact Except.ok.inj performed ▸ audited
  | cons event rest ih =>
    obtain ⟨answer, between, first, continued⟩ := (run_cons_eq_ok_iff event rest).1 performed
    have now : ∀ worker total defaultSlot, event = .register worker total defaultSlot → total.Trimmed := by
      rintro worker total defaultSlot rfl
      exact trimmed worker total defaultSlot (.head _)
    exact ih (sound.perform now first) (sound.audited_perform audited now first)
      (fun worker total defaultSlot later => trimmed worker total defaultSlot (.tail _ later)) continued

end Cluster

/-! ## Counts within their width -/

namespace Ledger

variable {ledger next : Ledger}

/-- Every count fits 32 bits. -/
def Bounded (ledger : Ledger) : Prop := ∀ job profile, ledger.count job profile < Numeral.bound32

theorem bounded_empty : empty.Bounded := fun _ _ => Nat.two_pow_pos 32

theorem Bounded.acquire (bounded : ledger.Bounded) {job : JobId} {profile : Profile}
    (acquired : ledger.acquire job profile = .ok next) : next.Bounded := by
  obtain ⟨few, rfl⟩ := (acquire_eq_ok_iff job profile).1 acquired
  intro other held
  rw [count_setCount]
  split
  · exact few
  · exact bounded other held

theorem Bounded.dischargeAll (bounded : ledger.Bounded) (tidy : ledger.Tidy) {slots : List Slot}
    (lost : slots.foldlM Cluster.discharge ledger = .ok next) : next.Bounded := by
  intro job profile
  have counted := (tidy.dischargeAll lost).2 job profile
  have := bounded job profile
  omega

end Ledger

namespace Cluster

variable {cluster next : Cluster} {worker : WorkerId}

theorem Balanced.bounded_free (balanced : cluster.Balanced) (bounded : cluster.ledger.Bounded)
    {allocation : AllocationId} {result : Option Slot} (freed : cluster.free allocation = .ok (result, next)) :
    next.ledger.Bounded := by
  rcases (free_eq_ok_iff balanced.indexed ..).1 freed with ⟨-, -, rfl⟩ | ⟨slot, -, -, -, lost⟩
  · exact bounded
  · have alone : [slot].foldlM discharge cluster.ledger = .ok next.ledger := by simpa [discharge] using lost
    exact bounded.dischargeAll balanced.tidy alone

theorem bounded_occupy (bounded : cluster.ledger.Bounded) {slot : Slot} (occupied : cluster.occupy slot = .ok next) :
    next.ledger.Bounded := bounded.acquire ((occupy_eq_ok_iff slot).1 occupied).2

theorem Balanced.bounded_report (balanced : cluster.Balanced) (bounded : cluster.ledger.Bounded)
    {report : SlotReport} {applied : Bool} (reported : cluster.report worker report = .ok (applied, next)) :
    next.ledger.Bounded := by
  rcases report_eq_ok reported with ⟨-, -, rfl⟩ | ⟨record, kept, -, freed, adopted⟩
  · exact bounded
  · have left : kept.Balanced ∧ kept.ledger.Bounded := by
      refine Checked.foldlM_keeps (fun state : Cluster => state.Balanced ∧ state.ledger.Bounded) ?_
        ⟨balanced, bounded⟩ freed
      rintro state allocation after ⟨balanced', bounded'⟩ stepped
      simp only [Checked.bind_eq_ok_iff, Checked.pure_eq_ok_iff] at stepped
      obtain ⟨_, freed, rfl⟩ := stepped
      exact ⟨balanced'.free freed, balanced'.bounded_free bounded' freed⟩
    refine Checked.foldlM_keeps (fun state : Bool × Cluster => state.2.ledger.Bounded) ?_ left.2 adopted
    rintro ⟨_, state⟩ entry ⟨_, after⟩ bounded' stepped
    simp only [Checked.bind_eq_ok_iff, Checked.pure_eq_ok_iff, Prod.mk.injEq] at stepped
    obtain ⟨⟨_, _⟩, adopted, _, rfl⟩ := stepped
    cases (adopt_eq_ok_iff ..).1 adopted with
    | elsewhere | refused => exact bounded'
    | placed found here moved ledger => exact ledger ▸ bounded'
    | occupied absent room occupies => exact bounded_occupy bounded' occupies

theorem Balanced.bounded_perform (balanced : cluster.Balanced) (bounded : cluster.ledger.Bounded) {event : Event}
    {answer : Answer} (performed : cluster.perform event = .ok (answer, next)) : next.ledger.Bounded := by
  cases performed_of_perform performed with
  | notRegistered | notReserved => exact bounded
  | registered added => exact (slot?_register balanced.indexed added).2.1 ▸ bounded
  | workerRemoved removed => exact bounded.dischargeAll balanced.tidy ((removeWorker_eq_ok_iff ..).1 removed).2.2
  | reserved accepted => exact bounded_occupy bounded ((reserve_eq_ok_iff ..).1 accepted).2.2
  | freed freed => exact balanced.bounded_free bounded freed
  | reported reported => exact balanced.bounded_report bounded reported
  | concluded concluded =>
    cases (conclude_eq_ok_iff ..).1 concluded with
    | late => exact bounded
    | confirmed found its pending recorded ledger => exact ledger ▸ bounded
    | withdrawn found its pending freed => exact balanced.bounded_free bounded freed

/-- In every state that was reached, the counts of the jobs fit their width. -/
theorem Balanced.bounded_run (balanced : cluster.Balanced) (bounded : cluster.ledger.Bounded) {events : List Event}
    (performed : cluster.run events = .ok next) : next.ledger.Bounded := by
  induction events generalizing cluster with
  | nil => exact Except.ok.inj performed ▸ bounded
  | cons event rest ih =>
    obtain ⟨answer, between, first, continued⟩ := (run_cons_eq_ok_iff event rest).1 performed
    exact ih (balanced.perform first) (balanced.bounded_perform bounded first) continued

end Cluster

end SlotControl
