import SlotControl.Proofs.LateAnswers
import SlotControl.Proofs.Overflow
import SlotControl.Proofs.Robustness

/-!
A request that fails leaves no trace, whatever happened while it was under way. Two runs of the same
operations go side by side, one with the reserved slot and one without it. While the slot is held, the states
differ by it alone; once its worker is removed, they are the same; and the failure of the request makes them
the same otherwise. Main statement: `failed_request_leaves_no_trace`.
-/

namespace SlotControl

/-- The operation is about the allocation, or it is a report that names it. -/
def Event.Mentions (allocation : AllocationId) : Event → Prop
  | .reserve _ _ other _ | .conclude other _ _ | .free other => other = allocation
  | .report _ content => content.Names allocation
  | .register .. | .removeWorker .. => False

namespace Cluster

section

variable {Seed : Type} [Traversal Seed]
variable {cluster next held bare : Cluster} {slot : Slot} {worker : WorkerId}

/-! ## Runs with their answers -/

/-- Performs operations one after the other, and gives what each of them tells. -/
def replies (cluster : Cluster) : List Event → Checked (List Answer × Cluster)
  | [] => .ok ([], cluster)
  | event :: rest => do
    let (answer, next) ← cluster.perform event
    let (answers, last) ← next.replies rest
    return (answer :: answers, last)

theorem replies_cons_eq_ok_iff {event : Event} {rest : List Event} {answers : List Answer} :
    cluster.replies (event :: rest) = .ok (answers, next) ↔ ∃ answer between others,
      cluster.perform event = .ok (answer, between) ∧ between.replies rest = .ok (others, next) ∧
        answers = answer :: others := by
  simp only [replies, Checked.bind_eq_ok_iff, Checked.pure_eq_ok_iff, Prod.mk.injEq]
  constructor
  · rintro ⟨⟨answer, between⟩, performed, ⟨others, _⟩, continued, rfl, rfl⟩
    exact ⟨answer, between, others, performed, continued, rfl⟩
  · rintro ⟨answer, between, others, performed, continued, rfl⟩
    exact ⟨_, performed, _, continued, rfl, rfl⟩

/-- Without the answers it is a run. -/
theorem map_replies (cluster : Cluster) (events : List Event) :
    (cluster.replies events).map (·.2) = cluster.run events := by
  induction events generalizing cluster with
  | nil => rfl
  | cons event rest ih =>
    rw [replies, run, List.foldlM_cons]
    cases cluster.perform event with
    | error defect => rfl
    | ok result =>
      have continued := ih result.2
      rw [run] at continued
      show (result.2.replies rest >>= fun later => pure (result.1 :: later.1, later.2)).map (·.2) =
        rest.foldlM _ result.2
      rw [← continued]
      cases result.2.replies rest <;> rfl

/-- Where an operation asks a registered worker for a new slot, there is room for it. -/
def Accommodates (cluster : Cluster) (event : Event) : Prop :=
  ∀ demand ∈ event.demands cluster, demand.1.inventory.worker? demand.2.worker ≠ none →
    demand.1.HasRoom demand.2.worker demand.2.profile

/-- Nothing is refused for want of room in a run. -/
def AccommodatesAll : Cluster → List Event → Prop
  | _, [] => True
  | cluster, event :: rest =>
    cluster.Accommodates event ∧
      ∀ answer next, cluster.perform event = .ok (answer, next) → next.AccommodatesAll rest

/-! ## Two states side by side -/

/-- Both states are in order, and the first has one slot more. -/
structure Beside (slot : Slot) (held bare : Cluster) : Prop where
  sound : held.Sound
  sound' : bare.Sound
  absent : bare.slot? slot.allocation = none
  slots : ∀ other, held.slot? other = if other = slot.allocation then some slot else bare.slot? other
  terms : ∀ id, (held.inventory.worker? id).map Worker.terms = (bare.inventory.worker? id).map Worker.terms

namespace Beside

theorem found (beside : Beside slot held bare) : held.slot? slot.allocation = some slot := by
  rw [beside.slots, if_pos rfl]

theorem slot?_of_ne (beside : Beside slot held bare) {other : AllocationId} (apart : other ≠ slot.allocation) :
    held.slot? other = bare.slot? other := by
  rw [beside.slots, if_neg apart]

/-- States are side by side if the first has the slot, the second does not, and the other slots and the terms
    are alike. -/
theorem of_slots (sound : held.Sound) (sound' : bare.Sound) (found : held.slot? slot.allocation = some slot)
    (absent : bare.slot? slot.allocation = none)
    (slots : ∀ other, other ≠ slot.allocation → held.slot? other = bare.slot? other)
    (terms : ∀ id, (held.inventory.worker? id).map Worker.terms = (bare.inventory.worker? id).map Worker.terms) :
    Beside slot held bare := by
  refine ⟨sound, sound', absent, fun other => ?_, terms⟩
  split
  · next same => rw [same, found]
  · next apart => exact slots other apart

theorem worker?_eq_none_iff (beside : Beside slot held bare) (id : WorkerId) :
    held.inventory.worker? id = none ↔ bare.inventory.worker? id = none := by
  rw [← Option.map_eq_none_iff (f := Worker.terms), beside.terms, Option.map_eq_none_iff]

theorem total?_eq (beside : Beside slot held bare) (id : WorkerId) :
    held.inventory.total? id = bare.inventory.total? id := Inventory.total_of_terms (beside.terms id)

/-- Without the slot no worker is fuller. -/
theorem load_le (beside : Beside slot held bare) (id : WorkerId) (d : Nat) :
    bare.inventory.load id d ≤ held.inventory.load id d := by
  have listed := beside.sound'.inventory.indexed.slots_cons beside.sound.inventory.indexed beside.absent beside.slots
  rw [Inventory.load, Inventory.load, Slot.takenOn_perm listed, Slot.takenOn_cons]
  exact Nat.le_add_left ..

theorem hasRoom (beside : Beside slot held bare) {profile : Profile} (room : held.HasRoom worker profile) :
    bare.HasRoom worker profile :=
  beside.sound.hasRoom_mono beside.sound' (beside.total?_eq worker).symm (beside.load_le worker) room

theorem exists_worker (beside : Beside slot held bare) {id : WorkerId} {record : Worker}
    (registered : held.inventory.worker? id = some record) : ∃ record', bare.inventory.worker? id = some record' := by
  refine Option.ne_none_iff_exists'.1 fun unknown => ?_
  rw [(beside.worker?_eq_none_iff id).2 unknown] at registered
  cases registered

/-- The other workers are the same. -/
theorem worker?_eq (beside : Beside slot held bare) {id : WorkerId} (apart : id ≠ slot.worker) :
    held.inventory.worker? id = bare.inventory.worker? id := by
  refine beside.sound.inventory.worker?_congr beside.sound'.inventory (fun allocation => ?_) (beside.terms id)
  by_cases same : allocation = slot.allocation
  · have found := beside.found
    have absent := beside.absent
    rw [slot?_def] at found absent
    rw [same, found, absent]
    simp [Option.filter, Ne.symm apart]
  · exact congrArg _ (beside.slot?_of_ne same)

/-! ## Steps side by side -/

section Steps

variable {next' : Cluster} {allocation : AllocationId}

/-- Steps that change the slots of both states alike, and leave the slot in particular, keep the states side by
    side. -/
private theorem alike (beside : Beside slot held bare) (change : AllocationId → Option Slot → Option Slot)
    (sound : next.Sound) (sound' : next'.Sound) (leads : held.inventory.Leads next.inventory)
    (leads' : bare.inventory.Leads next'.inventory)
    (slots : ∀ other, next.slot? other = change other (held.slot? other))
    (slots' : ∀ other, next'.slot? other = change other (bare.slot? other))
    (kept : change slot.allocation (some slot) = some slot) (none_made : change slot.allocation none = none) :
    Beside slot next next' := by
  refine of_slots sound sound' ?_ ?_ (fun other apart => ?_) fun id => ?_
  · rw [slots, beside.found, kept]
  · rw [slots', beside.absent, none_made]
  · rw [slots, slots', beside.slot?_of_ne apart]
  · rw [beside.sound.inventory.terms_leads leads, beside.sound'.inventory.terms_leads leads', beside.terms]

theorem free (beside : Beside slot held bare) (other : allocation ≠ slot.allocation) {result result' : Option Slot}
    (freed : held.free allocation = .ok (result, next)) (freed' : bare.free allocation = .ok (result', next')) :
    result' = result ∧ Beside slot next next' := by
  have indexed := beside.sound.inventory.indexed
  have indexed' := beside.sound'.inventory.indexed
  obtain ⟨-, slots⟩ := slot?_free indexed freed
  obtain ⟨-, slots'⟩ := slot?_free indexed' freed'
  constructor
  · rw [free_told indexed freed, free_told indexed' freed', beside.slot?_of_ne other]
  · exact beside.alike (fun other before => if other = allocation then none else before) (beside.sound.free freed)
      (beside.sound'.free freed') (leads_free freed) (leads_free freed') slots slots' (if_neg (Ne.symm other))
      (if_neg (Ne.symm other))

theorem conclude (beside : Beside slot held bare) (other : allocation ≠ slot.allocation) {job : JobId}
    {outcome told told' : Outcome} (concluded : held.conclude allocation job outcome = .ok (told, next))
    (concluded' : bare.conclude allocation job outcome = .ok (told', next')) :
    told' = told ∧ Beside slot next next' := by
  obtain ⟨-, slots⟩ := slot?_conclude beside.sound.inventory.indexed concluded
  obtain ⟨-, slots'⟩ := slot?_conclude beside.sound'.inventory.indexed concluded'
  constructor
  · rw [conclude_told concluded, conclude_told concluded', beside.slot?_of_ne other]
  · exact beside.alike (fun other before => if other = allocation then before.bind (settled job outcome) else before)
      (beside.sound.conclude concluded) (beside.sound'.conclude concluded') (leads_conclude concluded)
      (leads_conclude concluded') slots slots' (if_neg (Ne.symm other)) (if_neg (Ne.symm other))

/-- Both states refuse a reservation because the worker is unknown, or both accept it. -/
theorem reserve (beside : Beside slot held bare) (other : allocation ≠ slot.allocation) {job : JobId}
    {profile : Profile} (accommodates : held.Accommodates (.reserve worker job allocation profile))
    {answer answer' : Answer} (performed : held.perform (.reserve worker job allocation profile) = .ok (answer, next))
    (performed' : bare.perform (.reserve worker job allocation profile) = .ok (answer', next')) :
    answer' = answer ∧ Beside slot next next' := by
  by_cases unknown : held.inventory.worker? worker = none
  · rw [Cluster.perform, reserve_of_unknown unknown] at performed
    rw [Cluster.perform, reserve_of_unknown ((beside.worker?_eq_none_iff worker).1 unknown)] at performed'
    obtain ⟨rfl, rfl⟩ := Prod.mk.inj (Except.ok.inj performed)
    obtain ⟨rfl, rfl⟩ := Prod.mk.inj (Except.ok.inj performed')
    exact ⟨rfl, beside⟩
  · have room : held.HasRoom worker profile := accommodates _ (.head _) unknown
    cases performed_of_perform performed with
    | notReserved refused => exact absurd refused (not_refused_of_room room)
    | reserved accepted =>
      cases performed_of_perform performed' with
      | notReserved refused => exact absurd refused (not_refused_of_room (beside.hasRoom room))
      | reserved accepted' =>
        obtain ⟨-, -, slots⟩ := slot?_reserve beside.sound.inventory.indexed accepted
        obtain ⟨-, -, slots'⟩ := slot?_reserve beside.sound'.inventory.indexed accepted'
        exact ⟨rfl, beside.alike (fun other before =>
            if other = allocation then some ⟨allocation, job, .dynamic worker, profile, .pending⟩ else before)
          (beside.sound.reserve accepted) (beside.sound'.reserve accepted') (leads_reserve accepted)
          (leads_reserve accepted') slots slots' (if_neg (Ne.symm other)) (if_neg (Ne.symm other))⟩

/-! ### Reports -/

section Report

variable {entry : SlotStatus × SlotAssignment} {entries : List (SlotStatus × SlotAssignment)} {applied applied' : Bool}
variable {total : Profile}

theorem adopt (beside : Beside slot held bare) (other : entry.2.allocation ≠ slot.allocation)
    (offered : held.inventory.total? worker = some total)
    (room : held.slot? entry.2.allocation = none → held.HasRoom worker entry.1.profile)
    (adopted : held.adopt worker entry.1 entry.2 = .ok (applied, next))
    (adopted' : bare.adopt worker entry.1 entry.2 = .ok (applied', next')) :
    applied' = applied ∧ Beside slot next next' := by
  have offered' : bare.inventory.total? worker = some total := beside.total?_eq worker ▸ offered
  obtain ⟨slots, applies⟩ := beside.sound.slot?_adopt offered adopted
  obtain ⟨slots', applies'⟩ := beside.sound'.slot?_adopt offered' adopted'
  -- A slot is adopted in both states or in none, as there is room where one is asked for.
  have same : next'.slot? entry.2.allocation = next.slot? entry.2.allocation := by
    rw [slots, slots', if_pos rfl, if_pos rfl, beside.slot?_of_ne other]
    refine aligned_congr fun absent => ?_
    have room := room ((beside.slot?_of_ne other).trans absent)
    exact iff_of_true ((beside.sound'.hasRoom_iff offered' _).1 (beside.hasRoom room))
      ((beside.sound.hasRoom_iff offered _).1 room)
  refine ⟨by rw [applies, applies', same], beside.alike (fun other before =>
      if other = entry.2.allocation then next.slot? entry.2.allocation else before) (beside.sound.adopt adopted)
    (beside.sound'.adopt adopted') (leads_adopt adopted) (leads_adopt adopted') (fun other => ?_) (fun other => ?_)
    (if_neg (Ne.symm other)) (if_neg (Ne.symm other))⟩
  · split
    · next its => rw [its]
    · next apart => rw [slots, if_neg apart]
  · split
    · next its => rw [its, same]
    · next apart => rw [slots', if_neg apart]

theorem adoptAll (beside : Beside slot held bare) (unnamed : ∀ entry ∈ entries, entry.2.allocation ≠ slot.allocation)
    (offered : held.inventory.total? worker = some total) (room : ∀ demand ∈ held.demands worker entries,
      demand.1.inventory.worker? demand.2.worker ≠ none → demand.1.HasRoom demand.2.worker demand.2.profile)
    (adopted : held.adoptAll worker entries = .ok (applied, next))
    (adopted' : bare.adoptAll worker entries = .ok (applied', next')) :
    applied' = applied ∧ Beside slot next next' := by
  induction entries generalizing held bare applied applied' with
  | nil =>
    obtain ⟨rfl, rfl⟩ := Prod.mk.inj (Except.ok.inj adopted)
    obtain ⟨rfl, rfl⟩ := Prod.mk.inj (Except.ok.inj adopted')
    exact ⟨rfl, beside⟩
  | cons entry rest ih =>
    obtain ⟨first, between, others, adopts, continued, rfl⟩ := (adoptAll_cons_eq_ok_iff ..).1 adopted
    obtain ⟨first', between', others', adopts', continued', rfl⟩ := (adoptAll_cons_eq_ok_iff ..).1 adopted'
    obtain ⟨other, unnamed⟩ := List.forall_mem_cons.1 unnamed
    obtain ⟨rfl, beside'⟩ := beside.adopt other offered (fun absent =>
      room _ (mem_demands_first worker rest absent) (Inventory.worker?_ne_none offered)) adopts adopts'
    have offered' : between.inventory.total? worker = some total := by
      rw [beside.sound.inventory.total?_leads (leads_adopt adopts), offered]
    obtain ⟨rfl, beside''⟩ := ih beside' unnamed offered' (fun demand inside =>
      room demand (mem_demands_later adopts inside)) continued continued'
    exact ⟨rfl, beside''⟩

/-- A report that does not name the slot, which is pending, leaves it. -/
theorem report (beside : Beside slot held bare) (pending : slot.state = .pending) {content : SlotReport}
    (unnamed : ¬content.Names slot.allocation) (accommodates : held.Accommodates (.report worker content))
    (reported : held.report worker content = .ok (applied, next))
    (reported' : bare.report worker content = .ok (applied', next')) :
    applied' = applied ∧ Beside slot next next' := by
  rcases report_eq_ok reported with ⟨unknown, rfl, rfl⟩ | ⟨record, kept, registered, freed, adopted⟩
  · rw [report_of_unknown ((beside.worker?_eq_none_iff worker).1 unknown)] at reported'
    obtain ⟨rfl, rfl⟩ := Prod.mk.inj (Except.ok.inj reported')
    exact ⟨rfl, beside⟩
  · rcases report_eq_ok reported' with ⟨unknown, -⟩ | ⟨record', kept', registered', freed', adopted'⟩
    · rw [(beside.worker?_eq_none_iff worker).2 unknown] at registered
      cases registered
    obtain ⟨-, left⟩ := slot?_release beside.sound.inventory.indexed registered freed
    obtain ⟨-, left'⟩ := slot?_release beside.sound'.inventory.indexed registered' freed'
    have stays : ¬Releases worker content slot := by
      rintro ⟨-, superseded⟩
      rw [supersedes, SlotReport.jobs_get?_eq_none_iff.2 unnamed, pending] at superseded
      cases superseded
    have beside' : Beside slot kept kept' :=
      beside.alike (fun _ before => before.filter fun slot => ¬Releases worker content slot)
        (beside.sound.freeAll freed) (beside.sound'.freeAll freed') (leads_freeAll freed) (leads_freeAll freed')
        left left' (by simpa [Option.filter] using stays) rfl
    have offered : kept.inventory.total? worker = some record.total := by
      rw [beside.sound.inventory.total?_leads (leads_freeAll freed), Inventory.total?_of_registered registered]
    refine beside'.adoptAll (fun entry inside same => unnamed ⟨entry, inside, same⟩) offered (fun demand inside =>
      accommodates demand ?_) adopted adopted'
    simpa only [Event.demands, registered, freed] using inside

end Report

/-! ### Workers -/

theorem register (beside : Beside slot held bare) {total defaultSlot : Profile} (trimmed : total.Trimmed)
    {answer answer' : Answer} (performed : held.perform (.register worker total defaultSlot) = .ok (answer, next))
    (performed' : bare.perform (.register worker total defaultSlot) = .ok (answer', next')) :
    answer' = answer ∧ Beside slot next next' := by
  rw [Cluster.perform] at performed performed'
  cases registered : held.inventory.worker? worker with
  | some record =>
    obtain ⟨record', registered'⟩ := beside.exists_worker registered
    rw [register_of_known registered] at performed
    rw [register_of_known registered'] at performed'
    obtain ⟨rfl, rfl⟩ := Prod.mk.inj (Except.ok.inj performed)
    obtain ⟨rfl, rfl⟩ := Prod.mk.inj (Except.ok.inj performed')
    exact ⟨rfl, beside⟩
  | none =>
    have unknown := (beside.worker?_eq_none_iff worker).1 registered
    have added := (register_eq_ok_iff worker total defaultSlot).2
      ⟨_, (Inventory.addWorker_eq_ok_iff ..).2 ⟨registered, rfl⟩, rfl⟩
    have added' := (register_eq_ok_iff worker total defaultSlot).2
      ⟨_, (Inventory.addWorker_eq_ok_iff ..).2 ⟨unknown, rfl⟩, rfl⟩
    rw [added] at performed
    rw [added'] at performed'
    obtain ⟨rfl, rfl⟩ := Prod.mk.inj (Except.ok.inj performed)
    obtain ⟨rfl, rfl⟩ := Prod.mk.inj (Except.ok.inj performed')
    obtain ⟨-, -, slots⟩ := slot?_register beside.sound.inventory.indexed added
    obtain ⟨-, -, slots'⟩ := slot?_register beside.sound'.inventory.indexed added'
    refine ⟨rfl, of_slots (beside.sound.register trimmed added) (beside.sound'.register trimmed added') ?_ ?_ ?_ ?_⟩
    · rw [slots, beside.found]
    · rw [slots', beside.absent]
    · intro other apart
      rw [slots, slots', beside.slot?_of_ne apart]
    · intro id
      simp only [Inventory.worker?, SortedMap.get?_insert]
      split
      · rfl
      · exact beside.terms id

/-- The worker of the slot is registered in both states, and lists the slot beside the others in the first. -/
theorem records (beside : Beside slot held bare) : ∃ record record', held.inventory.worker? slot.worker = some record ∧
    bare.inventory.worker? slot.worker = some record' ∧ record'.slots = record.slots.erase slot.allocation := by
  obtain ⟨record, registered, -⟩ := beside.sound.inventory.indexed.registered_of_slot? beside.found
  obtain ⟨record', registered'⟩ := beside.exists_worker registered
  refine ⟨record, record', registered, registered', SortedMap.ext fun other => ?_⟩
  have here := beside.sound.inventory.indexed.worker_slot? registered other
  have here' := beside.sound'.inventory.indexed.worker_slot? registered' other
  rw [Worker.slot?] at here here'
  rw [SortedMap.get?_erase, here, here']
  split
  · next same =>
    rw [same, ← slot?_def, beside.absent]
    rfl
  · next apart => exact congrArg _ (beside.slot?_of_ne apart).symm

/-- Other workers are removed from both states alike. With the worker of the slot the difference goes. -/
theorem removeWorker (beside : Beside slot held bare) {slots others : List Slot}
    (removed : held.removeWorker worker = .ok (slots, next))
    (removed' : bare.removeWorker worker = .ok (others, next')) :
    (worker ≠ slot.worker ∧ others = slots ∧ Beside slot next next') ∨
      (worker = slot.worker ∧ slot ∈ slots ∧ others = slots.filter (·.allocation ≠ slot.allocation) ∧
        next' = next) := by
  have indexed := beside.sound.inventory.indexed
  have indexed' := beside.sound'.inventory.indexed
  obtain ⟨-, left⟩ := slot?_removeWorker indexed removed
  obtain ⟨-, left'⟩ := slot?_removeWorker indexed' removed'
  obtain ⟨listed, inventory, -⟩ := (removeWorker_eq_ok_iff ..).1 removed
  obtain ⟨listed', inventory', -⟩ := (removeWorker_eq_ok_iff ..).1 removed'
  have terms : ∀ id, (next.inventory.worker? id).map Worker.terms = (next'.inventory.worker? id).map Worker.terms := by
    intro id
    rw [inventory, inventory', (indexed.removeWorker worker).2.1, (indexed'.removeWorker worker).2.1]
    split
    · rfl
    · exact beside.terms id
  by_cases here : worker = slot.worker
  · subst here
    refine .inr ⟨rfl, ?_⟩
    obtain ⟨record, record', registered, registered', erased⟩ := beside.records
    rw [Inventory.removeWorker_fst _ registered] at listed
    rw [Inventory.removeWorker_fst _ registered', erased] at listed'
    have found := beside.found
    have keyed : ∀ entry ∈ record.slots.entries, entry.2.allocation = entry.1 := fun entry inside =>
      (indexed.housed registered ((SortedMap.get?_eq_some_iff record.slots entry.1 entry.2).2 inside)).1
    refine ⟨listed ▸ (indexed.mem_values registered).2 ⟨found, rfl⟩,
      listed ▸ listed'.trans (SortedMap.values_erase keyed _), ?_⟩
    refine (beside.sound'.removeWorker removed').ext (beside.sound.removeWorker removed) (fun other => ?_)
      fun id => (terms id).symm
    rw [left, left']
    by_cases same : other = slot.allocation
    · rw [same, found, beside.absent]
      simp [Option.filter]
    · rw [beside.slot?_of_ne same]
  · have stays : (some slot).filter (·.worker ≠ worker) = some slot := by simp [Option.filter, Ne.symm here]
    refine .inl ⟨here, ?_, of_slots (beside.sound.removeWorker removed) (beside.sound'.removeWorker removed') ?_ ?_
      (fun other apart => ?_) terms⟩
    · rw [listed, listed', Inventory.removeWorker, Inventory.removeWorker, beside.worker?_eq here]
      cases bare.inventory.worker? worker <;> rfl
    · rw [left, beside.found, stays]
    · rw [left', beside.absent]
      rfl
    · rw [left, left', beside.slot?_of_ne apart]

end Steps

end Beside

/-! ## Runs side by side -/

/-- What an operation tells in a state with the slot and in one without it, and the states that it leaves. -/
inductive Parallel (slot : Slot) : Event → Answer → Answer → Cluster → Cluster → Prop
  | beside {event : Event} {answer : Answer} {held bare : Cluster} (beside : Beside slot held bare) :
      Parallel slot event answer answer held bare
  /-- The worker of the slot is removed and returns it with its other slots. -/
  | returned {slots : List Slot} {next : Cluster} (inside : slot ∈ slots)
      (absent : next.slot? slot.allocation = none) :
      Parallel slot (.removeWorker slot.worker) (.removed slots)
        (.removed (slots.filter (·.allocation ≠ slot.allocation))) next next

section Runs

variable {event : Event} {events : List Event} {answer answer' : Answer} {answers : List Answer} {next' late : Cluster}

theorem Beside.perform (beside : Beside slot held bare) (pending : slot.state = .pending)
    (unmentioned : ¬event.Mentions slot.allocation) (accommodates : held.Accommodates event)
    (trimmed : ∀ worker total defaultSlot, event = .register worker total defaultSlot → total.Trimmed)
    (performed : held.perform event = .ok (answer, next)) (performed' : bare.perform event = .ok (answer', next')) :
    Parallel slot event answer answer' next next' := by
  cases event with
  | register worker total defaultSlot =>
    obtain ⟨rfl, beside'⟩ := beside.register (trimmed _ _ _ rfl) performed performed'
    exact .beside beside'
  | reserve worker job allocation profile =>
    obtain ⟨rfl, beside'⟩ := beside.reserve unmentioned accommodates performed performed'
    exact .beside beside'
  | removeWorker worker =>
    cases performed_of_perform performed with | workerRemoved removed => ?_
    cases performed_of_perform performed' with | workerRemoved removed' => ?_
    rcases beside.removeWorker removed removed' with ⟨-, rfl, beside'⟩ | ⟨rfl, inside, rfl, rfl⟩
    · exact .beside beside'
    · refine .returned inside ?_
      rw [(slot?_removeWorker beside.sound'.inventory.indexed removed').2, beside.absent]
      rfl
  | conclude allocation job outcome =>
    cases performed_of_perform performed with | concluded concluded => ?_
    cases performed_of_perform performed' with | concluded concluded' => ?_
    obtain ⟨rfl, beside'⟩ := beside.conclude unmentioned concluded concluded'
    exact .beside beside'
  | free allocation =>
    cases performed_of_perform performed with | freed freed => ?_
    cases performed_of_perform performed' with | freed freed' => ?_
    obtain ⟨rfl, beside'⟩ := beside.free unmentioned freed freed'
    exact .beside beside'
  | report worker content =>
    cases performed_of_perform performed with | reported reported => ?_
    cases performed_of_perform performed' with | reported reported' => ?_
    obtain ⟨rfl, beside'⟩ := beside.report pending unmentioned accommodates reported reported'
    exact .beside beside'

/-- Where an operation succeeds beside the slot, it fails without it at most for a sum that is too large. -/
theorem Beside.perform_overflows (beside : Beside slot held bare) (unmentioned : ¬event.Mentions slot.allocation)
    (accommodates : held.Accommodates event) (performed : held.perform event = .ok (answer, next)) :
    Checked.OnlyOverflows (bare.perform event) := by
  refine beside.sound'.perform_overflows ?_
  rintro worker job allocation profile rfl ⟨record, registered, -⟩
  have known : held.inventory.worker? worker ≠ none := by
    rw [ne_eq, beside.worker?_eq_none_iff, registered]
    exact nofun
  rw [← beside.slot?_of_ne unmentioned]
  cases performed_of_perform performed with
  | reserved accepted => exact ((reserve_eq_ok_iff ..).1 accepted).2.1
  | notReserved refused => exact absurd refused (not_refused_of_room (accommodates _ (.head _) known))

/-- The answers of two runs of the same operations: they are the same, but for the first removal of the slot's
    worker, which returns the slot in the first run only. -/
inductive Echoes (slot : Slot) : List Event → List Answer → List Answer → Prop
  | same (events : List Event) (answers : List Answer) : Echoes slot events answers answers
  | cons (event : Event) (answer : Answer) {events : List Event} {answers answers' : List Answer}
      (onward : Echoes slot events answers answers') :
      Echoes slot (event :: events) (answer :: answers) (answer :: answers')
  | returned {slots : List Slot} (inside : slot ∈ slots) (events : List Event) (answers : List Answer) :
      Echoes slot (.removeWorker slot.worker :: events) (.removed slots :: answers)
        (.removed (slots.filter (·.allocation ≠ slot.allocation)) :: answers)

/-- An allocation that has no pending slot gets none from operations on others. -/
theorem Quiet.perform {allocation : AllocationId} (quiet : cluster.Quiet allocation)
    (indexed : cluster.inventory.Indexed) (unmentioned : ¬event.Mentions allocation)
    (performed : cluster.perform event = .ok (answer, next)) : next.Quiet allocation := by
  cases performed_of_perform performed with
  | notRegistered | notReserved => exact quiet
  | registered added => exact (Deed.Does.register added).quiet indexed quiet nofun
  | workerRemoved removed => exact (Deed.Does.removeWorker removed).quiet indexed quiet nofun
  | freed freed => exact (Deed.Does.free freed).quiet indexed quiet nofun
  | reported reported => exact (Deed.Does.report reported).quiet indexed quiet nofun
  | concluded concluded => exact quiet.conclude indexed concluded
  | reserved accepted =>
    refine (Deed.Does.reserve accepted).quiet indexed quiet ?_
    rintro _ ⟨⟩
    exact unmentioned

theorem Quiet.replies {allocation : AllocationId} (quiet : cluster.Quiet allocation) (balanced : cluster.Balanced)
    (unmentioned : ∀ event ∈ events, ¬event.Mentions allocation)
    (performed : cluster.replies events = .ok (answers, next)) : next.Quiet allocation := by
  induction events generalizing cluster answers with
  | nil =>
    obtain ⟨-, rfl⟩ := Prod.mk.inj (Except.ok.inj performed)
    exact quiet
  | cons event rest ih =>
    obtain ⟨now, later⟩ := List.forall_mem_cons.1 unmentioned
    obtain ⟨answer, between, others, first, continued, rfl⟩ := replies_cons_eq_ok_iff.1 performed
    exact ih (quiet.perform balanced.indexed now first) (balanced.perform first) later continued

/-- Two runs of the same operations, of which the second does not overflow: it succeeds like the first and tells
    the same, and in the end the states are side by side still, or they are one state in which nothing waits. -/
theorem Beside.replies (beside : Beside slot held bare) (pending : slot.state = .pending)
    (unmentioned : ∀ event ∈ events, ¬event.Mentions slot.allocation) (accommodates : held.AccommodatesAll events)
    (trimmed : ∀ worker total defaultSlot, .register worker total defaultSlot ∈ events → total.Trimmed)
    (performed : held.replies events = .ok (answers, late))
    (small : bare.replies events ≠ .error .additionOverflow) :
    ∃ answers' final, bare.replies events = .ok (answers', final) ∧ Echoes slot events answers answers' ∧
      (Beside slot late final ∨ late = final ∧ late.Quiet slot.allocation) := by
  induction events generalizing held bare answers with
  | nil =>
    obtain ⟨rfl, rfl⟩ := Prod.mk.inj (Except.ok.inj performed)
    exact ⟨[], bare, rfl, .same _ _, .inl beside⟩
  | cons event rest ih =>
    obtain ⟨now, later⟩ := List.forall_mem_cons.1 unmentioned
    obtain ⟨room, onward⟩ := accommodates
    obtain ⟨answer, next, others, first, continued, rfl⟩ := replies_cons_eq_ok_iff.1 performed
    have trimmed_now : ∀ worker total defaultSlot, event = .register worker total defaultSlot → total.Trimmed := by
      rintro worker total defaultSlot rfl
      exact trimmed worker total defaultSlot (.head _)
    rcases (beside.perform_overflows now room first).cases with ⟨⟨answer', next'⟩, first'⟩ | overflows
    · have small' : next'.replies rest ≠ .error .additionOverflow := fun overflows => small (by
        simp only [Cluster.replies, first', overflows, bind, Except.bind])
      cases beside.perform pending now room trimmed_now first first' with
      -- While the slot is held, the runs go on side by side. Once it is returned, they are one run.
      | beside beside' =>
        obtain ⟨answers', final, continued', echoes, ends⟩ := ih beside' later (onward _ _ first)
          (fun worker total defaultSlot inside => trimmed worker total defaultSlot (.tail _ inside)) continued small'
        exact ⟨_, final, replies_cons_eq_ok_iff.2 ⟨answer, next', answers', first', continued', rfl⟩,
          .cons event answer echoes, ends⟩
      | returned inside absent =>
        have quiet : next.Quiet slot.allocation := fun other found => by
          rw [absent] at found
          cases found
        exact ⟨_, late, replies_cons_eq_ok_iff.2 ⟨_, next, others, first', continued, rfl⟩,
          .returned inside rest others,
          .inr ⟨rfl, quiet.replies (beside.sound.balanced.perform first) later continued⟩⟩
    · exact absurd (by simp only [Cluster.replies, overflows, bind, Except.bind]) small

end Runs

/-! ## The failure -/

/-- Without the slot, the record of its worker is the one of the other state. -/
theorem Beside.drop_eq (beside : Beside slot held bare) {record : Worker}
    (registered : held.inventory.worker? slot.worker = some record) : ∃ rest,
      record.available.add? slot.profile = some rest ∧
        bare.inventory.worker? slot.worker = some (record.drop slot.allocation rest) := by
  obtain ⟨_, record', registered', bare_registered, erased⟩ := beside.records
  obtain rfl := Option.some.inj (registered.symm.trans registered')
  have indexed := beside.sound.inventory.indexed
  have present : record.slot? slot.allocation = some slot := by
    rw [indexed.worker_slot? registered, ← slot?_def, beside.found]
    simp [Option.filter]
  obtain ⟨rest, given, accounted⟩ := (beside.sound.inventory.accounted registered).drop present
  have terms := beside.terms slot.worker
  rw [registered, bare_registered] at terms
  obtain ⟨total, defaultSlot⟩ := Prod.mk.inj (Option.some.inj terms)
  have id : record.id = record'.id :=
    (indexed.id_eq registered).trans (beside.sound'.inventory.indexed.id_eq bare_registered).symm
  refine ⟨rest, given, bare_registered.trans (congrArg some ?_)⟩
  exact ((beside.sound'.inventory.accounted bare_registered).ext accounted id.symm total.symm defaultSlot.symm erased)

/-- Where the other state passes its checks, the slot can be freed, and then the states are the same. -/
theorem Beside.exists_free (beside : Beside slot held bare) (audited : bare.inventory.Audited) :
    held.free slot.allocation = .ok (some slot, bare) := by
  have indexed := beside.sound.inventory.indexed
  have found := beside.found
  obtain ⟨record, registered, -⟩ := indexed.registered_of_slot? found
  obtain ⟨rest, given, left⟩ := beside.drop_eq registered
  have removed := (indexed.removeSlot_eq_ok_iff found _).2 ⟨record, rest, registered, given, audited left, rfl, rfl⟩
  have lost := (Ledger.lose_eq_ok_iff beside.sound.balanced.tidy ..).2 ⟨beside.sound.balanced.count_pos found, rfl⟩
  have freed : held.free slot.allocation = .ok (some slot, ⟨_, _⟩) :=
    (free_eq_ok_iff indexed ..).2 (.inr ⟨slot, found, rfl, removed, lost⟩)
  obtain ⟨-, slots⟩ := slot?_free indexed freed
  rw [freed]
  refine congrArg _ (Prod.mk.injEq .. |>.mpr ⟨rfl, (beside.sound.free freed).ext beside.sound' (fun other => ?_) ?_⟩)
  · rw [slots]
    split
    · next same => rw [same, beside.absent]
    · next apart => exact beside.slot?_of_ne apart
  · exact fun id => (beside.sound.inventory.terms_leads (leads_free freed) id).trans (beside.terms id)

/-- A request that fails leaves no trace. Let a reservation be accepted in a state that a run has reached, and
    let operations that do not mention its allocation succeed after it, with room for every slot that they ask
    of a registered worker. Unless they overflow without the reservation (a wildcard in a sum hides what the
    others come to), they succeed without it too and tell the same, but for a removal of the worker that returns
    the reserved slot; and when the request then fails, the state is the one that they lead to without it. -/
theorem failed_request_leaves_no_trace {history events : List Event} {late : Cluster} {job : JobId}
    {allocation : AllocationId} {profile : Profile} {answers : List Answer}
    (reached : empty.run history = .ok cluster)
    (trimmed : ∀ worker total defaultSlot, .register worker total defaultSlot ∈ history ++ events → total.Trimmed)
    (accepted : cluster.reserve worker job allocation profile = .ok (.ok held))
    (unmentioned : ∀ event ∈ events, ¬event.Mentions allocation)
    (performed : held.replies events = .ok (answers, late)) (accommodates : held.AccommodatesAll events)
    (small : cluster.replies events ≠ .error .additionOverflow) (cause : Failure) :
    ∃ answers' told final, cluster.replies events = .ok (answers', final) ∧
      Echoes ⟨allocation, job, .dynamic worker, profile, .pending⟩ events answers answers' ∧
      late.conclude allocation job (.failure cause) = .ok (told, final) := by
  have before : ∀ worker total defaultSlot, .register worker total defaultSlot ∈ history → total.Trimmed :=
    fun worker total defaultSlot inside => trimmed worker total defaultSlot (List.mem_append_left _ inside)
  have after : ∀ worker total defaultSlot, .register worker total defaultSlot ∈ events → total.Trimmed :=
    fun worker total defaultSlot inside => trimmed worker total defaultSlot (List.mem_append_right _ inside)
  have sound := sound_empty.run before reached
  obtain ⟨-, absent, slots⟩ := slot?_reserve sound.inventory.indexed accepted
  have beside : Beside ⟨allocation, job, .dynamic worker, profile, .pending⟩ held cluster :=
    ⟨sound.reserve accepted, sound, absent, slots, sound.inventory.terms_leads (leads_reserve accepted)⟩
  obtain ⟨answers', final, performed', echoes, beside' | ⟨rfl, quiet⟩⟩ :=
    beside.replies rfl unmentioned accommodates after performed small
  · have run : cluster.run events = .ok final := by rw [← map_replies, performed']; rfl
    have audited := sound.audited_run (sound_empty.audited_run Inventory.audited_empty before reached) after run
    exact ⟨answers', _, final, performed', echoes, (conclude_eq_ok_iff ..).2
      (.withdrawn beside'.found rfl rfl (beside'.exists_free audited))⟩
  · refine ⟨answers', _, late, performed', echoes, (conclude_eq_ok_iff ..).2 (.late fun slot found waits => ?_)⟩
    have confirmed := quiet slot found
    rw [waits.2] at confirmed
    cases confirmed

end

/-- Another slot of the worker is reserved, confirmed by a report and freed, and the worker is removed. -/
private def meanwhile : List Event :=
  [.reserve ⟨1⟩ ⟨7⟩ ⟨2⟩ (.ofUnits 1 0),
    .report ⟨1⟩ ⟨[⟨⟨⟨1⟩, 0⟩, .ofUnits 1 0, some ⟨⟨7⟩, ⟨2⟩⟩⟩, ⟨⟨⟨1⟩, 1⟩, .ofUnits 1 0, some ⟨⟨8⟩, ⟨3⟩⟩⟩]⟩,
    .free ⟨2⟩, .removeWorker ⟨1⟩, .register ⟨1⟩ .any .any]

theorem failed_request_leaves_no_trace_removed : ∃ cluster held late answers answers' told final,
    empty.run [.register ⟨1⟩ (.ofUnits 4 0) .any] = .ok cluster ∧
    cluster.reserve ⟨1⟩ ⟨7⟩ ⟨0⟩ (.ofUnits 2 0) = .ok (.ok held) ∧ held.replies meanwhile = .ok (answers, late) ∧
    cluster.replies meanwhile = .ok (answers', final) ∧
    Echoes ⟨⟨0⟩, ⟨7⟩, .dynamic ⟨1⟩, .ofUnits 2 0, .pending⟩ meanwhile answers answers' ∧
    late.conclude ⟨0⟩ ⟨7⟩ (.failure (.requestDropped ⟨0⟩)) = .ok (told, final) := by
  have accommodates : ∀ cluster held, empty.run [.register ⟨1⟩ (.ofUnits 4 0) .any] = .ok cluster →
      cluster.reserve ⟨1⟩ ⟨7⟩ ⟨0⟩ (.ofUnits 2 0) = .ok (.ok held) → held.AccommodatesAll meanwhile := by
    rintro cluster held reached accepted
    obtain rfl := Except.ok.inj reached
    obtain rfl := Except.ok.inj (Except.ok.inj accepted)
    refine ⟨fun demand asked _ => ?_, fun answer next performed => ?_⟩
    · obtain rfl := List.mem_singleton.1 asked
      exact ⟨_, rfl, rfl⟩
    obtain ⟨-, rfl⟩ := Prod.mk.inj (Except.ok.inj performed)
    refine ⟨fun demand asked _ => ?_, fun answer next performed => ?_⟩
    · -- The first entry finds the slot that was just reserved.
      obtain rfl := List.mem_singleton.1 asked
      exact ⟨_, rfl, rfl⟩
    obtain ⟨-, rfl⟩ := Prod.mk.inj (Except.ok.inj performed)
    refine ⟨nofun, fun answer next performed => ?_⟩
    obtain ⟨-, rfl⟩ := Prod.mk.inj (Except.ok.inj performed)
    exact ⟨nofun, fun _ _ _ => ⟨nofun, fun _ _ _ => trivial⟩⟩
  have trimmed := Event.trimmed_of_totals
    (show ∀ total ∈ (.register ⟨1⟩ (.ofUnits 4 0) .any :: meanwhile).filterMap Event.total?, _ by decide)
  have unmentioned : ∀ event ∈ meanwhile, ¬event.Mentions ⟨0⟩ := by
    simp only [meanwhile, List.forall_mem_cons, Event.Mentions]
    exact ⟨by decide, by decide, by decide, nofun, nofun, nofun⟩
  obtain ⟨answers', told, final, performed', echoes, concluded⟩ := failed_request_leaves_no_trace
    (show empty.run [.register ⟨1⟩ (.ofUnits 4 0) .any] = .ok _ from rfl) trimmed
    (show reserve _ ⟨1⟩ ⟨7⟩ ⟨0⟩ (.ofUnits 2 0) = .ok (.ok _) from rfl) unmentioned
    (show replies _ meanwhile = .ok _ from rfl) (accommodates _ _ rfl rfl) nofun (.requestDropped ⟨0⟩)
  exact ⟨_, _, _, _, answers', told, final, rfl, rfl, rfl, performed', echoes, concluded⟩

private theorem bulk_lt : 9223372036854775808 < 18446744073709551616 := by decide

/-- Half of what 64 bits can hold, twice. -/
private def bulkyEvents : List Event :=
  let bulk : Profile := .ofAmounts [⟨9223372036854775808, bulk_lt⟩]
  [.reserve ⟨1⟩ ⟨7⟩ ⟨1⟩ bulk, .reserve ⟨1⟩ ⟨7⟩ ⟨2⟩ bulk]

/-- Where it is visited first, a slot with the wildcard hides from the sum of its worker what the other slots come to.
    While it is held, both halves can be reserved, and without it they cannot. -/
theorem trace_left_in_sum : ∃ cluster held late answers, empty.run [.register ⟨1⟩ .any .any] = .ok cluster ∧
    cluster.reserve ⟨1⟩ ⟨7⟩ ⟨0⟩ .any = .ok (.ok held) ∧ (∀ event ∈ bulkyEvents, ¬event.Mentions ⟨0⟩) ∧
    held.AccommodatesAll bulkyEvents ∧ held.replies bulkyEvents = .ok (answers, late) ∧
    cluster.replies bulkyEvents = .error .additionOverflow := by
  refine ⟨_, _, _, _, rfl, rfl, ?_, ?_, rfl, rfl⟩
  · simp only [bulkyEvents, List.forall_mem_cons, Event.Mentions]
    exact ⟨by decide, by decide, List.forall_mem_nil _⟩
  · refine ⟨fun demand asked _ => ?_, fun answer next performed => ?_⟩
    · obtain rfl := List.mem_singleton.1 asked
      exact ⟨_, rfl, rfl⟩
    obtain ⟨-, rfl⟩ := Prod.mk.inj (Except.ok.inj performed)
    refine ⟨fun demand asked _ => ?_, fun _ _ _ => trivial⟩
    obtain rfl := List.mem_singleton.1 asked
    exact ⟨_, rfl, rfl⟩

end Cluster

end SlotControl
