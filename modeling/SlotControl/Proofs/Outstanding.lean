import SlotControl.Proofs.LateAnswers
import SlotControl.Proofs.Minting

/-!
A slot that is pending waits for the answer to its own request. The request was accepted once, for this slot, and
no outcome was applied under its id: it is under way, or its task was dropped or broke down. Once an outcome
was applied, no slot waits under the id again. Main statement: `Session.pending_slots_outstanding`.
-/

namespace SlotControl

variable {cluster next : Cluster} {worker : WorkerId} {job : JobId} {allocation : AllocationId} {profile : Profile}

namespace Cluster

variable {Seed : Type} [Traversal Seed]
variable {outcome told : Outcome}

/-- An outcome settles the slot that waits for it. -/
theorem Awaits.conclude (awaits : cluster.Awaits worker job allocation profile) (indexed : cluster.inventory.Indexed)
    (concluded : cluster.conclude allocation job outcome = .ok (told, next)) : next.Quiet allocation := by
  intro left found'
  obtain ⟨slot, found, -, its, -, pending⟩ := awaits
  rw [(slot?_conclude indexed concluded).2, if_pos rfl, found, Option.bind_some, settled.eq_def,
    if_pos ⟨its, pending⟩] at found'
  cases outcome with
  | success => rw [← Option.some.inj found']
  | failure cause => cases found'

/-- An outcome for another job leaves the slot. -/
theorem Awaits.conclude_other (awaits : cluster.Awaits worker job allocation profile)
    (indexed : cluster.inventory.Indexed) {other : JobId} (apart : other ≠ job)
    (concluded : cluster.conclude allocation other outcome = .ok (told, next)) :
    next.Awaits worker job allocation profile := by
  obtain ⟨slot, found, here, its, waiting⟩ := awaits
  refine ⟨slot, ?_, here, its, waiting⟩
  rw [(slot?_conclude indexed concluded).2, if_pos rfl, found, Option.bind_some, settled.eq_def,
    if_neg fun same => apart (same.1.symm.trans its)]

end Cluster

/-! ## Reservations -/

namespace Deed

variable {Seed : Type} [Traversal Seed]

/-- The reservations of an allocation among deeds. -/
def reservations (allocation : AllocationId) (deeds : List Deed) : List Deed :=
  deeds.filter fun deed => deed.launched?.map Prod.fst = some allocation

theorem launched?_eq_some {deed : Deed} {request : AllocationId × JobId} (launched : deed.launched? = some request) :
    ∃ worker profile, deed = .reserve worker request.2 request.1 profile := by
  cases deed with
  | reserve worker job allocation profile =>
    rw [← Option.some.inj launched]
    exact ⟨worker, profile, rfl⟩
  | _ => cases launched

variable {before after : List Deed}

/-- Where ids are distinct, no other reservation has the id of a given one. -/
theorem apart_of_nodup (distinct : (((before ++ .reserve worker job allocation profile :: after).filterMap
      launched?).map Prod.fst).Nodup) :
    (∀ request ∈ before.filterMap launched?, request.1 ≠ allocation) ∧
      ∀ request ∈ after.filterMap launched?, request.1 ≠ allocation := by
  simp only [List.filterMap_append, List.filterMap_cons, launched?, List.map_append, List.map_cons] at distinct
  obtain ⟨-, later, apart⟩ := List.nodup_append.1 distinct
  constructor
  · exact fun request inside same => apart _ (List.mem_map_of_mem inside) _ (.head _) same
  · exact fun request inside same => (List.nodup_cons.1 later).1 (same ▸ List.mem_map_of_mem inside)

private theorem reservations_of_apart {deeds : List Deed}
    (apart : ∀ request ∈ deeds.filterMap launched?, request.1 ≠ allocation) : reservations allocation deeds = [] := by
  refine List.filter_eq_nil_iff.2 fun deed inside its => ?_
  obtain ⟨request, launched, same⟩ := Option.map_eq_some_iff.1 (of_decide_eq_true its)
  exact apart request (List.mem_filterMap.2 ⟨deed, inside, launched⟩) same

theorem reservations_of_nodup (distinct : (((before ++ .reserve worker job allocation profile :: after).filterMap
      launched?).map Prod.fst).Nodup) :
    reservations allocation (before ++ .reserve worker job allocation profile :: after) =
      [.reserve worker job allocation profile] := by
  obtain ⟨earlier, later⟩ := apart_of_nodup distinct
  have none_before := reservations_of_apart earlier
  have none_after := reservations_of_apart later
  rw [reservations] at none_before none_after
  rw [reservations, List.filter_append, none_before, List.filter_cons_of_pos (by simp [launched?]), none_after]
  rfl

/-! ## Waiting -/

variable {deed : Deed} {told : List Resolution}

/-- A slot that waits goes on to wait, or none waits in its place. -/
theorem Does.awaits_or_quiet (does : deed.Does cluster told next) (indexed : cluster.inventory.Indexed)
    (awaits : cluster.Awaits worker job allocation profile) :
    next.Awaits worker job allocation profile ∨ next.Quiet allocation := by
  by_cases releases : deed.Releases worker allocation cluster
  · exact .inr (does.quiet_of_releases indexed awaits releases)
  by_cases ends : ∃ request, deed.ended? = some request ∧ request.1 = allocation
  · obtain ⟨request, ended, its⟩ := ends
    cases does with
    | register | removeWorker | reserve | free | report => cases ended
    | drop => exact .inl awaits
    | @land flight _ _ landed =>
      obtain rfl : flight.allocation = allocation := (congrArg Prod.fst (Option.some.inj ended)).trans its
      rcases (Dispatcher.land_eq_ok landed).2 with ⟨-, rfl⟩ | ⟨outcome, -, concluded⟩
      · exact .inl awaits
      · by_cases same : flight.job = job
        · subst same
          exact .inr (awaits.conclude indexed concluded)
        · exact .inl (awaits.conclude_other indexed same concluded)
  · exact .inl (does.awaits indexed awaits releases fun request ended same => ends ⟨request, ended, same⟩)

end Deed

namespace Course

variable {Seed : Type} [Traversal Seed]
variable {first last : Cluster} {deeds : List Deed} {resolutions : List Resolution}

theorem awaits_or_quiet (course : Course first deeds resolutions last) (indexed : first.inventory.Indexed)
    (awaits : first.Awaits worker job allocation profile)
    (fresh : ∀ request ∈ deeds.filterMap Deed.launched?, request.1 ≠ allocation) :
    last.Awaits worker job allocation profile ∨ last.Quiet allocation := by
  induction course with
  | nil => exact .inl awaits
  | @cons _ _ _ deed rest _ _ does onward ih =>
    have fresh' : ∀ request ∈ rest.filterMap Deed.launched?, request.1 ≠ allocation := fun request later =>
      fresh request (((List.sublist_cons_self deed rest).filterMap Deed.launched?).subset later)
    rcases does.awaits_or_quiet indexed awaits with awaits | quiet
    · exact ih (does.indexed indexed) awaits fresh'
    · exact .inr (onward.quiet (does.indexed indexed) quiet fresh')

/-- The slot of a reservation waits in the end, or none waits in its place. -/
theorem awaits_or_quiet_of_reserve {before after : List Deed}
    (course : Course first (before ++ .reserve worker job allocation profile :: after) resolutions last)
    (indexed : first.inventory.Indexed) (fresh : ∀ request ∈ after.filterMap Deed.launched?, request.1 ≠ allocation) :
    last.Awaits worker job allocation profile ∨ last.Quiet allocation := by
  obtain ⟨_, start, _, begins, onward, rfl⟩ := course.of_append
  obtain ⟨_, reserved, _, does, lasts, rfl⟩ := onward.of_cons
  cases does with | reserve accepted => ?_
  obtain ⟨indexed', -, slots⟩ := Cluster.slot?_reserve (begins.indexed indexed) accepted
  exact lasts.awaits_or_quiet indexed' ⟨_, (slots allocation).trans (if_pos rfl), rfl, rfl, rfl, rfl⟩ fresh

end Course

/-! ## Runs -/

namespace Dispatcher

variable {Seed : Type} [Traversal Seed]
variable {d next : Dispatcher} {told resolutions : List Resolution} {operations : List Operation}

/-- An operation ends only requests that are under way before it. -/
theorem mem_requests_of_ended {operation : Operation} (performed : d.perform operation = .ok (told, next))
    {deed : Deed} (done : deed ∈ d.deeds operation) {request : AllocationId × JobId}
    (ended : deed.ended? = some request) : request ∈ d.requests := by
  have performs := performs_of_perform performed
  generalize d.deeds operation = deeds at performs done
  cases performs with
  | idle => cases done
  | apart _ _ _ unended =>
    obtain rfl := List.mem_singleton.1 done
    rw [unended] at ended
    cases ended
  | accepted =>
    rcases List.mem_cons.1 done with rfl | inside
    · cases ended
    · obtain ⟨interruption, -, rfl⟩ := List.mem_map.1 inside
      cases interruption <;> cases ended
  | passed =>
    obtain ⟨flight, due, rfl⟩ := List.mem_map.1 done
    obtain rfl := Option.some.inj ended
    have under_way : flight ∈ d.begin.flights := (List.mem_filter.1 (List.mem_mergeSort.1 due)).1
    rw [← requests_begin]
    exact List.mem_map_of_mem under_way
  | dropped =>
    obtain ⟨flight, under_way, rfl⟩ := List.mem_map.1 done
    obtain rfl := Option.some.inj ended
    exact List.mem_map_of_mem under_way

/-- A request that ends in a run was under way in the beginning, or it was accepted before. -/
theorem launched_before_ended (performed : d.run operations = .ok (resolutions, next)) {before after : List Deed}
    {deed : Deed} (history : d.history operations = before ++ deed :: after) {request : AllocationId × JobId}
    (ended : deed.ended? = some request) : request ∈ d.requests ++ before.filterMap Deed.launched? := by
  induction operations generalizing d resolutions before with
  | nil => cases (List.append_eq_nil_iff.1 history.symm).2
  | cons operation rest ih =>
    simp only [run, Checked.bind_eq_ok_iff, Checked.pure_eq_ok_iff, Prod.mk.injEq] at performed
    obtain ⟨⟨told, between⟩, first, ⟨others, _⟩, continued, rfl, rfl⟩ := performed
    rw [Dispatcher.history, first] at history
    have onward {more : List Deed} (history : between.history rest = more ++ deed :: after) :
        request ∈ d.requests ++ (d.deeds operation ++ more).filterMap Deed.launched? := by
      rw [List.filterMap_append, ← List.append_assoc]
      rcases List.mem_append.1 (ih continued history) with under_way | launched
      · exact List.mem_append_left _ ((ended_perform first).mem_iff.1 (List.mem_append_right _ under_way))
      · exact List.mem_append_right _ launched
    -- The request ends in a later operation or in the first one.
    rcases List.append_eq_append_iff.1 history with ⟨more, rfl, later⟩ | ⟨more, done, later⟩
    · exact onward later
    · cases more with
      | nil =>
        rw [List.append_nil] at done
        rw [← done, ← List.append_nil (d.deeds operation)]
        exact onward later.symm
      | cons =>
        obtain ⟨rfl, -⟩ := List.cons.inj later
        exact List.mem_append_left _ (mem_requests_of_ended first (by simp [done]) ended)

variable {owner : OwnerId} {timeouts : Timeouts}

/-- Once an outcome was applied under an id, no slot waits under it. -/
theorem quiet_of_answered (performed : (new owner timeouts).run operations = .ok (resolutions, d))
    (distinct : ((((new owner timeouts).history operations).filterMap Deed.launched?).map Prod.fst).Nodup)
    {flight : Flight} {outcome : Outcome} (landed : .land flight ∈ (new owner timeouts).history operations)
    (answered : flight.finish.2 = .answer outcome) : d.cluster.Quiet flight.allocation := by
  obtain ⟨earlier, after, history⟩ := List.append_of_mem landed
  obtain ⟨deed, inside, launched⟩ := List.mem_filterMap.1 (launched_before_ended performed history rfl)
  obtain ⟨worker, profile, rfl⟩ := Deed.launched?_eq_some launched
  obtain ⟨before, between, rfl⟩ := List.append_of_mem inside
  -- The course is cut at the reservation and at the end of its request.
  have course := course_run performed
  rw [history, List.append_assoc, List.cons_append] at course distinct
  have fresh := (Deed.apart_of_nodup distinct).2
  rw [List.filterMap_append, List.forall_mem_append] at fresh
  rw [← List.cons_append, ← List.append_assoc] at course
  obtain ⟨_, current, _, waits, ending, rfl⟩ := course.of_append
  obtain ⟨_, next, _, does, continues, rfl⟩ := ending.of_cons
  have indexed := waits.indexed Inventory.indexed_empty
  refine continues.quiet (does.indexed indexed) ?_ fun request inside =>
    fresh.2 request (by rwa [List.filterMap_cons_none rfl])
  rcases waits.awaits_or_quiet_of_reserve Inventory.indexed_empty fresh.1 with awaits | quiet
  · cases does with | land landed => ?_
    rcases (land_eq_ok landed).2 with ⟨crashed, -⟩ | ⟨_, -, concluded⟩
    · rw [crashed] at answered
      cases answered
    · exact awaits.conclude indexed concluded
  · exact does.quiet indexed quiet nofun

/-- The request of a slot that is pending has not delivered an outcome. -/
structure Outstanding (d : Dispatcher) (history : List Deed) (slot : Slot) : Prop where
  /-- One reservation was accepted under the slot's id, and it was made for this slot. -/
  reserved : Deed.reservations slot.allocation history = [.reserve slot.worker slot.job slot.allocation slot.profile]
  /-- No outcome was applied under the id. -/
  unanswered : ∀ flight outcome, .land flight ∈ history → flight.finish.2 = .answer outcome →
    flight.allocation ≠ slot.allocation
  /-- The request is under way, or its task was dropped or broke down. -/
  unfinished : (slot.allocation, slot.job) ∈ d.requests ∨ ∃ flight,
    flight.request = (slot.allocation, slot.job) ∧
      (.drop flight ∈ history ∨ .land flight ∈ history ∧ flight.finish.2 = .crash)

theorem outstanding_of_pending (performed : (new owner timeouts).run operations = .ok (resolutions, d))
    (distinct : ((((new owner timeouts).history operations).filterMap Deed.launched?).map Prod.fst).Nodup)
    {slot : Slot} (recorded : slot ∈ d.cluster.inventory.slots) (pending : slot.state = .pending) :
    d.Outstanding ((new owner timeouts).history operations) slot := by
  have course := course_run performed
  have indexed := course.indexed Inventory.indexed_empty
  have found : d.cluster.slot? slot.allocation = some slot := indexed.mem_slots.1 recorded
  have not_quiet : ¬d.cluster.Quiet slot.allocation := fun quiet => by
    rw [quiet slot found] at pending
    cases pending
  have unanswered : ∀ flight outcome, .land flight ∈ (new owner timeouts).history operations →
      flight.finish.2 = .answer outcome → flight.allocation ≠ slot.allocation :=
    fun flight outcome landed answered its => not_quiet (its ▸ quiet_of_answered performed distinct landed answered)
  -- Some reservation has the id, as otherwise no slot would wait under it.
  obtain ⟨request, launched, its⟩ : ∃ request ∈ ((new owner timeouts).history operations).filterMap Deed.launched?,
      request.1 = slot.allocation := by
    by_contra absent
    refine not_quiet (course.quiet Inventory.indexed_empty nofun fun request launched its => ?_)
    exact absent ⟨request, launched, its⟩
  obtain ⟨deed, inside, launches⟩ := List.mem_filterMap.1 launched
  obtain ⟨worker, profile, rfl⟩ := Deed.launched?_eq_some launches
  rw [its] at inside
  obtain ⟨before, after, history⟩ := List.append_of_mem inside
  rw [history] at course distinct
  have waits := course.awaits_or_quiet_of_reserve Inventory.indexed_empty (Deed.apart_of_nodup distinct).2
  obtain ⟨_, found', rfl, its_job, rfl, -⟩ := waits.resolve_right not_quiet
  obtain rfl := Option.some.inj (found.symm.trans found')
  refine ⟨?_, unanswered, ?_⟩
  · rw [history, Deed.reservations_of_nodup distinct, its_job]
  · obtain rfl : request = (slot.allocation, slot.job) := Prod.ext its its_job.symm
    rcases List.mem_append.1 ((ended_run performed).mem_iff.2 (List.mem_append_right _ launched)) with
      finished | under_way
    · obtain ⟨deed, done, ended⟩ := List.mem_filterMap.1 finished
      refine .inr ?_
      cases deed with
      | land flight =>
        refine ⟨flight, Option.some.inj ended, .inr ⟨done, ?_⟩⟩
        cases finish : flight.finish.2 with
        | crash => rfl
        | answer outcome =>
          exact absurd (congrArg Prod.fst (Option.some.inj ended)) (unanswered flight outcome done finish)
      | drop flight => exact ⟨flight, Option.some.inj ended, .inl done⟩
      | register | removeWorker | reserve | free | report => cases ended
    · exact .inl under_way

end Dispatcher

namespace Session

section

variable {Seed : Type} [Traversal Seed]
variable {owner : OwnerId} {timeouts : Timeouts} {chance : Chance} {operations : List Operation} {s : Session}

/-- Pending slots are the reservations that wait for an answer. In a session that mints no id twice, whatever the ids
    are, a slot that is pending was requested under its id, of its worker and with its job and profile, by exactly one
    call that was accepted, and that request has not delivered an outcome; and once a request has delivered one, no
    slot under its id is pending in any continuation. -/
theorem pending_slots_outstanding (performed : (new owner timeouts chance).run operations = .ok s)
    (apart : s.MintsApart) :
    (∀ slot ∈ s.dispatcher.cluster.inventory.slots, slot.state = .pending →
      (new owner timeouts chance).Requests operations slot.worker slot.job slot.allocation slot.profile ∧
        s.dispatcher.Outstanding ((new owner timeouts chance).history operations) slot) ∧
    ∀ flight outcome, .land flight ∈ (new owner timeouts chance).history operations →
      flight.finish.2 = .answer outcome → ∀ later last, s.run later = .ok last → last.MintsApart →
        last.dispatcher.cluster.Quiet flight.allocation := by
  have leads := leads_run performed
  obtain ⟨told, called⟩ := leads.run
  have first : s.chance = chance := leads.chance
  have distinct : ((((new owner timeouts chance).history operations).filterMap Deed.launched?).map Prod.fst).Nodup := by
    refine leads.launched.nodup ?_
    have apart := mintsApart_iff.1 apart
    rwa [mintedIds, first] at apart
  constructor
  · intro slot recorded pending
    have outstanding := Dispatcher.outstanding_of_pending called distinct recorded pending
    have once := outstanding.reserved
    exact ⟨requests_of_reserved performed (List.mem_filter.1 (once ▸ List.mem_singleton_self _)).1, outstanding⟩
  · intro flight outcome landed answered later last continued apart'
    have quiet := Dispatcher.quiet_of_answered called distinct landed answered
    have onward := leads_run continued
    obtain ⟨told', called'⟩ := onward.run
    have indexed := (Dispatcher.course_run called).indexed Inventory.indexed_empty
    refine (Dispatcher.course_run called').quiet indexed quiet fun request launched its => ?_
    -- Ids that are minted later differ from those of earlier requests.
    have accepted : flight.request ∈ ((new owner timeouts chance).history operations).filterMap Deed.launched? :=
      (Dispatcher.ended_run called).mem_iff.1 (List.mem_append_left _ (List.mem_filterMap.2 ⟨_, landed, rfl⟩))
    have apart := mintsApart_iff.1 apart'
    rw [mintedIds, onward.chance] at apart
    change (s.mintedIds 0 last.minted).Nodup at apart
    rw [← s.mintedIds_append (Nat.zero_le s.minted) onward.grows, List.nodup_append] at apart
    have minted := leads.launched.subset (List.mem_map_of_mem accepted)
    have earlier : flight.allocation ∈ s.mintedIds 0 s.minted := by
      rw [mintedIds, first]
      exact minted
    exact apart.2.2 _ earlier _ (onward.launched.subset (List.mem_map_of_mem launched)) its.symm

end

/-- Two slots are requested. The worker grants the first one, and the task of the second request is dropped after
    its caller has given up. -/
private def droppedRequest : List Operation :=
  [.register ⟨1⟩ .any .any, .allocate "a" ⟨1⟩ ⟨7⟩ "" .any .zero .none (.after 5 (.answer .success)),
    .allocate "b" ⟨1⟩ ⟨8⟩ "" (.ofUnits 1 0) .zero .none .never, .abandon "b", .advance 5, .dropTasks]

/-- Ids that count down from the largest one. -/
private def descending : Chance := .ofIds fun n => ⟨BitVec.allOnes 128 - BitVec.ofNat 128 n⟩

theorem pending_slots_outstanding_dropped : ∃ s slot, (new ⟨1⟩ .default descending).run droppedRequest = .ok s ∧
    slot ∈ s.dispatcher.cluster.inventory.slots ∧ slot.state = .pending ∧
    (new ⟨1⟩ .default descending).Requests droppedRequest slot.worker slot.job slot.allocation slot.profile ∧
    s.dispatcher.Outstanding ((new ⟨1⟩ .default descending).history droppedRequest) slot ∧
    ∀ later last, s.run later = .ok last → last.MintsApart →
      last.dispatcher.cluster.Quiet ⟨BitVec.allOnes 128⟩ := by
  have evaluated : ((new ⟨1⟩ .default descending).run droppedRequest).toOption.any (fun s =>
      decide s.MintsApart && s.dispatcher.cluster.inventory.slots.any (·.state = .pending)) = true := by
    decide +kernel
  have landed : .land ⟨⟨BitVec.allOnes 128⟩, ⟨7⟩, Timeouts.usual, .after 5 (.answer .success), 0, some 0⟩ ∈
      (new ⟨1⟩ .default descending).history droppedRequest := by decide +kernel
  cases performed : (new ⟨1⟩ .default descending).run droppedRequest with
  | error defect =>
    rw [performed] at evaluated
    cases evaluated
  | ok s =>
    rw [performed] at evaluated
    obtain ⟨apart, listed⟩ := Bool.and_eq_true_iff.1 evaluated
    obtain ⟨slot, recorded, pending⟩ := List.any_eq_true.1 listed
    obtain ⟨waits, quiet⟩ := pending_slots_outstanding performed (of_decide_eq_true apart)
    have pending := of_decide_eq_true pending
    obtain ⟨requested, outstanding⟩ := waits slot recorded pending
    exact ⟨s, slot, rfl, recorded, pending, requested, outstanding, quiet _ _ landed rfl⟩

end Session

end SlotControl
