import SlotControl.Proofs.Course

/-!
An answer settles the slot of its own request or nothing. Once the slot that a reservation has recorded
is released, no slot waits under its id again, so an answer that comes later finds nothing to change.
Main statement: `Dispatcher.answer_settles_own_slot`.
-/

namespace SlotControl

variable {cluster next : Cluster} {worker : WorkerId} {job : JobId} {allocation : AllocationId} {profile : Profile}

/-! ## Slots that wait -/

namespace Cluster

variable {Seed : Type} [Traversal Seed]

/-- The slot of the allocation is on the worker and waits for the answer to its request. -/
def Awaits (cluster : Cluster) (worker : WorkerId) (job : JobId) (allocation : AllocationId) (profile : Profile) :
    Prop :=
  ∃ slot, cluster.slot? allocation = some slot ∧ slot.worker = worker ∧ slot.job = job ∧ slot.profile = profile ∧
    slot.state = .pending

/-- No slot of the allocation waits for an answer. -/
def Quiet (cluster : Cluster) (allocation : AllocationId) : Prop :=
  ∀ slot, cluster.slot? allocation = some slot → slot.state = .allocated

theorem Quiet.congr (quiet : cluster.Quiet allocation) (same : next.slot? allocation = cluster.slot? allocation) :
    next.Quiet allocation := fun slot found => quiet slot (same ▸ found)

theorem Awaits.congr (awaits : cluster.Awaits worker job allocation profile)
    (same : next.slot? allocation = cluster.slot? allocation) : next.Awaits worker job allocation profile := by
  obtain ⟨slot, found, waiting⟩ := awaits
  exact ⟨slot, same.trans found, waiting⟩

/-- An outcome makes no slot wait, not even one of its own allocation. -/
theorem Quiet.conclude (quiet : cluster.Quiet allocation) (indexed : cluster.inventory.Indexed) {other : AllocationId}
    {outcome told : Outcome} (concluded : cluster.conclude other job outcome = .ok (told, next)) :
    next.Quiet allocation := by
  intro slot found
  rw [(slot?_conclude indexed concluded).2] at found
  split at found
  · obtain ⟨before, found, settles⟩ := Option.bind_eq_some_iff.1 found
    rw [settled_of_allocated _ _ (quiet before found)] at settles
    exact Option.some.inj settles ▸ quiet before found
  · exact quiet slot found

end Cluster

namespace Deed

variable {Seed : Type} [Traversal Seed]

/-- A deed releases the slot of an allocation on a worker: it frees the allocation, removes the worker, or
    is a report of the worker that releases the slot. -/
def Releases (worker : WorkerId) (allocation : AllocationId) (cluster : Cluster) : Deed → Prop
  | .free other => other = allocation
  | .removeWorker other => other = worker
  | .report other news =>
    other = worker ∧ ∃ slot, cluster.slot? allocation = some slot ∧ Cluster.Releases worker news slot
  | _ => False

variable {deed : Deed} {told : List Resolution}

theorem Does.indexed (does : deed.Does cluster told next) (indexed : cluster.inventory.Indexed) :
    next.inventory.Indexed := by
  cases does with
  | register added => exact (Cluster.slot?_register indexed added).1
  | removeWorker removed => exact (Cluster.slot?_removeWorker indexed removed).1
  | reserve accepted => exact (Cluster.slot?_reserve indexed accepted).1
  | free freed => exact (Cluster.slot?_free indexed freed).1
  | report reported => exact (Cluster.slot?_report indexed reported).1
  | drop => exact indexed
  | land landed =>
    rcases (Dispatcher.land_eq_ok landed).2 with ⟨-, rfl⟩ | ⟨outcome, -, concluded⟩
    · exact indexed
    · exact (Cluster.slot?_conclude indexed concluded).1

/-- The end of another request leaves the slot. -/
private theorem slot?_land (indexed : cluster.inventory.Indexed) {flight : Flight} {resolution : Resolution}
    (landed : Dispatcher.land cluster flight = .ok (resolution, next)) (other : flight.allocation ≠ allocation) :
    next.slot? allocation = cluster.slot? allocation := by
  rcases (Dispatcher.land_eq_ok landed).2 with ⟨-, rfl⟩ | ⟨outcome, -, concluded⟩
  · rfl
  · rw [(Cluster.slot?_conclude indexed concluded).2, if_neg (Ne.symm other)]

/-- A slot waits until a deed releases it or its own request ends. -/
theorem Does.awaits (does : deed.Does cluster told next) (indexed : cluster.inventory.Indexed)
    (awaits : cluster.Awaits worker job allocation profile) (kept : ¬deed.Releases worker allocation cluster)
    (under_way : ∀ request, deed.ended? = some request → request.1 ≠ allocation) :
    next.Awaits worker job allocation profile := by
  cases does with
  | register added => exact awaits.congr ((Cluster.slot?_register indexed added).2.2 allocation)
  | drop => exact awaits
  | land landed => exact awaits.congr (slot?_land indexed landed (under_way _ rfl))
  | free freed =>
    refine awaits.congr ?_
    rw [(Cluster.slot?_free indexed freed).2, if_neg fun same => kept same.symm]
  | reserve accepted =>
    obtain ⟨-, absent, slots⟩ := Cluster.slot?_reserve indexed accepted
    refine awaits.congr ?_
    obtain ⟨slot, found, -⟩ := awaits
    rw [slots, if_neg]
    rintro rfl
    rw [absent] at found
    cases found
  | removeWorker removed =>
    obtain ⟨slot, found, rfl, waiting⟩ := awaits
    refine ⟨slot, ?_, rfl, waiting⟩
    rw [(Cluster.slot?_removeWorker indexed removed).2, found]
    rw [Option.filter_some, if_pos]
    exact decide_eq_true fun same => kept same.symm
  | @report other news _ _ reported =>
    obtain ⟨slot, found, rfl, its_job, its_profile, pending⟩ := awaits
    have reported := (Cluster.slot?_report indexed reported).2 allocation
    have stays : ¬Cluster.Releases other news slot := by
      rintro releases
      obtain rfl := releases.1
      exact kept ⟨rfl, slot, found, releases⟩
    rw [found, Option.filter_some, if_pos (by simpa using stays)] at reported
    obtain ⟨place, here, left⟩ := reported.some_left
    exact ⟨_, left, here, its_job, its_profile, pending⟩

/-- A deed that releases a slot leaves none that waits. -/
theorem Does.quiet_of_releases (does : deed.Does cluster told next) (indexed : cluster.inventory.Indexed)
    (awaits : cluster.Awaits worker job allocation profile) (releases : deed.Releases worker allocation cluster) :
    next.Quiet allocation := by
  intro left found'
  obtain ⟨slot, found, here, -⟩ := awaits
  cases does with
  | register | drop | land | reserve => exact releases.elim
  | free freed =>
    rw [(Cluster.slot?_free indexed freed).2, if_pos releases.symm] at found'
    cases found'
  | removeWorker removed =>
    rw [(Cluster.slot?_removeWorker indexed removed).2, found, Option.filter_some, if_neg] at found'
    · cases found'
    · simpa [here] using releases.symm
  | report reported =>
    obtain ⟨rfl, released, found'', superseded⟩ := releases
    obtain rfl := Option.some.inj (found.symm.trans found'')
    have reported := (Cluster.slot?_report indexed reported).2 allocation
    rw [found, found', Option.filter_some, if_neg (by simpa using superseded)] at reported
    exact reported.none_left.2

/-- Only a new reservation makes a slot wait. -/
theorem Does.quiet (does : deed.Does cluster told next) (indexed : cluster.inventory.Indexed)
    (quiet : cluster.Quiet allocation)
    (other : ∀ request, deed.launched? = some request → request.1 ≠ allocation) : next.Quiet allocation := by
  cases does with
  | register added => exact quiet.congr ((Cluster.slot?_register indexed added).2.2 allocation)
  | drop => exact quiet
  | reserve accepted =>
    refine quiet.congr ?_
    rw [(Cluster.slot?_reserve indexed accepted).2.2, if_neg (Ne.symm (other _ rfl))]
  | free freed =>
    intro slot found
    rw [(Cluster.slot?_free indexed freed).2] at found
    split at found
    · cases found
    · exact quiet slot found
  | removeWorker removed =>
    intro slot found
    rw [(Cluster.slot?_removeWorker indexed removed).2, Option.filter_eq_some_iff] at found
    exact quiet slot found.1
  | land landed =>
    rcases (Dispatcher.land_eq_ok landed).2 with ⟨-, rfl⟩ | ⟨outcome, -, concluded⟩
    · exact quiet
    · exact quiet.conclude indexed concluded
  | report reported =>
    intro slot found
    have reported := (Cluster.slot?_report indexed reported).2 allocation
    rw [found] at reported
    cases before : (cluster.slot? allocation).filter _ with
    | none =>
      rw [before] at reported
      exact reported.none_left.2
    | some old =>
      rw [before] at reported
      obtain ⟨place, -, same⟩ := reported.some_left
      rw [Option.some.inj same]
      exact quiet old (Option.filter_eq_some_iff.1 before).1

/-- A deed has one result. -/
theorem Does.unique {other : Cluster} {told' : List Resolution} (does : deed.Does cluster told next)
    (does' : deed.Does cluster told' other) : next = other := by
  cases does with
  | register added => cases does' with | register added' => exact Except.ok.inj (added.symm.trans added')
  | drop => cases does'; rfl
  | removeWorker removed =>
    cases does' with
    | removeWorker removed' => exact (Prod.mk.inj (Except.ok.inj (removed.symm.trans removed'))).2
  | reserve accepted =>
    cases does' with
    | reserve accepted' => exact Except.ok.inj (Except.ok.inj (accepted.symm.trans accepted'))
  | free freed =>
    cases does' with
    | free freed' => exact (Prod.mk.inj (Except.ok.inj (freed.symm.trans freed'))).2
  | report reported =>
    cases does' with
    | report reported' => exact (Prod.mk.inj (Except.ok.inj (reported.symm.trans reported'))).2
  | land landed =>
    cases does' with
    | land landed' => exact (Prod.mk.inj (Except.ok.inj (landed.symm.trans landed'))).2

/-- Some deed of a sequence releases the slot when its turn comes. -/
def Released (worker : WorkerId) (allocation : AllocationId) : Cluster → List Deed → Prop
  | _, [] => False
  | cluster, deed :: rest => deed.Releases worker allocation cluster ∨
    ∃ told next, deed.Does cluster told next ∧ Released worker allocation next rest

end Deed

namespace Course

variable {Seed : Type} [Traversal Seed]
variable {first last : Cluster} {deeds : List Deed} {resolutions : List Resolution}

theorem indexed (course : Course first deeds resolutions last) (right : first.inventory.Indexed) :
    last.inventory.Indexed := by
  induction course with
  | nil => exact right
  | cons does _ ih => exact ih (does.indexed right)

/-- Deeds lead to one state. -/
theorem unique {other : Cluster} {resolutions' : List Resolution} (course : Course first deeds resolutions last)
    (course' : Course first deeds resolutions' other) : last = other := by
  induction course generalizing resolutions' with
  | nil =>
    cases course'
    rfl
  | cons does _ ih =>
    obtain ⟨_, _, _, does', onward', -⟩ := course'.of_cons
    exact ih (does.unique does' ▸ onward')

theorem quiet (course : Course first deeds resolutions last) (right : first.inventory.Indexed)
    (quiet : first.Quiet allocation)
    (fresh : ∀ request ∈ deeds.filterMap Deed.launched?, request.1 ≠ allocation) : last.Quiet allocation := by
  induction course with
  | nil => exact quiet
  | @cons _ _ _ deed rest _ _ does _ ih =>
    have here : ∀ request, deed.launched? = some request → request.1 ≠ allocation := fun request launched =>
      fresh request (List.mem_filterMap.2 ⟨deed, .head _, launched⟩)
    refine ih (does.indexed right) (does.quiet right quiet here) fun request later => ?_
    obtain ⟨deed', inside, launched⟩ := List.mem_filterMap.1 later
    exact fresh request (List.mem_filterMap.2 ⟨deed', .tail _ inside, launched⟩)

/-- A slot that waits goes on to wait until it is released, and then none waits in its place. -/
theorem awaits (course : Course first deeds resolutions last) (right : first.inventory.Indexed)
    (awaits : first.Awaits worker job allocation profile)
    (fresh : ∀ request ∈ deeds.filterMap Deed.launched?, request.1 ≠ allocation)
    (under_way : ∀ request ∈ deeds.filterMap Deed.ended?, request.1 ≠ allocation) :
    (¬Deed.Released worker allocation first deeds → last.Awaits worker job allocation profile) ∧
      (Deed.Released worker allocation first deeds → last.Quiet allocation) := by
  induction course with
  | nil => exact ⟨fun _ => awaits, False.elim⟩
  | @cons start between _ deed rest told _ does onward ih =>
    have fresh' : ∀ request ∈ rest.filterMap Deed.launched?, request.1 ≠ allocation := by
      intro request later
      obtain ⟨deed', inside, launched⟩ := List.mem_filterMap.1 later
      exact fresh request (List.mem_filterMap.2 ⟨deed', .tail _ inside, launched⟩)
    by_cases releases : deed.Releases worker allocation start
    · refine ⟨fun kept => absurd (.inl releases) kept, fun _ => ?_⟩
      exact onward.quiet (does.indexed right) (does.quiet_of_releases right awaits releases) fresh'
    · have here : ∀ request, deed.ended? = some request → request.1 ≠ allocation := fun request ended =>
        under_way request (List.mem_filterMap.2 ⟨deed, .head _, ended⟩)
      have under_way' : ∀ request ∈ rest.filterMap Deed.ended?, request.1 ≠ allocation := by
        intro request later
        obtain ⟨deed', inside, ended⟩ := List.mem_filterMap.1 later
        exact under_way request (List.mem_filterMap.2 ⟨deed', .tail _ inside, ended⟩)
      obtain ⟨waits, gone⟩ := ih (does.indexed right) (does.awaits right awaits releases here) fresh' under_way'
      constructor
      · exact fun kept => waits fun later => kept (.inr ⟨told, between, does, later⟩)
      · rintro (now | ⟨told', other, does', later⟩)
        · exact absurd now releases
        · exact gone (does.unique does' ▸ later)

end Course

/-! ## Answers -/

/-- Success confirms the slot and changes nothing else. -/
def Cluster.Confirms (cluster : Cluster) (slot : Slot) (next : Cluster) : Prop :=
  ∃ record, cluster.inventory.worker? slot.worker = some record ∧
    next = ⟨⟨cluster.inventory.workers.insert slot.worker
        { record with slots := record.slots.insert slot.allocation { slot with state := .allocated } },
      cluster.inventory.owners⟩, cluster.ledger⟩

/-- Failure removes the slot, gives its profile back to its worker, takes it from the account of its job and
    changes nothing else. -/
def Cluster.Withdraws (cluster : Cluster) (slot : Slot) (next : Cluster) : Prop :=
  ∃ record rest ledger, cluster.inventory.worker? slot.worker = some record ∧
    record.available.add? slot.profile = some rest ∧ cluster.ledger.lose slot.job slot.profile = .ok ledger ∧
    next = ⟨⟨cluster.inventory.workers.insert slot.worker
        { record with available := rest, slots := record.slots.erase slot.allocation },
      cluster.inventory.owners.erase slot.allocation⟩, ledger⟩

private theorem filter_key {α β : Type} [DecidableEq β] {key : α → β} {items : List α}
    (distinct : (items.map key).Nodup) {item : α} (inside : item ∈ items) :
    items.filter (key · = key item) = [item] := by
  induction items with
  | nil => cases inside
  | cons first rest ih =>
    obtain ⟨apart, distinct⟩ := List.nodup_cons.1 distinct
    rcases List.mem_cons.1 inside with rfl | later
    · have none_later : rest.filter (key · = key item) = [] := by
        refine List.filter_eq_nil_iff.2 fun other there => ?_
        simp only [decide_eq_true_iff]
        exact fun same => apart (same ▸ List.mem_map_of_mem there)
      rw [List.filter_cons_of_pos (by simp), none_later]
    · have other : key first ≠ key item := fun same => apart (same ▸ List.mem_map_of_mem later)
      rw [List.filter_cons_of_neg (by simpa using other), ih distinct later]

/-- Between a reservation and the end of its request no request of the same allocation is accepted or ends,
    and the request ends for the job that it was made for. -/
private theorem own_request {before between after : List Deed} {flight : Flight}
    {requests : List (AllocationId × JobId)}
    (launched : (((before ++ .reserve worker job allocation profile :: (between ++ .land flight :: after)).filterMap
      Deed.launched?).map Prod.fst).Nodup)
    (ended : ((before ++ .reserve worker job allocation profile :: (between ++ .land flight :: after)).filterMap
      Deed.ended? ++ requests).Perm
        ((before ++ .reserve worker job allocation profile :: (between ++ .land flight :: after)).filterMap
          Deed.launched?))
    (its : flight.allocation = allocation) : flight.job = job ∧
      (∀ request ∈ between.filterMap Deed.launched?, request.1 ≠ allocation) ∧
      ∀ request ∈ between.filterMap Deed.ended?, request.1 ≠ allocation := by
  have once := (ended.map Prod.fst).nodup_iff.2 launched
  have made : (allocation, job) ∈ (before ++ .reserve worker job allocation profile ::
      (between ++ .land flight :: after)).filterMap Deed.launched? :=
    List.mem_filterMap.2 ⟨.reserve worker job allocation profile, by simp, rfl⟩
  have ends : flight.request ∈ (before ++ .reserve worker job allocation profile ::
      (between ++ .land flight :: after)).filterMap Deed.launched? :=
    ended.mem_iff.1 (List.mem_append_left _ (List.mem_filterMap.2 ⟨.land flight, by simp, rfl⟩))
  refine ⟨?_, fun request inside same => ?_, fun request inside same => ?_⟩
  · have equal := List.inj_on_of_nodup_map launched ends made its
    exact congrArg Prod.snd equal
  · simp only [List.filterMap_append, List.filterMap_cons, Deed.launched?, List.map_append, List.map_cons] at launched
    have later := (List.nodup_cons.1 (List.nodup_append.1 launched).2.1).1
    exact later (List.mem_append_left _ (same ▸ List.mem_map_of_mem inside))
  · simp only [List.filterMap_append, List.filterMap_cons, Deed.ended?, List.map_append, List.map_cons,
      List.append_assoc] at once
    have later := (List.nodup_append.1 (List.nodup_append.1 once).2.1).2.2
    exact later request.1 (List.mem_map_of_mem inside) flight.allocation (.head _) (same.trans its.symm)

namespace Dispatcher

section

variable {Seed : Type} [Traversal Seed]

/-- An answer settles the slot of its own request or nothing, and each request has one answer at most. In a
    run whose new ids are distinct, take a reservation and the answer to its request. Unless the slot was
    released in between it still waits, success confirms it and failure withdraws it, and nothing else
    changes; if it was released, then nothing changes and the caller is told of a success. -/
theorem answer_settles_own_slot {owner : OwnerId} {timeouts : Timeouts} {operations : List Operation}
    {resolutions : List Resolution} {d : Dispatcher}
    (performed : (new owner timeouts).run operations = .ok (resolutions, d))
    (minted : (operations.filterMap Operation.minted?).Nodup) {before between after : List Deed} {flight : Flight}
    {outcome : Outcome}
    (history : (new owner timeouts).history operations =
      before ++ .reserve worker job allocation profile :: (between ++ .land flight :: after))
    (its : flight.allocation = allocation) (answered : flight.finish.2 = .answer outcome) :
    ∃ earlier start reserved during current told next later,
      Course .empty before earlier start ∧ start.reserve worker job allocation profile = .ok (.ok reserved) ∧
      Course reserved between during current ∧ current.conclude allocation job outcome = .ok (told, next) ∧
      Course next after later d.cluster ∧
      resolutions.filter (·.allocation = allocation) = [⟨allocation, told⟩] ∧
      (¬Deed.Released worker allocation reserved between → ∃ slot, current.slot? allocation = some slot ∧
        slot.allocation = allocation ∧ slot.worker = worker ∧ slot.job = job ∧ slot.profile = profile ∧
        slot.state = .pending ∧ match outcome with
        | .success => told = .success ∧ current.Confirms slot next
        | .failure cause => told = .failure cause ∧ current.Withdraws slot next) ∧
      (Deed.Released worker allocation reserved between → told = .success ∧ next = current) := by
  have course := course_run performed
  have ended := ended_run performed
  have distinct := (launched_sublist (new owner timeouts) operations).nodup minted
  have told_once : (resolutions.map Resolution.allocation).Nodup := by
    rw [course.allocations]
    have once := (ended.map Prod.fst).nodup_iff.2 distinct
    rw [List.map_append] at once
    exact (List.nodup_append.1 once).1
  rw [history] at course ended distinct
  obtain ⟨rfl, fresh, under_way⟩ := own_request distinct ended its
  subst its
  -- The course is cut at the reservation and at the answer.
  obtain ⟨earlier, start, _, begins, onward, rfl⟩ := course.of_append
  obtain ⟨_, reserved, _, does, waiting, rfl⟩ := onward.of_cons
  cases does with | reserve accepted => ?_
  obtain ⟨during, current, _, lasts, ending, rfl⟩ := waiting.of_append
  obtain ⟨_, next, later, does, continues, rfl⟩ := ending.of_cons
  cases does with | @land _ resolution _ landed => ?_
  obtain ⟨same, ⟨crashed, -⟩ | ⟨outcome', answered', concluded⟩⟩ := land_eq_ok landed
  · rw [crashed] at answered
    cases answered
  obtain rfl : outcome = outcome' := Ending.answer.inj (answered.symm.trans answered')
  obtain ⟨right, -, slots⟩ := Cluster.slot?_reserve (begins.indexed Inventory.indexed_empty) accepted
  have reserved_waits : reserved.Awaits worker flight.job flight.allocation profile :=
    ⟨_, (slots flight.allocation).trans (if_pos rfl), rfl, rfl, rfl, rfl⟩
  obtain ⟨waits, gone⟩ := lasts.awaits right reserved_waits fresh under_way
  have right' := lasts.indexed right
  refine ⟨earlier, start, reserved, during, current, resolution.outcome, next, later, begins, accepted, lasts,
    concluded, continues, ?_, fun kept => ?_, fun released => ?_⟩
  · rw [← same]
    exact filter_key told_once (by simp)
  · obtain ⟨slot, found, here, its_job, its_profile, pending⟩ := waits kept
    have this := right'.allocation_eq found
    refine ⟨slot, found, this, here, its_job, its_profile, pending, ?_⟩
    rw [← its_job] at concluded
    cases outcome with
    | success =>
      obtain ⟨told, record, registered, changed⟩ := Cluster.conclude_success_eq right' found pending concluded
      exact ⟨told, record, registered, this ▸ changed⟩
    | failure cause =>
      obtain ⟨told, record, rest, ledger, registered, given, lost, changed⟩ :=
        Cluster.conclude_failure_eq right' found pending concluded
      exact ⟨told, record, rest, ledger, registered, given, lost, this ▸ changed⟩
  · have late : current.Late flight.allocation flight.job := by
      rintro slot found ⟨-, pending⟩
      rw [gone released slot found] at pending
      cases pending
    have unchanged := (Cluster.conclude_eq_ok_iff flight.allocation flight.job outcome .success).2 (.late late)
    obtain ⟨told, same⟩ := Prod.mk.inj (Except.ok.inj (concluded.symm.trans unchanged))
    exact ⟨told, same⟩

end

/-- A slot is freed before the worker answers with a failure, and its caller is told of a success. -/
theorem answer_settles_own_slot_freed : ∃ resolutions d,
    (new ⟨1⟩ .default).run [.register ⟨1⟩ .any .any,
      .allocate ⟨0⟩ ⟨1⟩ ⟨7⟩ "" .any ⟨.zero, [], .after 5 (.answer (.failure (.generic "full"))), 0⟩, .free ⟨0⟩,
      .advance 10] = .ok (resolutions, d) ∧
    resolutions.filter (·.allocation = ⟨0⟩) = [⟨⟨0⟩, .success⟩] := by
  obtain ⟨⟨resolutions, d⟩, performed⟩ := Checked.isOk_iff.1 (show ((new ⟨1⟩ .default).run [.register ⟨1⟩ .any .any,
    .allocate ⟨0⟩ ⟨1⟩ ⟨7⟩ "" .any ⟨.zero, [], .after 5 (.answer (.failure (.generic "full"))), 0⟩, .free ⟨0⟩,
    .advance 10]).isOk = true by decide +kernel)
  have history : (new ⟨1⟩ .default).history [.register ⟨1⟩ .any .any,
      .allocate ⟨0⟩ ⟨1⟩ ⟨7⟩ "" .any ⟨.zero, [], .after 5 (.answer (.failure (.generic "full"))), 0⟩, .free ⟨0⟩,
      .advance 10] = [.register ⟨1⟩ .any .any] ++ .reserve ⟨1⟩ ⟨7⟩ ⟨0⟩ .any :: ([.free ⟨0⟩] ++
        .land ⟨⟨0⟩, ⟨7⟩, Timeouts.usual, .after 5 (.answer (.failure (.generic "full"))), 0, some 0⟩ :: []) := by
    decide +kernel
  obtain ⟨_, _, _, _, _, told, _, _, _, _, _, _, _, once, -, late⟩ :=
    answer_settles_own_slot performed (by decide) history rfl rfl
  rw [(late (.inl rfl)).1] at once
  exact ⟨resolutions, d, performed, once⟩

end Dispatcher

end SlotControl
