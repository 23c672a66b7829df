import SlotControl.Proofs.Outstanding
import SlotControl.Proofs.Printing
import SlotControl.Proofs.Scripts
import SlotControl.Replay.CommandLine

/-!
A replay that succeeds has settled every request. All requests are awaited in the end, so that no slot is left
pending, and the entry of each request says what became of it; all of that is printed. Main statement:
`CommandLine.replay_settles`.
-/

namespace SlotControl

/-- Among deeds, the failure of a request rolls back the slot that was reserved for it. -/
inductive Deed.RollsBack {Seed : Type} [Traversal Seed] (cluster : Cluster) (deeds : List Deed) (worker : WorkerId)
    (job : JobId) (allocation : AllocationId) (profile : Profile) (cause : Failure) : Prop
  | intro {before after : List Deed} {flight : Flight} {told : List Resolution} {current next : Cluster} {slot : Slot}
      (history : deeds = before ++ .land flight :: after) (course : Course cluster before told current)
      (request : flight.request = (allocation, job)) (fails : flight.finish.2 = .answer (.failure cause))
      (lands : (Deed.land flight).Does current [⟨allocation, .failure cause⟩] next)
      (found : current.slot? allocation = some slot)
      (reserved : slot.worker = worker ∧ slot.job = job ∧ slot.profile = profile) (pending : slot.state = .pending)
      (withdrawn : current.Withdraws slot next) : Deed.RollsBack cluster deeds worker job allocation profile cause

/-! ## One request -/

namespace Dispatcher

variable {Seed : Type} [Traversal Seed]
variable {worker : WorkerId} {job : JobId} {allocation : AllocationId} {profile : Profile}
variable {operations : List Operation} {told : List Resolution} {d sent last : Dispatcher}

/-- When a slot is rolled back, its caller is told why. -/
theorem told_of_rollsBack (performed : d.run operations = .ok (told, last)) {cause : Failure}
    (rollsBack : Deed.RollsBack d.cluster (d.history operations) worker job allocation profile cause) :
    ⟨allocation, .failure cause⟩ ∈ told := by
  obtain ⟨history, course, -, -, lands, -, -, -, -⟩ := rollsBack
  have run := course_run performed
  rw [history] at run
  obtain ⟨_, current, _, before, onward, rfl⟩ := run.of_append
  obtain ⟨_, _, _, does, -, rfl⟩ := onward.of_cons
  obtain rfl := before.unique course
  cases lands with | land landed => ?_
  cases does with | land landed' => ?_
  obtain ⟨same, -⟩ := Prod.mk.inj (Except.ok.inj (landed'.symm.trans landed))
  rw [same]
  exact List.mem_append_right _ (.head _)

/-- A failure that a caller is told of has rolled back the slot that waited. -/
theorem rollsBack_of_concluded {flight : Flight} {deeds before after : List Deed} {earlier : List Resolution}
    {cluster current next : Cluster} {outcome : Outcome} {cause : Failure} (indexed : cluster.inventory.Indexed)
    (awaits : cluster.Awaits worker flight.job flight.allocation profile)
    (history : deeds = before ++ .land flight :: after) (ends : flight.finish.2 = .answer outcome)
    (fresh : ∀ request ∈ deeds.filterMap Deed.launched?, request.1 ≠ flight.allocation)
    (course : Course cluster before earlier current)
    (concluded : current.conclude flight.allocation flight.job outcome = .ok (.failure cause, next)) :
    Deed.RollsBack cluster deeds worker flight.job flight.allocation profile cause := by
  have indexed' := course.indexed indexed
  cases (Cluster.conclude_eq_ok_iff ..).1 concluded with | @withdrawn slot _ _ _ found its pending _ => ?_
  have fresh' : ∀ request ∈ before.filterMap Deed.launched?, request.1 ≠ flight.allocation := by
    rw [history, List.filterMap_append, List.forall_mem_append] at fresh
    exact fresh.1
  -- The slot that is pending is the one that waits since the beginning.
  obtain ⟨slot', found', here, -, profiled, -⟩ := (course.awaits_or_quiet indexed awaits fresh').resolve_right
    fun quiet => by
      rw [quiet slot found] at pending
      cases pending
  obtain rfl := Option.some.inj (found.symm.trans found')
  have lands : land current flight = .ok (⟨flight.allocation, .failure cause⟩, next) := by
    rw [land, ends]
    simp only [concluded]
    rfl
  rw [← its] at concluded
  obtain ⟨-, record, rest, ledger, registered, given, lost, changed⟩ :=
    Cluster.conclude_failure_eq indexed' found pending concluded
  have named : slot.allocation = flight.allocation := indexed'.allocation_eq found
  exact .intro history course rfl ends (.land lands) found ⟨here, its, profiled⟩ pending
    ⟨record, rest, ledger, registered, given, lost, named ▸ changed⟩

/-- The caller of a request that is accepted and awaited is told one outcome, and a failure exactly when it has rolled
    the slot back. -/
theorem told_of_accepted {address : String} {expected : Duration} {reply : Reply} {rank : Nat} {request : SlotRequest}
    (indexed : d.cluster.inventory.Indexed) (unused : ∀ request ∈ d.requests, request.1 ≠ allocation)
    (accepted : d.allocate allocation worker job address profile ⟨expected, [], reply, rank⟩ = .ok (.ok request, sent))
    (autonomous : reply.Autonomous) (performed : sent.run operations = .ok (told, last))
    (spared : Spare allocation operations) (idle : last.requests = []) :
    ∃ outcome, told.filter (·.allocation = allocation) = [⟨allocation, outcome⟩] ∧ ∀ cause,
      Deed.RollsBack sent.cluster (sent.history operations) worker job allocation profile cause ↔
        outcome = .failure cause := by
  have fresh : ∀ request ∈ (sent.history operations).filterMap Deed.launched?, request.1 ≠ allocation := by
    intro request launched its
    obtain ⟨operation, inside, minted⟩ := exists_minted_of_launched launched
    exact (spared operation inside).1 (minted.trans (congrArg some its))
  cases allocates_of_allocate accepted with | @sent timeout reserved cluster _ reserves interrupted =>
  obtain rfl : reserved = cluster := Checked.pure_eq_ok_iff.1 interrupted
  obtain ⟨outcome, finish⟩ := (⟨allocation, job, timeout, reply, rank, none⟩ : Flight).exists_answer autonomous
  have alone : (d.flights ++ [(⟨allocation, job, timeout, reply, rank, none⟩ : Flight)]).filter
      (·.allocation = allocation) = [⟨allocation, job, timeout, reply, rank, none⟩] := by
    have none_before : d.flights.filter (·.allocation = allocation) = [] :=
      List.filter_eq_nil_iff.2 fun flight inside => by
        have apart : flight.allocation ≠ allocation := unused flight.request (List.mem_map_of_mem inside)
        simpa using apart
    rw [List.filter_append, none_before]
    simp
  -- The request cannot outlast the run.
  obtain ⟨-, completes, -⟩ := outlasts_or_completes rfl autonomous.ne_onDemand finish alone performed spared
  obtain ⟨-, before, after, _, current, result, _, _, history, course, concluded, -, -, once⟩ :=
    completes (by simp [idle])
  have once : told.filter (·.allocation = allocation) = [⟨allocation, result⟩] := once
  -- The slot waits from the beginning.
  obtain ⟨indexed', -, slots⟩ := Cluster.slot?_reserve indexed reserves
  have awaits : reserved.Awaits worker job allocation profile := ⟨_, (slots _).trans (if_pos rfl), rfl, rfl, rfl, rfl⟩
  refine ⟨result, once, fun cause => ⟨fun rollsBack => ?_, ?_⟩⟩
  · have inside : (⟨allocation, .failure cause⟩ : Resolution) ∈ told.filter (·.allocation = allocation) :=
      List.mem_filter.2 ⟨told_of_rollsBack performed rollsBack, by simp⟩
    rw [once] at inside
    exact (congrArg Resolution.outcome (List.mem_singleton.1 inside)).symm
  · rintro rfl
    exact rollsBack_of_concluded indexed' awaits history finish fresh course concluded

end Dispatcher

namespace Replay

variable {Seed : Type} [Traversal Seed]

/-! ## What the results say -/

/-- An entry by what became of its request. -/
structure Entry (text : String) (refuses rollsBack : Failure → Prop) : Prop where
  refused : ∀ failure, refuses failure → text = "refused: " ++ failure.text
  failed : ∀ cause, rollsBack cause → text = "failed: " ++ cause.text
  refused_iff : (∃ rest, text = "refused: " ++ rest) ↔ ∃ failure, refuses failure
  failed_iff : (∃ rest, text = "failed: " ++ rest) ↔ ∃ cause, rollsBack cause
  ok_iff : text = "ok" ↔ (∀ failure, ¬refuses failure) ∧ ∀ cause, ¬rollsBack cause

private theorem refused_ne_failed (a b : String) : "refused: " ++ a ≠ "failed: " ++ b := fun same => by
  simpa using congrArg (·.toList.head?) same

private theorem refused_ne_ok (a : String) : "refused: " ++ a ≠ "ok" := fun same => by
  simpa using congrArg (·.toList.head?) same

private theorem failed_ne_ok (a : String) : "failed: " ++ a ≠ "ok" := fun same => by
  simpa using congrArg (·.toList.head?) same

/-- The texts tell the three cases apart. -/
theorem Entry.of {text : String} {refuses rollsBack : Failure → Prop}
    (refused : ∀ failure, refuses failure → text = "refused: " ++ failure.text)
    (failed : ∀ cause, rollsBack cause → text = "failed: " ++ cause.text)
    (otherwise : (∀ failure, ¬refuses failure) → (∀ cause, ¬rollsBack cause) → text = "ok") :
    Entry text refuses rollsBack := by
  have cases : (∃ failure, refuses failure) ∨ (∃ cause, rollsBack cause) ∨ text = "ok" := by
    by_cases refuses' : ∃ failure, refuses failure
    · exact .inl refuses'
    by_cases rollsBack' : ∃ cause, rollsBack cause
    · exact .inr (.inl rollsBack')
    · exact .inr (.inr (otherwise (not_exists.1 refuses') (not_exists.1 rollsBack')))
  refine ⟨refused, failed, ⟨?_, fun ⟨failure, refuses⟩ => ⟨_, refused failure refuses⟩⟩,
    ⟨?_, fun ⟨cause, rollsBack⟩ => ⟨_, failed cause rollsBack⟩⟩, ⟨?_, fun none_of => otherwise none_of.1 none_of.2⟩⟩
  · rintro ⟨rest, rfl⟩
    rcases cases with refuses | ⟨cause, rollsBack⟩ | same
    · exact refuses
    · exact absurd (failed cause rollsBack) (refused_ne_failed _ _)
    · exact absurd same (refused_ne_ok _)
  · rintro ⟨rest, rfl⟩
    rcases cases with ⟨failure, refuses⟩ | rollsBack | same
    · exact absurd (refused failure refuses).symm (refused_ne_failed _ _)
    · exact rollsBack
    · exact absurd same (failed_ne_ok _)
  · rintro rfl
    exact ⟨fun failure refuses => refused_ne_ok _ (refused failure refuses).symm,
      fun cause rollsBack => failed_ne_ok _ (failed cause rollsBack).symm⟩

/-- The results of a replay account for a request of one of its steps: its entry says whether its reservation was
    refused, whether it failed and its slot was rolled back by what was done after the step, or neither. -/
def AccountsFor (schedule : Schedule) (label : String) (worker : WorkerId) (job : JobId) (profile : Profile)
    (state next : Replay) (after : List Step) (final : Replay) : Prop :=
  ∃ told text, next.dispatcher.run (next.calls schedule after ++ [.drain]) = .ok (told, final.dispatcher) ∧
    final.results.get? label = some text ∧
    Entry text
      (fun failure =>
        state.dispatcher.cluster.reserve worker job (schedule.id state.minted) profile = .ok (.error failure))
      (Deed.RollsBack next.dispatcher.cluster (next.history schedule after) worker job (schedule.id state.minted)
        profile)

/-- The state that a replay ends in, and what it prints. -/
structure Settled (schedule : Schedule) (timeouts : Timeouts) (scenario : Scenario) (final : Replay) :
    Prop where
  /-- No slot is pending. -/
  allocated : ∀ slot ∈ final.dispatcher.cluster.inventory.slots, slot.state = .allocated
  /-- There is one entry for each request and no other. -/
  entries : final.results.keys.Perm (scenario.steps.filterMap Step.label?)
  /-- Each entry says what became of its request. -/
  accounted : ∀ before label worker job profile reaction delay after,
    scenario.steps = before ++ .allocate label worker job profile reaction delay :: after →
    ∃ state next, performAll schedule 0 (start scenario.owner timeouts) before = .ok state ∧
      state.performChecked schedule (.allocate label worker job profile reaction delay) = .ok next ∧
      AccountsFor schedule label worker job profile state next after final
  /-- The state passes its check. -/
  sound : final.dispatcher.cluster.audit = .ok ()
  /-- All of its results, jobs and workers are printed, with every slot and what is available. -/
  shown : final.Shows final.snapshot
  /-- Each slot that is printed is printed as confirmed. -/
  confirmed : ∀ item, final.snapshot.ListsSlot item → item.Has "state" (.text "Allocated")

variable {schedule : Schedule} {timeouts : Timeouts} {owner : OwnerId} {replay state next last final : Replay}
variable {steps : List Step}

/-! ## The end of a replay -/

theorem finish_eq_ok_iff : replay.finish = .ok final ↔ ∃ told dispatcher,
    replay.dispatcher.drain = .ok (told, dispatcher) ∧ final = { replay with dispatcher }.note told ∧
      final.dispatcher.cluster.audit = .ok () := by
  simp only [finish, Checked.bind_eq_ok_iff, Checked.pure_eq_ok_iff]
  constructor
  · rintro ⟨⟨told, dispatcher⟩, drained, _, audited, rfl⟩
    exact ⟨told, dispatcher, drained, rfl, audited⟩
  · rintro ⟨told, dispatcher, drained, rfl, audited⟩
    exact ⟨(told, dispatcher), drained, (), audited, rfl⟩

/-- Steps lead to the end of the replay by their calls and the wait for all requests. Nothing is under way then, and
    the entry of a label that none of the steps uses is what it was before, or what its caller is told. -/
theorem leads_finish {index : Nat} (performed : performAll schedule index replay steps = .ok last)
    (finished : last.finish = .ok final) :
    final.dispatcher.requests = [] ∧ ∃ told,
      Leads schedule replay (replay.calls schedule steps ++ [.drain]) told final ∧
      ∀ label caller?, replay.Attends label caller? → label ∉ steps.filterMap Step.label? →
        (∀ n, replay.minted ≤ n → n < final.minted → caller? ≠ some (schedule.id n)) →
        final.results.get? label = heard caller? (replay.results.get? label) told := by
  obtain ⟨others, dispatcher, drained, rfl, -⟩ := finish_eq_ok_iff.1 finished
  obtain ⟨told, leads, keeps⟩ := leads_performAll performed
  refine ⟨?_, told ++ others, leads.trans (.of_call rfl trivial drained (Nat.le_refl _)),
    fun label caller? attends unsent fresh => ?_⟩
  · exact (congrArg (List.map Flight.request) (Dispatcher.flights_drain drained)).trans rfl
  · obtain ⟨attends', before⟩ := keeps label caller? attends unsent fresh
    have attends'' : ({ last with dispatcher } : Replay).Attends label caller? := attends'
    rw [attends''.get?_note, before, heard_append]

/-! ## Ids -/

namespace Leads

variable {calls : List Dispatcher.Operation} {told : List Resolution}

theorem exists_minted (leads : Leads schedule replay calls told next) {call : Dispatcher.Operation}
    (inside : call ∈ calls) {allocation : AllocationId} (minted : call.minted? = some allocation) :
    ∃ n, replay.minted ≤ n ∧ n < next.minted ∧ schedule.id n = allocation := by
  obtain ⟨n, between, its⟩ := List.mem_map.1 (leads.minted.subset (List.mem_filterMap.2 ⟨call, inside, minted⟩))
  obtain ⟨from_here, before⟩ := List.mem_range'_1.1 between
  have := leads.grows
  exact ⟨n, from_here, by omega, its⟩

/-- What is launched on the way has an id that was minted on the way. -/
theorem exists_launched (leads : Leads schedule replay calls told next) {request : AllocationId × JobId}
    (launched : request ∈ (replay.dispatcher.history calls).filterMap Deed.launched?) :
    ∃ n, replay.minted ≤ n ∧ n < next.minted ∧ schedule.id n = request.1 := by
  obtain ⟨call, inside, minted⟩ := Dispatcher.exists_minted_of_launched launched
  exact leads.exists_minted inside minted

/-- What is under way has an id that was minted before. -/
theorem exists_requested (leads : Leads schedule (start owner timeouts) calls told next)
    {request : AllocationId × JobId} (under_way : request ∈ next.dispatcher.requests) :
    ∃ n, n < next.minted ∧ schedule.id n = request.1 := by
  have launched := (Dispatcher.ended_run leads.run).mem_iff.1 (List.mem_append_right _ under_way)
  obtain ⟨n, -, before, its⟩ := leads.exists_launched ((List.mem_append.1 launched).resolve_left nofun)
  exact ⟨n, before, its⟩

end Leads

/-- Distinct ids have distinct numbers. -/
private theorem eq_of_minted {count m n : Nat} (distinct : ((List.range count).map schedule.id).Nodup)
    (small : m < count) (small' : n < count) (same : schedule.id m = schedule.id n) : m = n :=
  List.inj_on_of_nodup_map distinct (List.mem_range.2 small) (List.mem_range.2 small') same

/-! ## The requests of steps -/

/-- The entry of a request is the only outcome that its caller is told. -/
theorem heard_once {allocation : AllocationId} {told : List Resolution} {outcome : Outcome}
    (once : told.filter (·.allocation = allocation) = [⟨allocation, outcome⟩]) (entry : Option String) :
    heard (some allocation) entry told = some (outcomeText outcome) := by
  have same : told.filter (fun resolution => some allocation = some resolution.allocation) =
      [⟨allocation, outcome⟩] := by
    rw [← once]
    refine List.filter_congr fun other _ => ?_
    simp [eq_comm]
  rw [heard, same]
  rfl

/-- An id that is minted between two parts of a replay belongs to neither. -/
private theorem apart_of_minted {calls others : List Dispatcher.Operation} {told more : List Resolution}
    (leads : Leads schedule (start owner timeouts) calls told state) (onward : Leads schedule next others more final)
    (counted : next.minted = state.minted + 1) (distinct : ((List.range final.minted).map schedule.id).Nodup) :
    (∀ request ∈ state.dispatcher.requests, request.1 ≠ schedule.id state.minted) ∧
      (∀ n, next.minted ≤ n → n < final.minted → schedule.id state.minted ≠ schedule.id n) ∧
      (∀ call ∈ others, call.minted? ≠ some (schedule.id state.minted)) ∧
      ∀ request ∈ (next.dispatcher.history others).filterMap Deed.launched?, request.1 ≠ schedule.id state.minted := by
  have grows := onward.grows
  have later : ∀ n, next.minted ≤ n → n < final.minted → schedule.id state.minted ≠ schedule.id n := by
    intro n from_here small same
    have := eq_of_minted distinct (by omega) small same
    omega
  refine ⟨fun request under_way same => ?_, later, fun call inside same => ?_, fun request launched same => ?_⟩
  · obtain ⟨n, before, its⟩ := leads.exists_requested under_way
    have := eq_of_minted distinct (by omega) (by omega) (its.trans same)
    omega
  · obtain ⟨n, from_here, small, its⟩ := onward.exists_minted inside same
    exact later n from_here small its.symm
  · obtain ⟨n, from_here, small, its⟩ := onward.exists_launched launched
    exact later n from_here small (its.trans same).symm

section Step

variable {label : String} {worker : WorkerId} {job : JobId} {profile : Profile} {reaction : Reaction}
variable {delay index : Nat} {calls : List Dispatcher.Operation} {earlier : List Resolution} {failure : Failure}

/-- The entry of a request that is refused says so, and stays. -/
private theorem accountsFor_refused (leads : Leads schedule (start owner timeouts) calls earlier state)
    (attends : state.Attends label none) (distinct : ((List.range final.minted).map schedule.id).Nodup)
    (refused : state.dispatcher.cluster.reserve worker job (schedule.id state.minted) profile = .ok (.error failure))
    (same : next = { state with
      dispatcher := state.dispatcher.idling (schedule.id state.minted) job
      results := state.results.insert label ("refused: " ++ failure.text)
      minted := state.minted + 1 })
    (performed : performAll schedule index next steps = .ok last) (finished : last.finish = .ok final)
    (unsent : label ∉ steps.filterMap Step.label?) :
    AccountsFor schedule label worker job profile state next steps final := by
  obtain ⟨-, told, onward, keeps⟩ := leads_finish performed finished
  have requests : next.dispatcher.requests = state.dispatcher.requests := by
    rw [same]
    rfl
  obtain ⟨unrequested, -, -, unlaunched⟩ := apart_of_minted leads onward (by rw [same]) distinct
  have attends' : next.Attends label none := by
    rw [same]
    exact attends
  have kept := keeps label none attends' unsent nofun
  rw [heard_none, same, SortedMap.get?_insert, if_pos rfl] at kept
  refine ⟨told, _, onward.run, kept, .of (fun failure' refused' => ?_) (fun cause rollsBack => ?_)
    fun none_refused _ => absurd refused (none_refused failure)⟩
  · rw [Except.error.inj (Except.ok.inj (refused'.symm.trans refused))]
  · -- Nothing is under way under the id, and nothing is sent under it later.
    exfalso
    obtain @⟨before, _, flight, _, _, _, _, history, -, request, -, -, -, -, -, -⟩ := rollsBack
    rw [Replay.history] at history
    rw [history, List.filterMap_append, List.forall_mem_append] at unlaunched
    rcases List.mem_append.1 (Dispatcher.launched_before_ended onward.run history rfl) with under_way | launched
    · rw [requests] at under_way
      exact unrequested _ under_way (congrArg Prod.fst request)
    · exact unlaunched.1 _ launched (congrArg Prod.fst request)

/-- The entry of a request that is accepted says what became of its slot. -/
private theorem accountsFor_accepted (leads : Leads schedule (start owner timeouts) calls earlier state)
    (attends : state.Attends label none) (distinct : ((List.range final.minted).map schedule.id).Nodup)
    {request : SlotRequest} {sent : Dispatcher}
    (accepted : state.dispatcher.allocate (schedule.id state.minted) worker job "replay" profile
      (exchange schedule (schedule.id state.minted) delay reaction) = .ok (.ok request, sent))
    (same : next = { state with
      dispatcher := sent
      labels := state.labels.insert label (schedule.id state.minted)
      callers := state.callers.insert (schedule.id state.minted) label
      minted := state.minted + 1 })
    (performed : performAll schedule index next steps = .ok last) (finished : last.finish = .ok final)
    (unsent : label ∉ steps.filterMap Step.label?) :
    AccountsFor schedule label worker job profile state next steps final := by
  obtain ⟨idle, told, onward, keeps⟩ := leads_finish performed finished
  have dispatcher : next.dispatcher = sent := by rw [same]
  obtain ⟨unrequested, unminted, unsent', unlaunched⟩ := apart_of_minted leads onward (by rw [same]) distinct
  have attends' : next.Attends label (some (schedule.id state.minted)) := by
    intro allocation
    rw [same, SortedMap.get?_insert]
    split
    · next its => simp [its]
    · next its =>
      exact ⟨fun called => absurd ((attends allocation).1 called) nofun,
        fun its' => absurd (Option.some.inj its').symm its⟩
  have entry := keeps label _ attends' unsent fun n from_here small its =>
    unminted n from_here small (Option.some.inj its)
  have spared : Dispatcher.Spare (schedule.id state.minted) (next.calls schedule steps ++ [.drain]) := by
    intro call inside
    refine ⟨unsent' call inside, fun drops => ?_⟩
    simpa [drops, Dispatcher.Operation.Answered] using onward.answered call inside
  have indexed := (Dispatcher.course_run leads.run).indexed Inventory.indexed_empty
  obtain ⟨outcome, once, failure_iff⟩ := Dispatcher.told_of_accepted indexed unrequested (dispatcher ▸ accepted)
    (reply_autonomous _ delay reaction) onward.run spared idle
  rw [heard_once once] at entry
  refine ⟨told, _, onward.run, entry, .of (fun failure refused => ?_) (fun cause rollsBack => ?_) fun _ kept => ?_⟩
  · cases Dispatcher.allocates_of_allocate accepted with | sent _ reserves _ =>
    cases refused.symm.trans reserves
  · rw [(failure_iff cause).1 rollsBack]
    rfl
  · cases outcome with
    | success => rfl
    | failure cause => exact absurd ((failure_iff cause).2 rfl) (kept cause)

end Step

/-! ## The end of a run -/

variable {scenario : Scenario}

theorem run_eq_ok_iff : run schedule timeouts scenario = .ok final ↔ ∃ last,
    performAll schedule 0 (start scenario.owner timeouts) scenario.steps = .ok last ∧ last.finish = .ok final := by
  rw [run]
  cases performAll schedule 0 (start scenario.owner timeouts) scenario.steps with
  | error stop => simp [bind, Except.bind]
  | ok last =>
    simp only [bind, Except.bind, Except.ok.injEq, exists_eq_left']
    cases last.finish <;> simp

private theorem attends_start (label : String) : (start owner timeouts).Attends label none := fun allocation => by
  simp [start]

/-- The entry of every request says what became of it. -/
theorem accountsFor_of_run (ran : run schedule timeouts scenario = .ok final)
    (own : (scenario.steps.filterMap Step.label?).Nodup) (distinct : ((List.range final.minted).map schedule.id).Nodup)
    {before after : List Step} {label : String} {worker : WorkerId} {job : JobId} {profile : Profile}
    {reaction : Reaction} {delay : Nat}
    (split : scenario.steps = before ++ .allocate label worker job profile reaction delay :: after) :
    ∃ state next, performAll schedule 0 (start scenario.owner timeouts) before = .ok state ∧
      state.performChecked schedule (.allocate label worker job profile reaction delay) = .ok next ∧
      AccountsFor schedule label worker job profile state next after final := by
  obtain ⟨last, performed, finished⟩ := run_eq_ok_iff.1 ran
  rw [split] at performed own
  obtain ⟨state, first, performed⟩ := performAll_append_eq_ok_iff.1 performed
  obtain ⟨next, checked, onward⟩ := performAll_cons_eq_ok_iff.1 performed
  have labelled : (Step.allocate label worker job profile reaction delay).label? = some label := rfl
  rw [List.filterMap_append, List.filterMap_cons_some labelled] at own
  obtain ⟨-, later, apart⟩ := List.nodup_append.1 own
  obtain ⟨earlier, leads, keeps⟩ := leads_performAll first
  have unsent : label ∉ before.filterMap Step.label? := fun inside => apart label inside label (.head _) rfl
  have attends := (keeps label none (attends_start label) unsent nofun).1
  obtain ⟨_, -, remembers⟩ := leads_perform (performChecked_eq_ok_iff.1 checked).1
  refine ⟨state, next, first, checked, ?_⟩
  cases remembers with
  | noted silent => cases silent
  | refused refused =>
    exact accountsFor_refused leads attends distinct refused rfl onward finished (List.nodup_cons.1 later).1
  | accepted accepted =>
    exact accountsFor_accepted leads attends distinct accepted rfl onward finished (List.nodup_cons.1 later).1

/-- All requests have come to an outcome, so that no slot waits for one. -/
theorem allocated_of_run (ran : run schedule timeouts scenario = .ok final)
    (distinct : ((List.range final.minted).map schedule.id).Nodup) {slot : Slot}
    (recorded : slot ∈ final.dispatcher.cluster.inventory.slots) : slot.state = .allocated := by
  obtain ⟨last, performed, finished⟩ := run_eq_ok_iff.1 ran
  obtain ⟨idle, told, leads, -⟩ := leads_finish performed finished
  have launched := (Dispatcher.launched_sublist (start scenario.owner timeouts).dispatcher _).trans leads.minted
  rw [show (start scenario.owner timeouts).minted = 0 from rfl, Nat.sub_zero, ← List.range_eq_range'] at launched
  cases state : slot.state with
  | allocated => rfl
  | pending =>
    exfalso
    have outstanding := Dispatcher.outstanding_of_pending leads.run (launched.nodup distinct) recorded state
    have awaited : (start scenario.owner timeouts).dispatcher.Awaited := nofun
    rcases outstanding.unfinished with under_way | ⟨flight, -, dropped | ⟨landed, crashed⟩⟩
    · rw [idle] at under_way
      cases under_way
    · obtain ⟨_, _, other, -⟩ := awaited.landed leads.answered leads.run dropped rfl
      cases other
    · obtain ⟨_, _, same, answered⟩ := awaited.landed leads.answered leads.run landed rfl
      obtain rfl := Deed.land.inj same
      rw [answered] at crashed
      cases crashed

/-- There is one entry for each request and no other. -/
theorem entries_of_run (ran : run schedule timeouts scenario = .ok final)
    (own : (scenario.steps.filterMap Step.label?).Nodup)
    (distinct : ((List.range final.minted).map schedule.id).Nodup) :
    final.results.keys.Perm (scenario.steps.filterMap Step.label?) := by
  obtain ⟨last, performed, finished⟩ := run_eq_ok_iff.1 ran
  obtain ⟨-, told, -, keeps⟩ := leads_finish performed finished
  refine (List.perm_ext_iff_of_nodup (SortedMap.nodup_keys _) own).2 fun label => ?_
  rw [SortedMap.mem_keys]
  constructor
  · rintro ⟨text, written⟩
    by_contra unsent
    rw [keeps label none (attends_start label) unsent nofun, heard_none] at written
    cases written
  · intro sent
    obtain ⟨step, inside, labelled⟩ := List.mem_filterMap.1 sent
    obtain ⟨before, after, split⟩ := List.append_of_mem inside
    cases step with
    | allocate other worker job profile reaction delay =>
      obtain rfl := Option.some.inj labelled
      obtain ⟨_, _, -, -, _, text, -, written, -⟩ := accountsFor_of_run ran own distinct split
      exact ⟨text, written⟩
    | _ => cases labelled

theorem settled_of_run (ran : run schedule timeouts scenario = .ok final)
    (own : (scenario.steps.filterMap Step.label?).Nodup)
    (distinct : ((List.range final.minted).map schedule.id).Nodup) :
    Settled schedule timeouts scenario final where
  allocated _ := allocated_of_run ran distinct
  entries := entries_of_run ran own distinct
  accounted _ _ _ _ _ _ _ _ := accountsFor_of_run ran own distinct
  sound := by
    obtain ⟨_, -, finished⟩ := run_eq_ok_iff.1 ran
    obtain ⟨_, _, -, -, audited⟩ := finish_eq_ok_iff.1 finished
    exact audited
  shown := final.shows_snapshot
  confirmed item listed := by
    obtain ⟨slot, recorded, shows⟩ := final.shows_snapshot.exists_slot listed
    have state := shows.state
    rwa [allocated_of_run ran distinct recorded] at state

end Replay

namespace CommandLine

section

variable {Seed : Type} [Traversal Seed]

end

open JsonValue (text natural)

/-- Three requests to a worker that has room for two. -/
private def rehearsal : JsonValue :=
  let request (label : String) (more : List (String × JsonValue)) : JsonValue := .object [("allocate", .object
    ([("label", text label), ("worker", natural 1), ("job", natural 7), ("profile", .object [("cpus", natural 1)])] ++
      more))]
  .object [("steps", .array [
    .object [("add_worker", .object [("worker", natural 1), ("total", .object [("cpus", natural 2)])])],
    request "kept" [("delay_ms", natural 5)],
    .object [("wait", .object [("ms", natural 10)])],
    request "lost" [("outcome", text "reject"), ("delay_ms", natural 2)],
    request "full" []])]

end CommandLine

end SlotControl
