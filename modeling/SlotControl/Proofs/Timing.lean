import SlotControl.Proofs.Passage

/-!
When a request ends. Its task finds the reply before the timer, and the timer after the whole timeout
(`poll?_finish`). Until then the request could as well not be there (`run_without`), and then it ends, however
the time until then was divided. Main statement: `request_ends_in_time`.
-/

namespace SlotControl

/-- A span that is rounded up to milliseconds has passed when the span itself has. -/
theorem Duration.ceilMilliseconds_le_iff (span : Duration) (milliseconds : Nat) :
    span.ceilMilliseconds ≤ milliseconds ↔ span.nanoseconds ≤ milliseconds * perMillisecond := by
  simp only [ceilMilliseconds, perMillisecond]
  omega

/-! ## Polls -/

/-- What has come of a reply so many milliseconds after its first poll. -/
def Reply.ready? : Reply → Nat → Option Ending
  | .after delay ending, elapsed => if delay ≤ elapsed then some ending else none
  | .never, _ | .onDemand, _ => none

/-- A reply that comes after some time or never. -/
def Reply.ofDelay (outcome : Outcome) : Option Nat → Reply
  | some delay => .after delay (.answer outcome)
  | none => .never

namespace Flight

variable {flight : Flight}

/-- What the task of a request finds so many milliseconds after it first ran. It looks at the reply first and then at
    its timer, which has gone off when the whole timeout has passed. -/
def poll? (flight : Flight) (elapsed : Nat) : Option Ending :=
  (flight.reply.ready? elapsed).or
    (if flight.timeout.nanoseconds ≤ elapsed * Duration.perMillisecond then
      some (.answer (.failure (.requestTimeout flight.allocation flight.timeout)))
    else none)

/-- The timer goes off when the timeout has passed, rounded up to milliseconds. -/
private theorem poll?_eq (flight : Flight) (elapsed : Nat) : flight.poll? elapsed =
    (flight.reply.ready? elapsed).or (if flight.timeout.ceilMilliseconds ≤ elapsed then
      some (.answer (.failure (.requestTimeout flight.allocation flight.timeout))) else none) := by
  simp only [poll?, Duration.ceilMilliseconds_le_iff]

/-- Before its end a task finds nothing. -/
theorem poll?_eq_none_iff (elapsed : Nat) : flight.poll? elapsed = none ↔ elapsed < flight.finish.1 := by
  rw [poll?_eq, finish, Option.or_eq_none_iff]
  cases flight.reply with
  | after delay ending =>
    by_cases prompt : delay ≤ flight.timeout.ceilMilliseconds
    · simp [Reply.ready?, prompt]
      omega
    · simp [Reply.ready?, prompt]
      omega
  | never | onDemand => simp [Reply.ready?]

/-- A request ends with what its task finds first. -/
theorem poll?_finish (flight : Flight) : flight.poll? flight.finish.1 = some flight.finish.2 := by
  rw [poll?_eq, finish]
  cases flight.reply with
  | after delay ending =>
    by_cases prompt : delay ≤ flight.timeout.ceilMilliseconds <;> simp [Reply.ready?, prompt]
  | never | onDemand => simp [Reply.ready?]

/-- The end of a request whose reply comes after some time or never, for its timeout in whole milliseconds. -/
theorem finish_ofDelay {allocation : AllocationId} {job : JobId} {timeout : Duration} {outcome : Outcome}
    {rank : Nat} {start : Option Nat} {limit : Nat} (rounded : timeout.ceilMilliseconds = limit) (delay? : Option Nat) :
    (⟨allocation, job, timeout, .ofDelay outcome delay?, rank, start⟩ : Flight).finish =
      (min (delay?.getD limit) limit,
        .answer (if delay?.any (· ≤ limit) then outcome else .failure (.requestTimeout allocation timeout))) := by
  cases delay? with
  | none => simp [finish, Reply.ofDelay, rounded]
  | some delay =>
    by_cases prompt : delay ≤ limit
    · simp [finish, Reply.ofDelay, rounded, prompt]
    · simp [finish, Reply.ofDelay, rounded, prompt]
      omega

end Flight

namespace Dispatcher

section

variable {Seed : Type} [Traversal Seed]
variable {d next last : Dispatcher} {told : List Resolution} {operation : Operation} {operations : List Operation}

/-- The moment when the last of some requests ends, as `drain` finds it. -/
private theorem le_latest (flights : List Flight) (time : Nat) :
    time ≤ flights.foldl (fun latest flight => max latest (flight.due?.getD 0)) time ∧
      ∀ flight ∈ flights,
        flight.due?.getD 0 ≤ flights.foldl (fun latest flight => max latest (flight.due?.getD 0)) time := by
  induction flights generalizing time with
  | nil => exact ⟨Nat.le_refl time, nofun⟩
  | cons flight rest ih =>
    obtain ⟨onward, latest⟩ := ih (max time (flight.due?.getD 0))
    refine ⟨Nat.le_trans (Nat.le_max_left ..) onward, fun other inside => ?_⟩
    rcases List.mem_cons.1 inside with rfl | later
    · exact Nat.le_trans (Nat.le_max_right ..) onward
    · exact latest other later

private theorem isDueBy_latest {flight : Flight} (begun : flight ∈ d.begin.flights) :
    flight.isDueBy (d.begin.flights.foldl (fun latest flight => max latest (flight.due?.getD 0)) d.now) = true := by
  obtain ⟨before, -, rfl⟩ := List.mem_map.1 begun
  have due : (before.begin d.now).due? = some (before.start.getD d.now + before.finish.1) := rfl
  have latest := (le_latest d.begin.flights d.now).2 _ begun
  rw [due] at latest
  exact Flight.isDueBy_iff.2 ⟨_, due, latest⟩

/-- Nothing is under way when everything has been awaited. -/
theorem flights_drain (drained : d.drain = .ok (told, next)) : next.flights = [] := by
  rw [((endWhere_eq_ok_iff ..).1 drained).2]
  exact List.filter_eq_nil_iff.2 fun flight begun => by simp [isDueBy_latest begun]

/-! ## What an operation makes of the clock and the requests under way -/

/-- An operation lets time pass, so that the tasks of all requests run. -/
def Operation.passes : Operation → Bool
  | .advance _ | .wait .. | .drain => true
  | _ => false

/-- A caller waits during an operation, and may go on ahead of requests that end when the wait does. -/
def Operation.waits : Operation → Bool
  | .wait .. => true
  | _ => false

/-- The ways in which an operation changes the clock and the requests under way. -/
inductive Moves (d : Dispatcher) : Operation → Dispatcher → Prop
  | still {operation : Operation} {next : Dispatcher} (flights : next.flights = d.flights) (now : next.now = d.now)
      (stops : operation.passes = false) : Moves d operation next
  /-- A request is sent. -/
  | sent {allocation : AllocationId} {worker : WorkerId} {job : JobId} {address : String} {profile : Profile}
      {exchange : Exchange} {timeout : Duration} {next : Dispatcher}
      (flights : next.flights = d.flights ++ [⟨allocation, job, timeout, exchange.reply, exchange.rank, none⟩])
      (now : next.now = d.now) : Moves d (.allocate allocation worker job address profile exchange) next
  | answered (allocation : AllocationId) (outcome : Outcome) :
      Moves d (.answer allocation outcome) (d.answer allocation outcome).2
  /-- Time passes until a moment, and some requests end: those that are due earlier, none that are due later, and of
      those that are due just then all, unless a caller waits. -/
  | passed {operation : Operation} {time : Nat} {ends : Flight → Bool} {next : Dispatcher}
      (passes : operation.passes = true) (onward : d.now ≤ time) (deeds : d.deeds operation = d.begin.landings ends)
      (flights : next.flights = d.begin.flights.filter (!ends ·)) (now : next.now = time)
      (due : ∀ flight, ends flight = true → flight.isDueBy time = true)
      (spares : ∀ flight, ends flight = false → flight.isDueBy time = true →
        operation.waits = true ∧ flight.due? = some time) : Moves d operation next
  | dropped : Moves d .dropTasks d.dropTasks.2

theorem moves_of_perform (performed : d.perform operation = .ok (told, next)) : Moves d operation next := by
  cases operation with
  | register worker total defaultSlot =>
    rw [perform, register] at performed
    cases added : d.cluster.register worker total defaultSlot <;> rw [added] at performed <;>
      obtain ⟨rfl, rfl⟩ := Prod.mk.inj (Except.ok.inj performed) <;> exact .still rfl rfl rfl
  | removeWorker worker =>
    simp only [perform, removeWorker, Checked.map_eq_ok_iff, Checked.bind_eq_ok_iff, Checked.pure_eq_ok_iff]
      at performed
    obtain ⟨_, ⟨_, -, rfl⟩, same⟩ := performed
    obtain ⟨rfl, rfl⟩ := Prod.mk.inj same
    exact .still rfl rfl rfl
  | allocate allocation worker job address profile exchange =>
    rw [perform, Checked.bind_eq_ok_iff] at performed
    obtain ⟨⟨answer, after⟩, decided, same⟩ := performed
    obtain ⟨rfl, rfl⟩ := Prod.mk.inj (Checked.pure_eq_ok_iff.1 same)
    cases allocates_of_allocate decided with
    | refused => exact .still rfl rfl rfl
    | sent => exact .sent rfl rfl
  | free allocation =>
    simp only [perform, free, Checked.map_eq_ok_iff, Checked.bind_eq_ok_iff, Checked.pure_eq_ok_iff] at performed
    obtain ⟨_, ⟨_, -, rfl⟩, same⟩ := performed
    obtain ⟨rfl, rfl⟩ := Prod.mk.inj same
    exact .still rfl rfl rfl
  | report worker report =>
    simp only [perform, Dispatcher.report, Checked.map_eq_ok_iff, Checked.bind_eq_ok_iff, Checked.pure_eq_ok_iff]
      at performed
    obtain ⟨_, ⟨_, -, rfl⟩, same⟩ := performed
    obtain ⟨rfl, rfl⟩ := Prod.mk.inj same
    exact .still rfl rfl rfl
  | answer allocation outcome =>
    obtain ⟨rfl, rfl⟩ := Prod.mk.inj (Except.ok.inj performed)
    exact .answered allocation outcome
  | advance milliseconds =>
    obtain ⟨-, same⟩ := (endWhere_eq_ok_iff ..).1 performed
    refine .passed rfl (Nat.le_add_right ..) rfl (congrArg flights same) (congrArg now same) (fun _ => id) ?_
    intro flight later due
    exact absurd due (Bool.eq_false_iff.1 later)
  | wait milliseconds ahead =>
    obtain ⟨-, same⟩ := (endWhere_eq_ok_iff ..).1 performed
    refine .passed rfl (Nat.le_add_right ..) rfl (congrArg flights same) (congrArg now same)
      (fun _ => Flight.isDueBy_of_isDueAhead) ?_
    intro flight later due
    exact ⟨rfl, Flight.due?_of_not_isDueAhead later due⟩
  | drain =>
    obtain ⟨-, same⟩ := (endWhere_eq_ok_iff ..).1 performed
    refine .passed rfl (le_latest ..).1 rfl (congrArg flights same) (congrArg now same) (fun _ => id) ?_
    intro flight later due
    exact absurd due (Bool.eq_false_iff.1 later)
  | dropTasks =>
    obtain ⟨rfl, rfl⟩ := Prod.mk.inj (Except.ok.inj performed)
    exact .dropped

/-- Time never goes back. -/
theorem now_le_of_perform (performed : d.perform operation = .ok (told, next)) : d.now ≤ next.now := by
  have moves := moves_of_perform performed
  cases moves with
  | still _ now | sent _ now => exact Nat.le_of_eq now.symm
  | answered | dropped => exact Nat.le_refl _
  | passed _ onward _ _ now => exact now ▸ onward

theorem now_le_of_run (performed : d.run operations = .ok (told, last)) : d.now ≤ last.now := by
  induction operations generalizing d told with
  | nil =>
    obtain ⟨rfl, rfl⟩ := Prod.mk.inj (Except.ok.inj performed)
    exact Nat.le_refl _
  | cons operation rest ih =>
    simp only [run, Checked.bind_eq_ok_iff, Checked.pure_eq_ok_iff, Prod.mk.injEq] at performed
    obtain ⟨⟨_, between⟩, first, ⟨others, _⟩, continued, rfl, rfl⟩ := performed
    exact Nat.le_trans (now_le_of_perform first) (ih continued)

/-! ## One request -/

/-- What is under way under an id is one request that was made at a moment: it has not run yet, and no time has passed
    either, or it has run since then and its end is still to come. If some caller has waited, its end may be now. -/
def Expects (flight : Flight) (made : Nat) (ran waited : Prop) (d : Dispatcher) : Prop :=
  ∀ other ∈ d.flights, other.allocation = flight.allocation →
    (¬ran ∧ other = flight ∧ d.now = made) ∨ (other = flight.begin made ∧
      (d.now < made + flight.finish.1 ∨ waited ∧ d.now = made + flight.finish.1))

variable {flight : Flight} {made : Nat} {ran waited : Prop}

private theorem begin_of_expected {time : Nat} {early : Prop} (unstarted : flight.start = none) {other : Flight}
    (expected : (¬ran ∧ other = flight ∧ time = made) ∨ (other = flight.begin made ∧ early)) :
    other.begin time = flight.begin made := by
  rcases expected with ⟨-, rfl, rfl⟩ | ⟨rfl, -⟩
  · rfl
  · simp [Flight.begin, unstarted]

private theorem due?_begin (unstarted : flight.start = none) (time : Nat) :
    (flight.begin time).due? = some (time + flight.finish.1) := by
  simp [Flight.due?, Flight.begin, unstarted, Flight.finish]

/-- An operation other than the sending of a request under the same id keeps to that. -/
theorem Expects.perform (expects : d.Expects flight made ran waited) (unstarted : flight.start = none)
    (replies : flight.reply ≠ .onDemand) (performed : d.perform operation = .ok (told, next))
    (other : operation.minted? ≠ some flight.allocation) :
    next.Expects flight made (ran ∨ operation.passes = true) (waited ∨ operation.waits = true) := by
  have moves := moves_of_perform performed
  intro under_way inside its
  cases moves with
  | still flights now stops =>
    rw [flights] at inside
    rcases expects under_way inside its with ⟨idle, same, time⟩ | ⟨same, early⟩
    · exact .inl ⟨by simp [idle, stops], same, now.trans time⟩
    · exact .inr ⟨same, now ▸ early.imp id (And.imp_left .inl)⟩
  | sent flights now =>
    rw [flights, List.mem_append] at inside
    rcases inside with inside | new
    · rcases expects under_way inside its with ⟨idle, same, time⟩ | ⟨same, early⟩
      · exact .inl ⟨by simpa [Operation.passes] using idle, same, now.trans time⟩
      · exact .inr ⟨same, now ▸ early.imp id (And.imp_left .inl)⟩
    · rw [List.mem_singleton.1 new] at its
      exact absurd (congrArg some its) other
  | answered allocation outcome =>
    obtain ⟨before, there, rfl⟩ := List.mem_map.1 inside
    have same_id : before.allocation = flight.allocation := by
      revert its
      dsimp only
      split <;> exact id
    have expected := expects before there same_id
    have waits : before.reply ≠ .onDemand := by rcases expected with ⟨-, rfl, -⟩ | ⟨rfl, -⟩ <;> exact replies
    rw [if_neg (by simp [waits])]
    rcases expected with ⟨idle, same⟩ | ⟨same, early⟩
    · exact .inl ⟨by simpa [Operation.passes] using idle, same⟩
    · exact .inr ⟨same, early.imp id (And.imp_left .inl)⟩
  | @passed _ time ends _ passes onward _ flights now _ spares =>
    rw [flights, List.mem_filter] at inside
    obtain ⟨began, waiting⟩ := inside
    obtain ⟨before, there, rfl⟩ := List.mem_map.1 began
    have same := begin_of_expected unstarted (expects before there its)
    rw [same, Bool.not_eq_true'] at waiting
    rw [same]
    refine .inr ⟨rfl, ?_⟩
    by_cases due : (flight.begin made).isDueBy time = true
    · obtain ⟨waits, due⟩ := spares _ waiting due
      rw [due?_begin unstarted, Option.some.injEq] at due
      exact .inr ⟨.inr waits, now.trans due.symm⟩
    · refine .inl ?_
      simpa [Flight.isDueBy, due?_begin unstarted, now] using due
  | dropped => cases inside

/-- Unless the tasks are dropped, requests end only while time passes. -/
theorem landed_of_ended {deed : Deed} (done : deed ∈ d.deeds operation) {request : AllocationId × JobId}
    (ended : deed.ended? = some request) (undropped : operation ≠ .dropTasks) :
    operation.passes = true ∧ ∃ other ∈ d.begin.flights, deed = .land other ∧ other.request = request := by
  cases operation with
  | advance | wait | drain =>
    obtain ⟨other, due, rfl⟩ := List.mem_map.1 done
    exact ⟨rfl, other, (List.mem_filter.1 (List.mem_mergeSort.1 due)).1, rfl, Option.some.inj ended⟩
  | removeWorker | free | report =>
    obtain rfl := List.mem_singleton.1 done
    cases ended
  | answer => cases done
  | register =>
    rw [deeds] at done
    split at done
    · obtain rfl := List.mem_singleton.1 done
      cases ended
    · cases done
  | allocate =>
    rw [deeds] at done
    split at done
    · rcases List.mem_cons.1 done with rfl | inside
      · cases ended
      · obtain ⟨interruption, -, rfl⟩ := List.mem_map.1 inside
        cases interruption <;> cases ended
    · cases done
  | dropTasks => exact absurd rfl undropped

/-- If it ends during an operation, it does so as it was expected to, and time passes until its end. -/
private theorem Expects.landed (expects : d.Expects flight made ran waited) (unstarted : flight.start = none)
    (performed : d.perform operation = .ok (told, next)) (passes : operation.passes = true) {other : Flight}
    (landed : .land other ∈ d.deeds operation) (its : other.allocation = flight.allocation) :
    other = flight.begin made ∧ made + flight.finish.1 ≤ next.now := by
  have moves := moves_of_perform performed
  cases moves with
  | still _ _ stops => simp [stops] at passes
  | sent | answered | dropped => cases passes
  | passed _ onward deeds flights now due =>
    rw [deeds, landings, List.mem_map] at landed
    obtain ⟨_, inside, same⟩ := landed
    obtain rfl := Deed.land.inj same
    obtain ⟨began, ends⟩ := List.mem_filter.1 (List.mem_mergeSort.1 inside)
    obtain ⟨before, there, rfl⟩ := List.mem_map.1 began
    have due := due _ ends
    have same := begin_of_expected unstarted (expects before there its)
    rw [same] at due ⊢
    exact ⟨rfl, by simpa [Flight.isDueBy, due?_begin unstarted, now] using due⟩

/-- Operations that leave a request to itself: none of them sends one under its id, and the tasks are not dropped. -/
def Spare (allocation : AllocationId) (operations : List Operation) : Prop :=
  ∀ operation ∈ operations, operation.minted? ≠ some allocation ∧ operation ≠ .dropTasks

theorem Expects.run (expects : d.Expects flight made ran waited) (unstarted : flight.start = none)
    (replies : flight.reply ≠ .onDemand) (performed : d.run operations = .ok (told, last))
    (spared : Spare flight.allocation operations) :
    last.Expects flight made (ran ∨ ∃ operation ∈ operations, operation.passes = true)
        (waited ∨ ∃ operation ∈ operations, operation.waits = true) ∧
      ∀ deed ∈ d.history operations, ∀ request, deed.ended? = some request → request.1 = flight.allocation →
        deed = .land (flight.begin made) ∧ (∃ operation ∈ operations, operation.passes = true) ∧
          made + flight.finish.1 ≤ last.now := by
  induction operations generalizing d told ran waited with
  | nil =>
    obtain ⟨rfl, rfl⟩ := Prod.mk.inj (Except.ok.inj performed)
    exact ⟨by simpa using expects, nofun⟩
  | cons operation rest ih =>
    obtain ⟨⟨other, undropped⟩, spared⟩ := List.forall_mem_cons.1 spared
    simp only [Dispatcher.run, Checked.bind_eq_ok_iff, Checked.pure_eq_ok_iff, Prod.mk.injEq] at performed
    obtain ⟨⟨_, between⟩, first, ⟨others, _⟩, continued, rfl, rfl⟩ := performed
    obtain ⟨expects', lands⟩ := ih (expects.perform unstarted replies first other) continued spared
    refine ⟨by simpa [or_assoc] using expects', fun deed done request ended its => ?_⟩
    rw [history, first] at done
    rcases List.mem_append.1 done with now | later
    · obtain ⟨passes, landed, -, rfl, rfl⟩ := landed_of_ended now ended undropped
      obtain ⟨rfl, reached⟩ := expects.landed unstarted first passes now its
      exact ⟨rfl, ⟨operation, .head _, passes⟩, Nat.le_trans reached (now_le_of_run continued)⟩
    · obtain ⟨same, ⟨passing, inside, passes⟩, reached⟩ := lands deed later request ended its
      exact ⟨same, ⟨passing, .tail _ inside, passes⟩, reached⟩

/-! ## Without a request -/

/-- Everything but the requests under an id. -/
def without (d : Dispatcher) (allocation : AllocationId) : Dispatcher :=
  { d with flights := d.flights.filter (·.allocation ≠ allocation) }

variable {allocation : AllocationId}

theorem without_eq (absent : ∀ flight ∈ d.flights, flight.allocation ≠ allocation) : d.without allocation = d := by
  rw [without, List.filter_eq_self.2 (by simpa using absent)]

private theorem land_mem_landings {flight : Flight} (under_way : flight ∈ d.flights) {ends : Flight → Bool}
    (due : ends flight = true) : .land flight ∈ d.landings ends :=
  List.mem_map_of_mem (List.mem_mergeSort.2 (List.mem_filter.2 ⟨under_way, due⟩))

private theorem endWhere_without {ends : Flight → Bool} {time : Nat}
    (passed : d.begin.endWhere ends time = .ok (told, next))
    (lasts : ∀ request ∈ (d.begin.landings ends).filterMap Deed.ended?, request.1 ≠ allocation) :
    (d.without allocation).begin.endWhere ends time = .ok (told, next.without allocation) := by
  obtain ⟨landed, same⟩ := (endWhere_eq_ok_iff ..).1 passed
  have began : (d.without allocation).begin.flights = d.begin.flights.filter (·.allocation ≠ allocation) := by
    simp only [without, begin, List.filter_map]
    rfl
  have due : (d.without allocation).begin.flights.filter ends = d.begin.flights.filter ends := by
    rw [began, List.filter_comm, List.filter_eq_self]
    intro flight inside
    obtain ⟨under_way, reached⟩ := List.mem_filter.1 inside
    have ended : flight.request ∈ (d.begin.landings ends).filterMap Deed.ended? :=
      List.mem_filterMap.2 ⟨_, land_mem_landings under_way reached, rfl⟩
    exact decide_eq_true (lasts flight.request ended)
  refine (endWhere_eq_ok_iff ..).2 ⟨?_, ?_⟩
  · rw [due]
    exact landed
  · rw [began, List.filter_comm, same]
    rfl

private theorem register_without (d : Dispatcher) (allocation : AllocationId) (worker : WorkerId)
    (total defaultSlot : Profile) : (d.without allocation).register worker total defaultSlot =
      (d.register worker total defaultSlot).map (·.without allocation) := by
  show ((d.cluster.register worker total defaultSlot).bind _) =
    Except.map _ ((d.cluster.register worker total defaultSlot).bind _)
  cases d.cluster.register worker total defaultSlot <;> rfl

private theorem allocate_without (d : Dispatcher) {id : AllocationId} (other : id ≠ allocation) {worker : WorkerId}
    {job : JobId} {address : String} {profile : Profile} {exchange : Exchange} {answer : Except Failure SlotRequest}
    (decided : d.allocate id worker job address profile exchange = .ok (answer, next)) :
    (d.without allocation).allocate id worker job address profile exchange =
      .ok (answer, next.without allocation) := by
  cases allocates_of_allocate decided with
  | refused refused =>
    rw [allocate_eq_of_refused (d := d.without allocation) refused]
    rfl
  | sent fits accepted interrupted =>
    rw [allocate_eq_of_reserved (d := d.without allocation) fits accepted, interrupted]
    simp [Except.map, without, other]

private theorem answer_without (d : Dispatcher) (allocation id : AllocationId) (outcome : Outcome) :
    ((d.without allocation).answer id outcome).2 = (d.answer id outcome).2.without allocation := by
  simp only [without, answer, List.filter_map]
  congr 2
  refine List.filter_congr fun flight _ => ?_
  dsimp only [Function.comp_apply]
  split <;> rfl

/-- An operation during which no request ends or is sent under an id does what it would do without the one that is
    under way. -/
theorem perform_without (performed : d.perform operation = .ok (told, next))
    (other : operation.minted? ≠ some allocation)
    (lasts : ∀ request ∈ (d.deeds operation).filterMap Deed.ended?, request.1 ≠ allocation) :
    (d.without allocation).perform operation = .ok (told, next.without allocation) := by
  cases operation with
  | register worker total defaultSlot =>
    rw [perform] at performed
    rw [perform, register_without]
    cases added : d.register worker total defaultSlot <;> rw [added] at performed <;>
      obtain ⟨rfl, rfl⟩ := Prod.mk.inj (Except.ok.inj performed) <;> rfl
  | removeWorker worker =>
    simp only [perform, removeWorker, Checked.map_eq_ok_iff, Checked.bind_eq_ok_iff, Checked.pure_eq_ok_iff]
      at performed ⊢
    obtain ⟨_, ⟨result, removed, rfl⟩, same⟩ := performed
    obtain ⟨rfl, rfl⟩ := Prod.mk.inj same
    exact ⟨_, ⟨result, removed, rfl⟩, rfl⟩
  | allocate id worker job address profile exchange =>
    have kept : id ≠ allocation := fun same => other (congrArg some same)
    rw [perform, Checked.bind_eq_ok_iff] at performed ⊢
    obtain ⟨⟨answer, _⟩, decided, same⟩ := performed
    obtain ⟨rfl, rfl⟩ := Prod.mk.inj (Checked.pure_eq_ok_iff.1 same)
    exact ⟨_, allocate_without d kept decided, rfl⟩
  | free id =>
    simp only [perform, free, Checked.map_eq_ok_iff, Checked.bind_eq_ok_iff, Checked.pure_eq_ok_iff] at performed ⊢
    obtain ⟨_, ⟨result, freed, rfl⟩, same⟩ := performed
    obtain ⟨rfl, rfl⟩ := Prod.mk.inj same
    exact ⟨_, ⟨result, freed, rfl⟩, rfl⟩
  | report worker report =>
    simp only [perform, Dispatcher.report, Checked.map_eq_ok_iff, Checked.bind_eq_ok_iff, Checked.pure_eq_ok_iff]
      at performed ⊢
    obtain ⟨_, ⟨result, reported, rfl⟩, same⟩ := performed
    obtain ⟨rfl, rfl⟩ := Prod.mk.inj same
    exact ⟨_, ⟨result, reported, rfl⟩, rfl⟩
  | answer id outcome =>
    obtain ⟨rfl, rfl⟩ := Prod.mk.inj (Except.ok.inj performed)
    rw [perform, answer_without]
  | advance | wait => exact endWhere_without performed lasts
  | drain =>
    -- Everything that is under way ends.
    have absent : ∀ flight ∈ d.begin.flights, flight.allocation ≠ allocation := fun flight inside =>
      lasts flight.request (List.mem_filterMap.2 ⟨_, land_mem_landings inside (isDueBy_latest inside), rfl⟩)
    have left : ∀ flight ∈ next.flights, flight.allocation ≠ allocation := by
      rw [flights_drain performed]
      exact List.forall_mem_nil _
    rw [without_eq left, without_eq fun flight inside => absent (flight.begin d.now) (List.mem_map_of_mem inside)]
    exact performed
  | dropTasks =>
    obtain ⟨rfl, rfl⟩ := Prod.mk.inj (Except.ok.inj performed)
    have absent : ∀ flight ∈ d.flights, flight.allocation ≠ allocation := fun flight inside =>
      lasts flight.request (List.mem_filterMap.2 ⟨_, List.mem_map_of_mem inside, rfl⟩)
    rw [without_eq absent, performed]
    rfl

/-- A run in which no request ends or is sent under an id does what it would do without the one that is under way. -/
theorem run_without (performed : d.run operations = .ok (told, last))
    (other : ∀ operation ∈ operations, operation.minted? ≠ some allocation)
    (lasts : ∀ request ∈ (d.history operations).filterMap Deed.ended?, request.1 ≠ allocation) :
    (d.without allocation).run operations = .ok (told, last.without allocation) := by
  induction operations generalizing d told with
  | nil =>
    obtain ⟨rfl, rfl⟩ := Prod.mk.inj (Except.ok.inj performed)
    rfl
  | cons operation rest ih =>
    obtain ⟨now, later⟩ := List.forall_mem_cons.1 other
    simp only [run, Checked.bind_eq_ok_iff, Checked.pure_eq_ok_iff, Prod.mk.injEq] at performed ⊢
    obtain ⟨⟨_, between⟩, first, ⟨others, _⟩, continued, rfl, rfl⟩ := performed
    rw [history, first, List.filterMap_append, List.forall_mem_append] at lasts
    exact ⟨_, perform_without first now lasts.1, _, ih continued later lasts.2, rfl, rfl⟩

/-! ## The end of a request -/

/-- Before its end a request is under way, no caller has been told of it, and all would be the same without it. -/
structure Outlasts (allocation : AllocationId) (job : JobId) (d : Dispatcher) (operations : List Operation)
    (told : List Resolution) (last : Dispatcher) : Prop where
  under_way : (allocation, job) ∈ last.requests
  untold : ∀ resolution ∈ told, resolution.allocation ≠ allocation
  unneeded : (d.without allocation).run operations = .ok (told, last.without allocation)

/-- The request of a flight has ended: once in the run its outcome was applied, and its caller told the result. -/
structure Completes (flight : Flight) (outcome : Outcome) (d : Dispatcher) (operations : List Operation)
    (told : List Resolution) (last : Dispatcher) : Prop where
  gone : ∀ request ∈ last.requests, request.1 ≠ flight.allocation
  once : ∃ before after earlier current result next later,
    d.history operations = before ++ .land flight :: after ∧ Course d.cluster before earlier current ∧
      current.conclude flight.allocation flight.job outcome = .ok (result, next) ∧
      Course next after later last.cluster ∧ told = earlier ++ ⟨flight.allocation, result⟩ :: later ∧
      told.filter (·.allocation = flight.allocation) = [⟨flight.allocation, result⟩]

private theorem length_filter_eq {α : Type} (key : α → AllocationId) (items : List α) (allocation : AllocationId) :
    (items.filter (key · = allocation)).length = (items.map key).count allocation := by
  rw [List.count_eq_countP, List.countP_map, List.countP_eq_length_filter]
  congr 1

/-- Of a request that was under way alone and is not any more, a caller was told once. -/
private theorem filter_told {flight : Flight} (performed : d.run operations = .ok (told, last))
    (alone : d.flights.filter (·.allocation = flight.allocation) = [flight])
    (gone : ∀ request ∈ last.requests, request.1 ≠ flight.allocation) (spared : Spare flight.allocation operations)
    {resolution : Resolution} (inside : resolution ∈ told) (its : resolution.allocation = flight.allocation) :
    told.filter (·.allocation = flight.allocation) = [resolution] := by
  have before : (d.requests.map Prod.fst).count flight.allocation = 1 := by
    have same : d.requests.map Prod.fst = d.flights.map Flight.allocation := by
      rw [requests, List.map_map]
      rfl
    rw [same, ← length_filter_eq, alone, List.length_singleton]
  have after : (last.requests.map Prod.fst).count flight.allocation = 0 := by
    rw [List.count_eq_zero]
    intro inside
    obtain ⟨request, there, its⟩ := List.mem_map.1 inside
    exact gone request there its
  have fresh : (((d.history operations).filterMap Deed.launched?).map Prod.fst).count flight.allocation = 0 := by
    rw [List.count_eq_zero]
    intro inside
    obtain ⟨request, launched, its⟩ := List.mem_map.1 inside
    obtain ⟨operation, there, minted⟩ := exists_minted_of_launched launched
    exact (spared operation there).1 (minted.trans (congrArg some its))
  have counted := ((ended_run performed).map Prod.fst).count_eq flight.allocation
  rw [List.map_append, List.map_append, List.count_append, List.count_append, before, after, fresh] at counted
  have once : (told.filter (·.allocation = flight.allocation)).length = 1 := by
    rw [length_filter_eq, (course_run performed).allocations]
    exact counted
  obtain ⟨only, same⟩ := List.length_eq_one_iff.1 once
  have found : resolution ∈ told.filter (·.allocation = flight.allocation) :=
    List.mem_filter.2 ⟨inside, by simpa using its⟩
  rw [same, List.mem_singleton] at found
  rw [same, found]

/-- A run lets tasks run and goes beyond a moment, or it ends at that moment and no caller waits in it. -/
def Overtakes (moment : Nat) (operations : List Operation) (last : Dispatcher) : Prop :=
  (∃ operation ∈ operations, operation.passes = true) ∧
    (moment < last.now ∨ moment = last.now ∧ ∀ operation ∈ operations, operation.waits = false)

/-- A run that lets a request be: it lasts until the end of the run, or it has run and ends in it when it is due. It
    is gone when the run has overtaken its end. -/
theorem outlasts_or_completes {flight : Flight} {outcome : Outcome} (unstarted : flight.start = none)
    (replies : flight.reply ≠ .onDemand) (ends : flight.finish.2 = .answer outcome)
    (alone : d.flights.filter (·.allocation = flight.allocation) = [flight])
    (performed : d.run operations = .ok (told, last)) (spared : Spare flight.allocation operations) :
    (¬((∃ operation ∈ operations, operation.passes = true) ∧ d.now + flight.finish.1 ≤ last.now) →
        Outlasts flight.allocation flight.job d operations told last) ∧
      ((∀ request ∈ last.requests, request.1 ≠ flight.allocation) →
        Completes (flight.begin d.now) outcome d operations told last) ∧
      (Overtakes (d.now + flight.finish.1) operations last →
        ∀ request ∈ last.requests, request.1 ≠ flight.allocation) := by
  have expects : d.Expects flight d.now False False := by
    intro other inside its
    have found : other ∈ d.flights.filter (·.allocation = flight.allocation) :=
      List.mem_filter.2 ⟨inside, by simpa using its⟩
    rw [alone, List.mem_singleton] at found
    exact .inl ⟨id, found, rfl⟩
  obtain ⟨expects', lands⟩ := expects.run unstarted replies performed spared
  have ended := ended_run performed
  have course := course_run performed
  have sent : flight.request ∈ d.requests := by
    have inside : flight ∈ d.flights.filter (·.allocation = flight.allocation) := by simp [alone]
    exact List.mem_map_of_mem (List.mem_filter.1 inside).1
  refine ⟨?_, ?_, ?_⟩
  · intro early
    have none_ended : ∀ request ∈ (d.history operations).filterMap Deed.ended?, request.1 ≠ flight.allocation := by
      intro request inside its
      obtain ⟨deed, done, ends⟩ := List.mem_filterMap.1 inside
      exact early (lands deed done request ends its).2
    constructor
    case under_way =>
      rcases List.mem_append.1 (ended.mem_iff.2 (List.mem_append_left _ sent)) with finished | under_way
      · exact absurd rfl (none_ended _ finished)
      · exact under_way
    case untold =>
      intro resolution inside its
      have finished : resolution.allocation ∈ told.map Resolution.allocation := List.mem_map_of_mem inside
      rw [course.allocations] at finished
      obtain ⟨request, finished, same⟩ := List.mem_map.1 finished
      exact none_ended request finished (same.trans its)
    case unneeded => exact run_without performed (fun operation inside => (spared operation inside).1) none_ended
  · intro gone
    refine ⟨gone, ?_⟩
    -- The request is not under way any more, so that its end is a deed of the run.
    have finished : flight.request ∈ (d.history operations).filterMap Deed.ended? :=
      (List.mem_append.1 (ended.mem_iff.2 (List.mem_append_left _ sent))).resolve_right fun under_way =>
        gone _ under_way rfl
    obtain ⟨deed, done, ends'⟩ := List.mem_filterMap.1 finished
    obtain ⟨rfl, -⟩ := lands deed done flight.request ends' rfl
    obtain ⟨before, after, history⟩ := List.append_of_mem done
    have allocations := course.allocations
    rw [history] at course
    obtain ⟨earlier, current, _, begins, onward, rfl⟩ := course.of_append
    obtain ⟨_, next, later, does, continues, rfl⟩ := onward.of_cons
    cases does with | @land _ resolution _ landed => ?_
    obtain ⟨same, ⟨crashed, -⟩ | ⟨outcome', answered, concluded⟩⟩ := land_eq_ok landed
    · cases ends.symm.trans crashed
    obtain rfl := Ending.answer.inj (ends.symm.trans answered)
    obtain ⟨_, result⟩ := resolution
    obtain rfl : _ = flight.allocation := same
    refine ⟨before, after, earlier, current, result, next, later, history, begins, concluded, continues, rfl, ?_⟩
    exact filter_told performed alone gone spared (List.mem_append_right earlier (.head later)) rfl
  · rintro ⟨passes, overtakes⟩ request inside its
    obtain ⟨other, under_way, rfl⟩ := List.mem_map.1 inside
    rcases expects' other under_way its with ⟨idle, -⟩ | ⟨-, early | ⟨waited, now⟩⟩
    · exact idle (.inr passes)
    · omega
    · rcases overtakes with beyond | ⟨-, unwaited⟩
      · omega
      · obtain ⟨operation, inside, waits⟩ := waited.resolve_left id
        rw [unwaited operation inside] at waits
        cases waits

/-- A request ends in time, and it does not matter how time passes. Take an accepted request whose worker answers
    after some delay or never, and anything that is done after it, other requests included, as long as nothing is sent
    under its id and the tasks are not dropped. Its timeout is the base with what its worker is expected to need. So
    long after its task first ran as the delay or, if that is shorter, as the timeout in whole milliseconds, and not
    before, its task finds something: the answer if it has come by then, and otherwise that the timeout has passed.
    Until that moment nothing would be different without the request, and in a run that reaches it the outcome is
    applied and told once; only a caller that waits until just then may go on first. Steps of time can be put together
    and taken apart in every run. -/
theorem request_ends_in_time {sent : Dispatcher} {worker : WorkerId} {job : JobId} {address : String}
    {profile : Profile} {expected : Duration} {interruptions : List Interruption} {outcome : Outcome} {rank : Nat}
    {delay? : Option Nat} {request : SlotRequest} (unused : ∀ flight ∈ d.flights, flight.allocation ≠ allocation)
    (accepted : d.allocate allocation worker job address profile
      ⟨expected, interruptions, .ofDelay outcome delay?, rank⟩ = .ok (.ok request, sent))
    (performed : sent.run operations = .ok (told, last)) (spared : Spare allocation operations) :
    (∃ timeout flight span ending, d.timeouts.request.add? expected = some timeout ∧ request.timeout = timeout ∧
      flight = ⟨allocation, job, timeout, .ofDelay outcome delay?, rank, some d.now⟩ ∧
      span = min (delay?.getD timeout.ceilMilliseconds) timeout.ceilMilliseconds ∧
      ending = (if delay?.any (· ≤ timeout.ceilMilliseconds) then outcome
        else .failure (.requestTimeout allocation timeout)) ∧
      (∀ elapsed < span, flight.poll? elapsed = none) ∧ flight.poll? span = some (.answer ending) ∧
      (¬((∃ operation ∈ operations, operation.passes = true) ∧ d.now + span ≤ last.now) →
        Outlasts allocation job sent operations told last) ∧
      (Overtakes (d.now + span) operations last → Completes flight ending sent operations told last)) ∧
    ∀ (other : Dispatcher) (before after : List Operation) (first : Nat) (steps : List Nat),
      other.run (before ++ (first :: steps).map .advance ++ after) =
        other.run (before ++ .advance (first + steps.sum) :: after) := by
  refine ⟨?_, run_advances⟩
  cases allocates_of_allocate accepted with | @sent timeout _ _ fits _ _ =>
  have replies : (Reply.ofDelay outcome delay?) ≠ .onDemand := by cases delay? <;> nofun
  have finish : (⟨allocation, job, timeout, .ofDelay outcome delay?, rank, none⟩ : Flight).finish =
      (min (delay?.getD timeout.ceilMilliseconds) timeout.ceilMilliseconds,
        .answer (if delay?.any (· ≤ timeout.ceilMilliseconds) then outcome
          else .failure (.requestTimeout allocation timeout))) := Flight.finish_ofDelay rfl delay?
  have alone : (d.flights ++ [(⟨allocation, job, timeout, .ofDelay outcome delay?, rank, none⟩ : Flight)]).filter
      (·.allocation = allocation) = [⟨allocation, job, timeout, .ofDelay outcome delay?, rank, none⟩] := by
    have none_before : d.flights.filter (·.allocation = allocation) = [] := by
      rw [List.filter_eq_nil_iff]
      simpa using unused
    rw [List.filter_append, none_before]
    simp
  obtain ⟨lasts, ends, gone⟩ := outlasts_or_completes rfl replies (congrArg Prod.snd finish) alone performed spared
  rw [finish] at lasts gone
  refine ⟨timeout, _, _, _, fits, rfl, rfl, rfl, rfl, fun elapsed early => ?_, ?_, lasts,
    fun overtakes => ends (gone overtakes)⟩
  · refine (Flight.poll?_eq_none_iff elapsed).2 ?_
    exact finish ▸ early
  · have found := (⟨allocation, job, timeout, .ofDelay outcome delay?, rank, none⟩ : Flight).poll?_finish
    rw [finish] at found
    exact found

end

/-- Two workers without limits, and a third of a millisecond for each request. -/
private def hurried : Checked Dispatcher :=
  ((new ⟨1⟩ ⟨⟨300000, by decide⟩, Timeouts.usual⟩).run [.register ⟨1⟩ .any .any, .register ⟨2⟩ .any .any]).map (·.2)

/-- A request may take half a millisecond and would take five: it ends after one, beside another request. -/
theorem request_ends_in_time_rounded : ∃ d request sent told last,
    hurried = .ok d ∧ d.allocate ⟨0⟩ ⟨1⟩ ⟨7⟩ "" .any ⟨⟨200000, by decide⟩, [], .ofDelay .success (some 5), 0⟩ =
      .ok (.ok request, sent) ∧
    sent.run [.allocate ⟨1⟩ ⟨2⟩ ⟨7⟩ "" .any ⟨Timeouts.usual, [], .never, 0⟩, .advance 0, .advance 1] =
      .ok (told, last) ∧
    Completes ⟨⟨0⟩, ⟨7⟩, ⟨500000, by decide⟩, .ofDelay .success (some 5), 0, some 0⟩
      (.failure (.requestTimeout ⟨0⟩ ⟨500000, by decide⟩)) sent
      [.allocate ⟨1⟩ ⟨2⟩ ⟨7⟩ "" .any ⟨Timeouts.usual, [], .never, 0⟩, .advance 0, .advance 1] told last := by
  have effect : (do
      let d ← hurried
      let sent ← d.allocate ⟨0⟩ ⟨1⟩ ⟨7⟩ "" .any ⟨⟨200000, by decide⟩, [], .ofDelay .success (some 5), 0⟩
      let passed ← sent.2.run [.allocate ⟨1⟩ ⟨2⟩ ⟨7⟩ "" .any ⟨Timeouts.usual, [], .never, 0⟩, .advance 0, .advance 1]
      return (sent.1.isOk, d.flights, d.now, d.timeouts.request, passed.2.now) : Checked _) =
        .ok (true, [], 0, ⟨300000, by decide⟩, 1) := by
    decide +kernel
  simp only [Checked.bind_eq_ok_iff, Checked.pure_eq_ok_iff, Prod.mk.injEq] at effect
  obtain ⟨d, started, ⟨failure | request, sent⟩, accepted, ⟨told, last⟩, performed, answered, idle, now, timeout,
    later⟩ := effect
  · cases answered
  have spared : Spare ⟨0⟩ [.allocate ⟨1⟩ ⟨2⟩ ⟨7⟩ "" .any ⟨Timeouts.usual, [], .never, 0⟩, .advance 0, .advance 1] := by
    simp [Spare, Operation.minted?]
  obtain ⟨⟨_, _, _, _, fits, -, rfl, rfl, rfl, -, -, -, completes⟩, -⟩ :=
    request_ends_in_time (by simp [idle]) accepted performed spared
  rw [timeout] at fits
  obtain rfl := Option.some.inj (fits.symm.trans (show _ = some ⟨500000, by decide⟩ from rfl))
  refine ⟨d, request, sent, told, last, started, accepted, performed, ?_⟩
  rw [now] at completes
  refine completes ⟨⟨_, .tail _ (.head _), rfl⟩, .inr ⟨?_, by simp [Operation.waits]⟩⟩
  exact later.symm

end Dispatcher

end SlotControl
