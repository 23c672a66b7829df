import SlotControl.Proofs.Admission
import SlotControl.Proofs.Claims
import SlotControl.Proofs.Scripts

/-!
The steps of a replay one by one. A step is wrong or it comes to operations on the state, and then it goes as these
do: `takes_perform`. What it makes of the labels and which slots it claims is told by `learns_perform`.
-/

namespace SlotControl

variable {Seed : Type} [Traversal Seed]

theorem Duration.add?_zero (span : Duration) : span.add? .zero = some span :=
  dif_pos span.nanoseconds_lt

/-! ## Ends of requests -/

/-- The operation that the end of a request is. After a crash there is none. -/
def Flight.conclusion? (flight : Flight) : Option Event :=
  match flight.finish.2 with
  | .answer outcome => some (.conclude flight.allocation flight.job outcome)
  | .crash => none

namespace Cluster

theorem run_singleton (cluster : Cluster) (event : Event) :
    cluster.run [event] = (cluster.perform event).map Prod.snd := by
  rw [run, List.foldlM_cons]
  cases cluster.perform event <;> rfl

theorem run_append_eq (cluster : Cluster) (events more : List Event) :
    cluster.run (events ++ more) = cluster.run events >>= fun between => between.run more := by
  rw [run, List.foldlM_append]
  rfl

end Cluster

namespace Dispatcher

variable {d : Dispatcher}

theorem land_eq_run (cluster : Cluster) (flight : Flight) :
    (land cluster flight).map Prod.snd = cluster.run flight.conclusion?.toList := by
  cases finish : flight.finish.2 with
  | crash =>
    rw [land, Flight.conclusion?, finish]
    rfl
  | answer outcome =>
    rw [land, Flight.conclusion?, finish, Option.toList_some, Cluster.run_singleton, Cluster.perform]
    cases concluded : cluster.conclude flight.allocation flight.job outcome with
    | error defect => simp only [concluded, bind, Except.bind, Except.map]
    | ok result => simp only [concluded, bind, Except.bind, pure, Except.pure, Except.map]

theorem landAll_eq_run (cluster : Cluster) (flights : List Flight) :
    (landAll cluster flights).map Prod.snd = cluster.run (flights.filterMap Flight.conclusion?) := by
  induction flights generalizing cluster with
  | nil => rfl
  | cons flight rest ih =>
    have split : (flight :: rest).filterMap Flight.conclusion? =
        flight.conclusion?.toList ++ rest.filterMap Flight.conclusion? := by
      rw [List.filterMap_cons]
      cases flight.conclusion? <;> rfl
    rw [split, Cluster.run_append_eq, ← land_eq_run, landAll]
    cases land cluster flight with
    | error defect => rfl
    | ok result =>
      show _ = result.2.run _
      rw [← ih]
      cases landed : landAll result.2 rest <;> simp [landed, bind, Except.bind, pure, Except.pure, Except.map]

/-- The ends of the requests that pass a test, as operations. -/
def endings (d : Dispatcher) (ends : Flight → Bool) : List Event :=
  ((d.flights.filter ends).mergeSort Flight.isNoLater).filterMap Flight.conclusion?

theorem endWhere_eq_run (d : Dispatcher) (ends : Flight → Bool) (time : Nat) :
    (d.endWhere ends time).map (·.2.cluster) = d.cluster.run (d.endings ends) := by
  rw [endings, ← landAll_eq_run]
  simp only [endWhere, List.partition_eq_filter_filter]
  cases landAll d.cluster ((d.flights.filter ends).mergeSort Flight.isNoLater) <;> rfl

theorem drain_eq_run (d : Dispatcher) : ∃ ends, d.drain.map (·.2.cluster) = d.cluster.run (d.begin.endings ends) :=
  ⟨_, d.begin.endWhere_eq_run _ _⟩

theorem exists_conclude_of_endings {ends : Flight → Bool} {event : Event} (inside : event ∈ d.endings ends) :
    ∃ allocation job outcome, event = .conclude allocation job outcome := by
  obtain ⟨flight, -, concluded⟩ := List.mem_filterMap.1 inside
  rw [Flight.conclusion?] at concluded
  split at concluded
  · exact ⟨_, _, _, (Option.some.inj concluded).symm⟩
  · cases concluded

theorem registers_endings (d : Dispatcher) (ends : Flight → Bool) (id : WorkerId) (total : Option Profile) :
    (d.endings ends).foldl (fun total event => event.registers id total) total = total := by
  have each : ∀ event ∈ d.endings ends, ∀ total, event.registers id total = total := by
    intro event inside total
    obtain ⟨allocation, job, outcome, rfl⟩ := exists_conclude_of_endings inside
    rfl
  generalize d.endings ends = events at each
  induction events with
  | nil => rfl
  | cons event rest ih =>
    obtain ⟨now, later⟩ := List.forall_mem_cons.1 each
    rw [List.foldl_cons, now]
    exact ih later

/-- The ends of requests are proper in every state. -/
theorem properRun_endings (d : Dispatcher) (ends : Flight → Bool) (cluster : Cluster) :
    cluster.ProperRun (d.endings ends) := by
  refine Cluster.properRun_of_forall ?_
  intro event inside between
  obtain ⟨allocation, job, outcome, rfl⟩ := exists_conclude_of_endings inside
  exact trivial

theorem claims_endings {ends : Flight → Bool} : (d.endings ends).flatMap Event.claims = [] := by
  refine List.flatMap_eq_nil_iff.2 ?_
  intro event inside
  obtain ⟨allocation, job, outcome, rfl⟩ := exists_conclude_of_endings inside
  rfl

end Dispatcher

/-! ## Wrong steps -/

/-- A reported slot has only one of label and job. -/
def ReportedSlot.isHalf (slot : ReportedSlot) : Bool := slot.label.isSome != slot.job.isSome

/-- What is wrong with a step where some workers are registered and some labels known. -/
inductive Step.Wrong (registered : WorkerId → Prop) (known : String → Prop) : Step → StepFault → Prop
  | duplicate {worker : WorkerId} {total defaultSlot : Profile} (there : registered worker) :
      Wrong registered known (.addWorker worker total defaultSlot) (.refused (.duplicateWorker worker))
  | unknown {label : String} (unknown : ¬known label) : Wrong registered known (.free label) (.unknownLabel label)
  /-- The first slot of that kind is named. -/
  | half {worker : WorkerId} {slots : List ReportedSlot} {slot : ReportedSlot}
      (first : slots.find? ReportedSlot.isHalf = some slot) :
      Wrong registered known (.report worker slots) (.halfOccupied ⟨worker, slot.index⟩)

/-- Only one thing is wrong with a step. -/
theorem Step.Wrong.unique {registered : WorkerId → Prop} {known : String → Prop} {step : Step} {fault other : StepFault}
    (wrong : step.Wrong registered known fault) (wrong' : step.Wrong registered known other) : fault = other := by
  cases wrong with
  | duplicate | unknown =>
    cases wrong'
    rfl
  | half first =>
    cases wrong' with | half first' =>
    rw [Option.some.inj (first.symm.trans first')]

namespace Replay

variable {schedule : Schedule} {replay between next : Replay} {step : Step} {worker : WorkerId}

/-- A step is wrong in a state. -/
def Rejects (replay : Replay) : Step → StepFault → Prop :=
  Step.Wrong (fun worker => replay.dispatcher.cluster.inventory.worker? worker ≠ none)
    (fun label => replay.labels.get? label ≠ none)

/-- The operations on the state that a step comes to. -/
def events (schedule : Schedule) (replay : Replay) : Step → List Event
  | .addWorker worker total defaultSlot => [.register worker total defaultSlot]
  | .removeWorker worker => [.removeWorker worker]
  | .allocate _ worker job profile _ _ => [.reserve worker job (schedule.id replay.minted) profile]
  | .free label =>
    match replay.labels.get? label with
    | some allocation => [.free allocation]
    | none => []
  | .report worker slots =>
    match statusesOf schedule worker replay slots with
    | .ok (statuses, _) => [.report worker ⟨statuses⟩]
    | .error _ => []
  | .freeInactive _ => []
  | .wait milliseconds =>
    if milliseconds = 0 && !schedule.yields replay.waits then []
    else replay.dispatcher.begin.endings
      (Flight.isDueAhead (replay.dispatcher.now + milliseconds) (schedule.ahead replay.waits))

/-- A slot with both or none of label and job becomes one of a real report, and any other is named. -/
theorem statusOf_cases (schedule : Schedule) (worker : WorkerId) (replay : Replay) (slot : ReportedSlot) :
    if slot.isHalf then statusOf schedule worker replay slot = .error (.fault (.halfOccupied ⟨worker, slot.index⟩))
    else ∃ status named, statusOf schedule worker replay slot = .ok (status, named) := by
  obtain ⟨index, profile, label, job⟩ := slot
  cases label with
  | none =>
    cases job with
    | none => exact ⟨_, _, rfl⟩
    | some job => rfl
  | some label =>
    cases job with
    | none => rfl
    | some job =>
      simp only [ReportedSlot.isHalf, statusOf]
      cases replay.labels.get? label with
      | none => exact ⟨_, _, rfl⟩
      | some allocation => exact ⟨_, _, rfl⟩

theorem statusesOf_cases (schedule : Schedule) (worker : WorkerId) (replay : Replay)
    (slots : List ReportedSlot) :
    (∃ slot, slots.find? ReportedSlot.isHalf = some slot ∧
      statusesOf schedule worker replay slots = .error (.fault (.halfOccupied ⟨worker, slot.index⟩))) ∨
    (slots.find? ReportedSlot.isHalf = none ∧
      ∃ statuses named, statusesOf schedule worker replay slots = .ok (statuses, named)) := by
  induction slots generalizing replay with
  | nil => exact .inr ⟨rfl, [], replay, rfl⟩
  | cons slot rest ih =>
    have now := statusOf_cases schedule worker replay slot
    rw [statusesOf, List.find?_cons]
    by_cases half : slot.isHalf = true
    · rw [if_pos half] at now
      rw [now, half]
      exact .inl ⟨slot, rfl, rfl⟩
    · rw [if_neg half] at now
      obtain ⟨status, between, resolved⟩ := now
      rw [resolved, Bool.eq_false_iff.2 half]
      rcases ih between with ⟨slot', first, fails⟩ | ⟨whole, statuses, named, succeeds⟩
      · exact .inl ⟨slot', first, by simp [fails, bind, Except.bind]⟩
      · exact .inr ⟨whole, status :: statuses, named, by simp [succeeds, bind, Except.bind, pure, Except.pure]⟩

/-- The ways in which a step is taken. -/
inductive Takes (schedule : Schedule) (replay : Replay) (step : Step) : Performed Replay → Prop
  | rejected {fault : StepFault} (wrong : replay.Rejects step fault) :
    Takes schedule replay step (.error (.fault fault))
  | broken {defect : Defect} (right : ∀ fault, ¬replay.Rejects step fault)
      (fails : replay.dispatcher.cluster.run (replay.events schedule step) = .error defect) :
      Takes schedule replay step (.error (.defect defect))
  | taken {next : Replay} (right : ∀ fault, ¬replay.Rejects step fault)
      (leads : replay.dispatcher.cluster.run (replay.events schedule step) = .ok next.dispatcher.cluster) :
      Takes schedule replay step (.ok next)

/-- A step that is not wrong goes as an operation of the slot manager goes. -/
private theorem Takes.of_run {α : Type} {result : Checked α} (make : α → Replay)
    (right : ∀ fault, ¬replay.Rejects step fault)
    (goes : result.map (fun a => (make a).dispatcher.cluster) =
      replay.dispatcher.cluster.run (replay.events schedule step)) :
    Takes schedule replay step (Performed.ofChecked result >>= fun a => pure (make a)) := by
  cases result with
  | error defect => exact .broken right goes.symm
  | ok a => exact .taken right goes.symm

private theorem takes_addWorker (total defaultSlot : Profile) :
    Takes schedule replay (.addWorker worker total defaultSlot)
      (replay.perform schedule (.addWorker worker total defaultSlot)) := by
  rw [perform, Dispatcher.register]
  cases added : replay.dispatcher.cluster.register worker total defaultSlot with
  | error failure =>
    obtain ⟨known, rfl⟩ := (Cluster.register_eq_error_iff ..).1 added
    exact .rejected (.duplicate known)
  | ok registered =>
    apply Takes.taken
    · intro fault wrong
      cases wrong with | duplicate known =>
      rw [(Cluster.register_eq_error_iff ..).2 ⟨known, rfl⟩] at added
      cases added
    · rw [events, Cluster.run_singleton, Cluster.perform, added]
      rfl

private theorem takes_removeWorker :
    Takes schedule replay (.removeWorker worker) (replay.perform schedule (.removeWorker worker)) := by
  rw [perform]
  apply Takes.of_run (fun result : Nat × Dispatcher => { replay with dispatcher := result.2 })
  · intro fault wrong
    cases wrong
  · rw [events, Cluster.run_singleton, Cluster.perform, Dispatcher.removeWorker]
    cases replay.dispatcher.cluster.removeWorker worker <;> rfl

/-- A request goes as its reservation goes. -/
private theorem takes_allocate (label : String) (job : JobId) (profile : Profile) (reaction : Reaction) (delay : Nat) :
    Takes schedule replay (.allocate label worker job profile reaction delay)
      (replay.perform schedule (.allocate label worker job profile reaction delay)) := by
  have right : ∀ fault, ¬replay.Rejects (.allocate label worker job profile reaction delay) fault := by
    intro fault wrong
    cases wrong
  rw [perform]
  cases decided : replay.dispatcher.cluster.reserve worker job (schedule.id replay.minted) profile with
  | error defect =>
    rw [Dispatcher.allocate_eq_of_failed decided]
    apply Takes.broken right
    rw [events, Cluster.run_singleton, Cluster.perform, decided]
    rfl
  | ok answer =>
    cases answer with
    | error failure =>
      rw [Dispatcher.allocate_eq_of_refused decided]
      apply Takes.taken right
      rw [events, Cluster.run_singleton, Cluster.perform, decided]
      rfl
    | ok reserved =>
      rw [Dispatcher.allocate_eq_of_reserved (Duration.add?_zero _) decided]
      apply Takes.taken right
      rw [events, Cluster.run_singleton, Cluster.perform, decided]
      rfl

private theorem takes_free (label : String) :
    Takes schedule replay (.free label) (replay.perform schedule (.free label)) := by
  rw [perform]
  cases known : replay.labels.get? label with
  | none => exact .rejected (.unknown (not_not.2 known))
  | some allocation =>
    apply Takes.of_run (fun dispatcher => { replay with dispatcher })
    · intro fault wrong
      cases wrong with | unknown unknown =>
      rw [known] at unknown
      exact unknown (Option.some_ne_none allocation)
    · simp only [events, known]
      rw [Cluster.run_singleton, Cluster.perform, Dispatcher.free]
      cases replay.dispatcher.cluster.free allocation <;> rfl

/-- A report is wrong if it lists a slot with only one of label and job, and else goes as the report that it stands
    for. -/
private theorem takes_report (slots : List ReportedSlot) :
    Takes schedule replay (.report worker slots) (replay.perform schedule (.report worker slots)) := by
  rw [perform]
  rcases statusesOf_cases schedule worker replay slots with ⟨slot, first, fails⟩ | ⟨whole, statuses, named, resolved⟩
  · rw [fails]
    exact .rejected (.half first)
  · rw [resolved]
    apply Takes.of_run (fun result : Bool × Dispatcher => { named with dispatcher := result.2 })
    · intro fault wrong
      cases wrong with | half first =>
      rw [whole] at first
      cases first
    · simp only [events, resolved]
      rw [Cluster.run_singleton, Cluster.perform, (names_statusesOf resolved).dispatcher, Dispatcher.report]
      cases replay.dispatcher.cluster.report worker ⟨statuses⟩ <;> rfl

/-- A wait goes as the ends of the requests go that end in it. -/
private theorem takes_wait (milliseconds : Nat) :
    Takes schedule replay (.wait milliseconds) (replay.perform schedule (.wait milliseconds)) := by
  have right : ∀ fault, ¬replay.Rejects (.wait milliseconds) fault := by
    intro fault wrong
    cases wrong
  rw [perform]
  by_cases passes : (milliseconds = 0 && !schedule.yields replay.waits) = true
  · rw [if_pos passes]
    apply Takes.taken right
    rw [events, if_pos passes]
    rfl
  · rw [if_neg passes]
    apply Takes.of_run (fun result : List Resolution × Dispatcher =>
      note { replay with waits := replay.waits + 1, dispatcher := result.2 } result.1) right
    rw [events, if_neg passes]
    exact Dispatcher.endWhere_eq_run ..

/-- A step is wrong and says why, or it goes as its operations on the state go. -/
theorem takes_perform (schedule : Schedule) (replay : Replay) (step : Step) :
    Takes schedule replay step (replay.perform schedule step) := by
  cases step with
  | addWorker worker total defaultSlot => exact takes_addWorker total defaultSlot
  | removeWorker worker => exact takes_removeWorker
  | allocate label worker job profile reaction delay => exact takes_allocate label job profile reaction delay
  | free label => exact takes_free label
  | report worker slots => exact takes_report slots
  | freeInactive job =>
    refine .taken ?_ rfl
    intro fault wrong
    cases wrong
  | wait milliseconds => exact takes_wait milliseconds

/-- A step registers a worker that it adds, and all others stay as they are but for one that it removes. -/
theorem registers_events (schedule : Schedule) (replay : Replay) (step : Step) (id : WorkerId)
    (total : Option Profile) :
    (replay.events schedule step).foldl (fun total event => event.registers id total) total ≠ none ↔
      (∃ total defaultSlot, step = .addWorker id total defaultSlot) ∨ (step ≠ .removeWorker id ∧ total ≠ none) := by
  cases step with
  | addWorker worker given defaultSlot =>
    rw [events, List.foldl_cons, List.foldl_nil, Event.registers]
    by_cases its : worker = id
    · cases total <;> simp [its]
    · simp [its]
  | removeWorker worker =>
    rw [events, List.foldl_cons, List.foldl_nil, Event.registers]
    by_cases its : worker = id
    · simp [its]
    · simp [its]
  | allocate => simp [events, Event.registers]
  | free label =>
    rw [events]
    split <;> simp [Event.registers]
  | report worker slots =>
    rw [events]
    split <;> simp [Event.registers]
  | freeInactive => simp [events]
  | wait milliseconds =>
    have same : (replay.events schedule (.wait milliseconds)).foldl
        (fun total event => event.registers id total) total = total := by
      rw [events]
      split
      · rfl
      · exact Dispatcher.registers_endings ..
    rw [same]
    simp

/-! ## Labels and ids -/

/-- An id has been minted. -/
def HasMinted (schedule : Schedule) (replay : Replay) (allocation : AllocationId) : Prop :=
  ∃ n < replay.minted, schedule.id n = allocation

/-- The labels stand for ids that have been minted. -/
def Minted (schedule : Schedule) (replay : Replay) : Prop :=
  ∀ label allocation, replay.labels.get? label = some allocation → replay.HasMinted schedule allocation

theorem HasMinted.mono {allocation : AllocationId} (minted : replay.HasMinted schedule allocation)
    (grows : replay.minted ≤ next.minted) : next.HasMinted schedule allocation := by
  obtain ⟨n, before, its⟩ := minted
  exact ⟨n, Nat.lt_of_lt_of_le before grows, its⟩

/-- Labels become known on the way, and slots are claimed. All ids that are used for that have been minted. -/
structure Learns (schedule : Schedule) (replay : Replay) (labels : String → Prop)
    (claims : List (AllocationId × Profile)) (next : Replay) : Prop where
  grows : replay.minted ≤ next.minted
  few : next.minted ≤ replay.minted + claims.length
  known : ∀ label, next.labels.get? label ≠ none ↔ replay.labels.get? label ≠ none ∨ labels label
  minted : replay.Minted schedule → next.Minted schedule
  claimed : replay.Minted schedule → ∀ claim ∈ claims, next.HasMinted schedule claim.1

namespace Learns

variable {labels more : String → Prop} {claims others : List (AllocationId × Profile)}

/-- Nothing is learnt. -/
theorem of_same (same : next.labels = replay.labels) (count : next.minted = replay.minted) :
    Learns schedule replay (fun _ => False) [] next := by
  constructor
  case grows => exact Nat.le_of_eq count.symm
  case few => exact Nat.le_of_eq count
  case known =>
    intro label
    rw [same, or_false]
  case minted =>
    intro minted label allocation found
    rw [same] at found
    exact (minted label allocation found).mono (Nat.le_of_eq count.symm)
  case claimed =>
    intro _ claim inside
    cases inside

theorem trans (learns : Learns schedule replay labels claims between)
    (onward : Learns schedule between more others next) :
    Learns schedule replay (fun label => labels label ∨ more label) (claims ++ others) next := by
  constructor
  case grows => exact Nat.le_trans learns.grows onward.grows
  case few =>
    have := learns.few
    have := onward.few
    rw [List.length_append]
    omega
  case known =>
    intro label
    rw [onward.known, learns.known, or_assoc]
  case minted =>
    intro minted
    exact onward.minted (learns.minted minted)
  case claimed =>
    intro minted claim inside
    rcases List.mem_append.1 inside with earlier | later
    · exact (learns.claimed minted claim earlier).mono onward.grows
    · exact onward.claimed (learns.minted minted) claim later

/-- A label becomes known for the next id. -/
theorem of_insert {label : String} (same : next.labels = replay.labels.insert label (schedule.id replay.minted))
    (count : next.minted = replay.minted + 1) (profile : Profile) :
    Learns schedule replay (label = ·) [(schedule.id replay.minted, profile)] next := by
  have latest : next.HasMinted schedule (schedule.id replay.minted) := ⟨replay.minted, by omega, rfl⟩
  constructor
  case grows => omega
  case few => exact Nat.le_of_eq count
  case known =>
    intro other
    rw [same, SortedMap.get?_insert]
    by_cases its : other = label
    · simp [its]
    · simp [its, Ne.symm its]
  case minted =>
    intro minted other allocation found
    rw [same, SortedMap.get?_insert] at found
    split at found
    · exact Option.some.inj found ▸ latest
    · exact (minted other allocation found).mono (by omega)
  case claimed =>
    intro _ claim inside
    rw [List.mem_singleton.1 inside]
    exact latest

/-- An id is minted, and no label stands for it. -/
theorem of_spent (same : next.labels = replay.labels) (count : next.minted = replay.minted + 1) (profile : Profile) :
    Learns schedule replay (fun _ => False) [(schedule.id replay.minted, profile)] next := by
  constructor
  case grows => omega
  case few => exact Nat.le_of_eq count
  case known =>
    intro label
    rw [same, or_false]
  case minted =>
    intro minted label allocation found
    rw [same] at found
    exact (minted label allocation found).mono (by omega)
  case claimed =>
    intro _ claim inside
    rw [List.mem_singleton.1 inside]
    exact ⟨replay.minted, by omega, rfl⟩

/-- A label that is known stands for its id. -/
theorem of_known {label : String} {allocation : AllocationId} (found : replay.labels.get? label = some allocation)
    (profile : Profile) : Learns schedule replay (label = ·) [(allocation, profile)] replay := by
  constructor
  case grows => exact Nat.le_refl _
  case few => exact Nat.le_succ _
  case known =>
    intro other
    constructor
    · intro before
      exact .inl before
    · rintro (before | rfl)
      · exact before
      · rw [found]
        exact Option.some_ne_none allocation
  case minted => exact id
  case claimed =>
    intro minted claim inside
    rw [List.mem_singleton.1 inside]
    exact minted label allocation found

end Learns

end Replay

/-- A reported slot has the label, and a job. -/
def ReportedSlot.Lists (slot : ReportedSlot) (label : String) : Prop := slot.label = some label ∧ slot.job ≠ none

/-- The profile of a reported slot that is occupied. -/
def ReportedSlot.taken? (slot : ReportedSlot) : Option Profile :=
  if slot.label.isSome && slot.job.isSome then some slot.profile else none

/-- The profiles of the slots that a step may bring. -/
def Step.profiles : Step → List Profile
  | .allocate _ _ _ profile _ _ => [profile]
  | .report _ slots => slots.filterMap ReportedSlot.taken?
  | .addWorker .. | .removeWorker .. | .free .. | .freeInactive .. | .wait .. => []

namespace Replay

variable {schedule : Schedule} {replay next : Replay} {step : Step} {worker : WorkerId}

theorem learns_statusOf {slot : ReportedSlot} {status : SlotStatus}
    (resolved : statusOf schedule worker replay slot = .ok (status, next)) :
    Learns schedule replay slot.Lists (Event.report worker ⟨[status]⟩).claims next ∧
      (Event.report worker ⟨[status]⟩).claims.map Prod.snd = slot.taken?.toList := by
  obtain ⟨index, profile, label, job⟩ := slot
  cases label with
  | none =>
    cases job with
    | none =>
      obtain ⟨rfl, rfl⟩ := Prod.mk.inj (Except.ok.inj resolved)
      refine ⟨?_, rfl⟩
      have lists : ReportedSlot.Lists ⟨index, profile, none, none⟩ = fun _ => False := by
        funext label
        simp [ReportedSlot.Lists]
      rw [lists]
      exact .of_same rfl rfl
    | some job => cases resolved
  | some label =>
    cases job with
    | none => cases resolved
    | some job =>
      have lists : ReportedSlot.Lists ⟨index, profile, some label, some job⟩ = (label = ·) := by
        funext other
        simp [ReportedSlot.Lists]
      rw [lists]
      simp only [statusOf] at resolved
      split at resolved
      · next allocation found =>
        obtain ⟨rfl, rfl⟩ := Prod.mk.inj (Except.ok.inj resolved)
        exact ⟨.of_known found profile, rfl⟩
      · obtain ⟨rfl, rfl⟩ := Prod.mk.inj (Except.ok.inj resolved)
        exact ⟨.of_insert rfl rfl profile, rfl⟩

private theorem claims_cons (worker : WorkerId) (status : SlotStatus) (rest : List SlotStatus) :
    (Event.report worker ⟨status :: rest⟩).claims =
      (Event.report worker ⟨[status]⟩).claims ++ (Event.report worker ⟨rest⟩).claims := by
  rw [Event.claims, Event.claims, Event.claims, ← List.map_append, SlotReport.occupied, SlotReport.occupied,
    SlotReport.occupied, ← List.filterMap_append]
  rfl

theorem learns_statusesOf {slots : List ReportedSlot} {statuses : List SlotStatus}
    (resolved : statusesOf schedule worker replay slots = .ok (statuses, next)) :
    Learns schedule replay (fun label => ∃ slot ∈ slots, slot.Lists label)
        (Event.report worker ⟨statuses⟩).claims next ∧
      (Event.report worker ⟨statuses⟩).claims.map Prod.snd = slots.filterMap ReportedSlot.taken? := by
  induction slots generalizing replay statuses with
  | nil =>
    obtain ⟨rfl, rfl⟩ := Prod.mk.inj (Except.ok.inj resolved)
    refine ⟨?_, rfl⟩
    have nothing : Learns schedule replay (fun _ => False) [] replay := .of_same rfl rfl
    simpa [Event.claims, SlotReport.occupied] using nothing
  | cons slot rest ih =>
    simp only [statusesOf, Performed.bind_eq_ok_iff, Performed.pure_eq_ok_iff, Prod.mk.injEq] at resolved
    obtain ⟨⟨status, between⟩, now, ⟨others, _⟩, later, rfl, rfl⟩ := resolved
    obtain ⟨learns, profiles⟩ := learns_statusOf now
    obtain ⟨onward, profiles'⟩ := ih later
    rw [claims_cons, List.map_append, profiles, profiles']
    constructor
    · simpa [List.exists_mem_cons_iff] using learns.trans onward
    · rw [List.filterMap_cons]
      cases slot.taken? <;> rfl

/-- A step makes a label known: its request is accepted, or it reports a slot with the label and a job. -/
def Introduces (schedule : Schedule) (replay : Replay) : Step → String → Prop
  | .allocate label worker job profile _ _, other => label = other ∧
    ∃ reserved, replay.dispatcher.cluster.reserve worker job (schedule.id replay.minted) profile = .ok (.ok reserved)
  | .report _ slots, label => ∃ slot ∈ slots, slot.Lists label
  | .addWorker .., _ | .removeWorker .., _ | .free .., _ | .freeInactive .., _ | .wait .., _ => False

/-- Freeing claims nothing. -/
private theorem claims_free (label : String) : (replay.events schedule (.free label)).flatMap Event.claims = [] := by
  rw [events]
  split
  · rfl
  · rfl

/-- The ends of requests claim nothing. -/
private theorem claims_wait (milliseconds : Nat) :
    (replay.events schedule (.wait milliseconds)).flatMap Event.claims = [] := by
  rw [events]
  split
  · rfl
  · exact Dispatcher.claims_endings

/-- A step that is not wrong claims the slots that it may bring. -/
theorem profiles_events (right : ∀ fault, ¬replay.Rejects step fault) :
    ((replay.events schedule step).flatMap Event.claims).map Prod.snd = step.profiles := by
  cases step with
  | addWorker | removeWorker | allocate | freeInactive => rfl
  | free label => exact congrArg (List.map Prod.snd) (claims_free label)
  | report worker slots =>
    rcases statusesOf_cases schedule worker replay slots with ⟨slot, first, -⟩ | ⟨-, statuses, named, resolved⟩
    · exact absurd (.half first) (right _)
    · rw [events, resolved, List.flatMap_singleton]
      exact (learns_statusesOf resolved).2
  | wait milliseconds => exact congrArg (List.map Prod.snd) (claims_wait milliseconds)

private theorem learns_free {label : String} (performed : replay.perform schedule (.free label) = .ok next) :
    Learns schedule replay (replay.Introduces schedule (.free label))
      ((replay.events schedule (.free label)).flatMap Event.claims) next := by
  rw [claims_free]
  rw [perform] at performed
  split at performed
  · simp only [Performed.bind_eq_ok_iff, Performed.pure_eq_ok_iff] at performed
    obtain ⟨_, -, rfl⟩ := performed
    exact .of_same rfl rfl
  · cases performed

private theorem learns_wait {milliseconds : Nat}
    (performed : replay.perform schedule (.wait milliseconds) = .ok next) :
    Learns schedule replay (replay.Introduces schedule (.wait milliseconds))
      ((replay.events schedule (.wait milliseconds)).flatMap Event.claims) next := by
  rw [claims_wait]
  rw [perform] at performed
  split at performed
  · obtain rfl := Except.ok.inj performed
    exact .of_same rfl rfl
  · simp only [Performed.bind_eq_ok_iff, Performed.pure_eq_ok_iff] at performed
    obtain ⟨_, -, rfl⟩ := performed
    exact .of_same rfl rfl

/-- A report makes the labels of its occupied slots known, and claims these slots. -/
private theorem learns_report {slots : List ReportedSlot}
    (performed : replay.perform schedule (.report worker slots) = .ok next) :
    Learns schedule replay (replay.Introduces schedule (.report worker slots))
      ((replay.events schedule (.report worker slots)).flatMap Event.claims) next := by
  simp only [perform, Performed.bind_eq_ok_iff, Performed.pure_eq_ok_iff] at performed
  obtain ⟨⟨statuses, named⟩, resolved, _, -, rfl⟩ := performed
  have claims : (replay.events schedule (.report worker slots)).flatMap Event.claims =
      (Event.report worker ⟨statuses⟩).claims := by
    rw [events, resolved]
    exact List.flatMap_singleton ..
  have learns := (learns_statusesOf resolved).1
  rw [claims]
  exact ⟨learns.grows, learns.few, learns.known, learns.minted, learns.claimed⟩

/-- A request that is accepted makes its label known, and one that is refused only spends an id. -/
private theorem learns_allocate {label : String} {job : JobId} {profile : Profile} {reaction : Reaction} {delay : Nat}
    (performed : replay.perform schedule (.allocate label worker job profile reaction delay) = .ok next) :
    Learns schedule replay (replay.Introduces schedule (.allocate label worker job profile reaction delay))
      [(schedule.id replay.minted, profile)] next := by
  obtain ⟨_, -, remembers⟩ := leads_perform performed
  cases remembers with
  | noted silent => cases silent
  | refused refused =>
    have introduces :
        replay.Introduces schedule (.allocate label worker job profile reaction delay) = fun _ => False := by
      funext other
      simp [Introduces, refused]
    rw [introduces]
    refine .of_spent ?_ ?_ profile
    · rfl
    · rfl
  | accepted accepted =>
    cases Dispatcher.allocates_of_allocate accepted with | sent _ reserves _ =>
    have introduces :
        replay.Introduces schedule (.allocate label worker job profile reaction delay) = (label = ·) := by
      funext other
      simp [Introduces, reserves]
    rw [introduces]
    exact .of_insert rfl rfl profile

/-- What a step makes of the labels, and the slots that it claims. -/
theorem learns_perform (performed : replay.perform schedule step = .ok next) :
    Learns schedule replay (replay.Introduces schedule step) ((replay.events schedule step).flatMap Event.claims)
      next := by
  cases step with
  | addWorker worker total defaultSlot =>
    rw [perform] at performed
    split at performed
    · obtain rfl := Except.ok.inj performed
      exact .of_same rfl rfl
    · cases performed
  | removeWorker worker =>
    simp only [perform, Performed.bind_eq_ok_iff, Performed.pure_eq_ok_iff] at performed
    obtain ⟨_, -, rfl⟩ := performed
    exact .of_same rfl rfl
  | allocate label worker job profile reaction delay => exact learns_allocate performed
  | free label => exact learns_free performed
  | report worker slots => exact learns_report performed
  | freeInactive job =>
    obtain rfl := Except.ok.inj performed
    exact .of_same rfl rfl
  | wait milliseconds => exact learns_wait performed

end Replay

end SlotControl
