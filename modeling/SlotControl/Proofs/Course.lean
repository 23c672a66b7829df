import SlotControl.Dispatcher
import SlotControl.Proofs.Soundness

/-!
What the operations of the slot manager do to the state, one deed after the other. A reservation, the
changes that a gateway makes while it takes up the request, and the end of each request are deeds of
their own. Main statements: `course_run` says that the deeds of a run lead to its state and tell the
callers what the run tells them, and `ended_run` that every accepted reservation is still under way or
has ended once.
-/

namespace SlotControl

variable {Seed : Type} [Traversal Seed]

/-- The request of a flight: its allocation and job. -/
def Flight.request (flight : Flight) : AllocationId × JobId := (flight.allocation, flight.job)

/-- A request ends without an outcome, or its outcome is applied and its caller is told what comes of it. -/
theorem Dispatcher.land_eq_ok {cluster next : Cluster} {flight : Flight} {resolution : Resolution}
    (landed : Dispatcher.land cluster flight = .ok (resolution, next)) : resolution.allocation = flight.allocation ∧
      (flight.finish.2 = .crash ∧ next = cluster ∨ ∃ outcome, flight.finish.2 = .answer outcome ∧
        cluster.conclude flight.allocation flight.job outcome = .ok (resolution.outcome, next)) := by
  rw [Dispatcher.land] at landed
  split at landed
  · next crashed =>
    obtain ⟨rfl, rfl⟩ := Prod.mk.inj (Except.ok.inj landed)
    exact ⟨rfl, .inl ⟨crashed, rfl⟩⟩
  · next outcome answered =>
    simp only [Checked.bind_eq_ok_iff, Checked.pure_eq_ok_iff, Prod.mk.injEq] at landed
    obtain ⟨_, concluded, rfl, rfl⟩ := landed
    exact ⟨rfl, .inr ⟨outcome, answered, concluded⟩⟩

/-! ## Deeds -/

/-- One change of the state. What is refused changes nothing and is no deed. -/
inductive Deed where
  | register (worker : WorkerId) (total defaultSlot : Profile)
  | removeWorker (worker : WorkerId)
  | reserve (worker : WorkerId) (job : JobId) (allocation : AllocationId) (profile : Profile)
  | free (allocation : AllocationId)
  | report (worker : WorkerId) (report : SlotReport)
  /-- A request ends as its flight says. -/
  | land (flight : Flight)
  /-- The task of a request is dropped. -/
  | drop (flight : Flight)
  deriving DecidableEq

namespace Deed

/-- What a deed makes of the state, and what it tells the callers of requests. -/
inductive Does (cluster : Cluster) : Deed → List Resolution → Cluster → Prop
  | register {worker : WorkerId} {total defaultSlot : Profile} {next : Cluster}
      (added : cluster.register worker total defaultSlot = .ok next) :
      Does cluster (.register worker total defaultSlot) [] next
  | removeWorker {worker : WorkerId} {slots : List Slot} {next : Cluster}
      (removed : cluster.removeWorker worker = .ok (slots, next)) : Does cluster (.removeWorker worker) [] next
  | reserve {worker : WorkerId} {job : JobId} {allocation : AllocationId} {profile : Profile} {next : Cluster}
      (accepted : cluster.reserve worker job allocation profile = .ok (.ok next)) :
      Does cluster (.reserve worker job allocation profile) [] next
  | free {allocation : AllocationId} {slot : Option Slot} {next : Cluster}
      (freed : cluster.free allocation = .ok (slot, next)) : Does cluster (.free allocation) [] next
  | report {worker : WorkerId} {report : SlotReport} {applied : Bool} {next : Cluster}
      (reported : cluster.report worker report = .ok (applied, next)) : Does cluster (.report worker report) [] next
  | land {flight : Flight} {resolution : Resolution} {next : Cluster}
      (landed : Dispatcher.land cluster flight = .ok (resolution, next)) :
      Does cluster (.land flight) [resolution] next
  | drop (flight : Flight) :
      Does cluster (.drop flight) [⟨flight.allocation, .failure (.requestDropped flight.allocation)⟩] cluster

/-- The request that a reservation is made for: its allocation and job. -/
def launched? : Deed → Option (AllocationId × JobId)
  | .reserve _ job allocation _ => some (allocation, job)
  | _ => none

/-- The request that ends. -/
def ended? : Deed → Option (AllocationId × JobId)
  | .land flight | .drop flight => some flight.request
  | _ => none

end Deed

/-- Deeds lead from one state to another and tell the callers of requests something on the way. -/
inductive Course : Cluster → List Deed → List Resolution → Cluster → Prop
  | nil (cluster : Cluster) : Course cluster [] [] cluster
  | cons {first between last : Cluster} {deed : Deed} {rest : List Deed} {told others : List Resolution}
      (does : deed.Does first told between) (onward : Course between rest others last) :
      Course first (deed :: rest) (told ++ others) last

namespace Course

variable {first between last : Cluster} {deeds rest : List Deed} {told others resolutions : List Resolution}

theorem append (course : Course first deeds told between) (onward : Course between rest others last) :
    Course first (deeds ++ rest) (told ++ others) last := by
  induction course with
  | nil => exact onward
  | cons does _ ih =>
    rw [List.append_assoc]
    exact .cons does (ih onward)

theorem of_cons {deed : Deed} (course : Course first (deed :: rest) resolutions last) :
    ∃ told between others, deed.Does first told between ∧ Course between rest others last ∧
      resolutions = told ++ others := by
  cases course with
  | cons does onward => exact ⟨_, _, _, does, onward, rfl⟩

/-- A course can be cut at any point. -/
theorem of_append (course : Course first (deeds ++ rest) resolutions last) :
    ∃ told between others, Course first deeds told between ∧ Course between rest others last ∧
      resolutions = told ++ others := by
  induction deeds generalizing first resolutions with
  | nil => exact ⟨[], first, resolutions, .nil first, course, rfl⟩
  | cons deed later ih =>
    obtain ⟨_, _, _, does, onward, rfl⟩ := course.of_cons
    obtain ⟨told, between, others, before, after, rfl⟩ := ih onward
    exact ⟨_, between, others, .cons does before, after, (List.append_assoc ..).symm⟩

/-- Callers are told about exactly the requests that end, in that order. -/
theorem allocations (course : Course first deeds resolutions last) :
    resolutions.map Resolution.allocation = (deeds.filterMap Deed.ended?).map Prod.fst := by
  induction course with
  | nil => rfl
  | cons does _ ih =>
    rw [List.map_append, ih]
    cases does with
    | register | removeWorker | reserve | free | report => rfl
    | drop => rfl
    | land landed => exact congrArg (· :: _) (Dispatcher.land_eq_ok landed).1

end Course

/-! ## Operations -/

/-- The deed that a gateway's change is. -/
def Interruption.deed : Interruption → Deed
  | .free allocation => .free allocation
  | .removeWorker worker => .removeWorker worker

namespace Dispatcher

/-- One operation of the slot manager. -/
inductive Operation where
  | register (worker : WorkerId) (total defaultSlot : Profile)
  | removeWorker (worker : WorkerId)
  | allocate (allocation : AllocationId) (worker : WorkerId) (job : JobId) (address : String) (profile : Profile)
      (exchange : Exchange)
  | free (allocation : AllocationId)
  | report (worker : WorkerId) (report : SlotReport)
  | answer (allocation : AllocationId) (outcome : Outcome)
  | advance (milliseconds : Nat)
  | wait (milliseconds : Nat) (ahead : AllocationId → Bool)
  | drain
  | dropTasks

/-- The id that an operation gives to a new allocation. -/
def Operation.minted? : Operation → Option AllocationId
  | .allocate allocation .. => some allocation
  | _ => none

/-- Performs an operation, and gives what the callers of requests are told during it. -/
def perform (d : Dispatcher) : Operation → Checked (List Resolution × Dispatcher)
  | .register worker total defaultSlot =>
    match d.register worker total defaultSlot with
    | .ok next => .ok ([], next)
    | .error _ => .ok ([], d)
  | .removeWorker worker => (d.removeWorker worker).map fun (_, next) => ([], next)
  | .allocate allocation worker job address profile exchange => do
    let (_, next) ← d.allocate allocation worker job address profile exchange
    return ([], next)
  | .free allocation => (d.free allocation).map ([], ·)
  | .report worker report => (d.report worker report).map fun (_, next) => ([], next)
  | .answer allocation outcome => .ok ([], (d.answer allocation outcome).2)
  | .advance milliseconds => d.advance milliseconds
  | .wait milliseconds ahead => d.wait milliseconds ahead
  | .drain => d.drain
  | .dropTasks => .ok d.dropTasks

/-- Performs operations one after the other. -/
def run (d : Dispatcher) : List Operation → Checked (List Resolution × Dispatcher)
  | [] => .ok ([], d)
  | operation :: rest => do
    let (told, next) ← d.perform operation
    let (others, last) ← next.run rest
    return (told ++ others, last)

/-- The ends of the requests that pass a test, in the order in which they come. -/
def landings (d : Dispatcher) (ends : Flight → Bool) : List Deed :=
  ((d.flights.filter ends).mergeSort Flight.isNoLater).map .land

/-- The deeds of an operation. -/
def deeds (d : Dispatcher) : Operation → List Deed
  | .register worker total defaultSlot =>
    match d.register worker total defaultSlot with
    | .ok _ => [.register worker total defaultSlot]
    | .error _ => []
  | .removeWorker worker => [.removeWorker worker]
  | .allocate allocation worker job _ profile exchange =>
    match d.cluster.reserve worker job allocation profile with
    | .ok (.ok _) => .reserve worker job allocation profile :: exchange.interruptions.map Interruption.deed
    | _ => []
  | .free allocation => [.free allocation]
  | .report worker report => [.report worker report]
  | .answer .. => []
  | .advance milliseconds => d.begin.landings (Flight.isDueBy (d.now + milliseconds))
  | .wait milliseconds ahead => d.begin.landings (Flight.isDueAhead (d.now + milliseconds) ahead)
  | .drain =>
    d.begin.landings
      (Flight.isDueBy (d.begin.flights.foldl (fun latest flight => max latest (flight.due?.getD 0)) d.now))
  | .dropTasks => d.flights.map .drop

/-- The deeds of a run. -/
def history (d : Dispatcher) : List Operation → List Deed
  | [] => []
  | operation :: rest =>
    match d.perform operation with
    | .ok (_, next) => d.deeds operation ++ next.history rest
    | .error _ => []

variable {d next : Dispatcher} {told resolutions : List Resolution}

private theorem course_interruptions {cluster last : Cluster} {interruptions : List Interruption}
    (interrupted : interruptions.foldlM interrupt cluster = .ok last) :
    Course cluster (interruptions.map Interruption.deed) [] last := by
  induction interruptions generalizing cluster with
  | nil =>
    rw [← Except.ok.inj interrupted]
    exact .nil cluster
  | cons interruption rest ih =>
    rw [List.foldlM_cons, Checked.bind_eq_ok_iff] at interrupted
    obtain ⟨between, first, interrupted⟩ := interrupted
    have does : interruption.deed.Does cluster [] between := by
      cases interruption with
      | free allocation =>
        rw [interrupt, Checked.bind_eq_ok_iff] at first
        obtain ⟨⟨slot, _⟩, freed, same⟩ := first
        rw [← Checked.pure_eq_ok_iff.1 same]
        exact .free freed
      | removeWorker worker =>
        rw [interrupt, Checked.bind_eq_ok_iff] at first
        obtain ⟨⟨slots, _⟩, removed, same⟩ := first
        rw [← Checked.pure_eq_ok_iff.1 same]
        exact .removeWorker removed
    have course := Course.cons does (ih interrupted)
    exact course

private theorem course_landAll {cluster last : Cluster} {flights : List Flight}
    (landed : landAll cluster flights = .ok (resolutions, last)) :
    Course cluster (flights.map .land) resolutions last := by
  induction flights generalizing cluster resolutions with
  | nil =>
    obtain ⟨rfl, rfl⟩ := Prod.mk.inj (Except.ok.inj landed)
    exact .nil cluster
  | cons flight rest ih =>
    simp only [landAll, Checked.bind_eq_ok_iff, Checked.pure_eq_ok_iff, Prod.mk.injEq] at landed
    obtain ⟨⟨first, between⟩, here, ⟨others, _⟩, later, rfl, rfl⟩ := landed
    exact .cons (.land here) (ih later)

theorem endWhere_eq_ok_iff (d : Dispatcher) (ends : Flight → Bool) (time : Nat) :
    d.endWhere ends time = .ok (resolutions, next) ↔
      landAll d.cluster ((d.flights.filter ends).mergeSort Flight.isNoLater) = .ok (resolutions, next.cluster) ∧
        next = { d with cluster := next.cluster, now := time, flights := d.flights.filter (!ends ·) } := by
  simp only [endWhere, List.partition_eq_filter_filter, Checked.bind_eq_ok_iff, Checked.pure_eq_ok_iff,
    Prod.mk.injEq]
  constructor
  · rintro ⟨⟨_, _⟩, landed, rfl, rfl⟩
    exact ⟨landed, rfl⟩
  · rintro ⟨landed, same⟩
    exact ⟨_, landed, rfl, same.symm⟩

private theorem course_endWhere {ends : Flight → Bool} {time : Nat}
    (ended : d.endWhere ends time = .ok (resolutions, next)) :
    Course d.cluster (d.landings ends) resolutions next.cluster :=
  course_landAll ((endWhere_eq_ok_iff d ends time).1 ended).1

/-! ## Requests that are made -/

/-- The slot manager with one more task that gets no request. -/
def idling (d : Dispatcher) (allocation : AllocationId) (job : JobId) : Dispatcher :=
  { d with openings := d.openings ++ [⟨allocation, job, true⟩] }

/-- A task that is forsaken by the call that has spawned it stays behind without a request. -/
theorem forsake_spawn (d : Dispatcher) (allocation : AllocationId) (job : JobId) :
    (d.spawn allocation job).2.forsake (d.spawn allocation job).1 = d.idling allocation job := by
  simp [spawn, forsake, idling, List.modify_eq_set_getElem?]

/-- A task gets the request of the call that has spawned it. -/
theorem send_spawn (d : Dispatcher) (allocation : AllocationId) (job : JobId) (cluster : Cluster) (timeout : Duration)
    (exchange : Exchange) :
    ({ (d.spawn allocation job).2 with cluster } : Dispatcher).send (d.spawn allocation job).1 timeout exchange =
      { d with
        cluster
        flights := d.flights ++ [⟨allocation, job, timeout, exchange.reply, exchange.rank, none⟩] } := by
  simp [spawn, send, List.eraseIdx_append_of_length_le]

section Allocate

variable {allocation : AllocationId} {worker : WorkerId} {job : JobId} {address : String} {profile : Profile}
variable {exchange : Exchange} {answer : Except Failure SlotRequest}

/-- The ways in which a call that requests a slot goes. -/
inductive Allocates (d : Dispatcher) (allocation : AllocationId) (worker : WorkerId) (job : JobId) (address : String)
    (profile : Profile) (exchange : Exchange) : Except Failure SlotRequest → Dispatcher → Prop
  /-- The reservation is refused, and a task stays behind that gets no request. -/
  | refused {failure : Failure}
      (refused : d.cluster.reserve worker job allocation profile = .ok (.error failure)) :
      Allocates d allocation worker job address profile exchange (.error failure) (d.idling allocation job)
  /-- The slot is reserved, the gateway makes its changes, and the request is under way. -/
  | sent {timeout : Duration} {reserved cluster : Cluster}
      (fits : d.timeouts.request.add? exchange.expected = some timeout)
      (accepted : d.cluster.reserve worker job allocation profile = .ok (.ok reserved))
      (interrupted : exchange.interruptions.foldlM interrupt reserved = .ok cluster) :
      Allocates d allocation worker job address profile exchange
        (.ok ⟨.dynamic worker, job, allocation, profile, address, d.owner, timeout⟩)
        { d with
          cluster
          flights := d.flights ++ [⟨allocation, job, timeout, exchange.reply, exchange.rank, none⟩] }

theorem allocate_eq_of_refused {failure : Failure}
    (refused : d.cluster.reserve worker job allocation profile = .ok (.error failure)) :
    d.allocate allocation worker job address profile exchange = .ok (.error failure, d.idling allocation job) := by
  rw [← forsake_spawn]
  simp only [allocate, spawn, refused, bind, Except.bind]
  rfl

theorem allocate_eq_of_failed {defect : Defect}
    (failed : d.cluster.reserve worker job allocation profile = .error defect) :
    d.allocate allocation worker job address profile exchange = .error defect := by
  simp only [allocate, spawn, failed, bind, Except.bind]

theorem allocate_eq_of_endless {reserved : Cluster}
    (accepted : d.cluster.reserve worker job allocation profile = .ok (.ok reserved))
    (endless : d.timeouts.request.add? exchange.expected = none) :
    d.allocate allocation worker job address profile exchange = .error .durationOverflow := by
  have spawned : (d.spawn allocation job).2.cluster = d.cluster := rfl
  simp only [allocate, spawned, accepted, endless, bind, Except.bind]
  rfl

/-- What an admitted request becomes of, once the slot is reserved: the worker is asked for it, and a task waits for
    the answer. The gateway of the worker may change the state while it takes up the request. -/
theorem allocate_eq_of_reserved {timeout : Duration} (fits : d.timeouts.request.add? exchange.expected = some timeout)
    {reserved : Cluster} (accepted : d.cluster.reserve worker job allocation profile = .ok (.ok reserved)) :
    d.allocate allocation worker job address profile exchange =
      (exchange.interruptions.foldlM interrupt reserved).map fun cluster =>
        (.ok ⟨.dynamic worker, job, allocation, profile, address, d.owner, timeout⟩,
          { d with
            cluster
            flights := d.flights ++ [⟨allocation, job, timeout, exchange.reply, exchange.rank, none⟩] }) := by
  have spawned : (d.spawn allocation job).2.cluster = d.cluster := rfl
  simp only [allocate, spawned, accepted, fits, send_spawn, bind, Except.bind]
  cases exchange.interruptions.foldlM interrupt reserved <;> rfl

theorem allocates_of_allocate
    (decided : d.allocate allocation worker job address profile exchange = .ok (answer, next)) :
    d.Allocates allocation worker job address profile exchange answer next := by
  cases reserves : d.cluster.reserve worker job allocation profile with
  | error defect =>
    rw [allocate_eq_of_failed reserves] at decided
    cases decided
  | ok verdict =>
    cases verdict with
    | error failure =>
      rw [allocate_eq_of_refused reserves] at decided
      obtain ⟨rfl, rfl⟩ := Prod.mk.inj (Except.ok.inj decided)
      exact .refused reserves
    | ok reserved =>
      cases fits : d.timeouts.request.add? exchange.expected with
      | none =>
        rw [allocate_eq_of_endless reserves fits] at decided
        cases decided
      | some timeout =>
        rw [allocate_eq_of_reserved fits reserves] at decided
        obtain ⟨cluster, interrupted, same⟩ := Checked.map_eq_ok_iff.1 decided
        obtain ⟨rfl, rfl⟩ := Prod.mk.inj same
        exact .sent fits reserves interrupted

end Allocate

/-- Only a request reserves a slot, and it is accepted. -/
theorem allocate_of_reserved {worker : WorkerId} {job : JobId} {allocation : AllocationId} {profile : Profile}
    {operation : Operation} (reserved : .reserve worker job allocation profile ∈ d.deeds operation) :
    ∃ address exchange, operation = .allocate allocation worker job address profile exchange ∧
      ∃ next, d.cluster.reserve worker job allocation profile = .ok (.ok next) := by
  cases operation with
  | register worker total defaultSlot =>
    rw [deeds] at reserved
    split at reserved
    · cases List.mem_singleton.1 reserved
    · cases reserved
  | removeWorker | free | report => cases List.mem_singleton.1 reserved
  | answer => cases reserved
  | advance | wait | drain | dropTasks =>
    obtain ⟨flight, -, other⟩ := List.mem_map.1 reserved
    cases other
  | allocate allocation worker job address profile exchange =>
    rw [deeds] at reserved
    split at reserved
    · next next accepted =>
      rcases List.mem_cons.1 reserved with same | inside
      · cases same
        exact ⟨address, exchange, rfl, next, accepted⟩
      · obtain ⟨interruption, -, other⟩ := List.mem_map.1 inside
        cases interruption <;> cases other
    · cases reserved

/-! ## Requests under way -/

/-- The requests under way. -/
def requests (d : Dispatcher) : List (AllocationId × JobId) := d.flights.map Flight.request

theorem requests_begin (d : Dispatcher) : d.begin.requests = d.requests := by
  rw [requests, requests, begin, List.map_map]
  rfl

private theorem requests_answer (d : Dispatcher) (allocation : AllocationId) (outcome : Outcome) :
    (d.answer allocation outcome).2.requests = d.requests := by
  rw [requests, requests, answer, List.map_map]
  refine List.map_congr_left fun flight _ => ?_
  simp only [Function.comp_apply]
  split <;> rfl

/-- The ways in which an operation is performed, with its deeds and with what the callers of requests are
    told. -/
inductive Performs (d : Dispatcher) : List Deed → List Resolution → Dispatcher → Prop
  /-- Nothing is done to the state. -/
  | idle {next : Dispatcher} (same : next.cluster = d.cluster) (still : next.requests = d.requests) :
      Performs d [] [] next
  /-- One deed is done, and it is no matter of requests. -/
  | apart {deed : Deed} {next : Dispatcher} (does : deed.Does d.cluster [] next.cluster)
      (still : next.requests = d.requests) (launched : deed.launched? = none) (ended : deed.ended? = none) :
      Performs d [deed] [] next
  /-- A request is accepted; the gateway makes its changes while it takes it up. -/
  | accepted {worker : WorkerId} {job : JobId} {allocation : AllocationId} {profile : Profile} {reserved : Cluster}
      {interruptions : List Interruption} {next : Dispatcher}
      (accepted : d.cluster.reserve worker job allocation profile = .ok (.ok reserved))
      (interrupted : interruptions.foldlM interrupt reserved = .ok next.cluster)
      (requests : next.requests = d.requests ++ [(allocation, job)]) :
      Performs d (.reserve worker job allocation profile :: interruptions.map Interruption.deed) [] next
  /-- Time passes, and some requests end. -/
  | passed {ends : Flight → Bool} {time : Nat} {told : List Resolution} {next : Dispatcher}
      (passed : d.begin.endWhere ends time = .ok (told, next)) : Performs d (d.begin.landings ends) told next
  /-- All tasks are dropped. -/
  | dropped : Performs d (d.flights.map .drop) d.dropTasks.1 d.dropTasks.2

theorem performs_of_perform {operation : Operation} (performed : d.perform operation = .ok (told, next)) :
    Performs d (d.deeds operation) told next := by
  cases operation with
  | register worker total defaultSlot =>
    rw [perform, register] at performed
    rw [deeds, register]
    cases added : d.cluster.register worker total defaultSlot with
    | error failure =>
      rw [added] at performed
      obtain ⟨rfl, rfl⟩ := Prod.mk.inj (Except.ok.inj performed)
      exact .idle rfl rfl
    | ok cluster =>
      rw [added] at performed
      obtain ⟨rfl, rfl⟩ := Prod.mk.inj (Except.ok.inj performed)
      exact .apart (.register added) rfl rfl rfl
  | removeWorker worker =>
    obtain ⟨⟨_, _⟩, removed, same⟩ := Checked.map_eq_ok_iff.1 performed
    obtain ⟨rfl, rfl⟩ := Prod.mk.inj same
    simp only [removeWorker, Checked.bind_eq_ok_iff, Checked.pure_eq_ok_iff, Prod.mk.injEq] at removed
    obtain ⟨⟨slots, cluster⟩, removed, -, rfl⟩ := removed
    exact .apart (.removeWorker removed) rfl rfl rfl
  | allocate allocation worker job address profile exchange =>
    rw [perform, Checked.bind_eq_ok_iff] at performed
    obtain ⟨⟨answer, after⟩, decided, same⟩ := performed
    obtain ⟨rfl, rfl⟩ := Prod.mk.inj (Checked.pure_eq_ok_iff.1 same)
    rw [deeds]
    cases allocates_of_allocate decided with
    | refused refused =>
      rw [refused]
      exact .idle rfl rfl
    | sent fits accepted interrupted =>
      rw [accepted]
      refine .accepted accepted interrupted ?_
      rw [requests, List.map_append]
      rfl
  | free allocation =>
    obtain ⟨_, freed, same⟩ := Checked.map_eq_ok_iff.1 performed
    obtain ⟨rfl, rfl⟩ := Prod.mk.inj same
    simp only [free, Checked.bind_eq_ok_iff, Checked.pure_eq_ok_iff] at freed
    obtain ⟨⟨slot, cluster⟩, freed, rfl⟩ := freed
    exact .apart (.free freed) rfl rfl rfl
  | report worker report =>
    obtain ⟨⟨_, _⟩, reported, same⟩ := Checked.map_eq_ok_iff.1 performed
    obtain ⟨rfl, rfl⟩ := Prod.mk.inj same
    simp only [Dispatcher.report, Checked.bind_eq_ok_iff, Checked.pure_eq_ok_iff, Prod.mk.injEq] at reported
    obtain ⟨⟨applied, cluster⟩, reported, -, rfl⟩ := reported
    exact .apart (.report reported) rfl rfl rfl
  | answer allocation outcome =>
    obtain ⟨rfl, rfl⟩ := Prod.mk.inj (Except.ok.inj performed)
    exact .idle rfl (requests_answer d allocation outcome)
  | advance | wait | drain => exact .passed performed
  | dropTasks =>
    obtain ⟨rfl, rfl⟩ := Prod.mk.inj (Except.ok.inj performed)
    exact .dropped

/-! ## The course of a run -/

/-- The deeds of an operation lead to its state and tell the callers what it tells them. -/
theorem course_perform {operation : Operation} (performed : d.perform operation = .ok (told, next)) :
    Course d.cluster (d.deeds operation) told next.cluster := by
  have performs := performs_of_perform performed
  generalize d.deeds operation = deeds at performs ⊢
  cases performs with
  | idle same => exact same ▸ .nil d.cluster
  | apart does =>
    have course := Course.cons does (.nil next.cluster)
    exact course
  | accepted accepted interrupted =>
    have course := Course.cons (.reserve accepted) (course_interruptions interrupted)
    exact course
  | passed passed => exact course_endWhere passed
  | dropped =>
    show Course d.cluster (d.flights.map .drop) (d.flights.map fun flight =>
      ⟨flight.allocation, .failure (.requestDropped flight.allocation)⟩) d.cluster
    induction d.flights with
    | nil => exact .nil _
    | cons flight rest ih => exact .cons (.drop flight) ih

/-- The deeds of a run lead to its state and tell the callers what it tells them. -/
theorem course_run {operations : List Operation} (performed : d.run operations = .ok (resolutions, next)) :
    Course d.cluster (d.history operations) resolutions next.cluster := by
  induction operations generalizing d resolutions with
  | nil =>
    obtain ⟨rfl, rfl⟩ := Prod.mk.inj (Except.ok.inj performed)
    exact .nil _
  | cons operation rest ih =>
    simp only [run, Checked.bind_eq_ok_iff, Checked.pure_eq_ok_iff, Prod.mk.injEq] at performed
    obtain ⟨⟨told, between⟩, first, ⟨others, _⟩, continued, rfl, rfl⟩ := performed
    rw [history, first]
    exact (course_perform first).append (ih continued)

theorem run_singleton {operation : Operation} (performed : d.perform operation = .ok (told, next)) :
    d.run [operation] = .ok (told, next) := by
  simp only [run, Checked.bind_eq_ok_iff, Checked.pure_eq_ok_iff, Prod.mk.injEq]
  exact ⟨_, performed, _, rfl, List.append_nil told, rfl⟩

theorem run_append {first later : List Operation} {between : Dispatcher} {others : List Resolution}
    (performed : d.run first = .ok (told, between)) (continued : between.run later = .ok (others, next)) :
    d.run (first ++ later) = .ok (told ++ others, next) := by
  induction first generalizing d told with
  | nil =>
    obtain ⟨rfl, rfl⟩ := Prod.mk.inj (Except.ok.inj performed)
    exact continued
  | cons operation rest ih =>
    simp only [run, Checked.bind_eq_ok_iff, Checked.pure_eq_ok_iff, Prod.mk.injEq] at performed
    obtain ⟨⟨now, after⟩, performs, ⟨_, _⟩, onward, rfl, rfl⟩ := performed
    simp only [List.cons_append, run, Checked.bind_eq_ok_iff, Checked.pure_eq_ok_iff, Prod.mk.injEq]
    exact ⟨_, performs, _, ih onward, (List.append_assoc ..).symm, rfl⟩

/-- What is done in a run is done first, and then what is done in a run from its end. -/
theorem history_append {first : List Operation} {between : Dispatcher} (later : List Operation)
    (performed : d.run first = .ok (told, between)) :
    d.history (first ++ later) = d.history first ++ between.history later := by
  induction first generalizing d told with
  | nil =>
    obtain ⟨rfl, rfl⟩ := Prod.mk.inj (Except.ok.inj performed)
    rfl
  | cons operation rest ih =>
    simp only [run, Checked.bind_eq_ok_iff, Checked.pure_eq_ok_iff, Prod.mk.injEq] at performed
    obtain ⟨⟨now, after⟩, performs, ⟨_, _⟩, onward, rfl, rfl⟩ := performed
    rw [List.cons_append, history, history, performs, List.append_assoc]
    exact congrArg _ (ih onward)

/-! ## The ends of requests -/

private theorem ended_map {ends : Flight → Deed} (ended : ∀ flight, (ends flight).ended? = some flight.request)
    (flights : List Flight) : (flights.map ends).filterMap Deed.ended? = flights.map Flight.request := by
  induction flights with
  | nil => rfl
  | cons flight rest ih => rw [List.map_cons, List.filterMap_cons_some (ended flight), ih, List.map_cons]

private theorem filterMap_map_none {α β γ : Type} {f : α → β} {g : β → Option γ} (nothing : ∀ a, g (f a) = none)
    (items : List α) : (items.map f).filterMap g = [] := by
  rw [List.filterMap_map, List.filterMap_eq_nil_iff]
  exact fun a _ => nothing a

-- The changes that a gateway makes neither accept nor end a request.

private theorem ended_interruptions (interruptions : List Interruption) :
    (interruptions.map Interruption.deed).filterMap Deed.ended? = [] :=
  filterMap_map_none (fun interruption => by cases interruption <;> rfl) interruptions

private theorem launched_interruptions (interruptions : List Interruption) :
    (interruptions.map Interruption.deed).filterMap Deed.launched? = [] :=
  filterMap_map_none (fun interruption => by cases interruption <;> rfl) interruptions

private theorem ended_endWhere {ends : Flight → Bool} {time : Nat}
    (ended : d.endWhere ends time = .ok (resolutions, next)) :
    ((d.landings ends).filterMap Deed.ended? ++ next.requests).Perm
      (d.requests ++ (d.landings ends).filterMap Deed.launched?) := by
  rw [((endWhere_eq_ok_iff d ends time).1 ended).2, landings, ended_map fun _ => rfl,
    filterMap_map_none fun _ => rfl, List.append_nil]
  refine (((List.mergeSort_perm _ _).map _).append_right _).trans ?_
  rw [requests, requests, ← List.map_append]
  exact (List.filter_append_perm _ _).map _

/-- An operation keeps count of the requests: those under way before it and those that it accepts are
    under way after it or have ended. -/
theorem ended_perform {operation : Operation} (performed : d.perform operation = .ok (told, next)) :
    ((d.deeds operation).filterMap Deed.ended? ++ next.requests).Perm
      (d.requests ++ (d.deeds operation).filterMap Deed.launched?) := by
  have performs := performs_of_perform performed
  generalize d.deeds operation = deeds at performs ⊢
  cases performs with
  | idle _ still =>
    rw [still]
    simp
  | apart _ still launched ended =>
    rw [still, List.filterMap_cons_none launched, List.filterMap_cons_none ended]
    simp
  | accepted _ _ requests =>
    simp only [List.filterMap_cons, Deed.ended?, Deed.launched?, ended_interruptions, launched_interruptions,
      requests, List.nil_append]
    exact .refl _
  | passed passed => exact requests_begin d ▸ ended_endWhere passed
  | dropped =>
    rw [ended_map fun _ => rfl, filterMap_map_none fun _ => rfl]
    exact .refl _

/-- Over a run every accepted request is under way in the end or has ended, and exactly once. -/
theorem ended_run {operations : List Operation} (performed : d.run operations = .ok (resolutions, next)) :
    ((d.history operations).filterMap Deed.ended? ++ next.requests).Perm
      (d.requests ++ (d.history operations).filterMap Deed.launched?) := by
  induction operations generalizing d resolutions with
  | nil =>
    obtain ⟨rfl, rfl⟩ := Prod.mk.inj (Except.ok.inj performed)
    rw [history]
    simp
  | cons operation rest ih =>
    simp only [run, Checked.bind_eq_ok_iff, Checked.pure_eq_ok_iff, Prod.mk.injEq] at performed
    obtain ⟨⟨told, between⟩, first, ⟨others, _⟩, continued, rfl, rfl⟩ := performed
    rw [history, first]
    simp only [List.filterMap_append, List.append_assoc]
    refine ((ih continued).append_left _).trans ?_
    rw [← List.append_assoc, ← List.append_assoc]
    exact (ended_perform first).append_right _

private theorem launched_deeds (d : Dispatcher) (operation : Operation) :
    (((d.deeds operation).filterMap Deed.launched?).map Prod.fst).Sublist operation.minted?.toList := by
  cases operation with
  | register worker total defaultSlot =>
    rw [deeds]
    split <;> exact .refl _
  | removeWorker | free | report | answer => exact .refl _
  | allocate allocation worker job address profile exchange =>
    rw [deeds]
    split
    · simp only [List.filterMap_cons, Deed.launched?, launched_interruptions]
      exact .refl _
    · exact List.nil_sublist _
  | advance | wait | drain =>
    rw [deeds, landings, filterMap_map_none fun _ => rfl]
    exact .refl _
  | dropTasks =>
    rw [deeds, filterMap_map_none fun _ => rfl]
    exact .refl _

/-- Accepted allocations have ids that were minted, in that order. -/
theorem launched_sublist (d : Dispatcher) (operations : List Operation) :
    (((d.history operations).filterMap Deed.launched?).map Prod.fst).Sublist
      (operations.filterMap Operation.minted?) := by
  induction operations generalizing d with
  | nil => exact .refl _
  | cons operation rest ih =>
    have minted : (operation :: rest).filterMap Operation.minted? =
        operation.minted?.toList ++ rest.filterMap Operation.minted? := by
      cases found : operation.minted? <;> simp [found]
    rw [minted, history]
    split
    · rw [List.filterMap_append, List.map_append]
      exact (launched_deeds d operation).append (ih _)
    · exact List.nil_sublist _

theorem exists_minted_of_launched {d : Dispatcher} {operations : List Operation} {request : AllocationId × JobId}
    (launched : request ∈ (d.history operations).filterMap Deed.launched?) :
    ∃ operation ∈ operations, operation.minted? = some request.1 :=
  List.mem_filterMap.1 ((launched_sublist d operations).subset (List.mem_map_of_mem launched))

end Dispatcher

end SlotControl
