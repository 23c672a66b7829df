import SlotControl.Proofs.Minting
import SlotControl.Proofs.Timing
import SlotControl.Replay.Run

/-!
What a replay asks of the slot manager, and what it remembers. A step of a script is one call or none, and only
a request that is sent or a caller that is told something changes the results. Main statements: `leads_perform`
says what one step does, and `leads_performAll` what any number of them does to the entry of one label.
-/

namespace SlotControl

variable {Seed : Type} [Traversal Seed]

/-- The label of the request that a step sends. -/
def Step.label? : Step → Option String
  | .allocate label .. => some label
  | _ => none

/-! ## Requests that come to an outcome -/

/-- A reply with an outcome after some time, or none at all. -/
def Reply.Autonomous (reply : Reply) : Prop := ∃ outcome delay?, reply = .ofDelay outcome delay?

theorem Reply.Autonomous.ne_onDemand {reply : Reply} (autonomous : reply.Autonomous) : reply ≠ .onDemand := by
  obtain ⟨outcome, delay?, rfl⟩ := autonomous
  cases delay? <;> nofun

theorem Flight.exists_answer (flight : Flight) (autonomous : flight.reply.Autonomous) :
    ∃ outcome, flight.finish.2 = .answer outcome := by
  obtain ⟨allocation, job, timeout, reply, rank, start⟩ := flight
  obtain ⟨outcome, delay?, rfl : reply = _⟩ := autonomous
  exact ⟨_, congrArg Prod.snd (Flight.finish_ofDelay rfl delay?)⟩

namespace Dispatcher

variable {d next last : Dispatcher} {told : List Resolution} {operation : Operation} {operations : List Operation}

/-- No request under way needs an answer from outside. -/
def Awaited (d : Dispatcher) : Prop := ∀ flight ∈ d.flights, flight.reply.Autonomous

/-- An operation sends no request that does, and drops no task. -/
def Operation.Answered : Operation → Prop
  | .allocate _ _ _ _ _ exchange => exchange.reply.Autonomous
  | .dropTasks => False
  | _ => True

theorem Awaited.perform (awaited : d.Awaited) (answered : operation.Answered)
    (performed : d.perform operation = .ok (told, next)) : next.Awaited := by
  have moves := moves_of_perform performed
  intro flight inside
  cases moves with
  | still flights => exact awaited flight (flights ▸ inside)
  | sent flights =>
    rw [flights, List.mem_append, List.mem_singleton] at inside
    rcases inside with before | rfl
    · exact awaited flight before
    · exact answered
  | answered allocation outcome =>
    obtain ⟨before, there, rfl⟩ := List.mem_map.1 inside
    split
    · exact ⟨outcome, some _, rfl⟩
    · exact awaited before there
  | passed _ _ _ flights =>
    rw [flights] at inside
    obtain ⟨before, there, rfl⟩ := List.mem_map.1 (List.mem_filter.1 inside).1
    exact awaited before there
  | dropped => cases inside

/-- Where no answer from outside is needed and no task dropped, requests end by an outcome only. -/
theorem Awaited.landed (awaited : d.Awaited) (answered : ∀ operation ∈ operations, operation.Answered)
    (performed : d.run operations = .ok (told, last)) {deed : Deed} (done : deed ∈ d.history operations)
    {request : AllocationId × JobId} (ended : deed.ended? = some request) :
    ∃ flight outcome, deed = .land flight ∧ flight.finish.2 = .answer outcome := by
  induction operations generalizing d told with
  | nil => cases done
  | cons operation rest ih =>
    obtain ⟨now, later⟩ := List.forall_mem_cons.1 answered
    simp only [run, Checked.bind_eq_ok_iff, Checked.pure_eq_ok_iff, Prod.mk.injEq] at performed
    obtain ⟨⟨_, between⟩, first, ⟨others, _⟩, continued, rfl, rfl⟩ := performed
    rw [history, first] at done
    rcases List.mem_append.1 done with here | there
    · have undropped : operation ≠ .dropTasks := fun drops => by
        rw [drops] at now
        exact now
      obtain ⟨-, flight, begun, rfl, -⟩ := landed_of_ended here ended undropped
      obtain ⟨before, there, rfl⟩ := List.mem_map.1 begun
      obtain ⟨outcome, finish⟩ := (before.begin d.now).exists_answer (awaited before there)
      exact ⟨_, outcome, rfl, finish⟩
    · exact ih (awaited.perform now first) later continued there

end Dispatcher

namespace Performed

variable {α β : Type}

theorem bind_eq_ok_iff {x : Performed α} {f : α → Performed β} {b : β} :
    x >>= f = .ok b ↔ ∃ a, x = .ok a ∧ f a = .ok b := by
  cases x <;> simp [bind, Except.bind]

theorem pure_eq_ok_iff {a b : α} : (pure a : Performed α) = .ok b ↔ a = b := by
  simp [pure, Except.pure]

theorem ofChecked_eq_ok_iff {x : Checked α} {a : α} : ofChecked x = .ok a ↔ x = .ok a := by
  cases x <;> simp [ofChecked]

end Performed

namespace Replay

variable {schedule : Schedule} {replay next last : Replay} {step : Step} {steps : List Step}

/-! ## Calls -/

/-- The call of the slot manager that a step makes. -/
def call? (schedule : Schedule) (replay : Replay) : Step → Option Dispatcher.Operation
  | .addWorker worker total defaultSlot => some (.register worker total defaultSlot)
  | .removeWorker worker => some (.removeWorker worker)
  | .allocate _ worker job profile reaction delay =>
    let allocation := schedule.id replay.minted
    some (.allocate allocation worker job "replay" profile (exchange schedule allocation delay reaction))
  | .free label => (replay.labels.get? label).map .free
  | .report worker slots =>
    match statusesOf schedule worker replay slots with
    | .ok (statuses, _) => some (.report worker ⟨statuses⟩)
    | .error _ => none
  | .freeInactive _ => none
  | .wait milliseconds =>
    if milliseconds = 0 && !schedule.yields replay.waits then none
    else some (.wait milliseconds (schedule.ahead replay.waits))

/-- The calls of the slot manager in a number of steps. -/
def calls (schedule : Schedule) (replay : Replay) : List Step → List Dispatcher.Operation
  | [] => []
  | step :: rest =>
    match replay.perform schedule step with
    | .ok next => (replay.call? schedule step).toList ++ next.calls schedule rest
    | .error _ => []

/-- The deeds from a state to the end of a replay: those of the steps that are left, and the ends of the requests that
    are awaited then. -/
def history (schedule : Schedule) (replay : Replay) (steps : List Step) : List Deed :=
  replay.dispatcher.history (replay.calls schedule steps ++ [.drain])

/-! ## Labels in reports -/

/-- Labels may be given and ids minted, and the rest is the same. -/
structure Names (replay next : Replay) : Prop where
  dispatcher : next.dispatcher = replay.dispatcher
  callers : next.callers = replay.callers
  results : next.results = replay.results
  grows : replay.minted ≤ next.minted

theorem names_statusOf {worker : WorkerId} {slot : ReportedSlot} {status : SlotStatus}
    (resolved : statusOf schedule worker replay slot = .ok (status, next)) : Names replay next := by
  rw [statusOf] at resolved
  split at resolved
  · obtain ⟨-, rfl⟩ := Prod.mk.inj (Except.ok.inj resolved)
    exact ⟨rfl, rfl, rfl, Nat.le_refl _⟩
  · split at resolved
    · obtain ⟨-, rfl⟩ := Prod.mk.inj (Except.ok.inj resolved)
      exact ⟨rfl, rfl, rfl, Nat.le_refl _⟩
    · obtain ⟨-, rfl⟩ := Prod.mk.inj (Except.ok.inj resolved)
      exact ⟨rfl, rfl, rfl, Nat.le_succ _⟩
  · cases resolved

theorem names_statusesOf {worker : WorkerId} {slots : List ReportedSlot} {statuses : List SlotStatus}
    (resolved : statusesOf schedule worker replay slots = .ok (statuses, next)) : Names replay next := by
  induction slots generalizing replay statuses with
  | nil =>
    obtain ⟨-, rfl⟩ := Prod.mk.inj (Except.ok.inj resolved)
    exact ⟨rfl, rfl, rfl, Nat.le_refl _⟩
  | cons slot rest ih =>
    simp only [statusesOf, Performed.bind_eq_ok_iff, Performed.pure_eq_ok_iff, Prod.mk.injEq] at resolved
    obtain ⟨⟨_, between⟩, now, ⟨_, _⟩, later, -, rfl⟩ := resolved
    have first := names_statusOf now
    have others := ih later
    exact ⟨others.dispatcher.trans first.dispatcher, others.callers.trans first.callers,
      others.results.trans first.results, Nat.le_trans first.grows others.grows⟩

/-! ## Steps -/

/-- Calls of the slot manager lead from one state of a replay to another and tell callers something. Ids for new
    allocations are minted on the way, and every request that is sent comes to an outcome. -/
structure Leads (schedule : Schedule) (replay : Replay) (calls : List Dispatcher.Operation)
    (told : List Resolution) (next : Replay) : Prop where
  run : replay.dispatcher.run calls = .ok (told, next.dispatcher)
  grows : replay.minted ≤ next.minted
  minted : (calls.filterMap Dispatcher.Operation.minted?).Sublist
    ((List.range' replay.minted (next.minted - replay.minted)).map schedule.id)
  answered : ∀ call ∈ calls, call.Answered

namespace Leads

variable {calls others : List Dispatcher.Operation} {told more : List Resolution}

theorem nil (same : next.dispatcher = replay.dispatcher) (grows : replay.minted ≤ next.minted) :
    Leads schedule replay [] [] next :=
  ⟨by rw [same]; rfl, grows, List.nil_sublist _, nofun⟩

theorem trans (leads : Leads schedule replay calls told next) (onward : Leads schedule next others more last) :
    Leads schedule replay (calls ++ others) (told ++ more) last := by
  refine ⟨Dispatcher.run_append leads.run onward.run, Nat.le_trans leads.grows onward.grows, ?_, ?_⟩
  · rw [List.filterMap_append, ← Session.map_range'_append schedule.id leads.grows onward.grows]
    exact leads.minted.append onward.minted
  · exact List.forall_mem_append.2 ⟨leads.answered, onward.answered⟩

/-- A call that sends no request mints no id. -/
theorem of_call {call : Dispatcher.Operation} (unminted : call.minted? = none) (answered : call.Answered)
    (performed : replay.dispatcher.perform call = .ok (told, next.dispatcher)) (grows : replay.minted ≤ next.minted) :
    Leads schedule replay [call] told next := by
  refine ⟨Dispatcher.run_singleton performed, grows, ?_, by simpa using answered⟩
  rw [List.filterMap_cons_none unminted]
  exact List.nil_sublist _

end Leads

/-- What a replay remembers of the requests after a step and what their callers are told. -/
inductive Remembers (schedule : Schedule) (replay : Replay) : Step → List Resolution → Replay → Prop
  /-- The outcomes are written down. -/
  | noted {step : Step} {told : List Resolution} {next : Replay} (silent : step.label? = none)
      (callers : next.callers = replay.callers) (results : next.results = (replay.note told).results) :
      Remembers schedule replay step told next
  | refused {label : String} {worker : WorkerId} {job : JobId} {profile : Profile} {reaction : Reaction} {delay : Nat}
      {failure : Failure}
      (refused : replay.dispatcher.cluster.reserve worker job (schedule.id replay.minted) profile =
        .ok (.error failure)) :
      Remembers schedule replay (.allocate label worker job profile reaction delay) [] { replay with
        dispatcher := replay.dispatcher.idling (schedule.id replay.minted) job
        results := replay.results.insert label ("refused: " ++ failure.text)
        minted := replay.minted + 1 }
  | accepted {label : String} {worker : WorkerId} {job : JobId} {profile : Profile} {reaction : Reaction}
      {delay : Nat} {request : SlotRequest} {sent : Dispatcher}
      (accepted : replay.dispatcher.allocate (schedule.id replay.minted) worker job "replay" profile
        (exchange schedule (schedule.id replay.minted) delay reaction) = .ok (.ok request, sent)) :
      Remembers schedule replay (.allocate label worker job profile reaction delay) [] { replay with
        dispatcher := sent
        labels := replay.labels.insert label (schedule.id replay.minted)
        callers := replay.callers.insert (schedule.id replay.minted) label
        minted := replay.minted + 1 }

theorem reply_autonomous (allocation : AllocationId) (delay : Nat) (reaction : Reaction) :
    (reply allocation delay reaction).Autonomous := by
  cases reaction with
  | acknowledge => exact ⟨_, some delay, rfl⟩
  | reject => exact ⟨_, some delay, rfl⟩
  | hang => exact ⟨.success, none, rfl⟩

/-- A request goes out under the next id. -/
private theorem leads_of_sent {worker : WorkerId} {job : JobId} {profile : Profile} {reaction : Reaction} {delay : Nat}
    {told : List Resolution}
    (performed : replay.dispatcher.perform (.allocate (schedule.id replay.minted) worker job "replay" profile
      (exchange schedule (schedule.id replay.minted) delay reaction)) = .ok (told, next.dispatcher))
    (counted : next.minted = replay.minted + 1) :
    Leads schedule replay [.allocate (schedule.id replay.minted) worker job "replay" profile
      (exchange schedule (schedule.id replay.minted) delay reaction)] told next := by
  refine ⟨Dispatcher.run_singleton performed, by omega, ?_, ?_⟩
  · rw [counted, Nat.add_sub_cancel_left]
    exact .refl _
  · exact List.forall_mem_singleton.2 (reply_autonomous (schedule.id replay.minted) delay reaction)

/-- A step leads to the next state by its call. -/
theorem leads_perform (performed : replay.perform schedule step = .ok next) :
    ∃ told, Leads schedule replay (replay.call? schedule step).toList told next ∧
      Remembers schedule replay step told next := by
  cases step with
  | addWorker worker total defaultSlot =>
    rw [perform] at performed
    split at performed
    · next dispatcher registered =>
      obtain rfl := Except.ok.inj performed
      refine ⟨[], .of_call rfl trivial ?_ (Nat.le_refl _), .noted rfl rfl rfl⟩
      rw [Dispatcher.perform, registered]
    · cases performed
  | removeWorker worker =>
    simp only [perform, Performed.bind_eq_ok_iff, Performed.ofChecked_eq_ok_iff, Performed.pure_eq_ok_iff] at performed
    obtain ⟨_, removed, rfl⟩ := performed
    exact ⟨[], .of_call rfl trivial (Checked.map_eq_ok_iff.2 ⟨_, removed, rfl⟩) (Nat.le_refl _), .noted rfl rfl rfl⟩
  | allocate label worker job profile reaction delay =>
    simp only [perform, Performed.bind_eq_ok_iff, Performed.ofChecked_eq_ok_iff] at performed
    obtain ⟨⟨failure | request, sent⟩, decided, same⟩ := performed
    · obtain rfl := Performed.pure_eq_ok_iff.1 same
      cases Dispatcher.allocates_of_allocate decided with | refused refused =>
      refine ⟨[], leads_of_sent ?_ rfl, .refused refused⟩
      rw [Dispatcher.perform, decided]
      rfl
    · obtain rfl := Performed.pure_eq_ok_iff.1 same
      refine ⟨[], leads_of_sent ?_ rfl, .accepted decided⟩
      rw [Dispatcher.perform, decided]
      rfl
  | free label =>
    rw [perform] at performed
    rw [call?]
    cases known : replay.labels.get? label with
    | none =>
      rw [known] at performed
      cases performed
    | some allocation =>
      simp only [known, Performed.bind_eq_ok_iff, Performed.ofChecked_eq_ok_iff, Performed.pure_eq_ok_iff] at performed
      obtain ⟨_, freed, rfl⟩ := performed
      exact ⟨[], .of_call rfl trivial (Checked.map_eq_ok_iff.2 ⟨_, freed, rfl⟩) (Nat.le_refl _), .noted rfl rfl rfl⟩
  | report worker slots =>
    simp only [perform, Performed.bind_eq_ok_iff, Performed.ofChecked_eq_ok_iff, Performed.pure_eq_ok_iff] at performed
    obtain ⟨⟨statuses, named⟩, resolved, _, reported, rfl⟩ := performed
    have names := names_statusesOf resolved
    rw [names.dispatcher] at reported
    rw [call?, resolved]
    exact ⟨[], .of_call rfl trivial (Checked.map_eq_ok_iff.2 ⟨_, reported, rfl⟩) names.grows,
      .noted rfl names.callers names.results⟩
  | freeInactive job =>
    obtain rfl := Except.ok.inj performed
    exact ⟨[], .nil rfl (Nat.le_refl _), .noted rfl rfl rfl⟩
  | wait milliseconds =>
    rw [perform] at performed
    rw [call?]
    split at performed
    · next none_passes =>
      obtain rfl := Except.ok.inj performed
      rw [if_pos none_passes]
      exact ⟨[], .nil rfl (Nat.le_refl _), .noted rfl rfl rfl⟩
    · next passes =>
      simp only [Performed.bind_eq_ok_iff, Performed.ofChecked_eq_ok_iff, Performed.pure_eq_ok_iff] at performed
      obtain ⟨⟨told, dispatcher⟩, advanced, rfl⟩ := performed
      rw [if_neg passes]
      exact ⟨told, .of_call rfl trivial advanced (Nat.le_refl _), .noted rfl rfl rfl⟩

/-! ## Entries -/

/-- The entry of a label after callers are told something, if its request has the given id. -/
def heard (caller? : Option AllocationId) (entry : Option String) (told : List Resolution) : Option String :=
  (told.filter fun resolution => caller? = some resolution.allocation).foldl
    (fun _ resolution => some (outcomeText resolution.outcome)) entry

theorem heard_append (caller? : Option AllocationId) (entry : Option String) (told others : List Resolution) :
    heard caller? entry (told ++ others) = heard caller? (heard caller? entry told) others := by
  rw [heard, heard, heard, List.filter_append, List.foldl_append]

theorem heard_none (entry : Option String) (told : List Resolution) : heard none entry told = entry := by
  simp [heard]

/-- The caller of the allocation goes by the label, and no other caller does. -/
def Attends (replay : Replay) (label : String) (caller? : Option AllocationId) : Prop :=
  ∀ allocation, replay.callers.get? allocation = some label ↔ caller? = some allocation

variable {label : String} {caller? : Option AllocationId}

theorem Attends.get?_note (attends : replay.Attends label caller?) (told : List Resolution) :
    (replay.note told).results.get? label = heard caller? (replay.results.get? label) told := by
  show (told.foldl _ replay.results).get? label = _
  generalize replay.results = results
  induction told generalizing results with
  | nil => rfl
  | cons resolution rest ih =>
    rw [List.foldl_cons, ih, ← List.singleton_append, heard_append]
    congr 1
    have calls := attends resolution.allocation
    split
    · next other called =>
      rw [called] at calls
      by_cases same : label = other
      · subst same
        simp [heard, calls.1 rfl]
      · have apart : caller? ≠ some resolution.allocation := fun its => same (Option.some.inj (calls.2 its)).symm
        simp [heard, SortedMap.get?_insert, same, apart]
    · next called =>
      rw [called] at calls
      have apart : caller? ≠ some resolution.allocation := by
        intro its
        cases calls.2 its
      simp [heard, apart]

/-- A step that sends no request under the label writes down for it only what its caller is told. -/
theorem Attends.remembers (attends : replay.Attends label caller?) {told : List Resolution}
    (remembers : Remembers schedule replay step told next) (other : step.label? ≠ some label)
    (fresh : replay.minted < next.minted → caller? ≠ some (schedule.id replay.minted)) :
    next.Attends label caller? ∧ next.results.get? label = heard caller? (replay.results.get? label) told := by
  cases remembers with
  | noted _ callers results =>
    refine ⟨fun allocation => callers ▸ attends allocation, ?_⟩
    rw [results]
    exact attends.get?_note told
  | refused =>
    refine ⟨attends, ?_⟩
    have apart : label ≠ _ := fun same => other (congrArg some same.symm)
    rw [SortedMap.get?_insert, if_neg apart]
    rfl
  | accepted =>
    refine ⟨fun allocation => ?_, rfl⟩
    rw [SortedMap.get?_insert]
    split
    · next same =>
      subst same
      exact ⟨fun same => absurd same other, fun its => absurd its (fresh (Nat.lt_succ_self _))⟩
    · exact attends allocation

/-! ## Runs -/

theorem performChecked_eq_ok_iff : replay.performChecked schedule step = .ok next ↔
    replay.perform schedule step = .ok next ∧ next.dispatcher.cluster.audit = .ok () := by
  simp only [performChecked, Performed.bind_eq_ok_iff, Performed.ofChecked_eq_ok_iff, Performed.pure_eq_ok_iff]
  constructor
  · rintro ⟨_, performed, _, audited, rfl⟩
    exact ⟨performed, audited⟩
  · rintro ⟨performed, audited⟩
    exact ⟨next, performed, (), audited, rfl⟩

theorem performAll_cons_eq_ok_iff {index : Nat} : performAll schedule index replay (step :: steps) = .ok last ↔
    ∃ next, replay.performChecked schedule step = .ok next ∧ performAll schedule (index + 1) next steps = .ok last := by
  rw [performAll]
  cases replay.performChecked schedule step with
  | ok next => simp
  | error halt => cases halt <;> simp

/-- The first steps are performed first, and then the others from there. -/
theorem performAll_append_eq_ok_iff {index : Nat} {before after : List Step} :
    performAll schedule index replay (before ++ after) = .ok last ↔ ∃ next,
      performAll schedule index replay before = .ok next ∧
        performAll schedule (index + before.length) next after = .ok last := by
  induction before generalizing replay index with
  | nil => simp [performAll]
  | cons step rest ih =>
    simp only [List.cons_append, performAll_cons_eq_ok_iff, ih, List.length_cons, Nat.add_comm 1, Nat.add_assoc]
    constructor
    · rintro ⟨between, first, next, later, onward⟩
      exact ⟨next, ⟨between, first, later⟩, onward⟩
    · rintro ⟨next, ⟨between, first, later⟩, onward⟩
      exact ⟨between, first, next, later, onward⟩

/-- Steps lead to their last state by their calls. Where none of them sends a request under a label, its entry is what
    it was before, or what its caller is told. -/
theorem leads_performAll {index : Nat} (performed : performAll schedule index replay steps = .ok last) :
    ∃ told, Leads schedule replay (replay.calls schedule steps) told last ∧
      ∀ label caller?, replay.Attends label caller? → label ∉ steps.filterMap Step.label? →
        (∀ n, replay.minted ≤ n → n < last.minted → caller? ≠ some (schedule.id n)) →
        last.Attends label caller? ∧ last.results.get? label = heard caller? (replay.results.get? label) told := by
  induction steps generalizing replay index with
  | nil =>
    obtain rfl := Except.ok.inj performed
    exact ⟨[], .nil rfl (Nat.le_refl _), fun _ _ attends _ _ => ⟨attends, rfl⟩⟩
  | cons step rest ih =>
    obtain ⟨next, first, continued⟩ := performAll_cons_eq_ok_iff.1 performed
    have first := (performChecked_eq_ok_iff.1 first).1
    obtain ⟨told, leads, remembers⟩ := leads_perform first
    obtain ⟨others, onward, keeps⟩ := ih continued
    rw [calls, first]
    refine ⟨told ++ others, leads.trans onward, fun label caller? attends unsent fresh => ?_⟩
    have other : step.label? ≠ some label := fun same => unsent (List.mem_filterMap.2 ⟨step, .head _, same⟩)
    have unsent' : label ∉ rest.filterMap Step.label? := fun later =>
      unsent (((List.sublist_cons_self step rest).filterMap _).subset later)
    obtain ⟨attends', now⟩ := attends.remembers remembers other fun minted =>
      fresh _ (Nat.le_refl _) (Nat.lt_of_lt_of_le minted onward.grows)
    obtain ⟨attends'', later⟩ := keeps label caller? attends' unsent' fun n from_here =>
      fresh n (Nat.le_trans leads.grows from_here)
    exact ⟨attends'', by rw [later, now, heard_append]⟩

end Replay

end SlotControl
