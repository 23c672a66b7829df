import Mathlib.Algebra.GroupWithZero.Nat
import SlotControl.Session
import SlotControl.Proofs.Course

/-!
What a session asks of the slot manager. An operation of a session is one call under the ids that its labels
stand for, and a caller that waits no longer makes none. Main statements: `leads_run` says that the calls of a
run lead the slot manager to its state, and that requests are accepted under ids that are minted on the way;
`requests_of_reserved` finds the request of every reservation among the operations.
-/

namespace SlotControl.Session

variable {Seed : Type} [Traversal Seed]

/-- One operation of a session. -/
inductive Operation where
  | register (worker : WorkerId) (total defaultSlot : Profile)
  | removeWorker (worker : WorkerId)
  | allocate (label : Label) (worker : WorkerId) (job : JobId) (address : String) (profile : Profile)
      (expected : Duration) (meddling : Meddling) (reply : Reply)
  | free (label : Label)
  | report (worker : WorkerId) (statuses : List LabelledStatus)
  | complete (label : Label) (outcome : Outcome)
  | advance (milliseconds : Nat)
  | dropTasks
  | abandon (label : Label)

/-- Performs an operation. -/
def perform (s : Session) : Operation → Checked Session
  | .register worker total defaultSlot =>
    match s.register worker total defaultSlot with
    | .ok next => .ok next
    | .error _ => .ok s
  | .removeWorker worker => (s.removeWorker worker).map (·.2)
  | .allocate label worker job address profile expected meddling reply =>
    (s.request label worker job address profile expected meddling reply).map (·.2)
  | .free label => s.free label
  | .report worker statuses => (s.report worker statuses).map (·.2)
  | .complete label outcome => .ok (s.complete label outcome).2
  | .advance milliseconds => (s.advance milliseconds).map (·.2)
  | .dropTasks => .ok s.dropTasks.2
  | .abandon label => .ok (s.abandon label).2

/-- Performs operations one after the other. -/
def run (s : Session) (operations : List Operation) : Checked Session := operations.foldlM perform s

/-- The call of the slot manager that an operation makes. -/
def call? (s : Session) : Operation → Option Dispatcher.Operation
  | .register worker total defaultSlot => some (.register worker total defaultSlot)
  | .removeWorker worker => some (.removeWorker worker)
  | .allocate label worker job address profile expected meddling reply =>
    let allocation := (s.mint label).1
    some (.allocate allocation worker job address profile
      ⟨expected, meddling.interruptions allocation worker, reply, s.chance.rank allocation⟩)
  | .free label => some (.free (s.resolve label).1)
  | .report worker statuses => some (.report worker ⟨(s.resolveStatuses statuses).1⟩)
  | .complete label outcome => some (.answer (s.resolve label).1 outcome)
  | .advance milliseconds => some (.advance milliseconds)
  | .dropTasks => some .dropTasks
  | .abandon _ => none

/-- The calls of the slot manager in a run. -/
def calls (s : Session) : List Operation → List Dispatcher.Operation
  | [] => []
  | operation :: rest =>
    match s.perform operation with
    | .ok next => (s.call? operation).toList ++ next.calls rest
    | .error _ => []

/-- The deeds of a run. -/
def history (s : Session) (operations : List Operation) : List Deed := s.dispatcher.history (s.calls operations)

variable {s next last : Session} {operation : Operation} {operations later : List Operation}

/-! ## Labels -/

/-- Labels may be given and ids minted, and the slot manager is the same. -/
structure Names (s next : Session) : Prop where
  dispatcher : next.dispatcher = s.dispatcher
  chance : next.chance = s.chance
  grows : s.minted ≤ next.minted

theorem names_resolve (s : Session) (label : Label) : Names s (s.resolve label).2 := by
  rw [resolve]
  split
  · exact ⟨rfl, rfl, Nat.le_refl _⟩
  · exact ⟨rfl, rfl, Nat.le_succ _⟩

theorem names_resolveStatuses (s : Session) (statuses : List LabelledStatus) :
    Names s (s.resolveStatuses statuses).2 := by
  induction statuses generalizing s with
  | nil => exact ⟨rfl, rfl, Nat.le_refl _⟩
  | cons status rest ih =>
    have first : Names s (s.resolveStatus status).2 := by
      rw [resolveStatus]
      split
      · exact ⟨rfl, rfl, Nat.le_refl _⟩
      · exact names_resolve s _
    have others := ih (s.resolveStatus status).2
    exact ⟨others.dispatcher.trans first.dispatcher, others.chance.trans first.chance,
      Nat.le_trans first.grows others.grows⟩

/-! ## Calls -/

/-- The ids that are minted while the count goes from one number to another. -/
def mintedIds (s : Session) (first last : Nat) : List AllocationId :=
  (List.range' first (last - first)).map s.chance.id

/-- No id has been minted twice. -/
def MintsApart (s : Session) : Prop := ((List.range s.minted).map s.chance.id).Nodup

instance (s : Session) : Decidable s.MintsApart := inferInstanceAs (Decidable (List.Nodup _))

/-- The ids of two stretches of numbers that meet are the ids of the whole stretch. -/
theorem map_range'_append (mint : Nat → AllocationId) {first between last : Nat} (le : first ≤ between)
    (le' : between ≤ last) : (List.range' first (between - first)).map mint ++
      (List.range' between (last - between)).map mint = (List.range' first (last - first)).map mint := by
  obtain ⟨m, rfl⟩ := Nat.exists_eq_add_of_le le
  obtain ⟨n, rfl⟩ := Nat.exists_eq_add_of_le le'
  rw [← List.map_append, Nat.add_sub_cancel_left, Nat.add_sub_cancel_left, List.range'_append_1, Nat.add_assoc,
    Nat.add_sub_cancel_left]

theorem mintedIds_append (s : Session) {first between last : Nat} (le : first ≤ between) (le' : between ≤ last) :
    s.mintedIds first between ++ s.mintedIds between last = s.mintedIds first last :=
  map_range'_append s.chance.id le le'

theorem mintedIds_succ (s : Session) (n : Nat) : s.mintedIds n (n + 1) = [s.chance.id n] := by
  rw [mintedIds, Nat.add_sub_cancel_left]
  rfl

theorem mintsApart_iff : s.MintsApart ↔ (s.mintedIds 0 s.minted).Nodup := by
  rw [MintsApart, mintedIds, Nat.sub_zero, List.range_eq_range']

/-- Calls of the slot manager lead from one session to another, and the requests that they make are accepted
    under ids that are minted on the way. -/
structure Leads (s : Session) (calls : List Dispatcher.Operation) (next : Session) : Prop where
  run : ∃ told, s.dispatcher.run calls = .ok (told, next.dispatcher)
  chance : next.chance = s.chance
  grows : s.minted ≤ next.minted
  launched : (((s.dispatcher.history calls).filterMap Deed.launched?).map Prod.fst).Sublist
    (s.mintedIds s.minted next.minted)

namespace Leads

variable {calls others : List Dispatcher.Operation}

theorem of_names (names : Names s next) : Leads s [] next :=
  ⟨⟨[], by rw [names.dispatcher]; rfl⟩, names.chance, names.grows, List.nil_sublist _⟩

theorem trans (leads : Leads s calls next) (onward : Leads next others last) : Leads s (calls ++ others) last := by
  obtain ⟨told, performed⟩ := leads.run
  obtain ⟨told', continued⟩ := onward.run
  have launched := onward.launched
  rw [mintedIds, leads.chance] at launched
  refine ⟨⟨told ++ told', Dispatcher.run_append performed continued⟩, onward.chance.trans leads.chance,
    Nat.le_trans leads.grows onward.grows, ?_⟩
  rw [Dispatcher.history_append others performed, List.filterMap_append, List.map_append,
    ← s.mintedIds_append leads.grows onward.grows]
  exact leads.launched.append launched

/-- A call that names no new allocation launches nothing. -/
theorem of_call {call : Dispatcher.Operation} {told : List Resolution} (unminted : call.minted? = none)
    (performed : s.dispatcher.perform call = .ok (told, next.dispatcher)) (chance : next.chance = s.chance)
    (grows : s.minted ≤ next.minted) : Leads s [call] next := by
  refine ⟨⟨told, Dispatcher.run_singleton performed⟩, chance, grows, ?_⟩
  have launched := Dispatcher.launched_sublist s.dispatcher [call]
  rw [List.filterMap_cons_none unminted] at launched
  rw [List.sublist_nil.1 launched]
  exact List.nil_sublist _

end Leads

section Allocate

variable {label : Label} {worker : WorkerId} {job : JobId} {address : String} {profile : Profile} {expected : Duration}
variable {meddling : Meddling} {reply : Reply}

/-- A request goes out under the next id, which is spent. -/
theorem request_eq_ok {answer : Except Failure SlotRequest}
    (requested : s.request label worker job address profile expected meddling reply = .ok (answer, next)) :
    s.dispatcher.allocate (s.chance.id s.minted) worker job address profile
        ⟨expected, meddling.interruptions (s.chance.id s.minted) worker, reply, s.chance.rank (s.chance.id s.minted)⟩ =
      .ok (answer, next.dispatcher) ∧ next.chance = s.chance ∧ next.minted = s.minted + 1 := by
  simp only [request, mint, Checked.bind_eq_ok_iff] at requested
  obtain ⟨⟨failure | sent, dispatcher⟩, decided, same⟩ := requested
  · obtain ⟨rfl, rfl⟩ := Prod.mk.inj (Checked.pure_eq_ok_iff.1 same)
    exact ⟨decided, rfl, rfl⟩
  · obtain ⟨rfl, rfl⟩ := Prod.mk.inj (Checked.pure_eq_ok_iff.1 same)
    exact ⟨decided, rfl, rfl⟩

private theorem leads_allocate
    (performed : s.perform (.allocate label worker job address profile expected meddling reply) = .ok next) :
    Leads s (s.call? (.allocate label worker job address profile expected meddling reply)).toList next := by
  obtain ⟨⟨answer, after⟩, requested, same⟩ := Checked.map_eq_ok_iff.1 performed
  obtain rfl : after = next := same
  obtain ⟨decided, chance, counted⟩ := request_eq_ok requested
  refine ⟨⟨[], Dispatcher.run_singleton ?_⟩, chance, by omega, ?_⟩
  · rw [Dispatcher.perform, mint, decided]
    rfl
  · rw [counted, mintedIds_succ]
    exact Dispatcher.launched_sublist ..

end Allocate

/-- An operation leads from session to session by its call. -/
theorem leads_perform (performed : s.perform operation = .ok next) : Leads s (s.call? operation).toList next := by
  cases operation with
  | register worker total defaultSlot =>
    rw [perform, register] at performed
    have call : s.dispatcher.perform (.register worker total defaultSlot) = .ok ([], next.dispatcher) ∧
        next.chance = s.chance ∧ next.minted = s.minted := by
      rw [Dispatcher.perform]
      cases registered : s.dispatcher.register worker total defaultSlot with
      | ok dispatcher =>
        rw [registered] at performed
        obtain rfl := Except.ok.inj performed
        exact ⟨rfl, rfl, rfl⟩
      | error failure =>
        rw [registered] at performed
        obtain rfl := Except.ok.inj performed
        exact ⟨rfl, rfl, rfl⟩
    exact .of_call rfl call.1 call.2.1 (Nat.le_of_eq call.2.2.symm)
  | removeWorker worker =>
    obtain ⟨⟨_, _⟩, removed, rfl⟩ := Checked.map_eq_ok_iff.1 performed
    simp only [removeWorker, Checked.bind_eq_ok_iff, Checked.pure_eq_ok_iff, Prod.mk.injEq] at removed
    obtain ⟨_, removed, -, rfl⟩ := removed
    exact .of_call rfl (Checked.map_eq_ok_iff.2 ⟨_, removed, rfl⟩) rfl (Nat.le_refl _)
  | allocate => exact leads_allocate performed
  | free label =>
    have names := names_resolve s label
    simp only [perform, free, Checked.bind_eq_ok_iff, Checked.pure_eq_ok_iff, names.dispatcher] at performed
    obtain ⟨_, freed, rfl⟩ := performed
    exact .of_call rfl (Checked.map_eq_ok_iff.2 ⟨_, freed, rfl⟩) names.chance names.grows
  | report worker statuses =>
    have names := names_resolveStatuses s statuses
    obtain ⟨⟨_, _⟩, reported, rfl⟩ := Checked.map_eq_ok_iff.1 performed
    simp only [report, Checked.bind_eq_ok_iff, Checked.pure_eq_ok_iff, Prod.mk.injEq, names.dispatcher] at reported
    obtain ⟨_, reported, -, rfl⟩ := reported
    exact .of_call rfl (Checked.map_eq_ok_iff.2 ⟨_, reported, rfl⟩) names.chance names.grows
  | complete label outcome =>
    have names := names_resolve s label
    obtain rfl := Except.ok.inj performed
    have answered : s.dispatcher.perform (.answer (s.resolve label).1 outcome) =
        .ok ([], (s.complete label outcome).2.dispatcher) := by
      rw [Dispatcher.perform, ← names.dispatcher]
      rfl
    exact .of_call rfl answered names.chance names.grows
  | advance milliseconds =>
    obtain ⟨⟨_, _⟩, advanced, rfl⟩ := Checked.map_eq_ok_iff.1 performed
    simp only [advance, Checked.bind_eq_ok_iff, Checked.pure_eq_ok_iff] at advanced
    obtain ⟨⟨told, dispatcher⟩, advanced, same⟩ := advanced
    obtain ⟨-, rfl⟩ := Prod.mk.inj same
    exact .of_call rfl advanced rfl (Nat.le_refl _)
  | dropTasks =>
    obtain rfl := Except.ok.inj performed
    exact .of_call rfl rfl rfl (Nat.le_refl _)
  | abandon label =>
    obtain rfl := Except.ok.inj performed
    exact .of_names ⟨rfl, rfl, Nat.le_refl _⟩

/-- The calls of a run lead to its session. -/
theorem leads_run (performed : s.run operations = .ok last) : Leads s (s.calls operations) last := by
  induction operations generalizing s with
  | nil =>
    obtain rfl := Except.ok.inj performed
    exact .of_names ⟨rfl, rfl, Nat.le_refl _⟩
  | cons operation rest ih =>
    rw [run, List.foldlM_cons, Checked.bind_eq_ok_iff] at performed
    obtain ⟨next, first, continued⟩ := performed
    rw [calls, first]
    exact (leads_perform first).trans (ih continued)

/-! ## Requests -/

/-- In a run, a slot was requested of the worker for the job, under the id and with the profile, and the request was
    accepted. -/
def Requests (s : Session) (operations : List Operation) (worker : WorkerId) (job : JobId)
    (allocation : AllocationId) (profile : Profile) : Prop :=
  ∃ before label address expected meddling reply after between request next,
    operations = before ++ .allocate label worker job address profile expected meddling reply :: after ∧
    s.run before = .ok between ∧
    between.request label worker job address profile expected meddling reply = .ok (.ok request, next) ∧
    request.allocation = allocation

section Reserved

variable {worker : WorkerId} {job : JobId} {allocation : AllocationId} {profile : Profile}

/-- A call that reserves a slot is an accepted request for it. -/
private theorem requests_of_call (performed : s.perform operation = .ok next)
    (reserved : .reserve worker job allocation profile ∈ s.dispatcher.history (s.call? operation).toList)
    (rest : List Operation) : s.Requests (operation :: rest) worker job allocation profile := by
  cases called : s.call? operation with
  | none =>
    rw [called] at reserved
    cases reserved
  | some call =>
    rw [called, Option.toList_some, Dispatcher.history] at reserved
    split at reserved
    · rw [Dispatcher.history, List.append_nil] at reserved
      obtain ⟨address, exchange, rfl, cluster, accepted⟩ := Dispatcher.allocate_of_reserved reserved
      cases operation with
      | allocate label worker job address profile expected meddling reply =>
        obtain ⟨rfl, rfl, rfl, rfl, rfl, rfl⟩ := Dispatcher.Operation.allocate.inj (Option.some.inj called)
        obtain ⟨⟨answer, after⟩, requested, -⟩ := Checked.map_eq_ok_iff.1 performed
        have allocates := Dispatcher.allocates_of_allocate (request_eq_ok requested).1
        generalize after.dispatcher = dispatcher at allocates
        cases allocates with
        | refused refused => cases accepted.symm.trans refused
        | sent => exact ⟨[], label, address, expected, meddling, reply, rest, s, _, _, rfl, rfl, requested, rfl⟩
      | _ => cases called
    · cases reserved

/-- Every reservation in a run is an accepted request. -/
theorem requests_of_reserved (performed : s.run operations = .ok last)
    (reserved : .reserve worker job allocation profile ∈ s.history operations) :
    s.Requests operations worker job allocation profile := by
  induction operations generalizing s with
  | nil => cases reserved
  | cons operation rest ih =>
    rw [run, List.foldlM_cons, Checked.bind_eq_ok_iff] at performed
    obtain ⟨next, first, continued⟩ := performed
    obtain ⟨told, called⟩ := (leads_perform first).run
    rw [history, calls, first, Dispatcher.history_append _ called] at reserved
    rcases List.mem_append.1 reserved with now | later
    · exact requests_of_call first now rest
    · obtain ⟨before, label, address, expected, meddling, reply, after, between, request, final, rfl, performed,
        accepted, its⟩ := ih continued later
      refine ⟨operation :: before, label, address, expected, meddling, reply, after, between, request, final, rfl, ?_,
        accepted, its⟩
      rw [run, List.foldlM_cons, first]
      exact performed

end Reserved

end SlotControl.Session
