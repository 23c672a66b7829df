import SlotControl.Proofs.Soundness

/-!
Outcomes of requests, frees and removals of workers converge: in whatever order they are performed, a
state in order ends in the same state. Each acts on every allocation and every worker separately, and
there the actions commute.
-/

namespace SlotControl

namespace Event

/-- A request has its outcome, a slot is freed or a worker is removed. -/
def Clears : Event → Prop
  | .conclude .. | .free .. | .removeWorker .. => True
  | .register .. | .reserve .. | .report .. => False

/-- The allocation whose request has its outcome. -/
def concluded? : Event → Option AllocationId
  | .conclude allocation _ _ => some allocation
  | _ => none

/-- What is left of the slot of an allocation. -/
def clear (allocation : AllocationId) (slot : Option Slot) : Event → Option Slot
  | .conclude other job outcome => if other = allocation then slot.bind (Cluster.settled job outcome) else slot
  | .free other => if other = allocation then none else slot
  | .removeWorker worker => slot.filter (·.worker ≠ worker)
  | _ => slot

/-- What is left of the terms of a worker. -/
def dismiss (id : WorkerId) (terms : Option (Profile × Profile)) : Event → Option (Profile × Profile)
  | .removeWorker worker => if worker = id then none else terms
  | _ => terms

private theorem worker_of_settled {job : JobId} {outcome : Outcome} {slot left : Slot}
    (settles : Cluster.settled job outcome slot = some left) : left.worker = slot.worker := by
  unfold Cluster.settled at settles
  split at settles
  · cases outcome with
    | success => rw [← Option.some.inj settles]; rfl
    | failure cause => cases settles
  · rw [← Option.some.inj settles]

private theorem filter_settled (worker : WorkerId) (job : JobId) (outcome : Outcome) (slot : Option Slot) :
    (slot.bind (Cluster.settled job outcome)).filter (·.worker ≠ worker) =
      (slot.filter (·.worker ≠ worker)).bind (Cluster.settled job outcome) := by
  cases slot with
  | none => rfl
  | some slot =>
    rw [Option.bind_some]
    cases settles : Cluster.settled job outcome slot with
    | none => by_cases here : slot.worker = worker <;> simp [Option.filter, here, settles]
    | some left =>
      have same := worker_of_settled settles
      by_cases here : slot.worker = worker <;> simp [Option.filter, same, here, settles]

/-- Two actions on one slot commute, unless both are outcomes for its allocation. -/
theorem clear_comm {first second : Event}
    (once : ∀ allocation, first.concluded? = some allocation → second.concluded? ≠ some allocation)
    (allocation : AllocationId) (slot : Option Slot) :
    second.clear allocation (first.clear allocation slot) =
      first.clear allocation (second.clear allocation slot) := by
  cases first with
  | register | reserve | report => rfl
  | free other =>
    cases second with
    | register | reserve | report => rfl
    | free | conclude => simp only [clear]; split <;> split <;> rfl
    | removeWorker worker => simp only [clear]; split <;> rfl
  | removeWorker worker =>
    cases second with
    | register | reserve | report => rfl
    | free other => simp only [clear]; split <;> rfl
    | conclude other job outcome =>
      simp only [clear]
      split
      · exact (filter_settled worker job outcome slot).symm
      · rfl
    | removeWorker worker' =>
      simp only [clear, Option.filter_filter]
      congr 1
      funext slot
      exact Bool.and_comm ..
  | conclude other job outcome =>
    cases second with
    | register | reserve | report => rfl
    | free => simp only [clear]; split <;> split <;> rfl
    | removeWorker worker =>
      simp only [clear]
      split
      · exact filter_settled worker job outcome slot
      · rfl
    | conclude other' job' outcome' =>
      have apart : ¬(other = allocation ∧ other' = allocation) := fun ⟨here, there⟩ =>
        once allocation (congrArg some here) (congrArg some there)
      by_cases here : other = allocation
      · have there : other' ≠ allocation := fun there => apart ⟨here, there⟩
        simp only [clear, if_pos here, if_neg there]
      · simp only [clear, if_neg here]

theorem dismiss_comm (first second : Event) (id : WorkerId) (terms : Option (Profile × Profile)) :
    second.dismiss id (first.dismiss id terms) = first.dismiss id (second.dismiss id terms) := by
  cases first <;> cases second <;> simp only [dismiss]
  split <;> split <;> rfl

/-- The order of the actions does not matter if each allocation has one outcome at most. -/
theorem foldl_clear_perm {events events' : List Event} (perm : events.Perm events')
    (once : (events.filterMap concluded?).Nodup) (allocation : AllocationId) (slot : Option Slot) :
    events.foldl (clear allocation) slot = events'.foldl (clear allocation) slot := by
  have commute : ∀ first ∈ events, ∀ second ∈ events, ∀ slot,
      second.clear allocation (first.clear allocation slot) =
        first.clear allocation (second.clear allocation slot) := by
    -- Two events of the list have outcomes for different allocations, or they are the same event.
    have pairs := List.pairwise_filterMap.1 once
    refine List.Pairwise.forall_of_forall_of_flip (fun _ _ _ => rfl) (pairs.imp ?_) (pairs.imp ?_)
    · intro first second apart slot
      exact clear_comm (fun a here there => apart a here a there rfl) allocation slot
    · intro first second apart slot
      exact (clear_comm (fun a here there => apart a here a there rfl) allocation slot).symm
  exact perm.foldl_eq' (fun first inside second inside' slot => commute first inside second inside' slot) slot

theorem foldl_dismiss_perm {events events' : List Event} (perm : events.Perm events') (id : WorkerId)
    (terms : Option (Profile × Profile)) : events.foldl (dismiss id) terms = events'.foldl (dismiss id) terms :=
  perm.foldl_eq' (fun first _ second _ terms => dismiss_comm first second id terms) terms

end Event

namespace Cluster

section

variable {Seed : Type} [Traversal Seed]
variable {cluster next : Cluster}

/-- In a state in order an outcome, a free or a removal of a worker succeeds, and acts on every slot and on
    the terms of every worker. -/
theorem Sound.clears (sound : cluster.Sound) (addable : cluster.inventory.Addable) {event : Event}
    (clears : event.Clears) : ∃ answer next, cluster.perform event = .ok (answer, next) ∧ next.Sound ∧
      next.inventory.Addable ∧
      (∀ allocation, next.slot? allocation = event.clear allocation (cluster.slot? allocation)) ∧
      ∀ id, (next.inventory.worker? id).map Worker.terms =
        event.dismiss id ((cluster.inventory.worker? id).map Worker.terms) := by
  have indexed := sound.inventory.indexed
  have keeps : ∀ {answer : Answer} {next : Cluster}, cluster.perform event = .ok (answer, next) → next.Sound := by
    intro answer next performed
    refine sound.perform ?_ performed
    rintro worker total defaultSlot rfl
    exact clears.elim
  cases event with
  | register | reserve | report => exact clears.elim
  | free allocation =>
    obtain ⟨result, next, freed, addable'⟩ := sound.exists_free addable allocation
    have performed : cluster.perform (.free allocation) = .ok (.freed result, next) := by
      rw [Cluster.perform, freed]
      rfl
    obtain ⟨-, slots⟩ := slot?_free indexed freed
    refine ⟨_, next, performed, keeps performed, addable', fun other => ?_,
      sound.inventory.terms_leads (leads_free freed)⟩
    rw [slots, Event.clear]
    exact if_congr eq_comm rfl rfl
  | conclude allocation job outcome =>
    obtain ⟨told, next, concluded, addable'⟩ := sound.exists_conclude addable allocation job outcome
    have performed : cluster.perform (.conclude allocation job outcome) = .ok (.outcome told, next) := by
      rw [Cluster.perform, concluded]
      rfl
    obtain ⟨-, slots⟩ := slot?_conclude indexed concluded
    refine ⟨_, next, performed, keeps performed, addable', fun other => ?_,
      sound.inventory.terms_leads (leads_conclude concluded)⟩
    rw [slots, Event.clear]
    exact if_congr eq_comm rfl rfl
  | removeWorker worker =>
    obtain ⟨slots, next, removed, addable'⟩ := sound.exists_removeWorker addable worker
    have performed : cluster.perform (.removeWorker worker) = .ok (.removed slots, next) := by
      rw [Cluster.perform, removed]
      rfl
    refine ⟨_, next, performed, keeps performed, addable', (slot?_removeWorker indexed removed).2,
      fun id => ?_⟩
    rw [((removeWorker_eq_ok_iff ..).1 removed).2.1, (indexed.removeWorker worker).2.1, Event.dismiss]
    by_cases same : id = worker
    · simp [same]
    · simp [same, Ne.symm same]

theorem Sound.clearsAll (sound : cluster.Sound) (addable : cluster.inventory.Addable) {events : List Event}
    (clears : ∀ event ∈ events, event.Clears) : ∃ next, cluster.run events = .ok next ∧ next.Sound ∧
      (∀ allocation, next.slot? allocation = events.foldl (Event.clear allocation) (cluster.slot? allocation)) ∧
      ∀ id, (next.inventory.worker? id).map Worker.terms =
        events.foldl (Event.dismiss id) ((cluster.inventory.worker? id).map Worker.terms) := by
  induction events generalizing cluster with
  | nil => exact ⟨cluster, rfl, sound, fun _ => rfl, fun _ => rfl⟩
  | cons event rest ih =>
    obtain ⟨answer, between, performed, sound', addable', slots, terms⟩ :=
      sound.clears addable (clears event (.head _))
    obtain ⟨last, continued, sound'', slots', terms'⟩ := ih sound' addable' fun later inside =>
      clears later (.tail _ inside)
    refine ⟨last, (run_cons_eq_ok_iff ..).2 ⟨answer, between, performed, continued⟩, sound'', ?_, ?_⟩
    · intro allocation
      rw [slots', slots, List.foldl_cons]
    · intro id
      rw [terms', terms, List.foldl_cons]

/-- Outcomes of requests, frees and removals of workers may come in any order: from a state that a run has
    reached, with at most one outcome for each allocation, all orders succeed and end in the same state. -/
theorem run_perm {history events events' : List Event} (reached : empty.run history = .ok cluster)
    (trimmed : ∀ worker total defaultSlot, .register worker total defaultSlot ∈ history → total.Trimmed)
    (addable : cluster.inventory.Addable) (clears : ∀ event ∈ events, event.Clears)
    (once : (events.filterMap Event.concluded?).Nodup) (perm : events.Perm events') :
    ∃ next, cluster.run events = .ok next ∧ cluster.run events' = .ok next := by
  have sound := sound_empty.run trimmed reached
  obtain ⟨next, performed, sound', slots, terms⟩ := sound.clearsAll addable clears
  obtain ⟨next', performed', sound'', slots', terms'⟩ := sound.clearsAll addable fun event inside =>
    clears event (perm.mem_iff.2 inside)
  -- Both ends are in order, and slots and terms determine such a state.
  have same : next = next' := by
    refine sound'.ext sound'' (fun allocation => ?_) fun id => ?_
    · rw [slots, slots', Event.foldl_clear_perm perm once]
    · rw [terms, terms', Event.foldl_dismiss_perm perm]
  exact ⟨next, performed, same ▸ performed'⟩

end

/-- A confirmed slot is freed and its worker removed; or the worker is removed, and the answer comes last. -/
theorem run_perm_reversed : ∃ cluster next,
    empty.run [.register ⟨1⟩ (.ofUnits 4 0) .any, .reserve ⟨1⟩ ⟨7⟩ ⟨0⟩ (.ofUnits 2 0)] = .ok cluster ∧
    cluster.run [.conclude ⟨0⟩ ⟨7⟩ .success, .free ⟨0⟩, .removeWorker ⟨1⟩] = .ok next ∧
    cluster.run [.removeWorker ⟨1⟩, .free ⟨0⟩, .conclude ⟨0⟩ ⟨7⟩ .success] = .ok next := by
  obtain ⟨cluster, reached⟩ := Checked.isOk_iff.1 (show (empty.run [.register ⟨1⟩ (.ofUnits 4 0) .any,
    .reserve ⟨1⟩ ⟨7⟩ ⟨0⟩ (.ofUnits 2 0)]).isOk = true from rfl)
  have addable : cluster.inventory.Addable := by
    have profiles : (empty.run [.register ⟨1⟩ (.ofUnits 4 0) .any, .reserve ⟨1⟩ ⟨7⟩ ⟨0⟩ (.ofUnits 2 0)]).map
        (fun cluster => cluster.inventory.workers.values.map Worker.profiles) = .ok [[.ofUnits 2 0]] := rfl
    rw [reached] at profiles
    have profiles : cluster.inventory.workers.values.map Worker.profiles = [[.ofUnits 2 0]] := Except.ok.inj profiles
    intro id worker registered d
    have listed : worker.profiles ∈ cluster.inventory.workers.values.map Worker.profiles :=
      List.mem_map_of_mem ((SortedMap.mem_values ..).2 ⟨id, registered⟩)
    rw [profiles, List.mem_singleton] at listed
    rw [listed]
    exact ResourceVector.parts_lt _ d
  have perm : [Event.conclude ⟨0⟩ ⟨7⟩ .success, .free ⟨0⟩, .removeWorker ⟨1⟩].Perm
      [.removeWorker ⟨1⟩, .free ⟨0⟩, .conclude ⟨0⟩ ⟨7⟩ .success] := (List.reverse_perm _).symm
  obtain ⟨next, forth, back⟩ := run_perm reached (Event.trimmed_of_totals (by decide)) addable (by simp [Event.Clears])
    (by decide) perm
  exact ⟨cluster, next, reached, forth, back⟩

end Cluster

end SlotControl
