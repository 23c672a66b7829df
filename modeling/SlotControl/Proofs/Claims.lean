import SlotControl.Proofs.Provenance
import SlotControl.Proofs.Robustness

/-!
Sums that fit. The slots of a state are among what the operations before it have claimed, so that an operation or a
check fails at most because the claims are too many or too large altogether. Main statement: `Charged.run`.
-/

namespace SlotControl

variable {Seed : Type} [Traversal Seed]

/-- The profiles are so few and so small that neither their number nor their sum is too large. -/
structure Profile.Bearable (profiles : List Profile) : Prop where
  few : profiles.length < Numeral.bound32
  small : Addable profiles

theorem Profile.Bearable.of_sublist {left right : List Profile} (bearable : Bearable right)
    (fewer : left.Sublist right) : Bearable left :=
  ⟨Nat.lt_of_le_of_lt fewer.length_le bearable.few,
    fun d => Nat.lt_of_le_of_lt (Profile.partsOf_le_of_sublist fewer d) (bearable.small d)⟩

namespace Checked

variable {α β : Type} {x : Checked α} {profiles more : List Profile}

/-- Nothing fails but for a sum or a count that is too large, and only if the profiles together are too much. -/
def FailsBeyond (profiles : List Profile) (x : Checked α) : Prop :=
  ∀ defect, x = .error defect → defect = .additionOverflow ∧ ¬Profile.Bearable profiles

theorem FailsBeyond.of_ok {a : α} (succeeds : x = .ok a) : FailsBeyond profiles x := by
  intro defect failed
  rw [succeeds] at failed
  cases failed

theorem FailsBeyond.of_overflows (only : OnlyOverflows x) (succeeds : Profile.Bearable profiles → ∃ a, x = .ok a) :
    FailsBeyond profiles x := by
  intro defect failed
  refine ⟨only defect failed, fun bearable => ?_⟩
  obtain ⟨a, succeeded⟩ := succeeds bearable
  rw [succeeded] at failed
  cases failed

theorem FailsBeyond.mono (fails : FailsBeyond profiles x) (fewer : profiles.Sublist more) : FailsBeyond more x :=
  fun defect failed => ⟨(fails defect failed).1, fun bearable => (fails defect failed).2 (bearable.of_sublist fewer)⟩

theorem FailsBeyond.bind {f : α → Checked β} (first : FailsBeyond profiles x)
    (onward : ∀ a, x = .ok a → FailsBeyond profiles (f a)) : FailsBeyond profiles (x >>= f) := by
  intro defect failed
  cases result : x with
  | error earlier =>
    rw [result] at failed
    exact Except.error.inj failed ▸ first earlier result
  | ok a =>
    rw [result] at failed
    exact onward a result defect failed

end Checked

open Checked (OnlyOverflows FailsBeyond)

/-! ## The check of a state in order -/

theorem Inventory.Sound.audit_overflows {inventory : Inventory} (sound : inventory.Sound) :
    OnlyOverflows inventory.audit := by
  have indexed := sound.indexed
  refine OnlyOverflows.bind (OnlyOverflows.forM fun worker listed => ?_) fun _ _ => ?_
  · obtain ⟨id, registered⟩ := (SortedMap.mem_values ..).1 listed
    have checks := (sound.accounted registered).audit_overflows (indexed.named registered)
    refine checks.bind fun _ _ => .of_ok (a := ()) ?_
    have owned : worker.slots.values.all
        (fun slot => inventory.owners.get? slot.allocation == some worker.id) = true := by
      simpa using indexed.owner_of_mem registered
    rw [if_pos owned]
    rfl
  · have counted : inventory.slots.length = inventory.owners.size := indexed.slotCount_eq.symm
    rw [if_pos counted]
    exact .of_ok rfl

namespace Cluster

variable {cluster next : Cluster} {claims more : List (AllocationId × Profile)}

theorem Sound.audit_overflows (sound : cluster.Sound) : OnlyOverflows cluster.audit := by
  have indexed := sound.inventory.indexed
  have keyed : cluster.Keyed := ⟨indexed.id_eq, fun registered held => (indexed.housed registered held).1⟩
  rcases sound.inventory.audit_overflows.cases with ⟨_, passed⟩ | overflows
  · obtain ⟨capacity, owned⟩ := (Inventory.Keyed.audit_eq_ok_iff keyed).1 passed
    exact Consistent.audit_overflows ⟨capacity, owned, sound.balanced.count_eq⟩ keyed
  · refine .of_overflow ?_
    rw [Cluster.audit, overflows]
    rfl

/-! ## Claims -/

/-- Every slot is among the claims with its allocation and profile, and no two slots share one of them. -/
def Charged (cluster : Cluster) (claims : List (AllocationId × Profile)) : Prop :=
  (cluster.inventory.slots.map fun slot => (slot.allocation, slot.profile)).Subperm claims

theorem charged_empty : empty.Charged [] := List.Subperm.refl []

theorem Charged.mem (charged : cluster.Charged claims) (indexed : cluster.inventory.Indexed)
    {allocation : AllocationId} {slot : Slot} (found : cluster.slot? allocation = some slot) :
    (allocation, slot.profile) ∈ claims := by
  have named := indexed.allocation_eq found
  refine charged.subset (List.mem_map.2 ⟨slot, indexed.mem_slots.2 ?_, by rw [named]⟩)
  rw [named]
  exact found

/-- What is claimed on the way is added to the claims. -/
theorem Charged.stems (charged : cluster.Charged claims) (indexed : cluster.inventory.Indexed)
    (indexed' : next.inventory.Indexed) (stems : cluster.Stems more next) : next.Charged (claims ++ more) := by
  have distinct : (next.inventory.slots.map fun slot => (slot.allocation, slot.profile)).Nodup := by
    refine List.Nodup.of_map Prod.fst ?_
    rw [List.map_map]
    exact indexed'.nodup_allocations
  have among : (next.inventory.slots.map fun slot => (slot.allocation, slot.profile)) ⊆
      (cluster.inventory.slots.map fun slot => (slot.allocation, slot.profile)) ++ more := by
    intro claim listed
    obtain ⟨slot, inside, rfl⟩ := List.mem_map.1 listed
    rcases stems slot.allocation slot (indexed'.mem_slots.1 inside) with ⟨old, held, same⟩ | claimed
    · have named := indexed.allocation_eq held
      refine List.mem_append_left _ (List.mem_map.2 ⟨old, indexed.mem_slots.2 ?_, by rw [named, same]⟩)
      rw [named]
      exact held
    · exact List.mem_append_right _ claimed
  exact (distinct.subperm among).trans ((List.subperm_append_right more).2 charged)

theorem Charged.length_le (charged : cluster.Charged claims) : cluster.inventory.slots.length ≤ claims.length := by
  have fewer := List.Subperm.length_le charged
  rwa [List.length_map] at fewer

theorem Charged.load_le (charged : cluster.Charged claims) (id : WorkerId) (d : Nat) :
    cluster.inventory.load id d ≤ Profile.partsOf (claims.map Prod.snd) d := by
  obtain ⟨between, perm, sublist⟩ := charged
  have profiles : (between.map Prod.snd).Perm (cluster.inventory.slots.map (·.profile)) := by
    have listed := perm.map Prod.snd
    rwa [List.map_map] at listed
  calc cluster.inventory.load id d
      ≤ Profile.partsOf (cluster.inventory.slots.map (·.profile)) d :=
        Profile.partsOf_le_of_sublist (List.filter_sublist.map _) d
    _ = Profile.partsOf (between.map Prod.snd) d := (Profile.partsOf_perm profiles d).symm
    _ ≤ Profile.partsOf (claims.map Prod.snd) d := Profile.partsOf_le_of_sublist (sublist.map _) d

theorem Charged.healthy (charged : cluster.Charged claims) (sound : cluster.Sound)
    (bearable : Profile.Bearable (claims.map Prod.snd)) : cluster.Healthy := by
  refine ⟨sound, sound.inventory.indexed.addable_iff.2 fun id d => ?_, ?_⟩
  · exact Nat.lt_of_le_of_lt (charged.load_le id d) (bearable.small d)
  · have few := bearable.few
    rw [List.length_map] at few
    exact Nat.lt_of_le_of_lt charged.length_le few

/-- A slot that is claimed next leaves the numbers in bounds. -/
theorem Charged.bears (charged : cluster.Charged claims) (sound : cluster.Sound) (slot : Slot)
    (bearable : Profile.Bearable (claims.map Prod.snd ++ [slot.profile])) : cluster.Bears slot := by
  refine ⟨?_, fun _ d => ?_⟩
  · have few := bearable.few
    have counted := charged.length_le
    rw [List.length_append, List.length_map, List.length_singleton] at few
    rw [sound.inventory.indexed.slotCount_eq]
    omega
  · have small := bearable.small d
    have load := charged.load_le slot.worker d
    rw [Profile.partsOf_append, Profile.partsOf_cons, Profile.partsOf] at small
    omega

private theorem Charged.bears_demands (charged : cluster.Charged claims) (sound : cluster.Sound) {worker : WorkerId}
    {entries : List (SlotStatus × SlotAssignment)}
    (bearable : Profile.Bearable (claims.map Prod.snd ++ entries.map (·.1.profile))) :
    ∀ demand ∈ cluster.demands worker entries, demand.1.Bears demand.2 := by
  induction entries generalizing cluster claims with
  | nil => exact nofun
  | cons entry rest ih =>
    intro demand asked
    have first : cluster.Bears (proposed worker entry) := by
      refine charged.bears sound _ (bearable.of_sublist (List.Sublist.append_left ?_ _))
      exact (List.nil_sublist _).cons_cons _
    have later : ∀ applied next, cluster.adopt worker entry.1 entry.2 = .ok (applied, next) →
        demand ∈ next.demands worker rest → demand.1.Bears demand.2 := by
      intro applied next adopted
      have sound' := sound.adopt adopted
      have stems := stems_of_adopt sound.inventory.indexed ((adopt_eq_ok_iff ..).1 adopted)
      refine ih (charged.stems sound.inventory.indexed sound'.inventory.indexed stems) sound' ?_ demand
      simpa using bearable
    rw [demands] at asked
    cases adopted : cluster.adopt worker entry.1 entry.2 with
    | error defect =>
      rw [adopted] at asked
      split at asked
      · rw [List.mem_singleton.1 asked]
        exact first
      · cases asked
    | ok result =>
      rw [adopted] at asked
      split at asked
      · rcases List.mem_cons.1 asked with rfl | onward
        · exact first
        · exact later _ _ adopted onward
      · exact later _ _ adopted asked

/-! ## Operations -/

/-- A total has no zeros at its end, and an allocation is reserved only if it has no slot. -/
def Proper (cluster : Cluster) : Event → Prop
  | .register _ total _ => total.Trimmed
  | .reserve _ _ allocation _ => cluster.slot? allocation = none
  | _ => True

/-- Every operation of a run is proper when its turn comes. -/
def ProperRun : Cluster → List Event → Prop
  | _, [] => True
  | cluster, event :: rest =>
    cluster.Proper event ∧ ∀ answer next, cluster.perform event = .ok (answer, next) → next.ProperRun rest

theorem properRun_singleton {event : Event} (proper : cluster.Proper event) : cluster.ProperRun [event] :=
  ⟨proper, fun _ _ _ => trivial⟩

/-- Operations that are proper in every state are a proper run. -/
theorem properRun_of_forall {events : List Event}
    (proper : ∀ event ∈ events, ∀ cluster : Cluster, cluster.Proper event) : cluster.ProperRun events := by
  induction events generalizing cluster with
  | nil => exact trivial
  | cons event rest ih =>
    obtain ⟨now, later⟩ := List.forall_mem_cons.1 proper
    exact ⟨now cluster, fun _ _ _ => ih later⟩

theorem Charged.regular (charged : cluster.Charged claims) (sound : cluster.Sound) {event : Event}
    (proper : cluster.Proper event) (bearable : Profile.Bearable ((claims ++ event.claims).map Prod.snd)) :
    cluster.Regular event := by
  rw [List.map_append] at bearable
  refine ⟨fun demand asked _ => ?_, by cases event <;> exact proper⟩
  cases event with
  | register | removeWorker | conclude | free => cases asked
  | reserve worker job allocation profile =>
    rw [List.mem_singleton.1 asked]
    exact charged.bears sound _ bearable
  | report worker content =>
    rw [Event.demands] at asked
    cases registered : cluster.inventory.worker? worker with
    | none =>
      rw [registered] at asked
      cases asked
    | some record =>
      simp only [registered] at asked
      cases freed : cluster.freeAll (released record content) with
      | error defect =>
        rw [freed] at asked
        cases asked
      | ok kept =>
        rw [freed] at asked
        have sound' := sound.freeAll freed
        have stems : cluster.Stems [] kept := stems_of_kept fun allocation slot found => by
          rw [(slot?_freeAll sound.inventory.indexed freed).2] at found
          split at found
          · cases found
          · exact found
        have charged' := charged.stems sound.inventory.indexed sound'.inventory.indexed stems
        rw [List.append_nil] at charged'
        refine charged'.bears_demands sound' ?_ demand asked
        simpa [Event.claims, Function.comp_def] using bearable

theorem Charged.perform (charged : cluster.Charged claims) (sound : cluster.Sound) {event : Event}
    (proper : cluster.Proper event) :
    FailsBeyond ((claims ++ event.claims).map Prod.snd) (cluster.perform event) ∧
      ∀ answer next, cluster.perform event = .ok (answer, next) →
        next.Sound ∧ next.Charged (claims ++ event.claims) := by
  constructor
  · refine .of_overflows (sound.perform_overflows ?_) ?_
    · rintro worker job allocation profile rfl _
      exact proper
    · intro bearable
      have earlier : (claims.map Prod.snd).Sublist ((claims ++ event.claims).map Prod.snd) :=
        (List.sublist_append_left ..).map _
      have healthy := charged.healthy sound (bearable.of_sublist earlier)
      obtain ⟨answer, next, performed, -⟩ := healthy.perform (charged.regular sound proper bearable)
      exact ⟨_, performed⟩
  · intro answer next performed
    have sound' : next.Sound := by
      refine sound.perform ?_ performed
      rintro worker total defaultSlot rfl
      exact proper
    exact ⟨sound', charged.stems sound.inventory.indexed sound'.inventory.indexed
      (stems_of_perform sound.inventory.indexed performed)⟩

/-- A proper run from a state in order fails only if what was claimed before and what it claims is too much, and leads
    to a state in order whose slots are among these claims. -/
theorem Charged.run (charged : cluster.Charged claims) (sound : cluster.Sound) {events : List Event}
    (proper : cluster.ProperRun events) :
    FailsBeyond ((claims ++ events.flatMap Event.claims).map Prod.snd) (cluster.run events) ∧
      ∀ next, cluster.run events = .ok next →
        next.Sound ∧ next.Charged (claims ++ events.flatMap Event.claims) := by
  induction events generalizing cluster claims with
  | nil =>
    refine ⟨.of_ok rfl, fun next performed => ?_⟩
    rw [List.flatMap_nil, List.append_nil, ← Except.ok.inj performed]
    exact ⟨sound, charged⟩
  | cons event rest ih =>
    obtain ⟨now, onward⟩ := proper
    obtain ⟨fails, leads⟩ := charged.perform sound now
    rw [List.flatMap_cons, ← List.append_assoc]
    constructor
    · rw [Cluster.run, List.foldlM_cons, bind_assoc]
      refine (fails.mono ((List.sublist_append_left ..).map _)).bind ?_
      rintro ⟨answer, between⟩ performed
      obtain ⟨sound', charged'⟩ := leads answer between performed
      exact (ih charged' sound' (onward answer between performed)).1
    · intro next performed
      obtain ⟨answer, between, first, continued⟩ := (run_cons_eq_ok_iff event rest).1 performed
      obtain ⟨sound', charged'⟩ := leads answer between first
      exact (ih charged' sound' (onward answer between first)).2 next continued

/-- A proper run changes the total of a worker as its operations do. -/
theorem Sound.total?_of_run (sound : cluster.Sound) {events : List Event} (proper : cluster.ProperRun events)
    (performed : cluster.run events = .ok next) (id : WorkerId) :
    next.inventory.total? id =
      events.foldl (fun total event => event.registers id total) (cluster.inventory.total? id) := by
  induction events generalizing cluster with
  | nil => rw [← Except.ok.inj performed, List.foldl_nil]
  | cons event rest ih =>
    obtain ⟨now, onward⟩ := proper
    obtain ⟨answer, between, first, continued⟩ := (run_cons_eq_ok_iff event rest).1 performed
    have sound' : between.Sound := by
      refine sound.perform ?_ first
      rintro worker total defaultSlot rfl
      exact now
    rw [ih sound' (onward answer between first) continued, List.foldl_cons, sound.total?_eq_registers first]

/-- The check of a state in order fails only if its slots are too many or too large. -/
theorem Charged.audit (charged : cluster.Charged claims) (sound : cluster.Sound) :
    FailsBeyond (claims.map Prod.snd) cluster.audit :=
  .of_overflows sound.audit_overflows fun bearable => ⟨(), (charged.healthy sound bearable).audit⟩

end Cluster

end SlotControl
