import Mathlib.Data.List.Perm.Basic
import SlotControl.Proofs.Provenance
import SlotControl.Proofs.Robustness

/-!
Workers whose total is the wildcard. What they have available is never used up; the one thing that can fail for them
is the sum of their slots in the check, which is formed in the order in which the slots are visited and in which a
wildcard absorbs whatever came before it. Main statement: `wildcard_never_exhausted`.
-/

namespace SlotControl

/-! ## Sums in any order -/

namespace Profile

variable {profiles : List Profile}

theorem Addable.exists_sum? (small : Addable profiles) : ∃ sum, sum? profiles = some sum :=
  exists_foldlM fun d => by simpa [ResourceVector.parts, ResourceVector.get] using small d

/-- Vectors of which a sum was formed came to no more than 64 bits. -/
private theorem lt_of_foldlM (tame : .any ∉ profiles) {first : ResourceVector} {sum : Profile}
    (folded : profiles.foldlM add? (.sized first) = some sum) (d : Nat) :
    first.parts d + partsOf profiles d < Numeral.bound64 := by
  induction profiles generalizing first with
  | nil => exact first.parts_lt d
  | cons p rest ih =>
    cases p with
    | any => simp at tame
    | sized v =>
      rw [List.foldlM_cons] at folded
      obtain ⟨next, added, folded⟩ := Option.bind_eq_some_iff.1 folded
      obtain ⟨next, grown, rfl⟩ := Option.map_eq_some_iff.1 added
      have := ih (fun wild => tame (List.mem_cons_of_mem _ wild)) folded
      rw [((ResourceVector.add?_eq_some_iff ..).1 grown).2] at this
      rwa [partsOf_cons, parts, ← Nat.add_assoc]

/-- Without a wildcard the order is no help: the sum exists exactly if the vectors come to no more than 64 bits. -/
theorem exists_sum?_iff (tame : .any ∉ profiles) : (∃ sum, sum? profiles = some sum) ↔ Addable profiles := by
  refine ⟨fun ⟨sum, folded⟩ d => ?_, Addable.exists_sum?⟩
  have := lt_of_foldlM tame folded d
  omega

theorem partsOf_filter_sized (d : Nat) : partsOf (profiles.filter (· ≠ .any)) d = partsOf profiles d := by
  induction profiles with
  | nil => rfl
  | cons p rest ih =>
    cases p with
    | any => simpa [partsOf_cons, parts] using ih
    | sized v => simpa [partsOf_cons] using ih

/-- A sum exists in every order exactly if it does with the wildcards last, where they absorb nothing. -/
theorem addable_iff :
    Addable profiles ↔ ∀ order : List Profile, order.Perm profiles → ∃ sum, sum? order = some sum := by
  refine ⟨fun small order perm => (small.perm perm.symm).exists_sum?, fun summed d => ?_⟩
  obtain ⟨sum, folded⟩ := summed _ (List.filter_append_perm (· ≠ .any) profiles)
  rw [sum?, List.foldlM_append] at folded
  obtain ⟨vectors, folded, -⟩ := Option.bind_eq_some_iff.1 folded
  rw [← partsOf_filter_sized]
  exact (exists_sum?_iff (by simp)).1 ⟨vectors, folded⟩ d

/-- Whether there is a sum depends on the order exactly if there is a wildcard and the vectors come to too much. -/
theorem sum?_order_iff : (∀ left right : List Profile, left.Perm profiles → right.Perm profiles →
    ((sum? left).isSome ↔ (sum? right).isSome)) ↔ Addable profiles ∨ .any ∉ profiles := by
  simp only [Option.isSome_iff_exists]
  constructor
  · intro same
    by_cases wild : .any ∈ profiles
    · have first : sum? (.any :: profiles.erase .any) = some .any := foldlM_any _
      exact .inl (addable_iff.2 fun order perm =>
        (same _ order (List.perm_cons_erase wild).symm perm).1 ⟨_, first⟩)
    · exact .inr wild
  · rintro (small | tame) left right perm perm'
    · exact iff_of_true (small.perm perm.symm).exists_sum? (small.perm perm'.symm).exists_sum?
    · rw [exists_sum?_iff fun wild => tame (perm.mem_iff.1 wild),
        exists_sum?_iff fun wild => tame (perm'.mem_iff.1 wild)]
      exact ⟨Addable.perm (perm.trans perm'.symm), Addable.perm (perm'.trans perm.symm)⟩

end Profile

/-! ## The check in any order -/

namespace Worker

variable {Seed : Type} [Traversal Seed]
variable {worker : Worker}

/-- The check passes whatever the order in which it visits the slots. -/
def PassesInAnyOrder (worker : Worker) : Prop :=
  ∀ order : List Slot, order.Perm worker.slots.values → worker.auditIn order = .ok ()

/-- The outcome of the check is the same whatever the order in which it visits the slots. -/
def OrderIrrelevant (worker : Worker) : Prop :=
  ∀ left right : List Slot, left.Perm worker.slots.values → right.Perm worker.slots.values →
    worker.auditIn left = worker.auditIn right

/-- Any order of the profiles is that of some order of the slots. -/
theorem exists_order {profiles : List Profile} (perm : profiles.Perm worker.profiles) :
    ∃ order : List Slot, order.Perm worker.slots.values ∧ order.map (·.profile) = profiles := by
  have lift := congrFun₂ (List.eq_map_comp_perm fun slot : Slot => slot.profile) profiles worker.slots.values
  obtain ⟨order, rfl, reordered⟩ := lift.mpr perm
  exact ⟨order, reordered, rfl⟩

/-- The check of a wildcard fails at most for the sum of the slots. -/
theorem Accounted.auditIn_of_wildcard (accounted : worker.Accounted) (wild : worker.total = .any)
    (named : ∀ slot ∈ worker.slots.values, slot.worker = worker.id) {order : List Slot}
    (perm : order.Perm worker.slots.values) : worker.auditIn order =
      if (Profile.sum? (order.map (·.profile))).isSome then .ok () else .error .additionOverflow := by
  have whole : worker.available = .any := (wild ▸ accounted.accounts).left_eq_any
  have named : order.all (fun slot => slot.worker == worker.id) = true :=
    List.all_eq_true.2 fun slot listed => by simpa using named slot (perm.mem_iff.1 listed)
  rw [auditIn]
  cases Profile.sum? (order.map (·.profile)) with
  | none => rfl
  | some occupied =>
    have added : worker.available.add occupied = .ok worker.total :=
      (Profile.add_eq_ok_iff ..).2 (by rw [whole, wild, Profile.any_add?])
    simp [added, named, bind, Except.bind, pure, Except.pure]

/-- Only the sum of the slots decides the check. It passes in every order exactly if the slots come to no more than 64
    bits; if they come to more, then the outcome depends on the order exactly if one of them is a wildcard. -/
structure CheckedBySum (worker : Worker) : Prop where
  passes : worker.PassesInAnyOrder ↔ Profile.Addable worker.profiles
  irrelevant : worker.OrderIrrelevant ↔ Profile.Addable worker.profiles ∨ .any ∉ worker.profiles

theorem Accounted.checkedBySum (accounted : worker.Accounted) (wild : worker.total = .any)
    (named : ∀ slot ∈ worker.slots.values, slot.worker = worker.id) : worker.CheckedBySum := by
  have outcome : ∀ {order : List Slot}, order.Perm worker.slots.values → worker.auditIn order = _ :=
    accounted.auditIn_of_wildcard wild named
  refine ⟨?_, ?_⟩
  · rw [Profile.addable_iff]
    constructor
    · intro passes profiles perm
      obtain ⟨order, reordered, rfl⟩ := exists_order perm
      have passed := passes order reordered
      rw [outcome reordered] at passed
      split at passed
      · next summed => exact Option.isSome_iff_exists.1 summed
      · cases passed
    · intro summed order perm
      rw [outcome perm, if_pos (Option.isSome_iff_exists.2 (summed _ (perm.map _)))]
  · rw [← Profile.sum?_order_iff]
    constructor
    · intro same left right perm perm'
      obtain ⟨left, reordered, rfl⟩ := exists_order perm
      obtain ⟨right, reordered', rfl⟩ := exists_order perm'
      have equal := same left right reordered reordered'
      rw [outcome reordered, outcome reordered'] at equal
      split at equal <;> split at equal <;> simp_all
    · intro same left right perm perm'
      rw [outcome perm, outcome perm']
      simp only [same _ _ (perm.map _) (perm'.map _)]

end Worker

/-! ## A wildcard during a run -/

namespace Cluster

section

variable {Seed : Type} [Traversal Seed]
variable {cluster next : Cluster} {id : WorkerId} {total : Profile}

/-- A worker that is not removed stays registered with its total. -/
theorem Sound.total?_perform (sound : cluster.Sound) (offered : cluster.inventory.total? id = some total)
    {event : Event} {answer : Answer} (stays : event ≠ .removeWorker id)
    (performed : cluster.perform event = .ok (answer, next)) : next.inventory.total? id = some total := by
  rw [sound.total?_eq_registers performed, offered]
  cases event with
  | register worker total' defaultSlot =>
    rw [Event.registers]
    split <;> rfl
  | removeWorker worker =>
    have apart : worker ≠ id := fun same => stays (congrArg Event.removeWorker same)
    exact if_neg apart
  | reserve | conclude | free | report => rfl

theorem Sound.total?_run (sound : cluster.Sound) (offered : cluster.inventory.total? id = some total)
    {events : List Event}
    (trimmed : ∀ worker total defaultSlot, .register worker total defaultSlot ∈ events → total.Trimmed)
    (stays : .removeWorker id ∉ events) (performed : cluster.run events = .ok next) :
    next.inventory.total? id = some total := by
  induction events generalizing cluster with
  | nil => exact Except.ok.inj performed ▸ offered
  | cons event rest ih =>
    obtain ⟨answer, between, first, continued⟩ := (run_cons_eq_ok_iff event rest).1 performed
    have sound' : between.Sound := sound.perform (by rintro _ _ _ rfl; exact trimmed _ _ _ (.head _)) first
    have offered' := sound.total?_perform offered (by rintro rfl; exact stays (.head _)) first
    exact ih sound' offered' (fun _ _ _ later => trimmed _ _ _ (.tail _ later)) (fun later => stays (.tail _ later))
      continued

/-- What is left of a wildcard worker at any time: the wildcard. No reservation is refused for it, every further slot
    is taken, and its check fails for nothing but the sum of the slots, before that slot and with it. -/
structure Lasts (cluster : Cluster) (id : WorkerId) (record : Worker) : Prop where
  registered : cluster.inventory.worker? id = some record
  available : record.available = .any
  grants : ∀ job allocation profile failure, cluster.reserve id job allocation profile ≠ .ok (.error failure)
  checked : record.CheckedBySum
  takes : ∀ slot : Slot, slot.worker = id → record.slot? slot.allocation = none → ∃ updated,
    record.record slot = .ok updated ∧ updated.profiles.Perm (slot.profile :: record.profiles) ∧ updated.CheckedBySum

theorem Sound.lasts (sound : cluster.Sound) {record : Worker} (registered : cluster.inventory.worker? id = some record)
    (wild : record.total = .any) : cluster.Lasts id record := by
  have indexed := sound.inventory.indexed
  have accounted := sound.inventory.accounted registered
  have whole : record.available = .any := (wild ▸ accounted.accounts).left_eq_any
  refine ⟨registered, whole, fun job allocation profile failure => ?_,
    accounted.checkedBySum wild (indexed.named registered), fun slot here absent => ?_⟩
  · exact not_refused_of_room ⟨record, registered, by rw [Worker.canFit, whole]; rfl⟩
  · subst here
    have leaves : record.Leaves slot .any := by
      rw [Worker.Leaves, absent, whole]
      rfl
    exact ⟨_, (Worker.record_eq_ok_iff ..).2 ⟨.any, leaves, rfl⟩, Worker.profiles_keep_new_perm .any absent,
      (accounted.keep leaves).checkedBySum wild (indexed.named_keep registered .any)⟩

/-- A worker whose total is the wildcard is never exhausted, whatever operations follow except its removal: what is
    available stays the wildcard, no reservation is refused, and only the sum of its slots can fail its check. While
    the operations are regular, so that its slots come to no more than 64 bits, that does not fail either: every
    operation succeeds, and at every point the check of the whole state passes and that of the worker does in whatever
    order it visits the slots. -/
theorem wildcard_never_exhausted {history events : List Event}
    (trimmed : ∀ worker total defaultSlot, .register worker total defaultSlot ∈ history ++ events → total.Trimmed)
    (reached : empty.run history = .ok cluster) (wild : cluster.inventory.total? id = some .any)
    (stays : .removeWorker id ∉ events) :
    (∀ next, cluster.run events = .ok next → ∃ record, next.Lasts id record) ∧
    (cluster.inventory.Addable → cluster.inventory.slotCount < Numeral.bound32 → cluster.RegularRun events →
      ∀ before, before <+: events → ∃ next record, cluster.run before = .ok next ∧ next.audit = .ok () ∧
        next.Lasts id record ∧ record.PassesInAnyOrder) := by
  have sound : cluster.Sound :=
    sound_empty.run (fun _ _ _ inside => trimmed _ _ _ (List.mem_append_left _ inside)) reached
  have lasts : ∀ {before next}, before <+: events → cluster.run before = .ok next → next.Sound →
      ∃ record, next.Lasts id record := by
    intro before next initial performed sound'
    have offered := sound.total?_run wild
      (fun _ _ _ inside => trimmed _ _ _ (List.mem_append_right _ (initial.subset inside)))
      (fun removed => stays (initial.subset removed)) performed
    obtain ⟨record, registered, total⟩ := Option.map_eq_some_iff.1 offered
    exact ⟨record, sound'.lasts registered total⟩
  refine ⟨fun next performed => ?_, fun addable few regular before initial => ?_⟩
  · exact lasts List.prefix_rfl performed
      (sound.run (fun _ _ _ inside => trimmed _ _ _ (List.mem_append_right _ inside)) performed)
  · have healthy : cluster.Healthy := ⟨sound, addable, sound.inventory.indexed.slotCount_eq ▸ few⟩
    obtain ⟨next, performed, healthy'⟩ := healthy.run regular initial
    obtain ⟨record, lasts⟩ := lasts initial performed healthy'.sound
    exact ⟨next, record, performed, healthy'.audit, lasts,
      lasts.checked.passes.2 (healthy'.addable lasts.registered)⟩

end

/-- Half of what 64 bits can hold. -/
private def half : Profile := .ofAmounts [⟨9223372036854775808, by decide⟩]

/-- The two halves are not taken at the same time. -/
private def alternatingEvents : List Event :=
  [.reserve ⟨1⟩ ⟨7⟩ ⟨0⟩ half, .reserve ⟨1⟩ ⟨8⟩ ⟨1⟩ .any, .free ⟨0⟩, .reserve ⟨1⟩ ⟨7⟩ ⟨2⟩ half]

theorem wildcard_never_exhausted_alternating : ∃ cluster, empty.run [.register ⟨1⟩ .any .any] = .ok cluster ∧
    ∃ next record, cluster.run alternatingEvents = .ok next ∧ next.audit = .ok () ∧ next.Lasts ⟨1⟩ record ∧
      record.PassesInAnyOrder := by
  have trimmed : ∀ total ∈ ([Event.register ⟨1⟩ .any .any] ++ alternatingEvents).filterMap Event.total?,
      total.Trimmed := by decide
  have addable : (Inventory.mk _ _).Addable :=
    healthy_empty.addable.addWorker (rfl : Inventory.empty.addWorker ⟨1⟩ .any .any = .ok ⟨_, _⟩)
  obtain ⟨-, lasts⟩ := wildcard_never_exhausted (Event.trimmed_of_totals trimmed) rfl
    (rfl : Inventory.total? _ ⟨1⟩ = some .any) (by simp [alternatingEvents])
  refine ⟨_, rfl, lasts addable (by decide) ?_ _ List.prefix_rfl⟩
  refine ⟨⟨fun demand asked _ => ?_, rfl⟩, fun answer next performed => ?_⟩
  · obtain rfl := List.mem_singleton.1 asked
    exact ⟨by decide, fun _ => (by decide : Profile.Addable [half])⟩
  obtain ⟨-, rfl⟩ := Prod.mk.inj (Except.ok.inj performed)
  refine ⟨⟨fun demand asked _ => ?_, rfl⟩, fun answer next performed => ?_⟩
  · obtain rfl := List.mem_singleton.1 asked
    exact ⟨by decide, fun _ => (by decide : Profile.Addable [.any, half])⟩
  obtain ⟨-, rfl⟩ := Prod.mk.inj (Except.ok.inj performed)
  refine ⟨⟨nofun, trivial⟩, fun answer next performed => ?_⟩
  obtain ⟨-, rfl⟩ := Prod.mk.inj (Except.ok.inj performed)
  refine ⟨⟨fun demand asked _ => ?_, rfl⟩, fun _ _ _ => trivial⟩
  obtain rfl := List.mem_singleton.1 asked
  exact ⟨by decide, fun _ => (by decide : Profile.Addable [half, .any])⟩

/-- Two halves of what 64 bits can hold are too much for the sum in the check, although the wildcard takes both of
    them. A wildcard slot that is visited before them hides this, and one that is visited after them does not. -/
theorem wildcard_exhausted_by_sum :
    (∃ cluster, empty.run [.register ⟨1⟩ .any .any, .reserve ⟨1⟩ ⟨7⟩ ⟨0⟩ half] = .ok cluster ∧
      cluster.inventory.total? ⟨1⟩ = some .any ∧
      cluster.reserve ⟨1⟩ ⟨7⟩ ⟨1⟩ half = .error .additionOverflow) ∧
    ∃ cluster record, empty.run [.register ⟨1⟩ .any .any, .reserve ⟨1⟩ ⟨8⟩ ⟨0⟩ .any, .reserve ⟨1⟩ ⟨7⟩ ⟨1⟩ half,
        .reserve ⟨1⟩ ⟨7⟩ ⟨2⟩ half] = .ok cluster ∧
      cluster.inventory.worker? ⟨1⟩ = some record ∧ record.audit = .ok () ∧
      record.auditIn record.slots.values.reverse = .error .additionOverflow :=
  ⟨⟨_, rfl, rfl, rfl⟩, _, _, rfl, rfl, rfl, rfl⟩

end Cluster

end SlotControl
