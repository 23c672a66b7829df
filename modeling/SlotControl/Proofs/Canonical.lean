import SlotControl.Proofs.Algebra
import SlotControl.Proofs.Messages
import SlotControl.Proofs.Provenance

/-!
Which profiles are determined by the resources they stand for. The operations on profiles leave no zeros at the end of
a vector, and profiles without such zeros are equal if they hold the same; text is kept as it is, so that it must bring
none along. The counts of a job and the check of a worker rest on that. Main statement: `profiles_canonical`.
-/

namespace SlotControl

/-! ## Zeros at the end -/

namespace ResourceVector

/-- A zero stands at the end. -/
def Padded (v : ResourceVector) : Prop := v.amounts.getLast? = some .zero

private theorem getLast?_trim (amounts : List Amount) : (trim amounts).getLast? ≠ some .zero := by
  induction amounts with
  | nil => simp [trim]
  | cons a rest ih =>
    rw [trim]
    split
    · split
      · simp
      · next nonzero => exact fun zero => nonzero ((a.isZero_iff).2 (Option.some.inj zero))
    · next kept =>
      cases trimmed : trim rest with
      | nil => exact absurd trimmed kept
      | cons b more => rwa [List.getLast?_cons_cons, ← trimmed]

private theorem trim_of_getLast? {amounts : List Amount} (tidy : amounts.getLast? ≠ some .zero) :
    trim amounts = amounts := by
  induction amounts with
  | nil => rfl
  | cons a rest ih =>
    cases rest with
    | nil =>
      have nonzero : ¬a.isZero = true := fun zero => tidy (congrArg some ((a.isZero_iff).1 zero))
      simp [trim, nonzero]
    | cons b more =>
      rw [List.getLast?_cons_cons] at tidy
      rw [trim, ih tidy]

theorem trimmed_iff (v : ResourceVector) : v.Trimmed ↔ ¬v.Padded := by
  constructor
  · rintro ⟨amounts, rfl⟩
    exact getLast?_trim amounts
  · intro tidy
    exact ⟨v.amounts, congrArg mk (trim_of_getLast? tidy).symm⟩

end ResourceVector

namespace Profile

variable {p q : Profile}

/-- A zero stands at the end of the vector. -/
def Padded : Profile → Prop
  | .any => False
  | .sized v => v.Padded

theorem trimmed_iff (p : Profile) : p.Trimmed ↔ ¬p.Padded := by
  cases p with
  | any => exact iff_of_true trivial id
  | sized v => exact v.trimmed_iff

theorem trimmed_of_add? {sum : Profile} (added : p.add? q = some sum) : sum.Trimmed := by
  match p, q with
  | .any, q => exact Option.some.inj (any_add? q ▸ added) ▸ trivial
  | p, .any => exact Option.some.inj (add?_any p ▸ added) ▸ trivial
  | .sized v, .sized w =>
    obtain ⟨u, grown, rfl⟩ := sized_add?_eq_some_iff.1 added
    exact ((ResourceVector.add?_eq_some_iff ..).1 grown).1

/-- Where profiles come from: they are made of amounts, are sums or differences of others, or are read from text that
    brings no zero along at the end of a vector. -/
inductive Made : Profile → Prop
  | amounts (amounts : List Amount) : Made (.ofAmounts amounts)
  | resources (cpus memory : Amount) : Made (.ofResources cpus memory)
  | units (cpus memory : UInt32) : Made (.ofUnits cpus memory)
  | sum {p q sum : Profile} (added : p.add? q = some sum) : Made sum
  | difference {p q rest : Profile} (subtracted : p.sub? q = some rest) : Made rest
  | parsed {text : String} {p : Profile} (read : Wire.read? text = some p) (tidy : ¬p.Padded) : Made p

theorem made_iff_trimmed : p.Made ↔ p.Trimmed := by
  constructor
  · intro made
    cases made with
    | amounts | resources | units => exact ⟨_, rfl⟩
    | sum added => exact trimmed_of_add? added
    | difference subtracted => exact trimmed_of_sub? subtracted
    | parsed read tidy => exact (trimmed_iff p).2 tidy
  · intro trimmed
    cases p with
    | any => exact .sum (any_add? .any)
    | sized v =>
      obtain ⟨amounts, rfl⟩ := trimmed
      exact .amounts amounts

/-- Equal amounts make trimmed profiles equal. -/
theorem Trimmed.ext (left : p.Trimmed) (right : q.Trimmed) (same : ∀ d, p.get? d = q.get? d) : p = q := by
  match p, q with
  | .any, .any => rfl
  | .any, .sized _ => cases same 0
  | .sized _, .any => cases same 0
  | .sized v, .sized w =>
    exact congrArg sized (ResourceVector.Trimmed.ext left right fun d =>
      congrArg Amount.parts (Option.some.inj (same d)))

theorem Trimmed.isZero_iff (trimmed : p.Trimmed) : p.isZero = true ↔ ∀ d, p.get? d = some .zero := by
  constructor
  · intro none_stored d
    cases p with
    | any => cases none_stored
    | sized v =>
      obtain ⟨amounts⟩ := v
      obtain rfl : amounts = [] := List.isEmpty_iff.1 none_stored
      rfl
  · intro nothing
    have same : p = zero := trimmed.ext (q := zero) ⟨[], rfl⟩ nothing
    rw [same]
    rfl

end Profile

/-! ## The check of a worker -/

namespace Worker

variable {Seed : Type} [Traversal Seed]
variable {worker : Worker}

/-- The check compares the total with a sum, and a sum has no zeros at its end. -/
theorem trimmed_of_audit (checked : worker.audit = .ok ()) : worker.total.Trimmed := by
  obtain ⟨⟨occupied, -, made_up⟩, -⟩ := (audit_eq_ok_iff worker).1 checked
  exact Profile.trimmed_of_add? made_up

/-- A worker checks whatever fits: each further slot is taken, and the check passes before and after. -/
structure Checks (worker : Worker) : Prop where
  now : worker.audit = .ok ()
  later : ∀ slot : Slot, slot.worker = worker.id → worker.slot? slot.allocation = none →
    worker.canFit slot.profile = true → ∃ updated, worker.record slot = .ok updated ∧ updated.audit = .ok ()

/-- A total with a zero at its end is no sum, so that the check fails as soon as a slot is taken. -/
theorem check_fails_of_padded {total : Profile} (padded : total.Padded) (id : WorkerId) (defaultSlot : Profile)
    (slot : Slot) (fits : (register id total defaultSlot).canFit slot.profile = true) : ∃ updated,
      (register id total defaultSlot).record slot = .ok updated ∧ updated.audit ≠ .ok () := by
  obtain ⟨rest, taken⟩ := (Profile.exists_sub?_iff ..).2 fits
  refine ⟨_, (record_eq_ok_iff ..).2 ⟨rest, taken, rfl⟩, fun checked => ?_⟩
  exact (Profile.trimmed_iff total).1 (trimmed_of_audit checked) padded

end Worker

/-- A worker whose account is in order checks whatever fits, unless its total is the wildcard: there the slots may come
    to more than their sum can hold. -/
theorem Inventory.Indexed.checks {Seed : Type} [Traversal Seed] {inventory : Inventory} (indexed : inventory.Indexed)
    {id : WorkerId} {worker : Worker} (registered : inventory.worker? id = some worker) (accounted : worker.Accounted)
    (sized : worker.total ≠ .any) : worker.Checks := by
  refine ⟨accounted.audit (accounted.accounts.addable sized) (indexed.named registered),
    fun slot here absent fits => ?_⟩
  obtain ⟨rest, taken⟩ := (Profile.exists_sub?_iff ..).2 fits
  have leaves : worker.Leaves slot rest := by rwa [Worker.Leaves, absent]
  have accounted' := accounted.keep leaves
  have registered' : inventory.worker? slot.worker = some worker := by rwa [here, indexed.id_eq registered]
  exact ⟨_, (Worker.record_eq_ok_iff ..).2 ⟨rest, leaves, rfl⟩,
    accounted'.audit (accounted'.accounts.addable sized) (indexed.named_keep registered' rest)⟩

/-! ## Where the profiles of slots come from -/

/-- The profiles of the slots that an operation brings along. -/
def Event.profiles : Event → List Profile
  | .reserve _ _ _ profile => [profile]
  | .report _ content => content.slots.map (·.profile)
  | .register .. | .removeWorker .. | .conclude .. | .free .. => []

/-- An operation brings along what it claims. -/
theorem Event.mem_profiles {event : Event} {allocation : AllocationId} {profile : Profile}
    (claimed : (allocation, profile) ∈ event.claims) : profile ∈ event.profiles := by
  cases event with
  | register | removeWorker | conclude | free => cases claimed
  | reserve =>
    obtain ⟨-, rfl⟩ := Prod.mk.inj (List.mem_singleton.1 claimed)
    exact .head _
  | report worker content =>
    obtain ⟨entry, listed, same⟩ := List.mem_map.1 claimed
    obtain ⟨status, reported, assigned⟩ := List.mem_filterMap.1 listed
    obtain ⟨assignment, -, rfl⟩ := Option.map_eq_some_iff.1 assigned
    obtain ⟨-, rfl⟩ := Prod.mk.inj same
    exact List.mem_map_of_mem reported

namespace Cluster

section

variable {Seed : Type} [Traversal Seed]
variable {cluster next : Cluster} {profile : Profile}

/-- Some slot has the profile. -/
def Carries (cluster : Cluster) (profile : Profile) : Prop :=
  ∃ allocation slot, cluster.slot? allocation = some slot ∧ slot.profile = profile

/-- A slot has a profile that the operation brought along or that a slot had before. -/
theorem Carries.of_perform (indexed : cluster.inventory.Indexed) {event : Event} {answer : Answer}
    (performed : cluster.perform event = .ok (answer, next)) (carries : next.Carries profile) :
    profile ∈ event.profiles ∨ cluster.Carries profile := by
  obtain ⟨allocation, slot, found, rfl⟩ := carries
  rcases stems_of_perform indexed performed allocation slot found with ⟨old, held, same⟩ | claimed
  · exact .inr ⟨allocation, old, held, same⟩
  · exact .inl (Event.mem_profiles claimed)

theorem Balanced.carries_of_run (balanced : cluster.Balanced) {events : List Event}
    (performed : cluster.run events = .ok next) (carries : next.Carries profile) :
    (∃ event ∈ events, profile ∈ event.profiles) ∨ cluster.Carries profile := by
  induction events generalizing cluster with
  | nil => exact .inr (Except.ok.inj performed ▸ carries)
  | cons event rest ih =>
    obtain ⟨answer, between, first, continued⟩ := (run_cons_eq_ok_iff event rest).1 performed
    rcases ih (balanced.perform first) continued with ⟨event', later, carried⟩ | carries
    · exact .inl ⟨event', .tail _ later, carried⟩
    · exact (Carries.of_perform balanced.indexed first carries).imp_left fun carried => ⟨event, .head _, carried⟩

/-- What is counted is the profile of a slot. -/
theorem Balanced.carries_of_counted (balanced : cluster.Balanced) {job : JobId} {n : Nat}
    (counted : (cluster.ledger.countsOf job).get? profile = some n) : cluster.Carries profile := by
  have count : cluster.ledger.count job profile = n := by rw [Ledger.count, counted]; rfl
  have positive := balanced.tidy.countsOf_pos counted
  rw [← count, balanced.count_eq, Inventory.held, List.countP_pos_iff] at positive
  obtain ⟨slot, listed, kind⟩ := positive
  exact ⟨slot.allocation, slot, balanced.indexed.mem_slots.1 listed, (by simpa [Slot.countsFor] using kind : _ ∧ _).2⟩

/-- A job does not have two counts for the same resources, if its slots have no zeros at the end of their profiles. -/
theorem Balanced.acquired_apart (balanced : cluster.Balanced)
    (trimmed : ∀ profile, cluster.Carries profile → profile.Trimmed) (job : JobId) :
    (cluster.ledger.acquired job).Pairwise fun a b => ∃ d, a.profile.get? d ≠ b.profile.get? d := by
  rw [Ledger.acquired_eq_holdings, Ledger.holdings, List.pairwise_map]
  have distinct := (cluster.ledger.countsOf job).nodup_keys
  rw [SortedMap.keys, List.Nodup, List.pairwise_map] at distinct
  refine distinct.imp_of_mem fun {a b} counted counted' apart => ?_
  have trimmed_of_counted : ∀ entry ∈ (cluster.ledger.countsOf job).entries, entry.1.Trimmed := by
    rintro ⟨profile, n⟩ counted
    exact trimmed profile (balanced.carries_of_counted ((SortedMap.get?_eq_some_iff ..).2 counted))
  by_contra same
  simp only [not_exists, not_not] at same
  exact apart ((trimmed_of_counted a counted).ext (trimmed_of_counted b counted') same)

/-- Profiles that operations on profiles have made, or that were read from text without a zero at the end of the
    vector, are equal if they hold the same amounts, and store nothing exactly if all their amounts are zero. Where the
    slots of a run have such profiles, no job has two counts for the same resources. A worker whose total is no wildcard
    checks whatever fits exactly if its total is such a profile. Text with a zero at the end is read as well: as a
    profile that differs from one with the same amounts, is not empty even if they are all zero, and fails the check of
    a worker of which it is the total. -/
theorem profiles_canonical {events : List Event} (reached : empty.run events = .ok cluster) :
    (∀ p q : Profile, p.Made → q.Made → (∀ d, p.get? d = q.get? d) → p = q ∧ hash p = hash q) ∧
    (∀ p : Profile, p.Made → (p.isZero = true ↔ ∀ d, p.get? d = some .zero)) ∧
    ((∀ event ∈ events, ∀ profile ∈ event.profiles, profile.Made) → ∀ job,
      (cluster.ledger.acquired job).Pairwise fun a b => ∃ d, a.profile.get? d ≠ b.profile.get? d) ∧
    (∀ id record, cluster.inventory.worker? id = some record → record.total ≠ .any →
      (record.total.Made ↔ record.Checks)) ∧
    ∀ p : Profile, p.Padded → (∃ text, Wire.read? text = some p) ∧
      (∃ q : Profile, q.Made ∧ (∀ d, q.get? d = p.get? d) ∧ q ≠ p) ∧ p.isZero = false ∧
      ∀ id defaultSlot slot, (Worker.register id p defaultSlot).canFit slot.profile = true → ∃ updated,
        (Worker.register id p defaultSlot).record slot = .ok updated ∧ updated.audit ≠ .ok () := by
  have balanced := balanced_empty.run reached
  refine ⟨fun p q left right same => ?_, fun p made => (Profile.made_iff_trimmed.1 made).isZero_iff, fun made => ?_,
    fun id record registered sized => ⟨fun made => ?_, fun checks => ?_⟩,
    fun p padded => ⟨⟨Wire.write p, ?_⟩, ?_, ?_, ?_⟩⟩
  · obtain rfl := (Profile.made_iff_trimmed.1 left).ext (Profile.made_iff_trimmed.1 right) same
    exact ⟨rfl, rfl⟩
  · refine balanced.acquired_apart fun profile carries => ?_
    rcases balanced_empty.carries_of_run reached carries with ⟨event, inside, carried⟩ | ⟨allocation, slot, found, -⟩
    · exact Profile.made_iff_trimmed.1 (made event inside profile carried)
    · cases found
  · have accounted := accounted_of_run reached registered (Profile.made_iff_trimmed.1 made)
    exact balanced.indexed.checks registered accounted sized
  · exact Profile.made_iff_trimmed.2 (Worker.trimmed_of_audit checks.now)
  · exact (Wire.faithful Profile).read_write p
  · match p with
    | .sized v =>
      refine ⟨.ofAmounts v.amounts, .amounts v.amounts, fun d => ?_, ?_⟩
      · exact congrArg some (Amount.eq_of_parts (ResourceVector.parts_ofAmounts v.amounts d))
      · exact fun same => (v.trimmed_iff).1 ⟨v.amounts, (Profile.sized.inj same).symm⟩ padded
  · match p with
    | .sized ⟨[]⟩ => cases padded
    | .sized ⟨_ :: _⟩ => rfl
  · exact fun id defaultSlot slot => Worker.check_fails_of_padded padded id defaultSlot slot

end

/-- A slot is reserved and another one is adopted for the same job. -/
private def adoptingEvents : List Event :=
  [.register ⟨1⟩ (.ofUnits 4 8) .any, .reserve ⟨1⟩ ⟨7⟩ ⟨0⟩ (.ofUnits 2 0),
    .report ⟨1⟩ ⟨[⟨⟨⟨1⟩, 0⟩, .ofUnits 1 4, some ⟨⟨7⟩, ⟨1⟩⟩⟩]⟩]

theorem profiles_canonical_adopting : ∃ cluster, empty.run adoptingEvents = .ok cluster ∧
    ((cluster.ledger.acquired ⟨7⟩).Pairwise fun a b => ∃ d, a.profile.get? d ≠ b.profile.get? d) ∧
    ∃ record, cluster.inventory.worker? ⟨1⟩ = some record ∧ record.Checks := by
  have trimmed : ∀ event ∈ adoptingEvents, ∀ profile ∈ event.profiles, profile.Trimmed := by decide
  have total : (Profile.ofUnits 4 8).Made := .units 4 8
  obtain ⟨-, -, apart, checks, -⟩ := profiles_canonical (show empty.run adoptingEvents = .ok _ from rfl)
  exact ⟨_, rfl, apart (fun event inside profile carried =>
    Profile.made_iff_trimmed.2 (trimmed event inside profile carried)) ⟨7⟩, _, rfl, (checks ⟨1⟩ _ rfl nofun).1 total⟩

/-- A text with a zero at the end gives one processor as another profile than the operations do. A job that gets it as
    both has two counts for it, and the check of a worker that has it as its total fails for the first slot. -/
theorem padded_text_not_canonical : ∃ padded : Profile,
    Wire.read? "\x7b\"sized\":[10000,0]\x7d" = some padded ∧
    (∀ d, padded.get? d = (Profile.ofUnits 1 0).get? d) ∧ padded ≠ .ofUnits 1 0 ∧
    (∃ cluster, empty.run [.register ⟨1⟩ (.ofUnits 4 0) .any, .reserve ⟨1⟩ ⟨7⟩ ⟨0⟩ padded,
        .reserve ⟨1⟩ ⟨7⟩ ⟨1⟩ (.ofUnits 1 0)] = .ok cluster ∧
      cluster.ledger.acquired ⟨7⟩ = [⟨.ofUnits 1 0, 1⟩, ⟨padded, 1⟩]) ∧
    empty.run [.register ⟨1⟩ padded .any, .reserve ⟨1⟩ ⟨7⟩ ⟨0⟩ (.ofUnits 1 0)] =
      .error (.capacityBroken ⟨1⟩ .zero (.ofUnits 1 0) padded) := by
  refine ⟨.sized ⟨[.ofUnits 1, .zero]⟩, rfl, fun d => ?_, by decide,
    ⟨_, rfl, (Ledger.acquired_eq_holdings ..).trans rfl⟩, rfl⟩
  rcases d with - | - | d <;> rfl

end Cluster

end SlotControl
