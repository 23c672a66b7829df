import SlotControl.Proofs.Admission
import SlotControl.Proofs.Withdrawal

/-!
How often a slot fits. The quotient of a capacity and a slot, which is computed from one division for each dimension,
is the number of times that the slot can be subtracted from the capacity before something runs out; and so many
reservations of the default slot in a row are accepted by a worker, while the next one is refused. Main statement:
`fits_predicts`.
-/

namespace SlotControl

/-! ## The quotient by dimension -/

namespace ResourceVector

variable {capacity slot : ResourceVector} {n : Nat}

private theorem mem_nonzeroFrom {first d : Nat} {a : Amount} {amounts : List Amount} :
    (d, a) ∈ nonzeroFrom first amounts ↔ ∃ k, d = first + k ∧ amounts.getD k .zero = a ∧ a ≠ .zero := by
  induction amounts generalizing first with
  | nil =>
    simp only [nonzeroFrom, List.not_mem_nil, List.getD_nil, false_iff]
    rintro ⟨k, -, rfl, used⟩
    exact used rfl
  | cons b rest ih =>
    -- A dimension is the first one or it is one of the rest.
    have split : (∃ k, d = first + k ∧ (b :: rest).getD k .zero = a ∧ a ≠ .zero) ↔
        (d = first ∧ b = a ∧ a ≠ .zero) ∨ ∃ k, d = first + 1 + k ∧ rest.getD k .zero = a ∧ a ≠ .zero := by
      constructor
      · rintro ⟨k, rfl, stored, used⟩
        cases k with
        | zero => exact .inl ⟨rfl, stored, used⟩
        | succ k => exact .inr ⟨k, by omega, by simpa using stored, used⟩
      · rintro (⟨rfl, stored, used⟩ | ⟨k, rfl, stored, used⟩)
        · exact ⟨0, rfl, stored, used⟩
        · exact ⟨k + 1, by omega, by simpa using stored, used⟩
    rw [nonzeroFrom, split, ← ih]
    by_cases unused : b.isZero = true
    · rw [if_pos unused, or_iff_right]
      rintro ⟨-, rfl, used⟩
      exact used (b.isZero_iff.1 unused)
    · rw [if_neg unused, List.mem_cons, Prod.mk.injEq]
      refine or_congr_left ⟨fun ⟨here, same⟩ => ⟨here, same.symm, ?_⟩, fun ⟨here, same, _⟩ => ⟨here, same.symm⟩⟩
      rintro rfl
      exact unused (b.isZero_iff.2 same.symm)

theorem mem_nonzero {d : Nat} {a : Amount} : (d, a) ∈ slot.nonzero ↔ slot.get d = a ∧ a ≠ .zero := by
  rw [nonzero, mem_nonzeroFrom]
  simp only [Nat.zero_add, exists_eq_left', get]

/-- The slot takes something of a dimension. -/
theorem parts_pos_iff {d : Nat} : 0 < slot.parts d ↔ slot.get d ≠ .zero := by
  rw [Nat.pos_iff_ne_zero, parts]
  exact not_congr ⟨fun nothing => Amount.eq_of_parts nothing, fun nothing => by rw [nothing, Amount.parts_zero]⟩

private theorem quotient?_eq : capacity.quotient? slot =
    (slot.nonzero.map fun used => capacity.parts used.1 / slot.parts used.1).min? := by
  refine congrArg List.min? (List.map_congr_left fun ⟨d, a⟩ used => ?_)
  obtain ⟨rfl, positive⟩ := mem_nonzero.1 used
  have divisor : (slot.get d).isZero = false := by
    rw [← Bool.not_eq_true, Amount.isZero_iff]
    exact positive
  simp only [Amount.quotient?, divisor, Bool.false_eq_true, if_false, Option.getD_some]
  rfl

theorem quotient?_eq_none_iff : capacity.quotient? slot = none ↔ ∀ d, slot.parts d = 0 := by
  rw [quotient?_eq, List.min?_eq_none_iff, List.map_eq_nil_iff, List.eq_nil_iff_forall_not_mem]
  constructor
  · intro unused d
    by_contra used
    exact unused (d, slot.get d) (mem_nonzero.2 ⟨rfl, parts_pos_iff.1 (Nat.pos_of_ne_zero used)⟩)
  · rintro unused ⟨d, a⟩ used
    obtain ⟨rfl, positive⟩ := mem_nonzero.1 used
    exact absurd (unused d) (Nat.ne_of_gt (parts_pos_iff.2 positive))

/-- The quotient is the least of the quotients in the dimensions that the slot uses. -/
theorem quotient?_eq_some_iff : capacity.quotient? slot = some n ↔
    (∃ d, 0 < slot.parts d ∧ capacity.parts d / slot.parts d = n) ∧
      ∀ d, 0 < slot.parts d → n ≤ capacity.parts d / slot.parts d := by
  have member : ∀ m, m ∈ slot.nonzero.map (fun used => capacity.parts used.1 / slot.parts used.1) ↔
      ∃ d, 0 < slot.parts d ∧ capacity.parts d / slot.parts d = m := by
    intro m
    simp only [List.mem_map, Prod.exists, mem_nonzero, parts_pos_iff]
    constructor
    · rintro ⟨d, a, ⟨rfl, used⟩, same⟩
      exact ⟨d, used, same⟩
    · rintro ⟨d, used, same⟩
      exact ⟨d, _, ⟨rfl, used⟩, same⟩
  rw [quotient?_eq, List.min?_eq_some_iff, member]
  refine and_congr_right fun _ => ?_
  simp only [member]
  constructor
  · exact fun least d used => least _ ⟨d, used, rfl⟩
  · rintro least _ ⟨d, used, rfl⟩
    exact least d used

/-- The slot may be multiplied up to the quotient, and no further. -/
theorem le_quotient_iff (quotient : capacity.quotient? slot = some n) (k : Nat) :
    k ≤ n ↔ ∀ d, k * slot.parts d ≤ capacity.parts d := by
  obtain ⟨⟨scarce, used, rfl⟩, least⟩ := quotient?_eq_some_iff.1 quotient
  constructor
  · intro few d
    rcases Nat.eq_zero_or_pos (slot.parts d) with unused | used
    · rw [unused, Nat.mul_zero]
      exact Nat.zero_le _
    · exact (Nat.le_div_iff_mul_le used).1 (Nat.le_trans few (least d used))
  · exact fun room => (Nat.le_div_iff_mul_le used).2 (room scarce)

end ResourceVector

/-! ## One slot after the other -/

namespace Profile

variable {capacity slot rest : Profile} {n : Nat}

/-- What remains of a capacity when a slot is subtracted so many times, one after the other. -/
def takes? (slot : Profile) : Nat → Profile → Option Profile
  | 0, capacity => some capacity
  | n + 1, capacity => (capacity.sub? slot).bind (takes? slot n)

theorem takes?_succ_eq_some_iff : takes? slot (n + 1) capacity = some rest ↔
    ∃ between, capacity.sub? slot = some between ∧ takes? slot n between = some rest :=
  Option.bind_eq_some_iff

theorem takes?_sized {v w : ResourceVector} (taken : takes? (sized w) n (sized v) = some rest) :
    ∃ u, rest = sized u ∧ ∀ d, u.parts d + n * w.parts d = v.parts d := by
  induction n generalizing v with
  | zero =>
    refine ⟨v, (Option.some.inj taken).symm, fun d => ?_⟩
    rw [Nat.zero_mul, Nat.add_zero]
  | succ n ih =>
    obtain ⟨between, first, later⟩ := takes?_succ_eq_some_iff.1 taken
    obtain ⟨b, subtracted, rfl⟩ := Option.map_eq_some_iff.1 first
    obtain ⟨u, rfl, sums⟩ := ih later
    refine ⟨u, rfl, fun d => ?_⟩
    have := sums d
    have := ((ResourceVector.sub?_eq_some_iff ..).1 subtracted).2 d
    rw [Nat.succ_mul]
    omega

/-- A slot can be subtracted so many times if its multiple is no more than the capacity in any dimension. -/
theorem exists_takes? {v w : ResourceVector} (room : ∀ d, n * w.parts d ≤ v.parts d) :
    ∃ rest, takes? (sized w) n (sized v) = some rest := by
  induction n generalizing v with
  | zero => exact ⟨_, rfl⟩
  | succ n ih =>
    obtain ⟨b, subtracted⟩ := ResourceVector.exists_sub? v w fun d => by
      have := room d
      rw [Nat.succ_mul] at this
      omega
    have differences := ((ResourceVector.sub?_eq_some_iff ..).1 subtracted).2
    obtain ⟨rest, later⟩ := @ih b fun d => by
      have := room d
      have := differences d
      rw [Nat.succ_mul] at *
      omega
    exact ⟨rest, takes?_succ_eq_some_iff.2 ⟨.sized b, by rw [sub?, subtracted]; rfl, later⟩⟩

/-- No number is given for a wildcard or for a slot that uses nothing, and for nothing else. -/
theorem fits?_eq_none_iff : capacity.fits? slot = none ↔ capacity = .any ∨ slot = .any ∨ ∀ d, slot.parts d = 0 := by
  match capacity, slot with
  | .any, _ => simp [fits?]
  | .sized _, .any => simp [fits?]
  | .sized v, .sized w =>
    rw [fits?, Option.map_eq_none_iff, ResourceVector.quotient?_eq_none_iff]
    simp [parts]

/-- As many slots as are told can be subtracted one after the other, and then no further one, unless the number is the
    largest that is ever told. -/
theorem takes?_of_fits? (told : capacity.fits? slot = some n) : ∃ rest, takes? slot n capacity = some rest ∧
    (n < countLimit → rest.sub? slot = none) := by
  match capacity, slot with
  | .any, _ => cases told
  | .sized _, .any => cases told
  | .sized v, .sized w =>
    obtain ⟨quotient, exact, rfl⟩ := Option.map_eq_some_iff.1 told
    have within := ResourceVector.le_quotient_iff exact
    obtain ⟨rest, taken⟩ := exists_takes? ((within _).1 (Nat.min_le_left quotient countLimit))
    refine ⟨rest, taken, fun few => ?_⟩
    rw [Nat.min_eq_left (by omega)] at taken
    by_contra more
    obtain ⟨last, further⟩ := Option.ne_none_iff_exists'.1 more
    obtain ⟨u, rfl, sums⟩ := takes?_sized taken
    obtain ⟨_, subtracted, -⟩ := Option.map_eq_some_iff.1 further
    have room : ∀ d, (quotient + 1) * w.parts d ≤ v.parts d := fun d => by
      have := sums d
      have := ((ResourceVector.sub?_eq_some_iff ..).1 subtracted).2 d
      rw [Nat.succ_mul]
      omega
    exact Nat.not_succ_le_self quotient ((within _).2 room)

end Profile

/-! ## Reservations in a row -/

namespace Cluster

section

variable {Seed : Type} [Traversal Seed]
variable {cluster : Cluster} {worker : WorkerId} {record : Worker} {profile rest : Profile}

/-- The reservation of a profile on a worker for a job, under an allocation. -/
def reservation (worker : WorkerId) (profile : Profile) (request : JobId × AllocationId) : Event :=
  .reserve worker request.1 request.2 profile

/-- A worker whose account is in order and whose total is no wildcard has a profile available. -/
def HasLeft (cluster : Cluster) (worker : WorkerId) (rest : Profile) : Prop :=
  ∃ record, cluster.inventory.worker? worker = some record ∧ record.Accounted ∧ record.total ≠ .any ∧
    record.available = rest

/-- A reservation of what there is room for is accepted, leaves what remains and is counted, unless its job would have
    more slots than its count holds. -/
theorem Balanced.reserves (balanced : cluster.Balanced) {available : Profile} (left : cluster.HasLeft worker available)
    (taken : available.sub? profile = some rest) (job : JobId) {allocation : AllocationId}
    (fresh : cluster.slot? allocation = none) :
    (cluster.ledger.count job profile + 1 < Numeral.bound32 ∧ ∃ next,
      cluster.perform (.reserve worker job allocation profile) = .ok (.outcome .success, next) ∧ next.Balanced ∧
      next.HasLeft worker rest ∧ (∀ other, other ≠ allocation → next.slot? other = cluster.slot? other) ∧
      ∀ other, next.ledger.count other profile = cluster.ledger.count other profile + if other = job then 1 else 0) ∨
    (Numeral.bound32 ≤ cluster.ledger.count job profile + 1 ∧
      cluster.perform (.reserve worker job allocation profile) = .error .additionOverflow) := by
  have indexed := balanced.indexed
  obtain ⟨record, registered, accounted, tame, rfl⟩ := left
  have only : ∀ other, cluster.inventory.worker? worker = some other → record = other := fun _ same =>
    Option.some.inj (registered.symm.trans same)
  have room : cluster.HasRoom worker profile :=
    ⟨record, registered, (Profile.exists_sub?_iff ..).1 ⟨rest, taken⟩⟩
  have small : Profile.Addable (record.profiles ++ [profile]) := by
    have accounts := (accounted.accounts.take taken).2
    exact (accounts.addable tame).perm (List.perm_append_singleton ..).symm
  have granted : ∀ failure, ¬cluster.Declines worker profile failure := fun failure declines =>
    not_refused_of_room room ((reserve_refused_iff job allocation).2 declines)
  rcases reserve_cases indexed job fresh (fun _ same => only _ same ▸ accounted) (fun _ same => only _ same ▸ small)
    granted with ⟨next, accepted, -, other, rest', registered', taken', gained⟩ | ⟨failed, many⟩
  · obtain rfl := only other registered'
    obtain rfl := Option.some.inj (taken.symm.trans taken')
    have occupied := (occupy_eq_ok_iff _).1 ((reserve_eq_ok_iff ..).1 accepted).2.2
    have leaves : record.Leaves ⟨allocation, job, .dynamic worker, profile, .pending⟩ rest := by
      have new : record.slot? allocation = none := by
        rw [indexed.worker_slot? registered, ← slot?_def, fresh]
        rfl
      rwa [Worker.Leaves, new]
    refine .inl ⟨((Ledger.acquire_eq_ok_iff ..).1 occupied.2).1, next, by rw [Cluster.perform, accepted]; rfl,
      balanced.reserve accepted, ?_, fun other apart => ?_, fun other => ?_⟩
    · rw [gained]
      exact ⟨_, SortedMap.get?_insert_self .., accounted.keep leaves, tame, rfl⟩
    · rw [(slot?_reserve indexed accepted).2.2, if_neg apart]
    · rw [gained, Ledger.count_setCount]
      by_cases same : other = job <;> simp [same]
  · exact .inr ⟨many, by rw [Cluster.perform, failed]; rfl⟩

/-- A reservation for which there is no room is refused, and tells what is available. -/
theorem perform_of_full {available : Profile} (left : cluster.HasLeft worker available)
    (full : available.sub? profile = none) (request : JobId × AllocationId) :
    cluster.perform (reservation worker profile request) =
      .ok (.outcome (.failure (.insufficientResources worker profile available)), cluster) := by
  obtain ⟨record, registered, -, -, rfl⟩ := left
  have exceeds : profile.Exceeds record.available := by
    rw [Profile.exceeds_iff, ← Profile.exists_sub?_iff_noLess, full]
    exact nofun
  have refused := (reserve_refused_iff request.1 request.2).2 (.insufficient registered exceeds)
  rw [reservation, perform, refused]
  rfl

/-- How many slots are requested for a job. -/
def asked (job : JobId) (requests : List (JobId × AllocationId)) : Nat := requests.countP (·.1 = job)

theorem asked_cons (job : JobId) (request : JobId × AllocationId) (later : List (JobId × AllocationId)) :
    asked job (request :: later) = asked job later + if job = request.1 then 1 else 0 := by
  simp [asked, List.countP_cons, eq_comm]

/-- The counts of the jobs hold the slots that are requested for them. -/
def CanCount (cluster : Cluster) (profile : Profile) (requests : List (JobId × AllocationId)) : Prop :=
  ∀ request ∈ requests, cluster.ledger.count request.1 profile + asked request.1 requests < Numeral.bound32

/-- So they do as long as there are less than 2 ^ 32 slots in all. -/
theorem Balanced.canCount (balanced : cluster.Balanced) {requests : List (JobId × AllocationId)}
    (few : cluster.inventory.slotCount + requests.length < Numeral.bound32) : cluster.CanCount profile requests := by
  intro request _
  have := balanced.count_le request.1 profile
  have := balanced.indexed.slotCount_eq
  have : asked request.1 requests ≤ requests.length := List.countP_le_length
  omega

/-- A slot that is counted is no longer requested. -/
theorem canCount_cons_iff {next : Cluster} {request : JobId × AllocationId} {later : List (JobId × AllocationId)}
    (few : cluster.ledger.count request.1 profile + 1 < Numeral.bound32)
    (counted : ∀ job, next.ledger.count job profile =
      cluster.ledger.count job profile + if job = request.1 then 1 else 0) :
    cluster.CanCount profile (request :: later) ↔ next.CanCount profile later := by
  have moved : ∀ job, next.ledger.count job profile + asked job later =
      cluster.ledger.count job profile + asked job (request :: later) := fun job => by
    rw [counted, asked_cons]
    omega
  constructor
  · intro counts other inside
    rw [moved]
    exact counts other (.tail _ inside)
  · intro counts other inside
    by_cases again : ∃ same ∈ later, same.1 = other.1
    · obtain ⟨same, inside', job⟩ := again
      rw [← job, ← moved]
      exact counts same inside'
    · have last : asked other.1 later = 0 :=
        List.countP_eq_zero.2 fun same inside' => by simpa using fun job => again ⟨same, inside', job⟩
      rcases List.mem_cons.1 inside with rfl | inside
      · rw [asked_cons, last, if_pos rfl]
        exact few
      · exact absurd ⟨other, inside, rfl⟩ again

/-- So many reservations of a profile in a row are accepted on a worker, for whatever jobs and under whatever new
    allocations, and the next one is refused for want of room. Only where the slots of a job come to more than its count
    of 32 bits holds does one of them fail. -/
def AdmitsExactly (cluster : Cluster) (worker : WorkerId) (profile : Profile) (n : Nat) : Prop :=
  ∀ (requests : List (JobId × AllocationId)) (next : JobId × AllocationId), requests.length = n →
    (requests.map Prod.snd).Nodup → (∀ request ∈ requests, cluster.slot? request.2 = none) →
    (cluster.CanCount profile requests → ∃ rest last, last.HasLeft worker rest ∧
      cluster.replies ((requests ++ [next]).map (reservation worker profile)) =
        .ok (List.replicate n (.outcome .success) ++
          [.outcome (.failure (.insufficientResources worker profile rest))], last)) ∧
    (¬cluster.CanCount profile requests →
      cluster.replies ((requests ++ [next]).map (reservation worker profile)) = .error .additionOverflow)

/-- As many reservations are accepted as the profile can be subtracted from what is available. -/
theorem Balanced.admitsExactly (balanced : cluster.Balanced) {available : Profile}
    (left : cluster.HasLeft worker available) {n : Nat} (taken : profile.takes? n available = some rest)
    (full : rest.sub? profile = none) : cluster.AdmitsExactly worker profile n := by
  intro requests next length distinct fresh
  induction requests generalizing cluster available n with
  | nil =>
    obtain rfl : 0 = n := length
    obtain rfl := Option.some.inj taken
    refine ⟨fun _ => ⟨available, cluster, left, ?_⟩, fun counts => absurd nofun counts⟩
    exact replies_cons_eq_ok_iff.2 ⟨_, _, _, perform_of_full left full next, rfl, rfl⟩
  | cons request later ih =>
    obtain rfl : later.length + 1 = n := length
    obtain ⟨between, first, onward⟩ := Profile.takes?_succ_eq_some_iff.1 taken
    obtain ⟨new, distinct⟩ := List.nodup_cons.1 distinct
    rcases balanced.reserves left first request.1 (fresh request (.head _)) with
      ⟨few, reserved, performed, balanced', left', slots, counted⟩ | ⟨many, failed⟩
    · have fresh' : ∀ other ∈ later, reserved.slot? other.2 = none := fun other inside => by
        rw [slots _ fun same => new (same ▸ List.mem_map_of_mem inside)]
        exact fresh other (.tail _ inside)
      obtain ⟨accepts, fails⟩ := ih balanced' left' onward rfl distinct fresh'
      rw [canCount_cons_iff few counted]
      refine ⟨fun counts => ?_, fun uncounted => ?_⟩
      · obtain ⟨rest', last, left'', continued⟩ := accepts counts
        exact ⟨rest', last, left'', replies_cons_eq_ok_iff.2 ⟨_, _, _, performed, continued, rfl⟩⟩
      · rw [List.cons_append, List.map_cons, replies, reservation, performed]
        simp only [bind, Except.bind, fails uncounted]
    · refine ⟨fun counts => ?_, fun _ => ?_⟩
      · have := counts request (.head _)
        rw [asked_cons, if_pos rfl] at this
        omega
      · rw [List.cons_append, List.map_cons, replies, reservation, failed]
        rfl

/-- The number that is told for a capacity and a slot. There is none exactly for wildcards and for a slot that uses
    nothing. So many slots can be subtracted from the capacity one after the other, and no further one if the number is
    below the largest that is ever told. In a state that a run has reached, a worker whose total has no zeros at its end
    therefore admits exactly as many slots of its default profile as it tells, whatever the other workers are. -/
theorem fits_predicts (capacity slot : Profile) :
    (capacity.fits? slot = none ↔ capacity = .any ∨ slot = .any ∨ ∀ d, slot.parts d = 0) ∧
    (∀ n, capacity.fits? slot = some n → ∃ rest, slot.takes? n capacity = some rest ∧
      (n < Profile.countLimit → rest.sub? slot = none)) ∧
    ∀ (history : List Event) (cluster : Cluster), empty.run history = .ok cluster →
      ∀ worker record n, cluster.inventory.worker? worker = some record → record.total.Trimmed →
        record.freeDefaultSlots? = some n → n < Profile.countLimit →
        cluster.AdmitsExactly worker record.defaultSlot n := by
  refine ⟨Profile.fits?_eq_none_iff, fun n => Profile.takes?_of_fits?, ?_⟩
  intro history cluster reached worker record n registered trimmed told few
  have accounted := accounted_of_run reached registered trimmed
  obtain ⟨rest, taken, full⟩ := Profile.takes?_of_fits? told
  -- A worker whose total is the wildcard has the wildcard available and tells no number.
  have tame : record.total ≠ .any := fun wild => by
    have accounts := accounted.accounts
    rw [wild] at accounts
    rw [Worker.freeDefaultSlots?, accounts.left_eq_any] at told
    cases told
  exact (balanced_empty.run reached).admitsExactly ⟨record, registered, accounted, tame, rfl⟩ taken (full few)

end

/-- Of four processors two are taken, so that two slots of one processor are free. -/
private def halfHistory : List Event :=
  [.register ⟨1⟩ (.ofUnits 4 8) (.ofUnits 1 2), .reserve ⟨1⟩ ⟨7⟩ ⟨0⟩ (.ofUnits 2 4)]

/-- Two default slots are admitted for different jobs, and a third one is refused. -/
theorem fits_predicts_half : ∃ cluster record rest last, empty.run halfHistory = .ok cluster ∧
    cluster.inventory.worker? ⟨1⟩ = some record ∧ record.freeDefaultSlots? = some 2 ∧ last.HasLeft ⟨1⟩ rest ∧
    cluster.replies ([(⟨7⟩, ⟨1⟩), (⟨8⟩, ⟨2⟩), (⟨7⟩, ⟨3⟩)].map (reservation ⟨1⟩ (.ofUnits 1 2))) =
      .ok ([.outcome .success, .outcome .success,
        .outcome (.failure (.insufficientResources ⟨1⟩ (.ofUnits 1 2) rest))], last) := by
  obtain ⟨cluster, reached⟩ := Checked.isOk_iff.1 (show (empty.run halfHistory).isOk = true from rfl)
  have state : (empty.run halfHistory).map (fun cluster =>
      ((cluster.inventory.worker? ⟨1⟩).map fun record => (record.freeDefaultSlots?, record.defaultSlot, record.total),
        cluster.slot? ⟨1⟩, cluster.slot? ⟨2⟩, cluster.inventory.slotCount)) =
      .ok (some (some 2, .ofUnits 1 2, .ofUnits 4 8), none, none, 1) := rfl
  rw [reached] at state
  obtain ⟨known, rest⟩ := Prod.mk.inj (Except.ok.inj state)
  obtain ⟨absent, rest⟩ := Prod.mk.inj rest
  obtain ⟨absent', count⟩ := Prod.mk.inj rest
  obtain ⟨record, registered, same⟩ := Option.map_eq_some_iff.1 known
  obtain ⟨told, same⟩ := Prod.mk.inj same
  obtain ⟨slot, total⟩ := Prod.mk.inj same
  have trimmed : record.total.Trimmed := total ▸ by decide
  obtain ⟨-, -, admits⟩ := fits_predicts (.ofUnits 2 4) (.ofUnits 1 2)
  obtain ⟨accepts, -⟩ := admits _ cluster reached _ record 2 registered trimmed told (by decide)
    [(⟨7⟩, ⟨1⟩), (⟨8⟩, ⟨2⟩)] (⟨7⟩, ⟨3⟩) rfl (by decide) fun request inside => by
      rcases List.mem_pair.1 inside with rfl | rfl
      · exact absent
      · exact absent'
  rw [slot] at accepts
  have few : cluster.inventory.slotCount + 2 < Numeral.bound32 := by rw [count]; decide
  obtain ⟨rest, last, left, replied⟩ := accepts ((balanced_empty.run reached).canCount few)
  exact ⟨cluster, record, rest, last, reached, registered, told, left, replied⟩

end Cluster

end SlotControl
