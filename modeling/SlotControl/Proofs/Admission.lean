import SlotControl.Proofs.Course
import SlotControl.Proofs.Recording

/-!
A request for a slot is admitted as a whole or leaves nothing behind. Whether it is refused, and with which failure,
depends on what its worker has available; a refused request consults no gateway, its task ends when it first runs, and
every run goes on as if the request had not been made. An admitted one adds one pending slot to the state, and that is
what the gateway of the worker finds. Main statement: `allocate_all_or_nothing`.
-/

namespace SlotControl

/-! ## The reservation -/

namespace Cluster

variable {Seed : Type} [Traversal Seed]
variable {cluster next : Cluster} {worker : WorkerId} {job : JobId} {allocation : AllocationId} {profile : Profile}

/-- Why a request for a slot is refused: its worker is not registered, or it asks for more than is available there in
    some dimension. -/
inductive Declines (cluster : Cluster) (worker : WorkerId) (profile : Profile) : Failure → Prop
  | unknown (unknown : cluster.inventory.worker? worker = none) :
      Declines cluster worker profile (.unknownWorker worker)
  | insufficient {record : Worker} (registered : cluster.inventory.worker? worker = some record)
      (exceeds : profile.Exceeds record.available) :
      Declines cluster worker profile (.insufficientResources worker profile record.available)

/-- A new slot is recorded and nothing else: its worker has its profile less available, the index names the worker for
    it, and its job has one slot more of the profile. -/
def Gains (cluster : Cluster) (slot : Slot) (next : Cluster) : Prop :=
  cluster.slot? slot.allocation = none ∧ ∃ record rest, cluster.inventory.worker? slot.worker = some record ∧
    record.available.sub? slot.profile = some rest ∧
    next = ⟨⟨cluster.inventory.workers.insert slot.worker
        { record with available := rest, slots := record.slots.insert slot.allocation slot },
      cluster.inventory.owners.insert slot.allocation slot.worker⟩,
      cluster.ledger.setCount slot.job slot.profile (cluster.ledger.count slot.job slot.profile + 1)⟩

theorem not_canFit_iff (record : Worker) (profile : Profile) :
    record.canFit profile = false ↔ profile.Exceeds record.available := by
  rw [Profile.exceeds_iff, ← Profile.covers_iff_noLess, Bool.not_eq_true, Worker.canFit]

/-- A reservation is refused for exactly these reasons. -/
theorem reserve_refused_iff (job : JobId) (allocation : AllocationId) {failure : Failure} :
    cluster.reserve worker job allocation profile = .ok (.error failure) ↔ cluster.Declines worker profile failure := by
  constructor
  · intro refused
    cases registered : cluster.inventory.worker? worker with
    | none =>
      rw [reserve_of_unknown registered] at refused
      obtain rfl := Except.error.inj (Except.ok.inj refused)
      exact .unknown registered
    | some record =>
      cases fits : record.canFit profile with
      | true => exact absurd refused (not_refused_of_room ⟨record, registered, fits⟩)
      | false =>
        simp only [reserve, registered, fits] at refused
        obtain rfl := Except.error.inj (Except.ok.inj refused)
        exact .insufficient registered ((not_canFit_iff record profile).1 fits)
  · rintro (unknown | ⟨registered, exceeds⟩)
    · exact reserve_of_unknown unknown job allocation profile
    · simp only [reserve, registered, (not_canFit_iff _ profile).2 exceeds]
      rfl

/-- An occupied new slot is all that its state gains. -/
theorem gains_of_occupy {slot : Slot} (indexed : cluster.inventory.Indexed)
    (absent : cluster.slot? slot.allocation = none) (occupied : cluster.occupy slot = .ok next) :
    cluster.Gains slot next := by
  obtain ⟨recorded, acquired⟩ := (occupy_eq_ok_iff slot).1 occupied
  obtain ⟨-, record, rest, registered, leaves, -, changed⟩ := (Inventory.record_eq_ok_iff _).1 recorded
  obtain ⟨-, counted⟩ := (Ledger.acquire_eq_ok_iff ..).1 acquired
  have new : record.slot? slot.allocation = none := by
    rw [indexed.worker_slot? registered, ← slot?_def, absent]
    rfl
  refine ⟨absent, record, rest, registered, by simpa [Worker.Leaves, new] using leaves, ?_⟩
  obtain ⟨inventory, ledger⟩ := next
  obtain rfl : inventory = _ := changed
  obtain rfl : ledger = _ := counted
  rfl

/-- A reservation that is not refused is made, unless its job would have more slots than its count holds. Of the
    accounts only that of its worker has to be in order. -/
theorem reserve_cases (indexed : cluster.inventory.Indexed) (job : JobId) (fresh : cluster.slot? allocation = none)
    (accounted : ∀ record, cluster.inventory.worker? worker = some record → record.Accounted)
    (small : ∀ record, cluster.inventory.worker? worker = some record → Profile.Addable (record.profiles ++ [profile]))
    (granted : ∀ failure, ¬cluster.Declines worker profile failure) :
    (∃ next, cluster.reserve worker job allocation profile = .ok (.ok next) ∧
      cluster.Gains ⟨allocation, job, .dynamic worker, profile, .pending⟩ next) ∨
    (cluster.reserve worker job allocation profile = .error .additionOverflow ∧
      Numeral.bound32 ≤ cluster.ledger.count job profile + 1) := by
  have room : cluster.HasRoom worker profile := by
    by_contra full
    obtain ⟨failure, refused⟩ := reserve_of_full full job allocation
    exact granted failure ((reserve_refused_iff job allocation).1 refused)
  have ⟨record, registered, fits⟩ := room
  have small := indexed.load_lt registered (small record registered)
  rcases occupy_cases indexed ⟨allocation, job, .dynamic worker, profile, .pending⟩ fresh room accounted small with
    ⟨next, occupied⟩ | ⟨failed, many⟩
  · exact .inl ⟨next, (reserve_eq_ok_iff ..).2 ⟨room, fresh, occupied⟩, gains_of_occupy indexed fresh occupied⟩
  · refine .inr ⟨?_, many⟩
    simp only [Cluster.reserve, registered, fits, fresh, if_true]
    rw [failed]
    rfl

theorem Sound.reserve_cases (sound : cluster.Sound) (job : JobId) (fresh : cluster.slot? allocation = none)
    (small : ∀ record, cluster.inventory.worker? worker = some record → Profile.Addable (record.profiles ++ [profile]))
    (granted : ∀ failure, ¬cluster.Declines worker profile failure) :
    (∃ next, cluster.reserve worker job allocation profile = .ok (.ok next) ∧
      cluster.Gains ⟨allocation, job, .dynamic worker, profile, .pending⟩ next) ∨
    (cluster.reserve worker job allocation profile = .error .additionOverflow ∧
      Numeral.bound32 ≤ cluster.ledger.count job profile + 1) :=
  Cluster.reserve_cases sound.inventory.indexed job fresh (fun _ same => sound.inventory.accounted same) small granted

end Cluster

/-! ## The request -/

namespace Dispatcher

section

variable {Seed : Type} [Traversal Seed]
variable {d : Dispatcher} {worker : WorkerId} {job : JobId} {allocation : AllocationId} {profile : Profile}
variable {address : String} {exchange : Exchange}

theorem allocate_refused_iff {failure : Failure} :
    (∃ left, d.allocate allocation worker job address profile exchange = .ok (.error failure, left)) ↔
      d.cluster.Declines worker profile failure := by
  rw [← Cluster.reserve_refused_iff job allocation]
  constructor
  · rintro ⟨left, refused⟩
    cases allocates_of_allocate refused with | refused declined =>
    exact declined
  · intro declined
    exact ⟨_, allocate_eq_of_refused declined⟩

/-- A run with a refused request first is a run from what the request leaves. -/
theorem run_of_refused {failure : Failure} {left : Dispatcher}
    (refused : d.allocate allocation worker job address profile exchange = .ok (.error failure, left))
    (rest : List Operation) :
    d.run (.allocate allocation worker job address profile exchange :: rest) = left.run rest := by
  have performed : d.perform (.allocate allocation worker job address profile exchange) = .ok ([], left) := by
    rw [perform, refused]
    rfl
  rw [run, performed]
  exact bind_pure (left.run rest)

/-! ## Tasks without a request -/

/-- The slot manager without the tasks that get no request. -/
def awake (d : Dispatcher) : Dispatcher := { d with openings := d.openings.filter (!·.forsaken) }

theorem awake_idling (d : Dispatcher) (allocation : AllocationId) (job : JobId) :
    (d.idling allocation job).awake = d.awake := by
  simp [awake, idling]

/-- When tasks run, those without a request end. -/
theorem begin_awake (d : Dispatcher) : d.awake.begin = d.begin := by
  simp [awake, begin, List.filter_filter]

private theorem awake_awake (d : Dispatcher) : d.awake.awake = d.awake := by
  simp [awake, List.filter_filter]

private theorem perform_awake_allocate (d : Dispatcher) (allocation : AllocationId) (worker : WorkerId) (job : JobId)
    (address : String) (profile : Profile) (exchange : Exchange) :
    (d.awake.perform (.allocate allocation worker job address profile exchange)).map (Prod.map id awake) =
      (d.perform (.allocate allocation worker job address profile exchange)).map (Prod.map id awake) := by
  rw [perform, perform]
  cases reserves : d.cluster.reserve worker job allocation profile with
  | error defect => rw [allocate_eq_of_failed (d := d.awake) reserves, allocate_eq_of_failed reserves]
  | ok verdict =>
    cases verdict with
    | error failure =>
      rw [allocate_eq_of_refused (d := d.awake) reserves, allocate_eq_of_refused reserves]
      show Except.ok ([], (d.awake.idling allocation job).awake) = Except.ok ([], (d.idling allocation job).awake)
      rw [awake_idling, awake_idling, awake_awake]
    | ok reserved =>
      cases fits : d.timeouts.request.add? exchange.expected with
      | none => rw [allocate_eq_of_endless (d := d.awake) reserves fits, allocate_eq_of_endless reserves fits]
      | some timeout =>
        rw [allocate_eq_of_reserved (d := d.awake) fits reserves, allocate_eq_of_reserved fits reserves]
        cases exchange.interruptions.foldlM interrupt reserved with
        | error defect => rfl
        | ok cluster =>
          simp [Except.map, bind, Except.bind, pure, Except.pure, awake, List.filter_filter]

/-- What an operation does is no matter of tasks without a request. -/
theorem perform_awake (d : Dispatcher) (operation : Operation) :
    (d.awake.perform operation).map (Prod.map id awake) = (d.perform operation).map (Prod.map id awake) := by
  have kept : (d.openings.filter (!·.forsaken)).filter (!·.forsaken) = d.openings.filter (!·.forsaken) := by
    rw [List.filter_filter]
    simp
  cases operation with
  | register worker total defaultSlot =>
    simp only [perform, register, awake]
    cases d.cluster.register worker total defaultSlot <;>
      simp [Except.map, bind, Except.bind, pure, Except.pure, awake, kept]
  | removeWorker worker =>
    simp only [perform, removeWorker, awake]
    cases d.cluster.removeWorker worker <;>
      simp [Except.map, bind, Except.bind, pure, Except.pure, awake, kept]
  | allocate => exact perform_awake_allocate ..
  | free allocation =>
    simp only [perform, free, awake]
    cases d.cluster.free allocation <;> simp [Except.map, bind, Except.bind, pure, Except.pure, awake, kept]
  | report worker report =>
    simp only [perform, Dispatcher.report, awake]
    cases d.cluster.report worker report <;>
      simp [Except.map, bind, Except.bind, pure, Except.pure, awake, kept]
  | answer allocation outcome => simp [perform, answer, awake, Except.map, kept]
  | advance milliseconds =>
    rw [perform, perform, advance, advance, begin_awake]
    rfl
  | wait milliseconds ahead =>
    rw [perform, perform, wait, wait, begin_awake]
    rfl
  | drain =>
    simp only [perform, drain, begin_awake]
    rfl
  | dropTasks => rfl

private theorem map_awake_bind {x y : Checked (List Resolution × Dispatcher)}
    {f g : List Resolution × Dispatcher → Checked (List Resolution × Dispatcher)}
    (first : x.map (Prod.map id awake) = y.map (Prod.map id awake))
    (onward : ∀ told a b, a.awake = b.awake →
      (f (told, a)).map (Prod.map id awake) = (g (told, b)).map (Prod.map id awake)) :
    (x >>= f).map (Prod.map id awake) = (y >>= g).map (Prod.map id awake) := by
  cases x with
  | error defect =>
    cases y with
    | error defect' => exact congrArg Except.error (Except.error.inj first)
    | ok => cases first
  | ok result =>
    cases y with
    | error => cases first
    | ok result' =>
      obtain ⟨told, a⟩ := result
      obtain ⟨told', b⟩ := result'
      obtain ⟨rfl, same⟩ := Prod.mk.inj (Except.ok.inj first)
      exact onward _ a b same

/-- So is what a run does. -/
theorem run_awake (d : Dispatcher) (operations : List Operation) :
    (d.awake.run operations).map (Prod.map id awake) = (d.run operations).map (Prod.map id awake) := by
  induction operations generalizing d with
  | nil =>
    show Except.ok ([], d.awake.awake) = Except.ok ([], d.awake)
    rw [awake_awake]
  | cons operation rest ih =>
    refine map_awake_bind (perform_awake d operation) fun told a b same => ?_
    have continued : (a.run rest).map (Prod.map id awake) = (b.run rest).map (Prod.map id awake) := by
      rw [← ih a, same, ih b]
    refine map_awake_bind continued fun others last last' same => ?_
    exact congrArg (fun d => Except.ok (told ++ others, d)) same

/-- What a request leaves behind that comes to nothing: no more than a task, which ends when it first runs. All goes on
    as without the request. -/
structure Untouched (d left : Dispatcher) : Prop where
  same : left = { d with openings := left.openings }
  ends : left.begin = d.begin
  onward : ∀ operations, (left.run operations).map (Prod.map id awake) = (d.run operations).map (Prod.map id awake)

theorem untouched_idling (d : Dispatcher) (allocation : AllocationId) (job : JobId) :
    d.Untouched (d.idling allocation job) where
  same := rfl
  ends := by rw [← begin_awake, awake_idling, begin_awake]
  onward operations := by rw [← run_awake, awake_idling, run_awake]

/-! ## All or nothing -/

/-- A request for a slot in a state that a run has reached, under a new allocation, where its profile and the slots of
    the worker come to no more than 64 bits and its timeout can be represented. It is refused exactly for the reasons
    that `Declines` lists, whatever the gateway would have done, and leaves nothing but a task that ends without having
    done anything. Otherwise the state gains one pending slot, the worker is asked for that slot once, and the task
    waits for the answer, unless there are so many slots that a count of 32 bits overflows. -/
theorem allocate_all_or_nothing {history : List Event} (reached : Cluster.empty.run history = .ok d.cluster)
    (trimmed : ∀ worker total defaultSlot, .register worker total defaultSlot ∈ history → total.Trimmed)
    (fresh : d.cluster.slot? allocation = none)
    (small : ∀ record, d.cluster.inventory.worker? worker = some record →
      Profile.Addable (record.profiles ++ [profile])) (job : JobId) (address : String) (exchange : Exchange)
    {timeout : Duration} (fits : d.timeouts.request.add? exchange.expected = some timeout) :
    (∀ failure, (∃ left, d.allocate allocation worker job address profile exchange = .ok (.error failure, left)) ↔
      d.cluster.Declines worker profile failure) ∧
    (∀ failure, d.cluster.Declines worker profile failure → ∃ left, d.Untouched left ∧ ∀ other,
      d.allocate allocation worker job address profile other = .ok (.error failure, left) ∧
      ∀ rest, d.run (.allocate allocation worker job address profile other :: rest) = left.run rest) ∧
    ((∀ failure, ¬d.cluster.Declines worker profile failure) →
      (∃ reserved, d.cluster.Gains ⟨allocation, job, .dynamic worker, profile, .pending⟩ reserved ∧
        d.allocate allocation worker job address profile exchange =
          (exchange.interruptions.foldlM interrupt reserved).map fun cluster =>
            (.ok ⟨.dynamic worker, job, allocation, profile, address, d.owner, timeout⟩,
              { d with
                cluster
                flights := d.flights ++ [⟨allocation, job, timeout, exchange.reply, exchange.rank, none⟩] })) ∨
      (d.allocate allocation worker job address profile exchange = .error .additionOverflow ∧
        Numeral.bound32 ≤ d.cluster.inventory.slotCount + 1)) := by
  have sound := Cluster.sound_empty.run trimmed reached
  refine ⟨fun failure => allocate_refused_iff, fun failure declines => ?_, fun granted => ?_⟩
  · have refused := (Cluster.reserve_refused_iff job allocation).2 declines
    refine ⟨_, untouched_idling d allocation job, fun other => ?_⟩
    exact ⟨allocate_eq_of_refused refused, run_of_refused (allocate_eq_of_refused refused)⟩
  · rcases sound.reserve_cases job fresh small granted with ⟨reserved, accepted, gains⟩ | ⟨failed, many⟩
    · exact .inl ⟨reserved, gains, allocate_eq_of_reserved fits accepted⟩
    · refine .inr ⟨allocate_eq_of_failed failed, Nat.le_trans many (Nat.succ_le_succ ?_)⟩
      exact sound.inventory.indexed.slotCount_eq ▸ sound.balanced.count_le job profile

end

/-- Three of the four processors of a worker are taken. -/
private def crowdedHistory : List Event :=
  [.register ⟨1⟩ (.ofUnits 4 0) .any, .reserve ⟨1⟩ ⟨7⟩ ⟨0⟩ (.ofUnits 3 0)]

/-- A request for two processors leaves nothing behind, and one for the last processor is admitted. -/
theorem allocate_all_or_nothing_crowded : ∃ (d : Dispatcher) (reserved : Cluster),
    Cluster.empty.run crowdedHistory = .ok d.cluster ∧
    (∃ failure left, d.Untouched left ∧
      d.allocate ⟨1⟩ ⟨1⟩ ⟨7⟩ "there" (.ofUnits 2 0) ⟨Timeouts.usual, [], .never, 0⟩ = .ok (.error failure, left) ∧
      ∀ rest, d.run (.allocate ⟨1⟩ ⟨1⟩ ⟨7⟩ "there" (.ofUnits 2 0) ⟨Timeouts.usual, [], .never, 0⟩ :: rest) =
        left.run rest) ∧
    d.cluster.Gains ⟨⟨1⟩, ⟨7⟩, .dynamic ⟨1⟩, .ofUnits 1 0, .pending⟩ reserved ∧
    d.allocate ⟨1⟩ ⟨1⟩ ⟨7⟩ "there" (.ofUnits 1 0) ⟨Timeouts.usual, [], .never, 0⟩ =
      .ok (.ok ⟨.dynamic ⟨1⟩, ⟨7⟩, ⟨1⟩, .ofUnits 1 0, "there", d.owner, ⟨20000000000, by decide⟩⟩,
        { d with
          cluster := reserved
          flights := d.flights ++ [⟨⟨1⟩, ⟨7⟩, ⟨20000000000, by decide⟩, .never, 0, none⟩] }) := by
  obtain ⟨cluster, reached⟩ := Checked.isOk_iff.1 (show (Cluster.empty.run crowdedHistory).isOk = true from rfl)
  have worker : (Cluster.empty.run crowdedHistory).map (fun cluster =>
      ((cluster.inventory.worker? ⟨1⟩).map fun record => (record.profiles, record.available), cluster.slot? ⟨1⟩,
        cluster.inventory.slotCount)) = .ok (some ([.ofUnits 3 0], .ofUnits 1 0), none, 1) := rfl
  rw [reached] at worker
  obtain ⟨known, rest⟩ := Prod.mk.inj (Except.ok.inj worker)
  obtain ⟨fresh, count⟩ := Prod.mk.inj rest
  obtain ⟨record, registered, same⟩ := Option.map_eq_some_iff.1 known
  obtain ⟨profiles, available⟩ := Prod.mk.inj same
  have trimmed := Event.trimmed_of_totals (show ∀ total ∈ crowdedHistory.filterMap Event.total?, _ by decide)
  have known : (cluster.inventory.worker? ⟨1⟩).map Worker.profiles = some [.ofUnits 3 0] := by
    rw [registered, Option.map_some, profiles]
  have small : Profile.Addable ([.ofUnits 3 0] ++ [.ofUnits 2 0]) := by decide
  have small' : Profile.Addable ([.ofUnits 3 0] ++ [.ofUnits 1 0]) := by decide
  let d : Dispatcher := ⟨cluster, ⟨1⟩, .default, 0, [], []⟩
  have fits : Timeouts.usual.add? Timeouts.usual = some ⟨20000000000, by decide⟩ := by decide +kernel
  have declines : cluster.Declines ⟨1⟩ (.ofUnits 2 0)
      (.insufficientResources ⟨1⟩ (.ofUnits 2 0) record.available) := by
    refine .insufficient registered ?_
    rw [available]
    exact ⟨0, by decide⟩
  have granted : ∀ failure, ¬cluster.Declines ⟨1⟩ (.ofUnits 1 0) failure := by
    rintro _ (unknown | ⟨registered', exceeds⟩)
    · rw [registered] at unknown
      cases unknown
    · rw [← Option.some.inj (registered.symm.trans registered'), available] at exceeds
      obtain ⟨dimension, more⟩ := exceeds
      exact absurd more (Nat.lt_irrefl _)
  obtain ⟨-, leaves, -⟩ := allocate_all_or_nothing (d := d) reached trimmed fresh
    (Inventory.addable_of_profiles known small) ⟨7⟩ "there" ⟨Timeouts.usual, [], .never, 0⟩ fits
  obtain ⟨-, -, admits⟩ := allocate_all_or_nothing (d := d) reached trimmed fresh
    (Inventory.addable_of_profiles known small') ⟨7⟩ "there" ⟨Timeouts.usual, [], .never, 0⟩ fits
  rcases admits granted with ⟨reserved, gains, admitted⟩ | ⟨-, many⟩
  · obtain ⟨left, untouched, refused⟩ := leaves _ declines
    exact ⟨d, reserved, reached, ⟨_, left, untouched, refused _⟩, gains, admitted⟩
  · rw [show d.cluster.inventory.slotCount = 1 from count] at many
    exact absurd many (by decide)

end Dispatcher

end SlotControl
