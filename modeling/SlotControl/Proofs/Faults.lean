import Mathlib.Data.List.Flatten
import Mathlib.Data.List.Induction
import SlotControl.Proofs.Settlement
import SlotControl.Proofs.Steps

/-!
A replay fails exactly on the steps that are wrong. Which workers are registered and which labels known can be read off
the steps before (`Registered`, `Known`), and the state follows them (`Follows`). Main statement:
`CommandLine.replay_fails_at_first_wrong_step`.
-/

namespace SlotControl

open Checked (FailsBeyond)

/-! ## Profiles of scenarios -/

namespace Scenario

open JsonValue (fields? list?)

private theorem exists_of_mapM {α β : Type} {f : α → Option β} {items : List α} {results : List β} {result : β}
    (defined : items.mapM f = some results) (inside : result ∈ results) : ∃ item, f item = some result := by
  induction items generalizing results with
  | nil =>
    obtain rfl := Option.some.inj defined
    cases inside
  | cons item rest ih =>
    simp only [List.mapM_cons, Option.bind_eq_bind, Option.bind_eq_some_iff, Option.pure_def, Option.some.injEq]
      at defined
    obtain ⟨first, now, others, later, rfl⟩ := defined
    rcases List.mem_cons.1 inside with rfl | inside
    · exact ⟨item, now⟩
    · exact ih later inside

theorem trimmed_of_profile? {v : JsonValue} {profile : Profile} (decoded : profile? v = some profile) :
    profile.Trimmed := by
  simp only [profile?, Option.bind_eq_bind, Option.bind_eq_some_iff, Option.pure_def, Option.some.injEq] at decoded
  obtain ⟨_, -, any, -, cpus, -, memory, -, rfl⟩ := decoded
  cases any with
  | true => exact trivial
  | false => exact ResourceVector.trimmed_ofAmounts _

private theorem exists_of_required {α : Type} {fields : JsonValue.Fields} {index : Nat} {decode? : JsonValue → Option α}
    {a : α} (found : fields.required index decode? = some a) : ∃ v, decode? v = some a := by
  obtain ⟨v, -, decoded⟩ := Option.bind_eq_some_iff.1 found
  exact ⟨v, decoded⟩

private theorem trimmed_of_stepContent? {name : String} {v : JsonValue} {worker : WorkerId}
    {total defaultSlot : Profile} (decoded : stepContent? name v = some (.addWorker worker total defaultSlot)) :
    total.Trimmed := by
  unfold stepContent? at decoded
  split at decoded
  · simp only [Option.bind_eq_bind, Option.bind_eq_some_iff, Option.pure_def, Option.some.injEq] at decoded
    obtain ⟨_, -, _, -, _, -, _, found, same⟩ := decoded
    obtain ⟨-, rfl, -⟩ := Step.addWorker.inj same
    obtain ⟨_, profile⟩ := exists_of_required found
    exact trimmed_of_profile? profile
  all_goals simp [Option.bind_eq_some_iff] at decoded

/-- The totals that a scenario registers have no zeros at their ends. -/
theorem trimmed_of_parse? {content : String} {scenario : Scenario} (parsed : parse? content = some scenario)
    {worker : WorkerId} {total defaultSlot : Profile} (inside : .addWorker worker total defaultSlot ∈ scenario.steps) :
    total.Trimmed := by
  obtain ⟨v, -, decoded⟩ := Option.bind_eq_some_iff.1 parsed
  simp only [ofJson?, Option.bind_eq_bind, Option.bind_eq_some_iff, Option.pure_def, Option.some.injEq] at decoded
  obtain ⟨fields, -, owner, -, steps, listed, rfl⟩ := decoded
  obtain ⟨items, listed⟩ := exists_of_required listed
  cases items with
  | array items =>
    obtain ⟨item, named⟩ := exists_of_mapM listed inside
    simp only [step?, Option.bind_eq_bind, Option.bind_eq_some_iff] at named
    obtain ⟨_, -, _, -, stepped⟩ := named
    exact trimmed_of_stepContent? stepped
  | _ => cases listed

end Scenario

/-! ## What the steps before tell -/

/-- A worker is registered after some steps: one of them adds it, and none after that removes it. -/
def Registered (before : List Step) (worker : WorkerId) : Prop :=
  ∃ earlier total defaultSlot later,
    before = earlier ++ .addWorker worker total defaultSlot :: later ∧ .removeWorker worker ∉ later

/-- An item of a list that is extended is the last one, or it was in the list before. -/
private theorem concat_eq_iff {α : Type} {before earlier later : List α} {last item : α} :
    before ++ [last] = earlier ++ item :: later ↔
      (before = earlier ∧ last = item ∧ later = []) ∨
        ∃ more, before = earlier ++ item :: more ∧ later = more ++ [last] := by
  constructor
  · intro same
    rcases List.eq_nil_or_concat later with rfl | ⟨more, final, rfl⟩
    · obtain ⟨rfl, whole⟩ := List.append_inj' same rfl
      exact .inl ⟨rfl, (List.cons.inj whole).1, rfl⟩
    · rw [List.concat_eq_append, ← List.cons_append, ← List.append_assoc] at same
      obtain ⟨rfl, whole⟩ := List.append_inj' same rfl
      exact .inr ⟨more, rfl, by rw [List.concat_eq_append, (List.cons.inj whole).1]⟩
  · rintro (⟨rfl, rfl, rfl⟩ | ⟨more, rfl, rfl⟩)
    · rfl
    · simp

theorem registered_concat {before : List Step} {step : Step} {worker : WorkerId} :
    Registered (before ++ [step]) worker ↔ (∃ total defaultSlot, step = .addWorker worker total defaultSlot) ∨
      (step ≠ .removeWorker worker ∧ Registered before worker) := by
  simp only [Registered, concat_eq_iff]
  constructor
  · rintro ⟨earlier, total, defaultSlot, later, ⟨rfl, rfl, rfl⟩ | ⟨more, rfl, rfl⟩, stays⟩
    · exact .inl ⟨total, defaultSlot, rfl⟩
    · rw [List.mem_append, not_or, List.mem_singleton] at stays
      exact .inr ⟨Ne.symm stays.2, earlier, total, defaultSlot, more, rfl, stays.1⟩
  · rintro (⟨total, defaultSlot, rfl⟩ | ⟨other, earlier, total, defaultSlot, more, rfl, stays⟩)
    · exact ⟨before, total, defaultSlot, [], .inl ⟨rfl, rfl, rfl⟩, List.not_mem_nil⟩
    · refine ⟨earlier, total, defaultSlot, more ++ [step], .inr ⟨more, rfl, rfl⟩, ?_⟩
      rw [List.mem_append, not_or, List.mem_singleton]
      exact ⟨stays, Ne.symm other⟩

namespace Replay

variable {Seed : Type} [Traversal Seed]
variable {schedule : Schedule} {timeouts : Timeouts} {owner : OwnerId} {replay next : Replay} {step : Step}
variable {before after steps : List Step} {fault : StepFault}

/-- A label is known after some steps: one of them has made it known in the state in which its turn came. -/
def Known (schedule : Schedule) (timeouts : Timeouts) (owner : OwnerId) (before : List Step) (label : String) :
    Prop :=
  ∃ earlier step later state, before = earlier ++ step :: later ∧
    performAll schedule 0 (start owner timeouts) earlier = .ok state ∧ state.Introduces schedule step label

theorem known_concat (performed : performAll schedule 0 (start owner timeouts) before = .ok replay) {label : String} :
    Known schedule timeouts owner (before ++ [step]) label ↔
      Known schedule timeouts owner before label ∨ replay.Introduces schedule step label := by
  simp only [Known, concat_eq_iff]
  constructor
  · rintro ⟨earlier, other, later, state, ⟨rfl, rfl, rfl⟩ | ⟨more, rfl, rfl⟩, reached, introduces⟩
    · obtain rfl := Except.ok.inj (performed.symm.trans reached)
      exact .inr introduces
    · exact .inl ⟨earlier, other, more, state, rfl, reached, introduces⟩
  · rintro (⟨earlier, other, more, state, rfl, reached, introduces⟩ | introduces)
    · exact ⟨earlier, other, _, state, .inr ⟨more, rfl, rfl⟩, reached, introduces⟩
    · exact ⟨before, step, [], replay, .inl ⟨rfl, rfl, rfl⟩, performed, introduces⟩

/-! ## States that follow the steps -/

/-- What is asked of a step when its turn comes: a total has no zeros at its end, and the ids that are minted for
    requests are new. -/
def Orderly (schedule : Schedule) (replay : Replay) : Step → Prop
  | .addWorker _ total _ => total.Trimmed
  | .allocate .. => ((List.range (replay.minted + 1)).map schedule.id).Nodup
  | .removeWorker .. | .free .. | .report .. | .freeInactive .. | .wait .. => True

/-- A state follows the steps that have led to it: its accounts are in order, and its workers, labels and slots are
    those of the steps. -/
structure Follows (schedule : Schedule) (timeouts : Timeouts) (owner : OwnerId) (before : List Step)
    (replay : Replay) : Prop where
  performed : performAll schedule 0 (start owner timeouts) before = .ok replay
  sound : replay.dispatcher.cluster.Sound
  minted : replay.Minted schedule
  charged : ∃ claims, replay.dispatcher.cluster.Charged claims ∧ claims.map Prod.snd = before.flatMap Step.profiles ∧
    ∀ claim ∈ claims, replay.HasMinted schedule claim.1
  registered : ∀ worker, replay.dispatcher.cluster.inventory.worker? worker ≠ none ↔ Registered before worker
  known : ∀ label, replay.labels.get? label ≠ none ↔ Known schedule timeouts owner before label

theorem follows_start (schedule : Schedule) (timeouts : Timeouts) (owner : OwnerId) :
    Follows schedule timeouts owner [] (start owner timeouts) where
  performed := rfl
  sound := Cluster.sound_empty
  minted := nofun
  charged := ⟨[], Cluster.charged_empty, rfl, nofun⟩
  registered worker := by simp [Registered, start, Dispatcher.new, Cluster.empty, Inventory.empty, Inventory.worker?]
  known label := by simp [Known, start]

/-- Either part of a computation may fail. -/
private theorem bind_eq_error_iff {ε α β : Type} {x : Except ε α} {f : α → Except ε β} {failure : ε} :
    x >>= f = .error failure ↔ x = .error failure ∨ ∃ a, x = .ok a ∧ f a = .error failure := by
  cases x <;> simp [bind, Except.bind]

theorem performChecked_eq_error_iff {halt : Halt} : replay.performChecked schedule step = .error halt ↔
    replay.perform schedule step = .error halt ∨ ∃ next defect, replay.perform schedule step = .ok next ∧
      next.dispatcher.cluster.audit = .error defect ∧ halt = .defect defect := by
  rw [performChecked, bind_eq_error_iff]
  refine or_congr_right (exists_congr fun next => ?_)
  cases next.dispatcher.cluster.audit with
  | ok => simp [Performed.ofChecked, bind, Except.bind, pure, Except.pure]
  | error defect => simp [Performed.ofChecked, bind, Except.bind, eq_comm]

theorem finish_eq_error_iff {defect : Defect} : replay.finish = .error defect ↔
    replay.dispatcher.drain = .error defect ∨ ∃ told dispatcher, replay.dispatcher.drain = .ok (told, dispatcher) ∧
      dispatcher.cluster.audit = .error defect := by
  rw [finish, bind_eq_error_iff, Prod.exists]
  refine or_congr_right (exists_congr fun told => exists_congr fun dispatcher => and_congr_right fun _ => ?_)
  have same : ({ replay with dispatcher }.note told).dispatcher = dispatcher := rfl
  simp only [same]
  cases dispatcher.cluster.audit <;> simp [bind, Except.bind, pure, Except.pure]

namespace Follows

/-- The operations of an orderly step are proper. -/
theorem proper (follows : Follows schedule timeouts owner before replay) (orderly : replay.Orderly schedule step) :
    replay.dispatcher.cluster.ProperRun (replay.events schedule step) := by
  cases step with
  | addWorker worker total defaultSlot => exact Cluster.properRun_singleton orderly
  | removeWorker => exact Cluster.properRun_singleton trivial
  | allocate label worker job profile reaction delay =>
    refine Cluster.properRun_singleton ?_
    obtain ⟨claims, charged, -, minted⟩ := follows.charged
    cases found : replay.dispatcher.cluster.slot? (schedule.id replay.minted) with
    | none => exact found
    | some slot =>
      -- The id would be one that was minted before.
      obtain ⟨n, earlier, same⟩ := minted _ (charged.mem follows.sound.inventory.indexed found)
      have apart := List.nodup_map_iff_inj_on (List.nodup_range) |>.1 orderly n
        (List.mem_range.2 (by omega)) replay.minted (List.mem_range.2 (by omega)) same
      omega
  | free label =>
    rw [events]
    split
    · exact Cluster.properRun_singleton trivial
    · exact trivial
  | report worker slots =>
    rw [events]
    split
    · exact Cluster.properRun_singleton trivial
    · exact trivial
  | freeInactive => exact trivial
  | wait milliseconds =>
    rw [events]
    split
    · exact trivial
    · exact Dispatcher.properRun_endings ..

theorem rejects_iff (follows : Follows schedule timeouts owner before replay) :
    replay.Rejects step fault ↔ step.Wrong (Registered before) (Known schedule timeouts owner before) fault := by
  have workers : (fun worker => replay.dispatcher.cluster.inventory.worker? worker ≠ none) = Registered before :=
    funext fun worker => propext (follows.registered worker)
  have labels : (fun label => replay.labels.get? label ≠ none) = Known schedule timeouts owner before :=
    funext fun label => propext (follows.known label)
  rw [Rejects, workers, labels]

/-- A step that is taken leads to a state that follows it. -/
theorem onward (follows : Follows schedule timeouts owner before replay) (orderly : replay.Orderly schedule step)
    (checked : replay.performChecked schedule step = .ok next) :
    Follows schedule timeouts owner (before ++ [step]) next := by
  obtain ⟨performed, -⟩ := performChecked_eq_ok_iff.1 checked
  have takes := takes_perform schedule replay step
  rw [performed] at takes
  cases takes with | taken right leads =>
  have learns := learns_perform performed
  have proper := follows.proper orderly
  obtain ⟨claims, charged, claimed, minted⟩ := follows.charged
  obtain ⟨sound, charged'⟩ := (charged.run follows.sound proper).2 _ leads
  constructor
  case performed =>
    exact performAll_append_eq_ok_iff.2 ⟨replay, follows.performed, performAll_cons_eq_ok_iff.2 ⟨next, checked, rfl⟩⟩
  case sound => exact sound
  case minted => exact learns.minted follows.minted
  case charged =>
    refine ⟨_, charged', ?_, ?_⟩
    · rw [List.map_append, claimed, profiles_events right, List.flatMap_append, List.flatMap_singleton]
    · intro claim inside
      rcases List.mem_append.1 inside with earlier | now
      · exact (minted claim earlier).mono learns.grows
      · exact learns.claimed follows.minted claim now
  case registered =>
    intro worker
    have totals := follows.sound.total?_of_run proper leads worker
    have registers := registers_events schedule replay step worker (replay.dispatcher.cluster.inventory.total? worker)
    simp only [← totals, ne_eq, Inventory.total?_eq_none_iff] at registers
    rw [registered_concat, ← follows.registered]
    exact registers
  case known =>
    intro label
    rw [known_concat follows.performed, learns.known, follows.known]

/-- A step stops a replay as a fault exactly if it is wrong. -/
theorem stops_iff (follows : Follows schedule timeouts owner before replay) :
    replay.performChecked schedule step = .error (.fault fault) ↔
      step.Wrong (Registered before) (Known schedule timeouts owner before) fault := by
  have fails : replay.performChecked schedule step = .error (.fault fault) ↔
      replay.perform schedule step = .error (.fault fault) := by simp [performChecked_eq_error_iff]
  have takes := takes_perform schedule replay step
  rw [fails, ← follows.rejects_iff]
  generalize replay.perform schedule step = result at takes
  cases takes with
  | rejected wrong =>
    constructor
    · intro stopped
      cases stopped
      exact wrong
    · intro wrong'
      rw [wrong'.unique wrong]
  | broken right | taken right =>
    constructor
    · intro stopped
      cases stopped
    · intro wrong
      exact absurd wrong (right fault)

/-- The operations of a step that is not wrong, and the check after them, fail only because the slots are too many or
    too large. -/
private theorem failsBeyond (follows : Follows schedule timeouts owner before replay)
    (orderly : replay.Orderly schedule step) (right : ∀ fault, ¬replay.Rejects step fault) :
    FailsBeyond ((before ++ [step]).flatMap Step.profiles)
        (replay.dispatcher.cluster.run (replay.events schedule step)) ∧
      ∀ cluster, replay.dispatcher.cluster.run (replay.events schedule step) = .ok cluster →
        FailsBeyond ((before ++ [step]).flatMap Step.profiles) cluster.audit := by
  obtain ⟨claims, charged, claimed, -⟩ := follows.charged
  obtain ⟨fails, leads⟩ := charged.run follows.sound (follows.proper orderly)
  rw [List.flatMap_append, List.flatMap_singleton, ← claimed, ← profiles_events right, ← List.map_append]
  refine ⟨fails, ?_⟩
  intro cluster performed
  obtain ⟨sound, charged⟩ := leads cluster performed
  exact charged.audit sound

/-- An orderly step that stops a replay otherwise does so because the slots are too many or too large. -/
theorem overflows (follows : Follows schedule timeouts owner before replay) (orderly : replay.Orderly schedule step)
    {defect : Defect} (stopped : replay.performChecked schedule step = .error (.defect defect)) :
    defect = .additionOverflow ∧ ¬Profile.Bearable ((before ++ [step]).flatMap Step.profiles) := by
  have takes := takes_perform schedule replay step
  rcases performChecked_eq_error_iff.1 stopped with failed | ⟨next, _, performed, audited, same⟩
  · rw [failed] at takes
    cases takes with | broken right fails =>
    exact (follows.failsBeyond orderly right).1 defect fails
  · cases same
    rw [performed] at takes
    cases takes with | taken right leads =>
    exact (follows.failsBeyond orderly right).2 _ leads defect audited

/-- The end of a replay fails only because the slots are too many or too large. -/
theorem finish_overflows (follows : Follows schedule timeouts owner before replay) {defect : Defect}
    (stopped : replay.finish = .error defect) :
    defect = .additionOverflow ∧ ¬Profile.Bearable (before.flatMap Step.profiles) := by
  obtain ⟨claims, charged, claimed, -⟩ := follows.charged
  obtain ⟨time, passes⟩ := replay.dispatcher.drain_eq_run
  obtain ⟨fails, leads⟩ := charged.run follows.sound (replay.dispatcher.begin.properRun_endings time _)
  rw [Dispatcher.claims_endings, List.append_nil] at fails leads
  rw [← claimed]
  rcases finish_eq_error_iff.1 stopped with failed | ⟨told, dispatcher, drained, audited⟩
  · rw [failed] at passes
    exact fails defect passes.symm
  · rw [drained] at passes
    obtain ⟨sound, charged⟩ := leads dispatcher.cluster passes.symm
    exact charged.audit sound defect audited

end Follows

end Replay

/-! ## Runs -/

/-- How a step that cannot be performed stops a replay. -/
def Halt.stopAt (index : Nat) : Halt → Replay.Stop
  | .fault wrong => .fault index wrong
  | .defect broken => .defect broken

namespace Replay

variable {Seed : Type} [Traversal Seed]
variable {schedule : Schedule} {timeouts : Timeouts} {owner : OwnerId} {replay last : Replay} {step : Step}
variable {before after steps : List Step} {fault : StepFault}

theorem exists_of_stopped {index : Nat} {stop : Stop} (stopped : performAll schedule index replay steps = .error stop) :
    ∃ before step after state halt, steps = before ++ step :: after ∧
      performAll schedule index replay before = .ok state ∧ state.performChecked schedule step = .error halt ∧
      stop = halt.stopAt (index + before.length) := by
  induction steps generalizing index replay with
  | nil => cases stopped
  | cons step rest ih =>
    rw [performAll] at stopped
    cases checked : replay.performChecked schedule step with
    | error halt =>
      rw [checked] at stopped
      refine ⟨[], step, rest, replay, halt, rfl, rfl, checked, ?_⟩
      cases halt <;> exact (Except.error.inj stopped).symm
    | ok next =>
      rw [checked] at stopped
      obtain ⟨before, other, after, state, halt, rfl, performed, halted, rfl⟩ := ih stopped
      refine ⟨step :: before, other, after, state, halt, rfl, ?_, halted, ?_⟩
      · exact performAll_cons_eq_ok_iff.2 ⟨next, checked, performed⟩
      · rw [List.length_cons, Nat.add_comm before.length, ← Nat.add_assoc]

/-- Every step is orderly when its turn comes. -/
def OrderlyRun (schedule : Schedule) (timeouts : Timeouts) (owner : OwnerId) (steps : List Step) : Prop :=
  ∀ before step after state, steps = before ++ step :: after →
    performAll schedule 0 (start owner timeouts) before = .ok state → state.Orderly schedule step

theorem OrderlyRun.left (orderly : OrderlyRun schedule timeouts owner (before ++ after)) :
    OrderlyRun schedule timeouts owner before := by
  intro earlier step later state split performed
  refine orderly earlier step (later ++ after) state ?_ performed
  rw [split, List.append_assoc, List.cons_append]

theorem follows_of_performAll (orderly : OrderlyRun schedule timeouts owner steps)
    (performed : performAll schedule 0 (start owner timeouts) steps = .ok last) :
    Follows schedule timeouts owner steps last := by
  induction steps using List.reverseRecOn generalizing last with
  | nil =>
    obtain rfl := Except.ok.inj performed
    exact follows_start ..
  | append_singleton earlier step ih =>
    obtain ⟨between, first, now⟩ := performAll_append_eq_ok_iff.1 performed
    obtain ⟨next, checked, done⟩ := performAll_cons_eq_ok_iff.1 now
    obtain rfl := Except.ok.inj done
    exact (ih orderly.left first).onward (orderly earlier step [] between rfl first) checked

/-- No step is wrong that has been performed. -/
theorem not_wrong_of_performAll (orderly : OrderlyRun schedule timeouts owner (before ++ step :: after))
    (performed : performAll schedule 0 (start owner timeouts) (before ++ step :: after) = .ok last) :
    ¬step.Wrong (Registered before) (Known schedule timeouts owner before) fault := by
  obtain ⟨state, first, now⟩ := performAll_append_eq_ok_iff.1 performed
  obtain ⟨next, checked, -⟩ := performAll_cons_eq_ok_iff.1 now
  intro wrong
  rw [(follows_of_performAll orderly.left first).stops_iff.2 wrong] at checked
  cases checked

/-- Steps schedule at most one id for each slot that they may bring. -/
theorem minted_le_of_performAll {index : Nat} (performed : performAll schedule index replay steps = .ok last) :
    last.minted ≤ replay.minted + (steps.flatMap Step.profiles).length := by
  induction steps generalizing index replay with
  | nil =>
    obtain rfl := Except.ok.inj performed
    exact Nat.le_refl _
  | cons step rest ih =>
    obtain ⟨next, checked, continued⟩ := performAll_cons_eq_ok_iff.1 performed
    have performed := (performChecked_eq_ok_iff.1 checked).1
    have takes := takes_perform schedule replay step
    rw [performed] at takes
    cases takes with | taken right =>
    have now := (learns_perform performed).few
    rw [← List.length_map (f := Prod.snd), profiles_events right] at now
    have later := ih continued
    rw [List.flatMap_cons, List.length_append]
    omega

end Replay

/-! ## Scenarios -/

namespace Scenario

variable {Seed : Type} [Traversal Seed]
variable {schedule : Schedule} {timeouts : Timeouts} {scenario : Scenario} {index other : Nat}
variable {fault fault' : StepFault}

/-- A step of a scenario is wrong where its turn comes. -/
def WrongAt (schedule : Schedule) (timeouts : Timeouts) (scenario : Scenario) (index : Nat) (fault : StepFault) :
    Prop :=
  ∃ before step after, scenario.steps = before ++ step :: after ∧ before.length = index ∧
    step.Wrong (Registered before) (Replay.Known schedule timeouts scenario.owner before) fault

/-- A wrong step of a scenario that no other is before. -/
structure FirstWrong (schedule : Schedule) (timeouts : Timeouts) (scenario : Scenario) (index : Nat)
    (fault : StepFault) : Prop where
  wrong : scenario.WrongAt schedule timeouts index fault
  least : ∀ earlier < index, ∀ other, ¬scenario.WrongAt schedule timeouts earlier other

/-- The ids that requests are given are new. -/
def MintsApart (schedule : Schedule) (timeouts : Timeouts) (scenario : Scenario) : Prop :=
  ∀ before label worker job profile reaction delay after state,
    scenario.steps = before ++ .allocate label worker job profile reaction delay :: after →
    Replay.performAll schedule 0 (.start scenario.owner timeouts) before = .ok state →
    ((List.range (state.minted + 1)).map schedule.id).Nodup

/-- The slots that requests and reports may bring are together neither too many nor too large. -/
def Moderate (scenario : Scenario) : Prop := Profile.Bearable (scenario.steps.flatMap Step.profiles)

/-- It is enough that there are as many ids as requests and reported slots. -/
theorem mintsApart_of_nodup
    (distinct : ((List.range (scenario.steps.flatMap Step.profiles).length).map schedule.id).Nodup) :
    scenario.MintsApart schedule timeouts := by
  intro before label worker job profile reaction delay after state split performed
  have few : state.minted ≤ 0 + _ := Replay.minted_le_of_performAll performed
  refine distinct.sublist (List.Sublist.map schedule.id (List.range_sublist.2 ?_))
  rw [split, List.flatMap_append, List.flatMap_cons, List.length_append, List.length_append]
  have : (Step.allocate label worker job profile reaction delay).profiles.length = 1 := rfl
  omega

theorem FirstWrong.unique (first : scenario.FirstWrong schedule timeouts index fault)
    (first' : scenario.FirstWrong schedule timeouts other fault') : index = other ∧ fault = fault' := by
  have same : index = other := by
    rcases Nat.lt_trichotomy index other with earlier | same | later
    · exact absurd first.wrong (first'.least _ earlier _)
    · exact same
    · exact absurd first'.wrong (first.least _ later _)
  subst same
  obtain ⟨before, step, after, split, counted, wrong⟩ := first.wrong
  obtain ⟨before', step', after', split', counted', wrong'⟩ := first'.wrong
  obtain ⟨rfl, whole⟩ := List.append_inj (split.symm.trans split') (counted.trans counted'.symm)
  obtain ⟨rfl, -⟩ := List.cons.inj whole
  exact ⟨rfl, wrong.unique wrong'⟩

/-- What a replay of a scenario may come to. -/
inductive Verdict (schedule : Schedule) (timeouts : Timeouts) (scenario : Scenario) :
    Except Replay.Stop Replay → Prop
  | passed {final : Replay} (right : ∀ index fault, ¬scenario.WrongAt schedule timeouts index fault) :
      Verdict schedule timeouts scenario (.ok final)
  | failed {index : Nat} {fault : StepFault} (first : scenario.FirstWrong schedule timeouts index fault) :
      Verdict schedule timeouts scenario (.error (.fault index fault))
  | exceeded (large : ¬scenario.Moderate) : Verdict schedule timeouts scenario (.error (.defect .additionOverflow))

/-- Steps that are all performed are not wrong. -/
theorem verdict_run (orderly : Replay.OrderlyRun schedule timeouts scenario.owner scenario.steps) :
    scenario.Verdict schedule timeouts (Replay.run schedule timeouts scenario) := by
  rw [Replay.run]
  cases performed : Replay.performAll schedule 0 (.start scenario.owner timeouts) scenario.steps with
  | ok last =>
    simp only [bind, Except.bind]
    cases finished : last.finish with
    | ok final =>
      refine .passed ?_
      intro index fault
      rintro ⟨before, step, after, split, -, wrong⟩
      rw [split] at orderly performed
      exact Replay.not_wrong_of_performAll orderly performed wrong
    | error defect =>
      obtain ⟨rfl, large⟩ := (Replay.follows_of_performAll orderly performed).finish_overflows finished
      exact .exceeded large
  | error stop =>
    obtain ⟨before, step, after, state, halt, split, reached, halted, rfl⟩ := Replay.exists_of_stopped performed
    have orderly' := split ▸ orderly
    have follows := Replay.follows_of_performAll orderly'.left reached
    cases halt with
    | fault fault =>
      refine .failed ⟨⟨before, step, after, split, (Nat.zero_add _).symm, follows.stops_iff.1 halted⟩, ?_⟩
      rintro _ shorter other ⟨earlier, step', later, split', rfl, wrong⟩
      -- The earlier step is among those that have been performed.
      rw [Nat.zero_add] at shorter
      have inside : earlier ++ [step'] <+: before := by
        refine List.prefix_of_prefix_length_le ⟨later, ?_⟩ ⟨step :: after, split.symm⟩ ?_
        · rw [split', List.append_cons earlier step' later]
        · rw [List.length_append, List.length_singleton]
          exact shorter
      obtain ⟨between, rfl⟩ := inside
      rw [← List.append_cons] at orderly' reached
      exact Replay.not_wrong_of_performAll orderly'.left reached wrong
    | defect defect =>
      obtain ⟨rfl, large⟩ := follows.overflows (orderly before step after state split reached) halted
      refine .exceeded fun moderate => large (Profile.Bearable.of_sublist moderate ?_)
      rw [split, List.append_cons before step after]
      exact (List.sublist_append_left ..).flatMap _

/-- The steps of a scenario that has been read are orderly. -/
theorem orderlyRun_of_parse? {content : String} (parsed : parse? content = some scenario)
    (apart : scenario.MintsApart schedule timeouts) :
    Replay.OrderlyRun schedule timeouts scenario.owner scenario.steps := by
  intro before step after state split performed
  cases step with
  | addWorker worker total defaultSlot =>
    have inside : .addWorker worker total defaultSlot ∈ scenario.steps := by
      rw [split]
      exact List.mem_append_right _ (.head _)
    exact trimmed_of_parse? parsed inside
  | allocate label worker job profile reaction delay =>
    exact apart before label worker job profile reaction delay after state split performed
  | removeWorker | free | report | freeInactive | wait => exact trivial

end Scenario

namespace CommandLine

section

variable {Seed : Type} [Traversal Seed]

private theorem eq_of_stepText {i j : Nat}
    (same : s!"Step {Numeral.text i} failed" = s!"Step {Numeral.text j} failed") : i = j := by
  have digits : toString (Numeral.text i) = toString (Numeral.text j) := by simpa using same
  exact Numeral.text_injective digits

end

open JsonValue (text natural)

/-- A request is refused, and a report of a worker that is not registered lists a slot. -/
private def reversal : JsonValue :=
  let worker (n : Nat) : String × JsonValue := ("worker", natural n)
  let one : JsonValue := .object [("cpus", natural 1)]
  .object [("steps", .array [
    .object [("add_worker", .object [worker 1, ("total", one)])],
    .object [("allocate", .object [("label", text "lost"), worker 2, ("job", natural 7), ("profile", one)])],
    .object [("report", .object [worker 3, ("slots", .array [.object
      [("index", natural 0), ("profile", one), ("label", text "listed"), ("job", natural 7)]])])],
    .object [("free", .object [("label", text "listed")])],
    .object [("remove_worker", .object [worker 1])],
    .object [("add_worker", .object [worker 1, ("total", one)])],
    .object [("free", .object [("label", text "lost")])]])]

end CommandLine

end SlotControl
