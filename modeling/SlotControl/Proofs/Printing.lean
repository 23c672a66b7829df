import Mathlib.Data.List.Forall2
import Mathlib.Data.List.Nodup
import SlotControl.Proofs.Listing
import SlotControl.Proofs.Messages
import SlotControl.Proofs.Numerals
import SlotControl.Replay.Snapshot

/-!
What the print of a replay tells of its state. Everything in it can be read back (`plain_snapshot`), and it has a
part for each result, for what each job holds, for each call that asked a worker to free idle slots, and for each
worker with all of its slots (`shows_snapshot`).
-/

namespace SlotControl

namespace JsonValue

variable {v content other : JsonValue} {name : String}

/-- The value is an object that has the content under the name, and nothing else there. -/
def Has (v : JsonValue) (name : String) (content : JsonValue) : Prop :=
  ∃ members, v = .object members ∧ member? members name = some (some content)

/-- The value is an object with one member for each of the names, and no other. -/
def Names (v : JsonValue) (names : List String) : Prop :=
  ∃ members, v = .object members ∧ (members.map Prod.fst).Perm names

/-- An item is listed among the slots of one of the workers. -/
def ListsSlot (v item : JsonValue) : Prop :=
  ∃ workers worker slots, v.Has "workers" (.array workers) ∧ worker ∈ workers ∧ worker.Has "slots" (.array slots) ∧
    item ∈ slots

theorem Has.unique (one : v.Has name content) (two : v.Has name other) : content = other := by
  obtain ⟨members, rfl, found⟩ := one
  obtain ⟨members', same, found'⟩ := two
  obtain rfl := JsonValue.object.inj same
  exact Option.some.inj (Option.some.inj (found.symm.trans found'))

theorem has_object {members : List (String × JsonValue)} (distinct : (members.map Prod.fst).Nodup)
    (inside : (name, content) ∈ members) : (object members).Has name content :=
  ⟨members, rfl, member?_of_mem distinct inside⟩

end JsonValue

namespace Replay

open JsonValue (natural text)
open Wire (encode)

/-! ## What is to be told -/

/-- A name that an allocation goes by: one of its labels, or its own text if it has none. -/
inductive GoesBy (replay : Replay) (allocation : AllocationId) : String → Prop
  | label {label : String} (labelled : replay.labels.get? label = some allocation) : GoesBy replay allocation label
  | own (unlabelled : ∀ label, replay.labels.get? label ≠ some allocation) : GoesBy replay allocation allocation.text

/-- The item tells everything about the slot. -/
structure ShowsSlot (replay : Replay) (slot : Slot) (item : JsonValue) : Prop where
  allocation : ∃ name, replay.GoesBy slot.allocation name ∧ item.Has "allocation" (text name)
  job : item.Has "job" (natural slot.job.number.toNat)
  profile : item.Has "profile" (text slot.profile.text)
  place : item.Has "slot" (text slot.place.text)
  state : item.Has "state" (text slot.state.text)

/-- The item tells everything about the worker, and lists each of its slots once. -/
structure ShowsWorker (replay : Replay) (worker : Worker) (item : JsonValue) : Prop where
  id : item.Has "id" (natural worker.id.number.toNat)
  total : item.Has "total" (text worker.total.text)
  available : item.Has "available" (text worker.available.text)
  room : item.Has "free_default_slots" (.optional natural (worker.available.fits? worker.defaultSlot))
  slots : ∃ items, item.Has "slots" (.array items) ∧ List.Forall₂ replay.ShowsSlot worker.slots.values items

/-- The item tells a profile and how often it is held. -/
structure ShowsHolding (holding : Requirement) (item : JsonValue) : Prop where
  profile : item.Has "profile" (text holding.profile.text)
  count : item.Has "count" (natural holding.count.toNat)

/-- The item tells which worker was asked to free idle slots, and for which job. -/
structure ShowsCall (call : WorkerId × JobId) (item : JsonValue) : Prop where
  worker : item.Has "worker" (natural call.1.number.toNat)
  job : item.Has "job" (natural call.2.number.toNat)

/-- The value tells all results, what all jobs hold, which workers were asked to free idle slots, and all workers. -/
structure Shows (replay : Replay) (printed : JsonValue) : Prop where
  results : ∃ results, printed.Has "allocations" results ∧ results.Names replay.results.keys ∧
    ∀ label outcome, replay.results.get? label = some outcome → results.Has label (text outcome)
  jobs : ∃ jobs, printed.Has "jobs" jobs ∧ jobs.Names (replay.dispatcher.cluster.ledger.jobIds.map JobId.text) ∧
    ∀ job ∈ replay.dispatcher.cluster.ledger.jobIds, ∃ items, jobs.Has job.text (.array items) ∧
      List.Forall₂ ShowsHolding (replay.dispatcher.cluster.ledger.acquired job) items
  freed : ∃ items, printed.Has "free_inactive_requests" (.array items) ∧ List.Forall₂ ShowsCall replay.freed items
  workers : ∃ items, printed.Has "workers" (.array items) ∧
    List.Forall₂ replay.ShowsWorker replay.dispatcher.cluster.inventory.workers.values items

variable {replay : Replay} {printed item : JsonValue}

/-- Items that are related to others in turn come from them. -/
private theorem exists_of_mem_right {α β : Type} {R : α → β → Prop} {left : List α} {right : List β}
    (related : List.Forall₂ R left right) {b : β} (inside : b ∈ right) : ∃ a ∈ left, R a b := by
  induction related with
  | nil => cases inside
  | cons first _ ih =>
    rcases List.mem_cons.1 inside with rfl | later
    · exact ⟨_, .head _, first⟩
    · obtain ⟨a, listed, its⟩ := ih later
      exact ⟨a, .tail _ listed, its⟩

/-- Every slot that is listed is in the state. -/
theorem Shows.exists_slot (shows : replay.Shows printed) (listed : printed.ListsSlot item) :
    ∃ slot ∈ replay.dispatcher.cluster.inventory.slots, replay.ShowsSlot slot item := by
  obtain ⟨workers, worker, slots, listing, inside, its, within⟩ := listed
  obtain ⟨workers', listing', all⟩ := shows.workers
  obtain rfl := JsonValue.array.inj (listing.unique listing')
  obtain ⟨source, registered, told⟩ := exists_of_mem_right all inside
  obtain ⟨slots', its', each⟩ := told.slots
  obtain rfl := JsonValue.array.inj (its.unique its')
  obtain ⟨slot, recorded, same⟩ := exists_of_mem_right each within
  exact ⟨slot, List.mem_flatMap.2 ⟨source, registered, recorded⟩, same⟩

/-! ## What is printed -/

private theorem names_eq (replay : Replay) : replay.names = .ofList (replay.labels.entries.map Prod.swap) := by
  rw [names, SortedMap.ofList, List.foldl_map]
  rfl

/-- An allocation is printed under a name that it goes by. -/
theorem goesBy_getD (replay : Replay) (allocation : AllocationId) :
    replay.GoesBy allocation ((replay.names.get? allocation).getD allocation.text) := by
  cases named : replay.names.get? allocation with
  | none =>
    refine .own fun label labelled => ?_
    rw [names_eq, SortedMap.get?_ofList_eq_none_iff] at named
    have listed := List.mem_map_of_mem (f := Prod.swap) ((SortedMap.get?_eq_some_iff ..).1 labelled)
    exact named (List.mem_map_of_mem (f := Prod.fst) listed)
  | some label =>
    refine .label ?_
    rw [names_eq, SortedMap.get?_ofList_eq_some_iff_last] at named
    obtain ⟨earlier, later, split, -⟩ := named
    have listed : (allocation, label) ∈ replay.labels.entries.map Prod.swap := by simp [split]
    obtain ⟨entry, inside, same⟩ := List.mem_map.1 listed
    obtain ⟨rfl, rfl⟩ := Prod.mk.inj same
    exact (SortedMap.get?_eq_some_iff ..).2 inside

theorem showsSlot (replay : Replay) (slot : Slot) : replay.ShowsSlot slot (slotJson replay.names slot) := by
  constructor
  case allocation => exact ⟨_, replay.goesBy_getD slot.allocation, JsonValue.has_object (by simp) (.head _)⟩
  all_goals exact JsonValue.has_object (by simp) (by simp; rfl)

theorem showsWorker (replay : Replay) (worker : Worker) :
    replay.ShowsWorker worker (workerJson replay.names worker) := by
  constructor
  case slots =>
    refine ⟨_, JsonValue.has_object (by simp) (.tail _ (.tail _ (.tail _ (.head _)))), ?_⟩
    rw [List.forall₂_map_right_iff, List.forall₂_same]
    intro slot _
    exact replay.showsSlot slot
  all_goals exact JsonValue.has_object (by simp) (by simp; rfl)

private theorem injective_text : Function.Injective JobId.text := fun _ _ same =>
  congrArg JobId.mk (UInt32.toNat_inj.1 (Numeral.text_injective same))

/-- The object that is printed for the jobs has a member for each of them. -/
private theorem jobs_entries_perm (ledger : Ledger) :
    (SortedMap.ofList (ledger.jobIds.map (jobMember ledger))).entries.Perm (ledger.jobIds.map (jobMember ledger)) := by
  have distinct : ((ledger.jobIds.map (jobMember ledger)).map Prod.fst).Nodup := by
    rw [List.map_map]
    exact (SortedMap.nodup_keys _).map injective_text
  refine (List.perm_ext_iff_of_nodup (SortedMap.nodup_entries _) (.of_map _ distinct)).2 fun entry => ?_
  exact (SortedMap.get?_eq_some_iff _ entry.1 entry.2).symm.trans (SortedMap.get?_ofList_eq_some_iff distinct _ _)

theorem showsHolding (holding : Requirement) : ShowsHolding holding (.object [
    ("count", encode holding.count), ("profile", encode holding.profile.text)]) where
  profile := JsonValue.has_object (by simp) (.tail _ (.head _))
  count := JsonValue.has_object (by simp) (.head _)

theorem showsCall (call : WorkerId × JobId) : ShowsCall call (freedJson call) where
  worker := JsonValue.has_object (by simp) (.tail _ (.head _))
  job := JsonValue.has_object (by simp) (.head _)

/-- Nothing of the state is left out of the print. -/
theorem shows_snapshot (replay : Replay) : replay.Shows replay.snapshot := by
  have part {name : String} {content : JsonValue} (inside : (name, content) ∈ [
      ("allocations", .object (replay.results.entries.map fun entry => (entry.1, encode entry.2))),
      ("free_inactive_requests", .array (replay.freed.map freedJson)),
      ("jobs", .object (SortedMap.ofList (replay.dispatcher.cluster.ledger.jobIds.map
        (jobMember replay.dispatcher.cluster.ledger))).entries),
      ("workers", .array (replay.dispatcher.cluster.inventory.workers.values.map (workerJson replay.names)))]) :
      replay.snapshot.Has name content := JsonValue.has_object (by simp) inside
  constructor
  case results =>
    have keys : (replay.results.entries.map fun entry => (entry.1, (encode entry.2 : JsonValue))).map Prod.fst =
        replay.results.keys := by
      simp [SortedMap.keys]
    refine ⟨_, part (.head _), ⟨_, rfl, .of_eq keys⟩, fun label outcome written => ?_⟩
    refine JsonValue.has_object (by rw [keys]; exact SortedMap.nodup_keys _) (List.mem_map.2 ?_)
    exact ⟨(label, outcome), (SortedMap.get?_eq_some_iff ..).1 written, rfl⟩
  case jobs =>
    have perm := jobs_entries_perm replay.dispatcher.cluster.ledger
    have keys := perm.map Prod.fst
    rw [List.map_map] at keys
    refine ⟨_, part (.tail _ (.tail _ (.head _))), ⟨_, rfl, keys⟩, fun job listed => ?_⟩
    refine ⟨_, JsonValue.has_object (SortedMap.nodup_keys _) (perm.mem_iff.2 (List.mem_map_of_mem listed)), ?_⟩
    rw [List.forall₂_map_right_iff, List.forall₂_same]
    exact fun holding _ => showsHolding holding
  case freed =>
    refine ⟨_, part (.tail _ (.head _)), ?_⟩
    rw [List.forall₂_map_right_iff, List.forall₂_same]
    exact fun call _ => showsCall call
  case workers =>
    refine ⟨_, part (.tail _ (.tail _ (.tail _ (.head _)))), ?_⟩
    rw [List.forall₂_map_right_iff, List.forall₂_same]
    exact fun worker _ => replay.showsWorker worker

/-! ## Reading it back -/

private theorem plain_worker (names : SortedMap AllocationId String) (worker : Worker) :
    (workerJson names worker).Plain := by
  simp [workerJson, slotJson, JsonValue.plain_optional]

private theorem plain_job (ledger : Ledger) (job : JobId) : (jobMember ledger job).2.Plain := by
  simp [jobMember]

private theorem plain_freed (call : WorkerId × JobId) : (freedJson call).Plain := by
  simp [freedJson]

/-- All that is printed are texts, numbers and words in arrays and objects. -/
theorem plain_snapshot (replay : Replay) : replay.snapshot.Plain := by
  have jobs : ∀ entry ∈ (SortedMap.ofList (replay.dispatcher.cluster.ledger.jobIds.map
      (jobMember replay.dispatcher.cluster.ledger))).entries, entry.2.Plain := by
    intro entry inside
    obtain ⟨job, -, rfl⟩ := List.mem_map.1 ((jobs_entries_perm _).mem_iff.1 inside)
    exact plain_job _ job
  simp only [snapshot, JsonValue.plain_object, JsonValue.plain_array, List.forall_mem_cons, List.forall_mem_map]
  exact ⟨fun entry _ => Wire.Lawful.plain entry.2, fun call _ => plain_freed call, jobs,
    fun worker _ => plain_worker _ worker, List.forall_mem_nil _⟩

end Replay

end SlotControl
