import Mathlib.Algebra.GroupWithZero.Nat
import SlotControl.Proofs.Course

/-!
It does not matter in how many steps time passes. The requests that are due by a moment come before all others in the
order of their ends, so that what ends until a later moment is what ends until the earlier one and then the rest. Main
statements: `passUntil_split` for two moments, `advance_add` for two steps and `run_advances` for any number of them.
-/

namespace SlotControl

variable {Seed : Type} [Traversal Seed]

/-! ## Sorting in two parts -/

section Sorting

variable {α : Type} {le : α → α → Bool}

/-- Items at the end that fail a test end the part in front that passes it. -/
private theorem takeWhile_append_of_fails {test : α → Bool} (items : List α) {others : List α}
    (fails : ∀ b ∈ others, test b = false) : (items ++ others).takeWhile test = items.takeWhile test ∧
      (items ++ others).dropWhile test = items.dropWhile test ++ others := by
  induction items with
  | nil => cases others <;> simp_all
  | cons a rest ih => cases passed : test a <;> simp [passed, ih]

/-- An item goes behind those that it need not come before. -/
private theorem mergeSort_cons_eq (trans : ∀ a b c, le a b = true → le b c = true → le a c = true)
    (total : ∀ a b, (le a b || le b a) = true) (a : α) (items : List α) : (a :: items).mergeSort le =
      (items.mergeSort le).takeWhile (!le a ·) ++ a :: (items.mergeSort le).dropWhile (!le a ·) := by
  obtain ⟨before, after, whole, parts, behind⟩ := List.mergeSort_cons trans total a items
  have ordered := List.pairwise_mergeSort trans total (a :: items)
  rw [whole, List.pairwise_append, List.pairwise_cons] at ordered
  have ahead : ∀ b ∈ after, (!le a b) = false := fun b inside => by simpa using ordered.2.1.1 b inside
  obtain ⟨taken, left⟩ := takeWhile_append_of_fails [] ahead
  rw [List.nil_append] at taken left
  rw [whole, parts, List.takeWhile_append_of_pos behind, List.dropWhile_append_of_pos behind, taken, left]
  simp

/-- Items that come before all others can be sorted apart from them. -/
theorem mergeSort_split (trans : ∀ a b c, le a b = true → le b c = true → le a c = true)
    (total : ∀ a b, (le a b || le b a) = true) {early : α → Bool} {items : List α}
    (apart : ∀ a ∈ items, ∀ b ∈ items, early a = true → early b = false → le b a = false) :
    items.mergeSort le = (items.filter early).mergeSort le ++ (items.filter (!early ·)).mergeSort le := by
  induction items with
  | nil => simp
  | cons a rest ih =>
    rw [mergeSort_cons_eq trans total, ih fun b inside c inside' => apart b (.tail _ inside) c (.tail _ inside')]
    have chosen : ∀ {chosen : α → Bool} {b}, b ∈ (rest.filter chosen).mergeSort le → b ∈ rest ∧ chosen b = true :=
      fun inside => List.mem_filter.1 (List.mem_mergeSort.1 inside)
    cases first : early a with
    | true =>
      have ahead : ∀ b ∈ (rest.filter (!early ·)).mergeSort le, (!le a b) = false := by
        intro b inside
        have late := apart a (.head _) b (.tail _ (chosen inside).1) first (by simpa using (chosen inside).2)
        simpa [late] using total a b
      obtain ⟨taken, left⟩ := takeWhile_append_of_fails ((rest.filter early).mergeSort le) ahead
      rw [taken, left, List.filter_cons_of_pos first, List.filter_cons_of_neg (by simp [first]),
        mergeSort_cons_eq trans total, List.append_assoc, List.cons_append]
    | false =>
      have behind : ∀ b ∈ (rest.filter early).mergeSort le, (!le a b) = true := by
        intro b inside
        simpa using apart b (.tail _ (chosen inside).1) a (.head _) (chosen inside).2 first
      rw [List.takeWhile_append_of_pos behind, List.dropWhile_append_of_pos behind,
        List.filter_cons_of_neg (by simp [first]), List.filter_cons_of_pos (by simp [first]),
        mergeSort_cons_eq trans total, List.append_assoc]

end Sorting

/-! ## Requests that are due -/

namespace Flight

variable {flight : Flight} {earlier later : Nat}

theorem isDueBy_iff {time : Nat} :
    flight.isDueBy time = true ↔ ∃ moment, flight.due? = some moment ∧ moment ≤ time := by
  cases found : flight.due? <;> simp [isDueBy, found]

theorem isDueBy_mono (before : earlier ≤ later) (due : flight.isDueBy earlier = true) :
    flight.isDueBy later = true := by
  obtain ⟨moment, found, reached⟩ := isDueBy_iff.1 due
  exact isDueBy_iff.2 ⟨moment, found, Nat.le_trans reached before⟩

theorem isDueAhead_iff {time : Nat} {ahead : AllocationId → Bool} : flight.isDueAhead time ahead = true ↔
    ∃ moment, flight.due? = some moment ∧ (moment < time ∨ moment = time ∧ ahead flight.allocation = true) := by
  cases found : flight.due? <;> simp [isDueAhead, found]

/-- A request that ends ahead of a caller is due by the time at which the caller goes on. -/
theorem isDueBy_of_isDueAhead {time : Nat} {ahead : AllocationId → Bool}
    (due : flight.isDueAhead time ahead = true) : flight.isDueBy time = true := by
  obtain ⟨moment, found, reached⟩ := isDueAhead_iff.1 due
  exact isDueBy_iff.2 ⟨moment, found, by omega⟩

/-- Only a request that is due just when a caller goes on may end after that. -/
theorem due?_of_not_isDueAhead {time : Nat} {ahead : AllocationId → Bool}
    (after : flight.isDueAhead time ahead = false) (due : flight.isDueBy time = true) :
    flight.due? = some time := by
  obtain ⟨moment, found, reached⟩ := isDueBy_iff.1 due
  rcases Nat.lt_or_eq_of_le reached with earlier | rfl
  · rw [isDueAhead_iff.2 ⟨moment, found, .inl earlier⟩] at after
    cases after
  · exact found

/-- The requests that are due by a moment end before those that are due later, whenever they were made. -/
theorem sort_split (flights : List Flight) (before : earlier ≤ later) :
    (flights.filter (isDueBy later)).mergeSort isNoLater =
      (flights.filter (isDueBy earlier)).mergeSort isNoLater ++
        ((flights.filter (!isDueBy earlier ·)).filter (isDueBy later)).mergeSort isNoLater := by
  have trans : ∀ a b c : Flight, a.isNoLater b = true → b.isNoLater c = true → a.isNoLater c = true := by
    simp only [isNoLater, decide_eq_true_eq]
    omega
  have total : ∀ a b : Flight, (a.isNoLater b || b.isNoLater a) = true := by
    simp only [isNoLater, Bool.or_eq_true, decide_eq_true_eq]
    omega
  have apart : ∀ a ∈ flights.filter (isDueBy later), ∀ b ∈ flights.filter (isDueBy later),
      a.isDueBy earlier = true → b.isDueBy earlier = false → b.isNoLater a = false := by
    intro a _ b inside due late
    obtain ⟨moment, found, reached⟩ := isDueBy_iff.1 due
    obtain ⟨moment', found', -⟩ := isDueBy_iff.1 (List.mem_filter.1 inside).2
    have after : ¬moment' ≤ earlier := fun reached' => by
      simp [isDueBy_iff.2 ⟨moment', found', reached'⟩] at late
    simp only [isNoLater, found, found', Option.getD_some, decide_eq_false_iff_not]
    omega
  have early : (flights.filter (isDueBy later)).filter (isDueBy earlier) = flights.filter (isDueBy earlier) := by
    rw [List.filter_filter]
    refine List.filter_congr fun flight _ => ?_
    cases due : flight.isDueBy earlier with
    | true => simp [isDueBy_mono before due]
    | false => rfl
  rw [mergeSort_split trans total apart, early, List.filter_comm]

end Flight

namespace Dispatcher

variable {d : Dispatcher}

/-- Requests end one after the other. -/
theorem landAll_append (cluster : Cluster) (first later : List Flight) : landAll cluster (first ++ later) = (do
    let (told, between) ← landAll cluster first
    let (others, last) ← landAll between later
    return (told ++ others, last)) := by
  induction first generalizing cluster with
  | nil =>
    show landAll cluster later = (landAll cluster later).bind fun result => .ok ([] ++ result.1, result.2)
    cases landAll cluster later <;> rfl
  | cons flight rest ih => simp [landAll, ih]

/-- Time passes until a moment by passing until an earlier one first. -/
theorem passUntil_split (d : Dispatcher) {earlier later : Nat} (before : earlier ≤ later) : d.passUntil later = (do
    let (told, between) ← d.passUntil earlier
    let (others, last) ← between.passUntil later
    return (told ++ others, last)) := by
  have waiting : (d.flights.filter (not ∘ Flight.isDueBy earlier)).filter (not ∘ Flight.isDueBy later) =
      d.flights.filter (not ∘ Flight.isDueBy later) := by
    rw [List.filter_filter]
    refine List.filter_congr fun flight _ => ?_
    cases due : flight.isDueBy earlier with
    | true => simp [due, Flight.isDueBy_mono before due]
    | false => simp [due]
  have sorted := Flight.sort_split d.flights before
  simp only [passUntil, endWhere, List.partition_eq_filter_filter, sorted, landAll_append, bind_assoc, pure_bind,
    waiting]
  rfl

/-! ## Steps -/

/-- A task begins once. -/
theorem begin_begun (begun : ∀ flight ∈ d.flights, flight.start ≠ none)
    (expecting : ∀ task ∈ d.openings, task.forsaken = false) : d.begin = d := by
  have same : d.flights.map (.begin d.now) = d.flights := by
    refine (List.map_congr_left fun flight inside => ?_).trans (List.map_id _)
    obtain ⟨moment, started⟩ := Option.ne_none_iff_exists'.1 (begun flight inside)
    rw [Flight.begin, started, Option.getD_some, ← started, id]
  have kept : d.openings.filter (!·.forsaken) = d.openings :=
    List.filter_eq_self.2 fun task inside => by rw [expecting task inside]; rfl
  rw [begin, same, kept]

/-- All tasks have begun, and go on. -/
private theorem begin_passUntil {time : Nat} {told : List Resolution} {next : Dispatcher}
    (passed : d.begin.passUntil time = .ok (told, next)) : next.begin = next := by
  rw [((endWhere_eq_ok_iff _ _ _).1 passed).2]
  refine begin_begun ?_ ?_
  · intro flight inside
    obtain ⟨before, -, rfl⟩ := List.mem_map.1 (List.mem_filter.1 inside).1
    exact nofun
  · intro task inside
    exact Bool.eq_false_iff.2 (by simpa using (List.mem_filter.1 inside).2)

/-- One step of time is as good as two. -/
theorem advance_add (d : Dispatcher) (a b : Nat) : d.advance (a + b) = (do
    let (told, between) ← d.advance a
    let (others, last) ← between.advance b
    return (told ++ others, last)) := by
  rw [advance, passUntil_split d.begin (show d.now + a ≤ d.now + (a + b) by omega), advance]
  cases passed : d.begin.passUntil (d.now + a) with
  | error defect => rfl
  | ok result =>
    obtain ⟨told, between⟩ := result
    have now : between.now = d.now + a := by rw [((endWhere_eq_ok_iff _ _ _).1 passed).2]
    show (between.passUntil (d.now + (a + b)) >>= _) = (between.advance b >>= _)
    rw [advance, begin_passUntil passed, now, Nat.add_assoc]

theorem run_append_eq (d : Dispatcher) (first later : List Operation) : d.run (first ++ later) = (do
    let (told, between) ← d.run first
    let (others, last) ← between.run later
    return (told ++ others, last)) := by
  induction first generalizing d with
  | nil =>
    show d.run later = (d.run later).bind fun result => .ok ([] ++ result.1, result.2)
    cases d.run later <;> rfl
  | cons operation rest ih => simp [run, ih]

/-- So is one step as good as any number of them, whatever is done before and after. -/
theorem run_advances (d : Dispatcher) (before after : List Operation) (first : Nat) (steps : List Nat) :
    d.run (before ++ (first :: steps).map .advance ++ after) =
      d.run (before ++ .advance (first + steps.sum) :: after) := by
  have together : ∀ d : Dispatcher, d.run ((first :: steps).map .advance) = d.advance (first + steps.sum) := by
    induction steps generalizing first with
    | nil =>
      intro d
      show (d.advance first >>= fun result => (pure (result.1 ++ [], result.2) : Checked _)) = d.advance first
      simp
    | cons second rest ih =>
      intro d
      rw [List.sum_cons, advance_add, List.map_cons, run]
      simp only [ih]
      rfl
  rw [List.append_assoc, run_append_eq, run_append_eq]
  simp only [run_append_eq _ ((first :: steps).map .advance), together]
  rfl

end Dispatcher

end SlotControl
