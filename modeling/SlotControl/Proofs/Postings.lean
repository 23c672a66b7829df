import Mathlib.Algebra.Group.Nat.Defs
import SlotControl.Proofs.Overflow

/-!
Acquisitions and losses of slots, posted one after the other to an empty ledger, leave for every job and profile the
number of acquisitions less the number of losses, whatever their order, and fail exactly at the first loss of what is
not held. Main statement: `postings_counted`.
-/

namespace SlotControl

/-! ## The order of profiles -/

namespace Profile

/-- The wildcard comes before every vector, and vectors come in lexicographic order of their amounts. -/
def Precedes : Profile → Profile → Prop
  | .any, .sized _ => True
  | .sized v, .sized w => v.amounts.map Amount.parts < w.amounts.map Amount.parts
  | _, .any => False

private theorem compare_amounts_eq_lt_iff (as bs : List Amount) :
    compare as bs = .lt ↔ as.map Amount.parts < bs.map Amount.parts := by
  induction as generalizing bs with
  | nil => cases bs <;> simp
  | cons a as ih =>
    cases bs with
    | nil => simp
    | cons b bs =>
      have first : compare a b = compare a.parts b.parts := rfl
      rw [List.compare_eq_compareLex] at ih ⊢
      rw [List.compareLex_cons_cons, Ordering.then_eq_lt, ih, first, Nat.compare_eq_lt, Nat.compare_eq_eq,
        List.map_cons, List.map_cons, List.cons_lt_cons_iff]

theorem compare_eq_lt_iff (p q : Profile) : compare p q = .lt ↔ p.Precedes q := by
  cases p with
  | any =>
    cases q with
    | any => exact iff_of_false (by decide) id
    | sized w => exact iff_of_true rfl trivial
  | sized v =>
    cases q with
    | any =>
      have after : compare (sized v) any = .gt := rfl
      rw [after]
      exact iff_of_false (by decide) id
    | sized w => exact compare_amounts_eq_lt_iff v.amounts w.amounts

end Profile

/-! ## Postings -/

/-- What is told to the ledger: a job has one more slot of a profile, or one less. -/
inductive Posting where
  | acquire (job : JobId) (profile : Profile)
  | lose (job : JobId) (profile : Profile)
  deriving DecidableEq

namespace Ledger

variable {ledger next : Ledger} {postings others : List Posting} {posting : Posting} {job : JobId} {profile : Profile}

/-- The ledger after a posting. -/
def post (ledger : Ledger) : Posting → Checked Ledger
  | .acquire job profile => ledger.acquire job profile
  | .lose job profile => ledger.lose job profile

/-- The ledger after some postings, the first of them to the empty ledger. -/
def postAll (postings : List Posting) : Checked Ledger := postings.foldlM post empty

/-- How often a job acquired a slot of a profile. -/
def gained (postings : List Posting) (job : JobId) (profile : Profile) : Nat :=
  postings.count (.acquire job profile)

/-- How often a job lost a slot of a profile. -/
def lost (postings : List Posting) (job : JobId) (profile : Profile) : Nat := postings.count (.lose job profile)

/-- The posting at the place is a loss of what was lost before as often as it was acquired. -/
def Uncovered (postings : List Posting) (i : Nat) : Prop :=
  ∃ job profile, postings[i]? = some (.lose job profile) ∧
    lost (postings.take i) job profile = gained (postings.take i) job profile

/-- No count reaches 2^32 as long as no uncovered loss has come up. -/
def Narrow (postings : List Posting) : Prop :=
  ∀ i, (∀ j < i, ¬Uncovered postings j) → ∀ job profile,
    gained (postings.take i) job profile < lost (postings.take i) job profile + 2 ^ 32

/-- The postings come to a defect at this place and not before. -/
def FailsAt (postings : List Posting) (i : Nat) : Prop :=
  ∃ ledger posting defect, postAll (postings.take i) = .ok ledger ∧ postings[i]? = some posting ∧
    ledger.post posting = .error defect ∧ postAll postings = .error defect

/-- The list has the profiles that the job acquired more often than it lost them, in strictly increasing order and
    with the differences as their counts. -/
structure Listed (postings : List Posting) (job : JobId) (listing : List Requirement) : Prop where
  increasing : listing.Pairwise fun one other => one.profile.Precedes other.profile
  counted : ∀ profile n, ⟨profile, n⟩ ∈ listing ↔
    0 < n.toNat ∧ gained postings job profile = lost postings job profile + n.toNat

/-- Few postings are narrow. -/
theorem narrow_of_length (few : postings.length < 2 ^ 32) : Narrow postings := by
  intro i _ job profile
  have counted : gained (postings.take i) job profile ≤ (postings.take i).length := List.count_le_length
  rw [List.length_take] at counted
  omega

/-! ## What the ledger counts -/

/-- The ledger holds what the postings come to. -/
private structure Counted (postings : List Posting) (ledger : Ledger) : Prop where
  tidy : ledger.Tidy
  bounded : ledger.Bounded
  balance : ∀ job profile, ledger.count job profile + lost postings job profile = gained postings job profile

private theorem counted_nil : Counted [] empty := ⟨tidy_empty, bounded_empty, fun _ _ => rfl⟩

private theorem gained_concat : gained (postings ++ [posting]) job profile =
    gained postings job profile + if posting = .acquire job profile then 1 else 0 := by
  rw [gained, List.count_append, List.count_singleton]
  simp only [beq_iff_eq, gained]

private theorem lost_concat : lost (postings ++ [posting]) job profile =
    lost postings job profile + if posting = .lose job profile then 1 else 0 := by
  rw [lost, List.count_append, List.count_singleton]
  simp only [beq_iff_eq, lost]

private theorem Counted.acquire_iff (counted : Counted postings ledger) : ledger.acquire job profile = .ok next ↔
    gained postings job profile + 1 < lost postings job profile + 2 ^ 32 ∧
      next = ledger.setCount job profile (ledger.count job profile + 1) := by
  have balance := counted.balance job profile
  have width : Numeral.bound32 = 2 ^ 32 := rfl
  rw [acquire_eq_ok_iff, width]
  exact and_congr_left' (by omega)

private theorem Counted.lose_iff (counted : Counted postings ledger) : ledger.lose job profile = .ok next ↔
    lost postings job profile < gained postings job profile ∧
      next = ledger.setCount job profile (ledger.count job profile - 1) := by
  have balance := counted.balance job profile
  rw [lose_eq_ok_iff counted.tidy]
  exact and_congr_left' (by omega)

private theorem Counted.post (counted : Counted postings ledger) (posted : ledger.post posting = .ok next) :
    Counted (postings ++ [posting]) next := by
  cases posting with
  | acquire job profile =>
    obtain ⟨-, rfl⟩ := counted.acquire_iff.1 posted
    refine ⟨counted.tidy.setCount .., counted.bounded.acquire posted, ?_⟩
    intro other held
    have balance := counted.balance other held
    rw [count_setCount, gained_concat, lost_concat]
    by_cases same : other = job ∧ held = profile
    · obtain ⟨rfl, rfl⟩ := same
      simp
      omega
    · have apart : ¬(job = other ∧ profile = held) := fun this => same ⟨this.1.symm, this.2.symm⟩
      simp [same, apart, balance]
  | lose job profile =>
    obtain ⟨covered, rfl⟩ := counted.lose_iff.1 posted
    refine ⟨counted.tidy.setCount .., ?_, ?_⟩
    · intro other held
      have few := counted.bounded other held
      rw [count_setCount]
      split
      · next same =>
        obtain ⟨rfl, rfl⟩ := same
        omega
      · exact few
    · intro other held
      have balance := counted.balance other held
      rw [count_setCount, gained_concat, lost_concat]
      by_cases same : other = job ∧ held = profile
      · obtain ⟨rfl, rfl⟩ := same
        simp
        omega
      · have apart : ¬(job = other ∧ profile = held) := fun this => same ⟨this.1.symm, this.2.symm⟩
        simp [same, apart, balance]

private theorem postAll_concat : postAll (postings ++ [posting]) = postAll postings >>= (post · posting) := by
  rw [postAll, List.foldlM_append]
  simp only [List.foldlM_cons, List.foldlM_nil, bind_pure, postAll]

/-- Whatever the postings were, the ledger holds what they come to. -/
private theorem counted_of_postAll (posted : postAll postings = .ok ledger) : Counted postings ledger := by
  induction postings using List.reverseRecOn generalizing ledger with
  | nil => exact Except.ok.inj posted ▸ counted_nil
  | append_singleton earlier last ih =>
    rw [postAll_concat, Checked.bind_eq_ok_iff] at posted
    obtain ⟨between, before, last_posted⟩ := posted
    exact (ih before).post last_posted

/-! ## Where postings fail -/

private theorem take_succ {i : Nat} (here : postings[i]? = some posting) :
    postings.take (i + 1) = postings.take i ++ [posting] := by
  rw [List.take_add_one, here, Option.toList_some]

/-- Postings are entered as long as no loss is uncovered. -/
private theorem exists_postAll (narrow : Narrow postings) {i : Nat} (covered : ∀ j < i, ¬Uncovered postings j) :
    ∃ ledger, postAll (postings.take i) = .ok ledger := by
  induction i with
  | zero => exact ⟨empty, rfl⟩
  | succ i ih =>
    obtain ⟨ledger, posted⟩ := ih fun j earlier => covered j (by omega)
    have counted := counted_of_postAll posted
    cases here : postings[i]? with
    | none =>
      rw [List.take_add_one, here, Option.toList_none, List.append_nil]
      exact ⟨ledger, posted⟩
    | some posting =>
      rw [take_succ here, postAll_concat, posted]
      cases posting with
      | acquire job profile =>
        have few := narrow (i + 1) covered job profile
        rw [take_succ here, gained_concat, lost_concat, if_pos rfl, if_neg (by simp)] at few
        exact ⟨_, counted.acquire_iff.2 ⟨by omega, rfl⟩⟩
      | lose job profile =>
        have balance := counted.balance job profile
        have held : lost (postings.take i) job profile ≠ gained (postings.take i) job profile :=
          fun same => covered i (by omega) ⟨job, profile, here, same⟩
        exact ⟨_, counted.lose_iff.2 ⟨by omega, rfl⟩⟩

/-- What was entered up to some place has no uncovered loss before it. -/
private theorem covered_of_postAll {i : Nat} (posted : postAll (postings.take i) = .ok ledger) :
    ∀ j < i, ¬Uncovered postings j := by
  induction i generalizing ledger with
  | zero => intro j impossible; omega
  | succ i ih =>
    cases here : postings[i]? with
    | none =>
      rw [List.take_add_one, here, Option.toList_none, List.append_nil] at posted
      intro j earlier
      by_cases last : j = i
      · rintro ⟨job, profile, there, -⟩
        rw [last, here] at there
        cases there
      · exact ih posted j (by omega)
    | some posting =>
      rw [take_succ here, postAll_concat, Checked.bind_eq_ok_iff] at posted
      obtain ⟨between, before, last_posted⟩ := posted
      intro j earlier
      by_cases last : j = i
      · rintro ⟨job, profile, there, same⟩
        rw [last] at there same
        obtain rfl := Option.some.inj (here.symm.trans there)
        have held := ((counted_of_postAll before).lose_iff.1 last_posted).1
        omega
      · exact ih before j (by omega)

/-- The postings after a defect do not come to their turn. -/
private theorem postAll_error {i : Nat} {defect : Defect} (before : postAll (postings.take i) = .ok ledger)
    (here : postings[i]? = some posting) (failed : ledger.post posting = .error defect) :
    postAll postings = .error defect := by
  obtain ⟨inside, rfl⟩ := List.getElem?_eq_some_iff.1 here
  have split : postings = postings.take i ++ postings[i] :: postings.drop (i + 1) := by
    rw [← List.drop_eq_getElem_cons inside, List.take_append_drop]
  rw [postAll] at before ⊢
  rw [split, List.foldlM_append, before]
  show (postings[i] :: postings.drop (i + 1)).foldlM post ledger = _
  rw [List.foldlM_cons, failed]
  rfl

private theorem failsAt_iff (narrow : Narrow postings) (i : Nat) :
    FailsAt postings i ↔ Uncovered postings i ∧ ∀ j < i, ¬Uncovered postings j := by
  constructor
  · rintro ⟨ledger, posting, defect, before, here, failed, -⟩
    have covered := covered_of_postAll before
    refine ⟨?_, covered⟩
    by_contra here_covered
    obtain ⟨next, after⟩ := exists_postAll narrow (i := i + 1) fun j earlier => by
      by_cases last : j = i
      · exact last ▸ here_covered
      · exact covered j (by omega)
    rw [take_succ here, postAll_concat, before] at after
    cases failed.symm.trans after
  · rintro ⟨uncovered, covered⟩
    obtain ⟨ledger, before⟩ := exists_postAll narrow covered
    obtain ⟨job, profile, here, same⟩ := uncovered
    cases failed : ledger.post (.lose job profile) with
    | error defect => exact ⟨ledger, _, defect, before, here, failed, postAll_error before here failed⟩
    | ok next =>
      have held := ((counted_of_postAll before).lose_iff.1 failed).1
      omega

private theorem succeeds_iff (narrow : Narrow postings) :
    (∃ ledger, postAll postings = .ok ledger) ↔ ∀ i, ¬Uncovered postings i := by
  have whole : postings.take postings.length = postings := List.take_length
  constructor
  · rintro ⟨ledger, posted⟩ i uncovered
    rw [← whole] at posted
    have inside : i < postings.length := by
      obtain ⟨job, profile, here, -⟩ := uncovered
      exact (List.getElem?_eq_some_iff.1 here).1
    exact covered_of_postAll posted i inside uncovered
  · intro covered
    have posted := exists_postAll narrow (i := postings.length) fun j _ => covered j
    rwa [whole] at posted

/-! ## What the ledger lists -/

private theorem Counted.mem_acquired_iff (counted : Counted postings ledger) (n : UInt32) :
    ⟨profile, n⟩ ∈ ledger.acquired job ↔
      0 < n.toNat ∧ gained postings job profile = lost postings job profile + n.toNat := by
  have balance := counted.balance job profile
  have few := counted.bounded job profile
  rw [acquired_eq_holdings, holdings, List.mem_map]
  constructor
  · rintro ⟨⟨held, m⟩, inside, same⟩
    obtain ⟨rfl, rfl⟩ : held = profile ∧ m.toUInt32 = n := Requirement.mk.inj same
    have present := (SortedMap.get?_eq_some_iff ..).2 inside
    have positive := counted.tidy.countsOf_pos present
    have read : ledger.count job held = m := by rw [count, present, Option.getD_some]
    have number : m.toUInt32.toNat = m := Nat.mod_eq_of_lt (read ▸ few)
    rw [number]
    omega
  · rintro ⟨positive, difference⟩
    cases present : (ledger.countsOf job).get? profile with
    | none =>
      rw [count, present, Option.getD_none] at balance
      omega
    | some m =>
      rw [count, present, Option.getD_some] at balance
      have same : m = n.toNat := by omega
      refine ⟨(profile, m), (SortedMap.get?_eq_some_iff ..).1 present, ?_⟩
      rw [same, Nat.toUInt32, UInt32.ofNat_toNat]

private theorem Counted.listed (counted : Counted postings ledger) (job : JobId) :
    Listed postings job (ledger.acquired job) := by
  refine ⟨?_, fun profile n => counted.mem_acquired_iff n⟩
  rw [acquired_eq_holdings, holdings, List.pairwise_map]
  exact (ledger.countsOf job).sorted.imp fun less => (Profile.compare_eq_lt_iff _ _).1 less

/-- There is one such list only, however it was sorted. -/
private theorem Listed.unique {one other : List Requirement} (listed : Listed postings job one)
    (listed' : Listed postings job other) : one = other := by
  have apart (p q : Profile) (before : p.Precedes q) (after : q.Precedes p) : False := by
    rw [← Profile.compare_eq_lt_iff] at before after
    rw [Std.OrientedCmp.gt_of_lt before] at after
    cases after
  have distinct {listing : List Requirement} (increasing : listing.Pairwise fun a b => a.profile.Precedes b.profile) :
      listing.Nodup := increasing.imp fun before same => by
    subst same
    exact apart _ _ before before
  have perm : one.Perm other := by
    refine (List.perm_ext_iff_of_nodup (distinct listed.increasing) (distinct listed'.increasing)).2 ?_
    rintro ⟨profile, n⟩
    rw [listed.counted, listed'.counted]
  exact perm.eq_of_pairwise (fun a b _ _ before after => (apart _ _ before after).elim) listed.increasing
    listed'.increasing

private theorem Counted.mem_jobIds_iff (counted : Counted postings ledger) (job : JobId) :
    job ∈ ledger.jobIds ↔ ledger.acquired job ≠ [] := by
  rw [jobIds, SortedMap.mem_keys, acquired_eq_holdings, holdings, ne_eq, List.map_eq_nil_iff, counted.tidy.get?_eq]
  cases nothing : (ledger.countsOf job).isEmpty with
  | true =>
    have none_left : (ledger.countsOf job).entries = [] := List.isEmpty_iff.1 nothing
    simp [none_left]
  | false =>
    have some_left : (ledger.countsOf job).entries ≠ [] := fun none_left => by
      rw [SortedMap.isEmpty, none_left] at nothing
      cases nothing
    simp [some_left]

private theorem Counted.eq_iff (counted : Counted postings ledger) (counted' : Counted others next) :
    ledger = next ↔ ∀ job profile, gained postings job profile + lost others job profile =
      gained others job profile + lost postings job profile := by
  constructor
  · rintro rfl job profile
    have balance := counted.balance job profile
    have balance' := counted'.balance job profile
    omega
  · intro same
    refine counted.tidy.ext counted'.tidy ?_
    intro job profile
    have balance := counted.balance job profile
    have balance' := counted'.balance job profile
    have difference := same job profile
    omega

/-- The ledger is a multiset of jobs and profiles. As long as no count reaches 2^32, postings fail exactly at the first
    loss that no acquisition is left for. Otherwise the ledger lists for every job what it acquired more often than it
    lost it, names the jobs that have such a list once each, and depends on these differences only. -/
theorem postings_counted (postings : List Posting) (narrow : Narrow postings) :
    (∀ i, FailsAt postings i ↔ Uncovered postings i ∧ ∀ j < i, ¬Uncovered postings j) ∧
    ((∃ ledger, postAll postings = .ok ledger) ↔ ∀ i, ¬Uncovered postings i) ∧
    ∀ ledger, postAll postings = .ok ledger →
      (∀ job listing, Listed postings job listing ↔ listing = ledger.acquired job) ∧
      (ledger.jobIds.Nodup ∧ ∀ job, job ∈ ledger.jobIds ↔ ledger.acquired job ≠ []) ∧
      ∀ others other, postAll others = .ok other → (ledger = other ↔ ∀ job profile,
        gained postings job profile + lost others job profile =
          gained others job profile + lost postings job profile) := by
  refine ⟨failsAt_iff narrow, succeeds_iff narrow, ?_⟩
  intro ledger posted
  have counted := counted_of_postAll posted
  refine ⟨?_, ⟨?_, counted.mem_jobIds_iff⟩, ?_⟩
  · intro job listing
    constructor
    · intro listed
      exact listed.unique (counted.listed job)
    · rintro rfl
      exact counted.listed job
  · exact ledger.jobs.nodup_keys
  · intro others other posted'
    exact counted.eq_iff (counted_of_postAll posted')

/-- Two jobs acquire slots in turn, and the second one loses its only slot twice. -/
private def twoJobs : List Posting :=
  [.acquire ⟨1⟩ (.ofUnits 1 4), .acquire ⟨2⟩ .any, .acquire ⟨1⟩ .any, .lose ⟨2⟩ .any,
    .acquire ⟨1⟩ (.ofUnits 1 4), .lose ⟨2⟩ .any]

theorem postings_counted_twoJobs : (FailsAt twoJobs 5 ∧ Uncovered twoJobs 5 ∧ ∀ j < 5, ¬Uncovered twoJobs j) ∧
    ∃ ledger, postAll (twoJobs.take 5) = .ok ledger ∧ ledger.jobIds = [⟨1⟩] ∧
      Listed (twoJobs.take 5) ⟨1⟩ [⟨.any, 1⟩, ⟨.ofUnits 1 4, 2⟩] := by
  have fails : FailsAt twoJobs 5 := ⟨_, _, _, rfl, rfl, rfl, rfl⟩
  obtain ⟨where_failed, -⟩ := postings_counted twoJobs (narrow_of_length (by decide))
  refine ⟨⟨fails, (where_failed 5).1 fails⟩, _, rfl, rfl, ?_⟩
  obtain ⟨-, -, told⟩ := postings_counted (twoJobs.take 5) (narrow_of_length (by decide))
  refine ((told _ rfl).1 ⟨1⟩ _).2 ?_
  rw [acquired_eq_holdings]
  rfl

end Ledger
end SlotControl
