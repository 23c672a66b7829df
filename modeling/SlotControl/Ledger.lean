import SlotControl.Fault
import SlotControl.SortedMap

/-!
How many slots of each profile every job holds. Counts of zero and jobs without counts are not
kept, so that ledgers with the same counts are equal.
-/

namespace SlotControl

/-- For every job the number of its slots by profile. -/
structure Ledger where
  jobs : SortedMap JobId (SortedMap Profile Nat)
  deriving DecidableEq, Inhabited

namespace Ledger

/-- No job holds anything. -/
def empty : Ledger := ⟨.empty⟩

/-- The counts of a job. -/
def countsOf (ledger : Ledger) (job : JobId) : SortedMap Profile Nat :=
  (ledger.jobs.get? job).getD .empty

/-- How many slots of a profile a job holds. -/
def count (ledger : Ledger) (job : JobId) (profile : Profile) : Nat :=
  ((ledger.countsOf job).get? profile).getD 0

/-- The job has one more slot of the profile. -/
def acquire (ledger : Ledger) (job : JobId) (profile : Profile) : Checked Ledger :=
  let next := ledger.count job profile + 1
  if next < Numeral.bound32 then
    .ok ⟨ledger.jobs.insert job ((ledger.countsOf job).insert profile next)⟩
  else .error .additionOverflow

/-- The job has one slot of the profile less. It must have had one. -/
def lose (ledger : Ledger) (job : JobId) (profile : Profile) : Checked Ledger :=
  match ledger.jobs.get? job with
  | none => .error (.nothingAcquired job)
  | some counts =>
    match counts.get? profile with
    | none => .error (.profileNotAcquired job profile)
    | some 0 => .error .subtractionOverflow
    | some 1 =>
      let rest := counts.erase profile
      .ok ⟨if rest.isEmpty then ledger.jobs.erase job else ledger.jobs.insert job rest⟩
    | some (n + 2) => .ok ⟨ledger.jobs.insert job (counts.insert profile (n + 1))⟩

/-- What a job holds, as the counts are kept. -/
def holdings (ledger : Ledger) (job : JobId) : List Requirement :=
  (ledger.countsOf job).entries.map fun entry => ⟨entry.1, entry.2.toUInt32⟩

/-- What a job holds, in order of the profiles. -/
def acquired (ledger : Ledger) (job : JobId) : List Requirement := Requirement.sort (ledger.holdings job)

/-- The jobs that hold something, in order. -/
def jobIds (ledger : Ledger) : List JobId := ledger.jobs.keys

/-- No job holds anything. -/
def isEmpty (ledger : Ledger) : Bool := ledger.jobs.isEmpty

/-- The sum of some counts; one that exceeds its width is a defect. -/
def total (counts : SortedMap Profile Nat) : Checked Nat :=
  counts.values.foldlM
    (fun sum n => if sum + n < Numeral.bound32 then .ok (sum + n) else .error .additionOverflow) 0

end Ledger

end SlotControl
