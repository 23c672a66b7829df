import SlotControl.Cluster.Basic

/-!
A check of the whole state: capacities add up, the index of owners is right, and the ledger agrees
with the slots.
-/

namespace SlotControl.Cluster

variable {Seed : Type} [Traversal Seed]

/-- What the jobs should have acquired by the slots that are recorded. -/
def tally (cluster : Cluster) : Checked Ledger :=
  cluster.inventory.slots.foldlM (fun ledger slot => ledger.acquire slot.job slot.profile) .empty

/-- Checks the counts of one job that has slots. -/
def auditCounts (ledger : Ledger) (job : JobId) (counts : SortedMap Profile Nat) : Checked Unit :=
  counts.entries.forM fun entry =>
    if ledger.count job entry.1 = entry.2 then .ok ()
    else .error (.countBroken job entry.1 entry.2)

/-- Checks the total of one job that has acquired something. -/
def auditTotal (tallied : Ledger) (job : JobId) (counts : SortedMap Profile Nat) :
    Checked Unit := do
  let expected ← Ledger.total (tallied.countsOf job)
  let acquired ← Ledger.total counts
  unless acquired = expected do
    throw (.totalBroken job acquired expected)

/-- Checks that every slot is accounted to its job exactly once and that the capacity of every
    worker adds up. -/
def audit (cluster : Cluster) : Checked Unit := do
  cluster.inventory.audit
  let tallied ← cluster.tally
  tallied.jobs.entries.forM fun entry => auditCounts cluster.ledger entry.1 entry.2
  cluster.ledger.jobs.entries.forM fun entry => auditTotal tallied entry.1 entry.2

end SlotControl.Cluster
