import FridayAssistant.Basic
import FridayAssistant.Lib.Table
/-!
# `run_work_items` (persistence/work_queue.py)

One row for each run that waits for a worker or is held by one. A claim is the triple
`(claimed_by, claim_token, claim_generation)` together with an unexpired lease. Every method is
one statement; those that return `rowcount == 1` return it with the table after them.

A comparison with a `NULL` column is not true, so `lease_expires_at <= now` and
`lease_expires_at > now` both fail when there is no lease.
-/
namespace Friday.Queue
open Tables Table

/-- `RunWorkItemRow` (models.py:1354). -/
structure RunWorkItem where
  runId : RunId
  availableAt : Time
  enqueuedAt : Time
  claimedBy : Option String
  claimToken : Option String
  claimGeneration : Nat
  claimedAt : Option Time
  heartbeatAt : Option Time
  leaseExpiresAt : Option Time
  deriving DecidableEq

instance : Keyed RunWorkItem RunId := ⟨RunWorkItem.runId⟩

@[simp] theorem key_item (r : RunWorkItem) : key r = r.runId := rfl

abbrev WorkItems := Table RunWorkItem

/-- What identifies one claim of a run. -/
structure ClaimTriple where
  workerId : String
  claimToken : String
  claimGeneration : Nat
  deriving DecidableEq

namespace RunWorkItem

/-- `claimed_by = … AND claim_token = … AND claim_generation = …`. -/
def carries (r : RunWorkItem) (c : ClaimTriple) : Bool :=
  r.claimedBy = some c.workerId && r.claimToken = some c.claimToken &&
    r.claimGeneration = c.claimGeneration

/-- `lease_expires_at > now`. -/
def leased (r : RunWorkItem) (now : Time) : Bool := r.leaseExpiresAt.any (now < ·)

/-- `lease_expires_at <= now`. -/
def expired (r : RunWorkItem) (now : Time) : Bool := r.leaseExpiresAt.any (· ≤ now)

/-- `available_at <= now AND (claimed_by IS NULL OR lease_expires_at <= now)`. -/
def claimable (r : RunWorkItem) (now : Time) : Bool :=
  r.availableAt ≤ now && (r.claimedBy.isNone || r.expired now)

/-- The claim columns set to `NULL`. -/
def unclaimed (r : RunWorkItem) : RunWorkItem :=
  { r with claimedBy := none, claimToken := none, claimedAt := none, heartbeatAt := none, leaseExpiresAt := none }

end RunWorkItem

/-- `enqueue` (:20): a fresh row at generation 0, or new times on the row that exists. -/
def enqueue (t : WorkItems) (runId : RunId) (availableAt enqueuedAt : Time) : WorkItems :=
  match t.get? runId with
  | none => t.put { runId := runId, availableAt := availableAt, enqueuedAt := enqueuedAt, claimedBy := none,
                    claimToken := none, claimGeneration := 0, claimedAt := none,
                    heartbeatAt := none, leaseExpiresAt := none }
  | some r => t.put { r with availableAt := availableAt, enqueuedAt := enqueuedAt }

/-- `ORDER BY available_at, enqueued_at, run_id`. -/
def queueOrder (a b : RunWorkItem) : Prop :=
  a.availableAt < b.availableAt ∨ a.availableAt = b.availableAt ∧
    (a.enqueuedAt < b.enqueuedAt ∨ a.enqueuedAt = b.enqueuedAt ∧ a.runId ≤ b.runId)
  deriving Decidable

/-- `find_due_candidates` (:38). -/
def findDueCandidates (t : WorkItems) (now : Time) (limit : Nat) : List RunWorkItem :=
  ((t.select (·.claimable now)).insertionSort queueOrder).take limit

/-- `find_expired_claims` (:57). -/
def findExpiredClaims (t : WorkItems) (now : Time) (limit : Nat) : List RunWorkItem :=
  ((t.select fun r => r.claimedBy.isSome && r.expired now).insertionSort queueOrder).take limit

/-- `remove` (:76). -/
def remove (t : WorkItems) (runId : RunId) : WorkItems := t.erase runId

/-- Either way one row of the run is written; which one depends on the row it had. -/
theorem enqueue_eq_put (old : Option RunWorkItem) (runId : RunId) (availableAt enqueuedAt : Time) :
    ∃ item : RunWorkItem, ∀ t : WorkItems, t.get? runId = old →
      key item = runId ∧ enqueue t runId availableAt enqueuedAt = t.put item := by
  cases old with
  | none => exact ⟨_, fun t ht => ⟨rfl, by rw [enqueue, ht]⟩⟩
  | some r =>
    refine ⟨{ r with availableAt := availableAt, enqueuedAt := enqueuedAt }, fun t ht => ⟨?_, by rw [enqueue, ht]⟩⟩
    exact (key_of_get? ht : key r = runId)

variable {t : WorkItems}

variable {k runId : RunId} {enqueuedAt availableAt : Time}

theorem get?_enqueue_ne (h : runId ≠ k) :
    (enqueue t runId availableAt enqueuedAt).get? k = t.get? k := by
  obtain ⟨item, hitem⟩ := enqueue_eq_put (t.get? runId) runId availableAt enqueuedAt
  rw [(hitem t rfl).2]
  exact get?_put_ne ((hitem t rfl).1 ▸ h)

theorem isSome_enqueue_self :
    ((enqueue t runId availableAt enqueuedAt).get? runId).isSome = true := by
  obtain ⟨item, hitem⟩ := enqueue_eq_put (t.get? runId) runId availableAt enqueuedAt
  rw [(hitem t rfl).2, get?_put, if_pos (hitem t rfl).1]
  rfl

/-- Enqueueing one run and removing another commute. -/
theorem remove_enqueue (h : runId ≠ k) :
    remove (enqueue t runId availableAt enqueuedAt) k = enqueue (remove t k) runId availableAt enqueuedAt := by
  obtain ⟨item, hitem⟩ := enqueue_eq_put (t.get? runId) runId availableAt enqueuedAt
  have hsame : (remove t k).get? runId = t.get? runId := by
    rw [remove, get?_erase, if_neg (Ne.symm h)]
  rw [(hitem t rfl).2, (hitem _ hsame).2]
  exact erase_put ((hitem t rfl).1 ▸ h)

/-- `try_claim` (:81). -/
def tryClaim (t : WorkItems) (runId : RunId) (workerId claimToken : String)
    (now leaseExpiresAt : Time) : Bool × WorkItems :=
  t.update runId (·.claimable now) fun r =>
    { r with claimedBy := some workerId, claimToken := some claimToken, claimGeneration := r.claimGeneration + 1,
             claimedAt := some now, heartbeatAt := some now, leaseExpiresAt := some leaseExpiresAt }

/-- The fence of every claimed write: the exact triple and an unexpired lease. -/
def holds (c : ClaimTriple) (now : Time) (r : RunWorkItem) : Bool := r.carries c && r.leased now

/-- `renew_lease` (:112). -/
def renewLease (t : WorkItems) (runId : RunId) (c : ClaimTriple) (now leaseExpiresAt : Time) :
    Bool × WorkItems :=
  t.update runId (holds c now) fun r =>
    { r with heartbeatAt := some now, leaseExpiresAt := some leaseExpiresAt }

/-- `release_claim` (:137). -/
def releaseClaim (t : WorkItems) (runId : RunId) (c : ClaimTriple) (now : Time) :
    Bool × WorkItems :=
  t.update runId (holds c now) RunWorkItem.unclaimed

/-- `requeue_claimed` (:161). -/
def requeueClaimed (t : WorkItems) (runId : RunId) (c : ClaimTriple)
    (availableAt enqueuedAt now : Time) : Bool × WorkItems :=
  t.update runId (holds c now) fun r =>
    { r.unclaimed with availableAt := availableAt, enqueuedAt := enqueuedAt }

/-- `remove_if_claimed` (:195). -/
def removeIfClaimed (t : WorkItems) (runId : RunId) (c : ClaimTriple) (now : Time) :
    Bool × WorkItems :=
  t.deleteIf runId (holds c now)

/-- `clear_expired_claim` (:213). -/
def clearExpiredClaim (t : WorkItems) (runId : RunId) (now : Time) : Bool × WorkItems :=
  t.update runId (fun r => r.claimedBy.isSome && r.expired now) RunWorkItem.unclaimed

/-- `remove_if_lease_expired` (:235). -/
def removeIfLeaseExpired (t : WorkItems) (runId : RunId) (now : Time) : Bool × WorkItems :=
  t.deleteIf runId fun r => r.claimedBy.isSome && r.expired now

/-- `is_claim_active` (:249). -/
def isClaimActive (t : WorkItems) (runId : RunId) (c : ClaimTriple) (now : Time) : Bool :=
  (t.get? runId).any (holds c now)

end Friday.Queue
