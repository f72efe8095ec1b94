import FridayAssistant.Delivery.Domain
/-!
# The delivery tables (persistence/repositories.py:2456-2977)

Each repository write is one SQL statement. It returns `rowcount == 1` and the tables after
it; a statement that matches no row returns the tables unchanged. The two ledger writes that
validate first, and the insert with its constraints, can also raise.

`activeClaim` is the fence `_active_claim_predicate`; the ledger repository repeats the same
text in `begin_for_claim` and `_active_delivery_exists`.
-/
namespace Friday.Delivery
open Tables

/-- `outbound_deliveries` and `delivery_attempts`. -/
structure DeliveryDb where
  deliveries : Table OutboundDelivery
  attempts : Table DeliveryAttempt

namespace DeliveryDb

/-- `UPDATE outbound_deliveries SET f WHERE id = id AND p`. -/
def update (db : DeliveryDb) (id : DeliveryId) (p : OutboundDelivery → Bool)
    (f : OutboundDelivery → OutboundDelivery) : Bool × DeliveryDb :=
  ((db.deliveries.update id p f).1, { db with deliveries := (db.deliveries.update id p f).2 })

variable {id : DeliveryId} {p : OutboundDelivery → Bool} {f : OutboundDelivery → OutboundDelivery}
  {db db' : DeliveryDb}

theorem update_eq_true (h : db.update id p f = (true, db')) :
    ∃ d, db.deliveries.get? id = some d ∧ p d = true ∧ db' = { db with deliveries := db.deliveries.put (f d) } := by
  have hu : db.deliveries.update id p f = (true, (db.deliveries.update id p f).2) :=
    Prod.ext (Prod.mk.inj h).1 rfl
  obtain ⟨d, hd, hp, ht⟩ := Table.update_eq_true hu
  exact ⟨d, hd, hp, by rw [← (Prod.mk.inj h).2, ht]⟩

theorem update_eq_false (h : db.update id p f = (false, db')) : db' = db := by
  have hu : db.deliveries.update id p f = (false, (db.deliveries.update id p f).2) :=
    Prod.ext (Prod.mk.inj h).1 rfl
  rw [← (Prod.mk.inj h).2, (Table.update_eq_false hu).1]

theorem update_of_get? {d : OutboundDelivery} (hd : db.deliveries.get? id = some d)
    (hp : p d = true) : db.update id p f = (true, { db with deliveries := db.deliveries.put (f d) }) := by
  simp [update, Table.update_of_get? hd hp]

theorem get?_update_ne {k : DeliveryId} {b : Bool} (h : db.update id p f = (b, db'))
    (hf : ∀ d, (f d).id = d.id) (hk : k ≠ id) : db'.deliveries.get? k = db.deliveries.get? k := by
  rw [← (Prod.mk.inj h).2]
  exact Table.get?_update_ne rfl hf hk

theorem update_fenced (h : ∀ d, db.deliveries.get? id = some d → p d = false) :
    db.update id p f = (false, db) := by
  simp [update, Table.update_fenced h]

end DeliveryDb

/-! ## `OutboundDeliveryRepository` -/

/-- `ORDER BY available_at, id`. -/
def dueOrder (a b : OutboundDelivery) : Prop :=
  a.availableAt < b.availableAt ∨ a.availableAt = b.availableAt ∧ a.id ≤ b.id
  deriving Decidable

/-- `ORDER BY claim_expires_at, id`, on rows whose `claim_expires_at` is set. -/
def expiryOrder (a b : OutboundDelivery) : Prop :=
  a.claimExpiresAt.getD 0 < b.claimExpiresAt.getD 0 ∨
    a.claimExpiresAt.getD 0 = b.claimExpiresAt.getD 0 ∧ a.id ≤ b.id
  deriving Decidable

/-- `list_due` (:2496). -/
def listDue (db : DeliveryDb) (now : Time) (limit : Nat) : List OutboundDelivery :=
  ((db.deliveries.select fun d => d.status = .queued && d.availableAt ≤ now).insertionSort
    dueOrder).take limit

/-- `claim_expires_at IS NOT NULL AND claim_expires_at <= now`. -/
def leaseExpired (d : OutboundDelivery) (now : Time) : Bool := d.claimExpiresAt.any (· ≤ now)

/-- `claim_expires_at IS NOT NULL AND claim_expires_at > now`. -/
def leaseLive (d : OutboundDelivery) (now : Time) : Bool := d.claimExpiresAt.any (now < ·)

/-- `find_expired_claims` (:2508). -/
def findExpiredClaims (db : DeliveryDb) (now : Time) (limit : Nat) : List OutboundDelivery :=
  ((db.deliveries.select fun d => d.status = .sending && leaseExpired d now).insertionSort
    expiryOrder).take limit

/-- The `SET` clause of `try_claim`. -/
def claimedRow (workerId claimToken : String) (now leaseExpiresAt : Time) (d : OutboundDelivery) :
    OutboundDelivery :=
  { d with status := .sending, claimOwner := some workerId, claimToken := some claimToken,
           claimGeneration := d.claimGeneration + 1, claimExpiresAt := some leaseExpiresAt,
           attemptCount := d.attemptCount + 1, updatedAt := now }

/-- `try_claim` (:2520). `RETURNING claim_generation`: the new generation, if a row matched. -/
def tryClaim (db : DeliveryDb) (id : DeliveryId) (workerId claimToken : String)
    (now leaseExpiresAt : Time) : Option Nat × DeliveryDb :=
  match db.update id (fun d => d.status = .queued && d.availableAt ≤ now)
      (claimedRow workerId claimToken now leaseExpiresAt) with
  | (true, db') => ((db'.deliveries.get? id).map (·.claimGeneration), db')
  | (false, db') => (none, db')

/-- `_active_claim_predicate` (:2559) beyond `id = delivery_id`. -/
def activeClaim (workerId claimToken : String) (generation : Nat) (now : Time)
    (d : OutboundDelivery) : Bool :=
  d.status = .sending && d.claimOwner = some workerId && d.claimToken = some claimToken &&
    d.claimGeneration = generation && leaseLive d now

/-- `mark_dispatch_started` (:2595). -/
def markDispatchStarted (db : DeliveryDb) (id : DeliveryId) (workerId claimToken : String)
    (claimGeneration : Nat) (now : Time) : Bool × DeliveryDb :=
  db.update id (fun d => activeClaim workerId claimToken claimGeneration now d &&
    d.dispatchStartedAt.isNone)
    (fun d => { d with dispatchStartedAt := some now, updatedAt := now })

/-- The `WHERE` clause of `save_claimed_lifecycle` beyond the id: the fence, and for a requeue
also `dispatch_started_at IS NULL`. -/
def saveFence (e : OutboundDelivery) (workerId claimToken : String) (claimGeneration : Nat)
    (now : Time) (d : OutboundDelivery) : Bool :=
  activeClaim workerId claimToken claimGeneration now d &&
    (e.status ≠ .queued || d.dispatchStartedAt.isNone)

/-- The `SET` clause of `save_claimed_lifecycle`: the lifecycle columns of the in-memory
aggregate `e`. -/
def savedRow (e d : OutboundDelivery) : OutboundDelivery :=
  { d with status := e.status, availableAt := e.availableAt, claimOwner := e.claimOwner,
           claimToken := e.claimToken, claimExpiresAt := e.claimExpiresAt,
           providerMessageId := e.providerMessageId, failureCode := e.failureCode,
           failureMessage := e.failureMessage, deliveredAt := e.deliveredAt, updatedAt := e.updatedAt }

/-- `save_claimed_lifecycle` (:2619). -/
def saveClaimedLifecycle (db : DeliveryDb) (delivery : OutboundDelivery)
    (workerId claimToken : String) (claimGeneration : Nat) (now : Time) : Bool × DeliveryDb :=
  db.update delivery.id (saveFence delivery workerId claimToken claimGeneration now)
    (savedRow delivery)

/-- `_expired_claim_predicate` (:2679) beyond `id = delivery_id`. -/
def expiredClaim (claimGeneration : Nat) (now : Time) (d : OutboundDelivery) : Bool :=
  d.status = .sending && d.claimGeneration = claimGeneration && leaseExpired d now

/-- `requeue_expired_pre_dispatch` (:2690). -/
def requeueExpiredPreDispatch (db : DeliveryDb) (id : DeliveryId) (claimGeneration : Nat)
    (now availableAt : Time) : Bool × DeliveryDb :=
  db.update id (fun d => expiredClaim claimGeneration now d && d.dispatchStartedAt.isNone)
    (fun d => { d with status := .queued, availableAt := availableAt, claimOwner := none, claimToken := none,
                       claimExpiresAt := none, updatedAt := now })

/-- What `fail_expired_pre_dispatch` and `mark_expired_post_dispatch_ambiguous` write. -/
def closeExpired (status : DeliveryStatus) (now : Time) (failureCode failureMessage : String)
    (d : OutboundDelivery) : OutboundDelivery :=
  { d with status := status, claimOwner := none, claimToken := none, claimExpiresAt := none,
           failureCode := some failureCode, failureMessage := some failureMessage, updatedAt := now }

/-- `fail_expired_pre_dispatch` (:2720). -/
def failExpiredPreDispatch (db : DeliveryDb) (id : DeliveryId) (claimGeneration : Nat) (now : Time)
    (failureCode failureMessage : String) : Bool × DeliveryDb :=
  db.update id (fun d => expiredClaim claimGeneration now d && d.dispatchStartedAt.isNone)
    (closeExpired .failed now failureCode failureMessage)

/-- `mark_expired_post_dispatch_ambiguous` (:2749). -/
def markExpiredPostDispatchAmbiguous (db : DeliveryDb) (id : DeliveryId) (claimGeneration : Nat)
    (now : Time) (failureCode failureMessage : String) : Bool × DeliveryDb :=
  db.update id (fun d => expiredClaim claimGeneration now d && d.dispatchStartedAt.isSome)
    (closeExpired .ambiguous now failureCode failureMessage)

/-! ## `DeliveryAttemptRepository` -/

/-- The ledger insert with its constraints: the primary key, `UNIQUE(delivery_id,
claim_generation)` and `claim_generation > 0`. -/
def insertAttempt (t : Table DeliveryAttempt) (a : DeliveryAttempt) :
    Result (Table DeliveryAttempt) :=
  if a.claimGeneration = 0 ||
      t.rows.any fun b => b.deliveryId = a.deliveryId && b.claimGeneration = a.claimGeneration then
    .error .integrity
  else match t.insert? a with
    | some t' => .ok t'
    | none => .error .integrity

/-- `begin_for_claim` (:2796): `INSERT … SELECT` under the fence, for the boundary `startedAt`. -/
def beginForClaim (db : DeliveryDb) (attemptId : DeliveryAttemptId) (id : DeliveryId)
    (workerId claimToken : String) (claimGeneration : Nat) (startedAt now : Time) :
    Result (Bool × DeliveryDb) := do
  match db.deliveries.get? id with
  | none => return (false, db)
  | some d =>
    if activeClaim workerId claimToken claimGeneration now d && d.dispatchStartedAt = some startedAt then
      let t ← insertAttempt db.attempts
        { id := attemptId, deliveryId := d.id, claimGeneration := d.claimGeneration, startedAt := startedAt,
          finishedAt := none, outcome := .inProgress, failureCode := none }
      return (true, { db with attempts := t })
    else return (false, db)

/-- The open ledger row of a generation. -/
def isOpen (id : DeliveryId) (claimGeneration : Nat) (a : DeliveryAttempt) : Bool :=
  a.deliveryId = id && a.claimGeneration = claimGeneration && a.outcome = .inProgress

/-- `_validated_terminal_write` (:2890). -/
def validatedTerminalWrite (db : DeliveryDb) (id : DeliveryId) (claimGeneration : Nat) (now : Time)
    (outcome : DeliveryAttemptOutcome) (failureCode : Option String) : Result (Option String) :=
  let startedAt := (db.attempts.rows.find? (isOpen id claimGeneration)).map (·.startedAt)
  validateDeliveryAttemptShape outcome (startedAt.getD now) (some now) failureCode

/-- `UPDATE delivery_attempts` of `complete_for_claim` and `close_expired_as_ambiguous`; the
`EXISTS` on the delivery is `fence`. -/
def closeAttempt (db : DeliveryDb) (id : DeliveryId) (claimGeneration : Nat) (now : Time)
    (outcome : DeliveryAttemptOutcome) (failureCode : Option String)
    (fence : OutboundDelivery → Bool) : Bool × DeliveryDb :=
  let held := (db.deliveries.get? id).any fence
  let (n, t) := db.attempts.updateWhere (fun a => isOpen id claimGeneration a && held)
    (fun a => { a with outcome := outcome, finishedAt := some now, failureCode := failureCode })
    (fun _ => rfl)
  (n == 1, { db with attempts := t })

/-- `complete_for_claim` (:2920). -/
def completeForClaim (db : DeliveryDb) (id : DeliveryId) (workerId claimToken : String)
    (claimGeneration : Nat) (now : Time) (outcome : DeliveryAttemptOutcome)
    (failureCode : Option String) : Result (Bool × DeliveryDb) := do
  let code ← validatedTerminalWrite db id claimGeneration now outcome failureCode
  return closeAttempt db id claimGeneration now outcome code
    (activeClaim workerId claimToken claimGeneration now)

/-- `close_expired_as_ambiguous` (:2948). -/
def closeExpiredAsAmbiguous (db : DeliveryDb) (id : DeliveryId) (claimGeneration : Nat) (now : Time)
    (failureCode : String) : Result (Bool × DeliveryDb) := do
  let code ← validatedTerminalWrite db id claimGeneration now .ambiguous (some failureCode)
  return closeAttempt db id claimGeneration now .ambiguous code
    (fun d => expiredClaim claimGeneration now d && d.dispatchStartedAt.isSome)

end Friday.Delivery
