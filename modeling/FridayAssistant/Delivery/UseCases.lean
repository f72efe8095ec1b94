import FridayAssistant.Delivery.Store
/-!
# Claim, dispatch boundary, outcome and recovery (application/delivery_lifecycle.py)

Each use case is one transaction: a function from the tables to an error (rolled back) or a
result and the tables it commits.
-/
namespace Friday.Delivery
open Tables

/-- `DeliveryClaim` (:63). -/
structure DeliveryClaim where
  deliveryId : DeliveryId
  workerId : String
  claimToken : String
  claimGeneration : Nat
  acquiredAt : Time
  leaseExpiresAt : Time
  deriving DecidableEq

def preDispatchAttemptsExhausted : String := "delivery_pre_dispatch_attempts_exhausted"
def leaseExpiredAfterDispatch : String := "delivery_lease_expired_after_dispatch"

def preDispatchExhaustedMessage : String :=
  "Delivery lease expired before dispatch and the retry budget is exhausted; no external message was sent."

def postDispatchAmbiguousMessage : String :=
  "Delivery lease expired after the dispatch boundary was crossed; " ++
    "the external message may or may not have been sent."

/-- `RecoverExpiredDeliveryClaims._recover_one` (:93). -/
def recoverOne (policy : RetryPolicy) (now : Time) (db : DeliveryDb) (delivery : OutboundDelivery) :
    Result (Bool × DeliveryDb) := do
  if delivery.dispatchStartedAt.isSome then
    let (closed, db) ← closeExpiredAsAmbiguous db delivery.id delivery.claimGeneration now leaseExpiredAfterDispatch
    require closed (.transactionFailure "delivery attempt history is inconsistent at post-dispatch recovery")
    let (parked, db) := markExpiredPostDispatchAmbiguous db delivery.id delivery.claimGeneration now
      leaseExpiredAfterDispatch postDispatchAmbiguousMessage
    require parked (.transactionFailure "delivery claim changed during post-dispatch recovery")
    return (true, db)
  else if delivery.attemptCount < policy.maxAttempts then
    let delay ← policy.computeDelay (delivery.attemptCount + 1)
    return requeueExpiredPreDispatch db delivery.id delivery.claimGeneration now (now + delay)
  else
    return failExpiredPreDispatch db delivery.id delivery.claimGeneration now
      preDispatchAttemptsExhausted preDispatchExhaustedMessage

/-- The loop of `RecoverExpiredDeliveryClaims.execute` (:86), with the count so far. -/
def recoverAll (policy : RetryPolicy) (now : Time) :
    List OutboundDelivery → Nat → DeliveryDb → Result (Nat × DeliveryDb)
  | [], n, db => .ok (n, db)
  | d :: ds, n, db => do
    let (recovered, db) ← recoverOne policy now db d
    recoverAll policy now ds (if recovered then n + 1 else n) db

/-- `RecoverExpiredDeliveryClaims.execute`. -/
def recoverExpiredDeliveryClaims (policy : RetryPolicy) (candidateLimit : Nat) (db : DeliveryDb)
    (now : Time) : Result (Nat × DeliveryDb) :=
  recoverAll policy now (findExpiredClaims db now candidateLimit) 0 db

/-- `ClaimNextDelivery` as constructed (:136): the three checks of `__init__` hold of it. -/
structure ClaimNextDelivery where
  policy : RetryPolicy
  workerId : String
  leaseDuration : Time
  candidateLimit : Nat
  leaseDuration_pos : 0 < leaseDuration
  candidateLimit_pos : 1 ≤ candidateLimit
  workerId_ok : bounded workerId "worker_id" 256 = .ok workerId

/-- The claim loop of `ClaimNextDelivery.execute` (:164): `tokens k` is the `k`-th
`uuid.uuid4().hex` it draws. -/
def claimFirst (workerId : String) (now leaseExpiresAt : Time) (tokens : Nat → String) :
    List OutboundDelivery → Nat → DeliveryDb → Option DeliveryClaim × DeliveryDb
  | [], _, db => (none, db)
  | candidate :: rest, k, db =>
    match tryClaim db candidate.id workerId (tokens k) now leaseExpiresAt with
    | (none, db) => claimFirst workerId now leaseExpiresAt tokens rest (k + 1) db
    | (some generation, db) =>
      (some { deliveryId := candidate.id, workerId := workerId, claimToken := tokens k,
              claimGeneration := generation, acquiredAt := now, leaseExpiresAt := leaseExpiresAt }, db)

/-- `ClaimNextDelivery.execute` (:157). -/
def ClaimNextDelivery.execute (u : ClaimNextDelivery) (tokens : Nat → String) (db : DeliveryDb)
    (now : Time) : Result (Option DeliveryClaim × DeliveryDb) := do
  let (_, db) ← recoverExpiredDeliveryClaims u.policy u.candidateLimit db now
  return claimFirst u.workerId now (now + u.leaseDuration) tokens (listDue db now u.candidateLimit)
    0 db

/-- `BeginDeliveryAttempt.execute` (:222). `ClaimLost` is raised after a commit that wrote
nothing. -/
def beginDeliveryAttempt (db : DeliveryDb) (claim : DeliveryClaim) (attemptId : DeliveryAttemptId)
    (now : Time) : Result (Time × DeliveryDb) := do
  let (marked, db) := markDispatchStarted db claim.deliveryId claim.workerId claim.claimToken
    claim.claimGeneration now
  if marked then
    let (begun, db) ← beginForClaim db attemptId claim.deliveryId claim.workerId claim.claimToken
      claim.claimGeneration now now
    require begun (.transactionFailure "dispatch boundary could not open its delivery attempt ledger row")
    return (now, db)
  else
    .error (.claimLost s!"dispatch boundary lost claim for delivery {Uuid.text claim.deliveryId}")

/-- The four outcome writes of `PersistDeliveryOutcome` (:268-303). -/
inductive Outcome where
  | deliver (providerMessageId : Option String)
  | fail (failureCode failureMessage : String)
  | markAmbiguous (failureCode failureMessage : String)
  | markRouteAmbiguous (failureCode failureMessage : String)
  deriving DecidableEq

def Outcome.transition (delivery : OutboundDelivery) (now : Time) : Outcome →
    Result OutboundDelivery
  | .deliver provider => delivery.deliver now provider
  | .fail code message => delivery.fail now code message
  | .markAmbiguous code message => delivery.markAmbiguous now code message
  | .markRouteAmbiguous code message => delivery.markRouteAmbiguous now code message

/-- The ledger outcome of a terminal delivery status (:320). -/
def attemptOutcome : DeliveryStatus → Option DeliveryAttemptOutcome
  | .delivered => some .delivered
  | .failed => some .failed
  | .ambiguous => some .ambiguous
  | _ => none

/-- The claim check at the head of `_apply` (:309). -/
def holdsClaim (claim : DeliveryClaim) (d : OutboundDelivery) : Bool :=
  d.status = .sending && d.claimOwner = some claim.workerId &&
    d.claimToken = some claim.claimToken && d.claimGeneration = claim.claimGeneration

/-- The ledger part of `_apply` (:319-337): past the boundary, the open attempt is completed
with the outcome of the new status. -/
def completeAttempt (db : DeliveryDb) (claim : DeliveryClaim) (delivery : OutboundDelivery)
    (now : Time) : Result DeliveryDb :=
  if delivery.dispatchStartedAt.isSome then
    match attemptOutcome delivery.status with
    | none => .error (.transactionFailure "post-dispatch outcome requires a terminal delivery state")
    | some result => do
      let (completed, db) ← completeForClaim db claim.deliveryId claim.workerId claim.claimToken
        claim.claimGeneration now result delivery.failureCode
      require completed (.claimLost s!"outcome attempt lost claim for delivery {Uuid.text claim.deliveryId}")
      return db
  else .ok db

/-- `PersistDeliveryOutcome._apply` (:305). -/
def persistDeliveryOutcome (db : DeliveryDb) (claim : DeliveryClaim) (outcome : Outcome)
    (now : Time) : Result DeliveryDb :=
  let lost := AppError.claimLost s!"outcome lost claim for delivery {Uuid.text claim.deliveryId}"
  match (db.deliveries.get? claim.deliveryId).filter (holdsClaim claim) with
  | none => .error lost
  | some delivery => do
    let delivery ← outcome.transition delivery now
    let db ← completeAttempt db claim delivery now
    let (saved, db) := saveClaimedLifecycle db delivery claim.workerId claim.claimToken claim.claimGeneration now
    require saved lost
    return db

end Friday.Delivery
