import FridayAssistant.Basic
import FridayAssistant.Lib.Table
/-!
# Outbound deliveries and their attempt ledger (domain/outbound_delivery.py, domain/delivery_attempt.py)

| here | there |
| --- | --- |
| `OutboundDelivery`, `OutboundDelivery.create` | the aggregate and its `new` |
| `OutboundDelivery.postInit` | `__post_init__`, the checks of the constructor |
| `deliver`, `fail`, `markAmbiguous`, `markRouteAmbiguous` | the transitions an outcome write uses |
| `validateDeliveryAttemptShape` | `validate_delivery_attempt_shape` |

`hashlib.sha256(…).hexdigest()` is a parameter. The other methods of the aggregate
(`mark_sending`, `mark_dispatch_started`, `release_for_retry`, `cancel`) are called by no use
case: their effects are the conditional updates of the repository.
-/
namespace Friday.Delivery
open Tables PyText

inductive DeliveryStatus where
  | queued | sending | delivered | failed | ambiguous | cancelled
  deriving DecidableEq, Repr

def DeliveryStatus.value : DeliveryStatus → String
  | .queued => "queued"
  | .sending => "sending"
  | .delivered => "delivered"
  | .failed => "failed"
  | .ambiguous => "ambiguous"
  | .cancelled => "cancelled"

inductive DeliverySourceKind where
  | agentRequest | scheduledRunAnswer
  deriving DecidableEq, Repr

/-- `OutboundDelivery` (outbound_delivery.py:84), one row of `outbound_deliveries`. -/
structure OutboundDelivery where
  id : DeliveryId
  sourceKind : DeliverySourceKind
  sourceRunId : RunId
  sourceToolInvocationId : Option ToolInvocationId
  sourceScheduleFireId : Option ScheduleFireId
  routeId : String
  routeFingerprint : String
  subject : Option String
  body : String
  bodySha256 : String
  status : DeliveryStatus
  availableAt : Time
  attemptCount : Nat
  claimOwner : Option String
  claimToken : Option String
  claimGeneration : Nat
  claimExpiresAt : Option Time
  providerMessageId : Option String
  failureCode : Option String
  failureMessage : Option String
  createdAt : Time
  updatedAt : Time
  deliveredAt : Option Time
  dispatchStartedAt : Option Time
  deriving DecidableEq

instance : Keyed OutboundDelivery DeliveryId := ⟨OutboundDelivery.id⟩

@[simp] theorem key_delivery (d : OutboundDelivery) : key d = d.id := rfl

/-- `_bounded` (:56). -/
def bounded (value field : String) (maximum : Nat) : Result String :=
  if isBlank value then .error (.domainValidation s!"OutboundDelivery.{field} must not be empty")
  else if maximum < value.length then
    .error (.domainValidation s!"OutboundDelivery.{field} must be at most {maximum} characters")
  else .ok value

/-- `_optional_bounded` (:66). -/
def optionalBounded (value : Option String) (field : String) (maximum : Nat) :
    Result (Option String) :=
  match value with
  | none => .ok none
  | some v => some <$> bounded v field maximum

/-- `_LOWER_HEX.fullmatch`. -/
def isSha256Hex (s : String) : Bool := s.length == 64 && s.toList.all isLowerHex

namespace OutboundDelivery

/-- `_validate_source_shape` (:246). -/
def sourceShapeOk (d : OutboundDelivery) : Bool :=
  match d.sourceKind with
  | .agentRequest => d.sourceToolInvocationId.isSome && d.sourceScheduleFireId.isNone
  | .scheduledRunAnswer => d.sourceToolInvocationId.isNone && d.sourceScheduleFireId.isSome

/-- `__post_init__` (:193). It stores each value back unchanged, so only its checks matter. -/
def postInit (sha256 : String → String) (d : OutboundDelivery) : Result Unit := do
  let _ ← bounded d.routeId "route_id" 64
  require (isSha256Hex d.routeFingerprint)
    (.domainValidation "OutboundDelivery.route_fingerprint must be a lowercase SHA-256 hex digest")
  require (d.body ≠ "") (.domainValidation "OutboundDelivery.body must not be empty")
  require (d.body.length ≤ 16000)
    (.domainValidation "OutboundDelivery.body must be at most 16000 characters")
  let _ ← optionalBounded d.subject "subject" 512
  require (isSha256Hex d.bodySha256)
    (.domainValidation "OutboundDelivery.body_sha256 must be a lowercase SHA-256 hex digest")
  require (d.bodySha256 = sha256 d.body)
    (.domainValidation "OutboundDelivery.body_sha256 does not match body")
  require d.sourceShapeOk
    (.domainValidation "OutboundDelivery source references do not match source_kind")
  let _ ← optionalBounded d.claimOwner "claim_owner" 256
  let _ ← optionalBounded d.claimToken "claim_token" 256
  require (d.claimOwner.isNone = d.claimToken.isNone)
    (.domainValidation "OutboundDelivery claim owner and token must be set together")
  let _ ← optionalBounded d.providerMessageId "provider_message_id" 512
  let _ ← optionalBounded d.failureCode "failure_code" 128
  let _ ← optionalBounded d.failureMessage "failure_message" 2048

/-- The arguments of `OutboundDelivery.new`. -/
structure Intent where
  id : DeliveryId
  sourceKind : DeliverySourceKind
  sourceRunId : RunId
  sourceToolInvocationId : Option ToolInvocationId
  sourceScheduleFireId : Option ScheduleFireId
  routeId : String
  routeFingerprint : String
  subject : Option String
  body : String
  bodySha256 : Option String
  availableAt : Time
  createdAt : Time

/-- `OutboundDelivery.new` (:142). -/
def create (sha256 : String → String) (i : Intent) : Result OutboundDelivery := do
  let digest := sha256 i.body
  require (i.bodySha256.all (· = digest))
    (.domainValidation "OutboundDelivery.body_sha256 does not match body")
  let d : OutboundDelivery :=
    { id := i.id, sourceKind := i.sourceKind, sourceRunId := i.sourceRunId,
      sourceToolInvocationId := i.sourceToolInvocationId, sourceScheduleFireId := i.sourceScheduleFireId,
      routeId := i.routeId, routeFingerprint := i.routeFingerprint, subject := i.subject,
      body := i.body, bodySha256 := digest, status := .queued, availableAt := i.availableAt,
      attemptCount := 0, claimOwner := none, claimToken := none, claimGeneration := 0,
      claimExpiresAt := none, providerMessageId := none, failureCode := none,
      failureMessage := none, createdAt := i.createdAt, updatedAt := i.createdAt,
      deliveredAt := none, dispatchStartedAt := none }
  d.postInit sha256
  return d

/-- `_require_status` (:260). -/
def requireStatus (d : OutboundDelivery) (allowed target : DeliveryStatus) : Result Unit :=
  require (d.status = allowed)
    (.invalidStateTransition "OutboundDelivery" d.status.value target.value)

/-- `_require_dispatch_boundary` (:335). -/
def requireDispatchBoundary (d : OutboundDelivery) (target : DeliveryStatus) : Result Unit :=
  require d.dispatchStartedAt.isSome (.invalidStateTransition "OutboundDelivery" "sending"
    target.value)

/-- `deliver` (:339). -/
def deliver (d : OutboundDelivery) (now : Time) (providerMessageId : Option String) :
    Result OutboundDelivery := do
  d.requireStatus .sending .delivered
  d.requireDispatchBoundary .delivered
  let provider ← optionalBounded providerMessageId "provider_message_id" 512
  return { d with providerMessageId := provider, deliveredAt := some now, updatedAt := now, status := .delivered }

/-- The body that `fail` (:351), `mark_ambiguous` (:362) and `mark_route_ambiguous` (:374)
share; `boundary` says whether the dispatch boundary is required first. -/
def endWithFailure (target : DeliveryStatus) (boundary : Bool) (d : OutboundDelivery) (now : Time)
    (failureCode failureMessage : String) : Result OutboundDelivery := do
  d.requireStatus .sending target
  require (!boundary || d.dispatchStartedAt.isSome)
    (.invalidStateTransition "OutboundDelivery" "sending" target.value)
  let code ← bounded failureCode "failure_code" 128
  let message ← bounded failureMessage "failure_message" 2048
  return { d with failureCode := some code, failureMessage := some message, updatedAt := now, status := target }

def fail := endWithFailure .failed false
def markAmbiguous := endWithFailure .ambiguous true
def markRouteAmbiguous := endWithFailure .ambiguous false

end OutboundDelivery

/-! ## The attempt ledger -/

inductive DeliveryAttemptOutcome where
  | inProgress | delivered | failed | ambiguous
  deriving DecidableEq, Repr

def DeliveryAttemptOutcome.value : DeliveryAttemptOutcome → String
  | .inProgress => "in_progress"
  | .delivered => "delivered"
  | .failed => "failed"
  | .ambiguous => "ambiguous"

/-- `DeliveryAttempt` (delivery_attempt.py:105), one row of `delivery_attempts`. -/
structure DeliveryAttempt where
  id : DeliveryAttemptId
  deliveryId : DeliveryId
  claimGeneration : Nat
  startedAt : Time
  finishedAt : Option Time
  outcome : DeliveryAttemptOutcome
  failureCode : Option String
  deriving DecidableEq

instance : Keyed DeliveryAttempt DeliveryAttemptId := ⟨DeliveryAttempt.id⟩

/-- `validate_delivery_attempt_failure_code` (:49). -/
def validateDeliveryAttemptFailureCode : Option String → Result (Option String)
  | none => .ok none
  | some v =>
    if v = "" || !v.toList.all isCodeChar then
      .error (.domainValidation "DeliveryAttempt.failure_code must be a stable lowercase code")
    else if 128 < v.length then
      .error (.domainValidation "DeliveryAttempt.failure_code must be at most 128 characters")
    else .ok (some v)

/-- `validate_delivery_attempt_shape` (:69). -/
def validateDeliveryAttemptShape (outcome : DeliveryAttemptOutcome) (startedAt : Time)
    (finishedAt : Option Time) (failureCode : Option String) : Result (Option String) := do
  if outcome = .inProgress then
    require finishedAt.isNone (.domainValidation "DeliveryAttempt in_progress must have no finished_at")
    require failureCode.isNone (.domainValidation "DeliveryAttempt in_progress must have no failure_code")
    return none
  match finishedAt with
  | none => .error (.domainValidation "DeliveryAttempt terminal outcome requires finished_at")
  | some f =>
    require (startedAt ≤ f) (.domainValidation "DeliveryAttempt.finished_at must not precede started_at")
    require (!(outcome = .delivered && failureCode.isSome))
      (.domainValidation "DeliveryAttempt delivered must have no failure_code")
    require (!((outcome = .failed || outcome = .ambiguous) && failureCode.isNone))
      (.domainValidation s!"DeliveryAttempt {outcome.value} requires a stable failure_code")
    validateDeliveryAttemptFailureCode failureCode

end Friday.Delivery
