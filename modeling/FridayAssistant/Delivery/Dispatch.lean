import FridayAssistant.Delivery.UseCases
import FridayAssistant.Lib.Transition
/-!
# The dispatcher and its workers (infrastructure/messaging/dispatcher.py)

`dispatch_once` is a sequence of short transactions with the network call between them, so a
worker is a program counter that carries what the source holds in local variables. One action
is one committed (or rolled back) transaction, the read of the claimed delivery, the call of
`transport.send`, or a crash, which forgets the counter and leaves the tables. Any number of
workers interleave; the clock never goes back, and a claim token is one that no earlier claim
carries.

`issued` and `sends` record every claim ever handed out and every `transport.send` ever made.
-/
namespace Friday.Delivery
open Tables Transition

/-- What the dispatcher reads of a `MessagingRoute`; `fingerprint` is its digest property. -/
structure MessagingRoute where
  routeId : String
  enabled : Bool
  fingerprint : String
  deriving DecidableEq

structure TransportRequest where
  route : MessagingRoute
  body : String
  deriving DecidableEq

inductive TransportOutcome where
  | delivered | failed | ambiguous
  deriving DecidableEq

structure TransportResult where
  outcome : TransportOutcome
  failureCode : Option String
  deriving DecidableEq

/-- Where a worker is inside `dispatch_once`. -/
inductive Pc where
  | idle
  | claimed (claim : DeliveryClaim)
  | authorized (claim : DeliveryClaim) (request : TransportRequest)
  | begun (claim : DeliveryClaim) (request : TransportRequest)
  | persisting (claim : DeliveryClaim) (outcome : Outcome)
  deriving DecidableEq

/-- `dispatch_once` from `_load_claimed_delivery` to the call of `dispatch_started`
(dispatcher.py:69-100). -/
def afterLoad (routes : List MessagingRoute) (claim : DeliveryClaim) : Option OutboundDelivery → Pc
  | none => .idle
  | some delivery =>
    if delivery.dispatchStartedAt.isSome then
      .persisting claim (.markAmbiguous "delivery_already_dispatched"
        "Delivery was already marked for dispatch; no message was sent.")
    else match routes.find? (·.routeId = delivery.routeId) with
      | none => .persisting claim (.markRouteAmbiguous "delivery_route_missing"
          "Delivery route is no longer configured; no message was sent.")
      | some route =>
        if !route.enabled then
          .persisting claim (.markRouteAmbiguous "delivery_route_disabled"
            "Delivery route is disabled; no message was sent.")
        else if route.fingerprint ≠ delivery.routeFingerprint then
          .persisting claim (.markRouteAmbiguous "delivery_route_fingerprint_mismatch"
            "Delivery route authority changed; no message was sent.")
        else .authorized claim ⟨route, delivery.body⟩

/-- `result.failure_code or "webhook_transport_error"`. -/
def failureCodeOr (r : TransportResult) : String :=
  match r.failureCode with
  | none => "webhook_transport_error"
  | some c => if c = "" then "webhook_transport_error" else c

/-- `dispatch_once` after `transport.send` (:105-135); `none` is a transport exception. -/
def afterSend : Option TransportResult → Outcome
  | none => .markAmbiguous "delivery_transport_exception" "Webhook transport failed without a delivery result."
  | some r => match r.outcome with
    | .delivered => .deliver none
    | .ambiguous => .markAmbiguous (failureCodeOr r) "Webhook delivery outcome is unknown."
    | .failed => .fail (failureCodeOr r) "Webhook delivery failed."

/-- `deliveries.add` of a new intent, with the `UNIQUE` constraints on its source. -/
def addDelivery (sha256 : String → String) (db : DeliveryDb) (i : OutboundDelivery.Intent) :
    Result DeliveryDb := do
  let d ← OutboundDelivery.create sha256 i
  require (!db.deliveries.rows.any fun e =>
      (d.sourceToolInvocationId.isSome && e.sourceToolInvocationId = d.sourceToolInvocationId) ||
      (d.sourceScheduleFireId.isSome && e.sourceScheduleFireId = d.sourceScheduleFireId)) .integrity
  match db.deliveries.insert? d with
  | some t => return { db with deliveries := t }
  | none => .error .integrity

structure DispatchState where
  db : DeliveryDb
  clock : Time
  workers : Nat → Pc
  /-- Every claim `ClaimNextDelivery` ever returned. -/
  issued : List DeliveryClaim
  /-- Every call of `transport.send`, newest first. -/
  sends : List (DeliveryId × TransportRequest)

inductive Action where
  | add (intent : OutboundDelivery.Intent)
  | recover (policy : RetryPolicy) (candidateLimit : Nat) (now : Time)
  | claim (worker : Nat) (useCase : ClaimNextDelivery) (tokens : Nat → String) (now : Time)
  | load (worker : Nat) (routes : List MessagingRoute)
  | begin (worker : Nat) (attemptId : DeliveryAttemptId) (now : Time)
  | send (worker : Nat) (result : Option TransportResult)
  | persist (worker : Nat) (now : Time)
  | crash (worker : Nat)

/-- The clock reading of an action; the others read no clock. -/
def Action.time? : Action → Option Time
  | .recover _ _ now | .claim _ _ _ now | .begin _ _ now | .persist _ now => some now
  | _ => none

namespace DispatchState

def goto (s : DispatchState) (i : Nat) (pc : Pc) : DispatchState :=
  { s with workers := Function.update s.workers i pc }

/-- The tables a transaction leaves: its commit, or what was there when it raised. -/
def after (s : DispatchState) {α : Type} (now : Time) (r : Result (α × DeliveryDb)) :
    DispatchState :=
  match r with
  | .ok (_, db) => { s with db := db, clock := now }
  | .error _ => { s with clock := now }

/-- One action. `none`: the worker is not at that point of `dispatch_once`. -/
def act (sha256 : String → String) (s : DispatchState) : Action → Option DispatchState
  | .add intent =>
    match addDelivery sha256 s.db intent with
    | .ok db => some { s with db := db }
    | .error _ => some s
  | .recover policy limit now =>
    some (s.after now (recoverExpiredDeliveryClaims policy limit s.db now))
  | .claim i u tokens now =>
    match s.workers i with
    | .idle => match u.execute tokens s.db now with
      | .ok (some c, db) =>
        some ({ s with db := db, clock := now, issued := c :: s.issued }.goto i (.claimed c))
      | r => some (s.after now r)
    | _ => none
  | .load i routes => match s.workers i with
    | .claimed c => some (s.goto i (afterLoad routes c (s.db.deliveries.get? c.deliveryId)))
    | _ => none
  | .begin i attemptId now => match s.workers i with
    | .authorized c req => match beginDeliveryAttempt s.db c attemptId now with
      | .ok (_, db) => some ({ s with db := db, clock := now }.goto i (.begun c req))
      | .error _ => some ({ s with clock := now }.goto i .idle)
    | _ => none
  | .send i result => match s.workers i with
    | .begun c req =>
      some ({ s with sends := (c.deliveryId, req) :: s.sends }.goto i (.persisting c (afterSend result)))
    | _ => none
  | .persist i now => match s.workers i with
    | .persisting c o => match persistDeliveryOutcome s.db c o now with
      | .ok db => some ({ s with db := db, clock := now }.goto i .idle)
      | .error _ => some ({ s with clock := now }.goto i .idle)
    | _ => none
  | .crash i => some (s.goto i .idle)

end DispatchState

/-- The tokens an action draws have never been used, and its clock reading is not earlier than
the last one. -/
def Action.Ok (s : DispatchState) (a : Action) : Prop :=
  (match a with
    | .claim _ _ tokens _ => ∀ k, ∀ c ∈ s.issued, c.claimToken ≠ tokens k
    | _ => True) ∧
  ∀ now ∈ a.time?, s.clock ≤ now

/-- No delivery, no worker under way. -/
def DispatchState.Initial (s : DispatchState) : Prop :=
  s.db = ⟨.empty, .empty⟩ ∧ (∀ i, s.workers i = .idle) ∧ s.issued = [] ∧ s.sends = []

/-- The dispatcher: any number of workers over empty tables, deliveries added at any time. -/
def dispatcher (sha256 : String → String) : System DispatchState Action :=
  .ofStep DispatchState.Initial (DispatchState.act sha256) Action.Ok

/-! ### A run

One delivery is added, claimed by worker 0, checked against its route, begun and sent. -/

def sampleDigest : String := "0000000000000000000000000000000000000000000000000000000000000000"

def sampleClaimer : ClaimNextDelivery :=
  { policy := ⟨3, 60, fun _ => some 1, by decide⟩, workerId := "worker", leaseDuration := 10, candidateLimit := 5,
    leaseDuration_pos := by decide, candidateLimit_pos := by decide, workerId_ok := by decide }

def sampleStart : DispatchState := ⟨⟨.empty, .empty⟩, 0, fun _ => .idle, [], []⟩

def sampleActions : List Action :=
  [.add
    { id := 1, sourceKind := .agentRequest, sourceRunId := 2, sourceToolInvocationId := some 3,
      sourceScheduleFireId := none, routeId := "ops", routeFingerprint := sampleDigest,
      subject := none, body := "hello", bodySha256 := none, availableAt := 0, createdAt := 0 },
   .claim 0 sampleClaimer (fun _ => "token") 1, .load 0 [⟨"ops", true, sampleDigest⟩], .begin 0 4 2,
   .send 0 (some ⟨.delivered, none⟩)]

def sampleState : DispatchState :=
  System.run (DispatchState.act fun _ => sampleDigest) sampleStart sampleActions

theorem reachable_sampleState : (dispatcher fun _ => sampleDigest).Reachable sampleState := by
  refine System.Reachable.steps (.of_init ⟨rfl, fun _ => rfl, rfl, rfl⟩) (System.Steps.run ?_)
  refine ⟨⟨by decide, trivial, nofun⟩, ⟨by decide, fun _ c hc => ?_, ?_⟩,
    ⟨by decide, trivial, nofun⟩, ⟨by decide, trivial, ?_⟩, ⟨by decide, trivial, nofun⟩, trivial⟩
  · exact absurd hc (List.eq_nil_iff_forall_not_mem.1 (by decide) c)
  · rintro now ⟨⟩
    decide
  · rintro now ⟨⟩
    decide

end Friday.Delivery
