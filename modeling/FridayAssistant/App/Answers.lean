import FridayAssistant.App.System
import FridayAssistant.Delivery.Effects
/-!
# Scheduled answers (worker_maintenance.py:55-157)

| here | there |
| --- | --- |
| `ContentGate.validate` | `ScheduledAnswerContentGate.validate` |
| `canonicalFinalAgentSummary` | `canonical_final_agent_summary` (list_events.py:12) |
| `latestOfTypeForRun` | `RunEventStore.latest_of_type_for_run` (repositories.py:2986) |
| `getByFire`, `listReadyWithoutDelivery`, `markContentRejected` | `ScheduleFireDeliveryPlanRepository` (:2077) |
| `Answers.materializeOne`, `Answers.execute` | `MaterializeScheduledAnswerDeliveries` |

A plan's content source has one value, so the branch for another one is left out. A Lean text
has no lone surrogates and always encodes as UTF-8.
-/
namespace Friday.App
open Tables Runs Delivery Transition PyJson

/-! ## The content gate -/

/-- `text.replace("\r\n", "\n")`. -/
def replaceCrLf : List Char → List Char
  | '\r' :: '\n' :: cs => '\n' :: replaceCrLf cs
  | c :: cs => c :: replaceCrLf cs
  | [] => []

/-- `unicodedata.category(char) == "Cc"`. -/
def isControl (c : Char) : Bool := c.toNat < 0x20 || (0x7F ≤ c.toNat && c.toNat ≤ 0x9F)

def maxBodyLength : Nat := 16000

def ContentGate.normalize (summary : String) : String :=
  PyText.strip (String.ofList ((replaceCrLf summary.toList).map fun c =>
    if c = '\r' then '\n' else c))

def ContentGate.validate (summary : Option String) (maxBodyChars : Option Nat) : Option String :=
  match summary, maxBodyChars with
  | some summary, some maxBodyChars =>
    let normalized := ContentGate.normalize summary
    if normalized = "" ∨ maxBodyChars = 0 ∨ min maxBodyChars maxBodyLength < normalized.length then none
    else if normalized.toList.any fun c => isControl c && c ≠ '\n' then none
    else some normalized
  | _, _ => none

/-! ## What is read -/

def latestOfTypeForRun (events : List RunEvent) (runId : RunId) (type : RunEventType) :
    Option RunEvent :=
  ((events.filter fun e => e.runId = runId && e.type = type).insertionSort fun a b =>
    b.sequence ≤ a.sequence).head?

def canonicalFinalAgentSummary : Option RunEvent → Option String
  | none => none
  | some event =>
    if event.type ≠ .agentFinished then none
    else match event.payload.get? "summary" with
      | some (.str summary) => some summary
      | _ => none

/-- The summary of the final answer of a run. -/
def finalSummary (db : AppDb) (runId : RunId) : Option String :=
  canonicalFinalAgentSummary (latestOfTypeForRun db.events runId .agentFinished)

def getByFire (t : ScheduleFireDeliveryPlans) (fireId : ScheduleFireId) :
    Option ScheduleFireDeliveryPlan :=
  t.rows.find? (·.scheduleFireId = fireId)

/-- `get_by_source_schedule_fire_id`. -/
def getBySourceScheduleFireId (db : DeliveryDb) (fireId : ScheduleFireId) :
    Option OutboundDelivery :=
  db.deliveries.rows.find? (·.sourceScheduleFireId = some fireId)

/-- The application beside the dispatcher, on one database. -/
structure AnswerState where
  app : AppDb
  dispatch : Delivery.DispatchState

namespace AnswerState

def plans (s : AnswerState) : ScheduleFireDeliveryPlans := s.app.scheduleFireDeliveryPlans
def deliveries (s : AnswerState) : Table OutboundDelivery := s.dispatch.db.deliveries
def latest (s : AnswerState) (executionId : RunId) : Option Run :=
  s.app.runs.getLatestForExecution executionId

def withPlans (s : AnswerState) (plans : ScheduleFireDeliveryPlans) : AnswerState :=
  { s with app := { s.app with scheduleFireDeliveryPlans := plans } }

def withDeliveries (s : AnswerState) (db : DeliveryDb) : AnswerState :=
  { s with dispatch := { s.dispatch with db := db } }

end AnswerState

/-- `ORDER BY created_at, id`. -/
def planOrder (a b : ScheduleFireDeliveryPlan) : Prop :=
  a.createdAt < b.createdAt ∨ a.createdAt = b.createdAt ∧ a.id ≤ b.id
  deriving Decidable

/-- The `WHERE` of `list_ready_without_delivery`, with its join on the latest attempt. -/
def readyWithoutDelivery (s : AnswerState) (p : ScheduleFireDeliveryPlan) : Bool :=
  p.status = .ready && s.deliveries.rows.all (·.sourceScheduleFireId ≠ some p.scheduleFireId) &&
    (s.latest p.executionId).any fun run => run.status = .succeeded &&
    p.contentRejectedRunId ≠ some run.id

def listReadyWithoutDelivery (s : AnswerState) (limit : Nat) : List ScheduleFireId :=
  (((s.plans.select (readyWithoutDelivery s)).insertionSort planOrder).take limit).map
    (·.scheduleFireId)

/-! ## What is written -/

/-- `mark_content_rejected`, with whether `rowcount == 1`. -/
def markContentRejected (t : ScheduleFireDeliveryPlans) (fireId : ScheduleFireId) (runId : RunId) :
    Bool × ScheduleFireDeliveryPlans :=
  let (rowcount, t) := t.updateWhere (fun p => p.scheduleFireId = fireId && p.status = .ready)
    (fun p => { p with contentRejectedRunId := some runId }) (fun _ => rfl)
  (rowcount == 1, t)

namespace Answers

/-- `_reject_content`: the mark is committed when it matched. -/
def rejectContent (s : AnswerState) (fireId : ScheduleFireId) (runId : RunId) :
    Bool × AnswerState :=
  match markContentRejected s.plans fireId runId with
  | (true, plans) => (false, s.withPlans plans)
  | (false, _) => (false, s)

/-- The intent for the answer of a run, on the route the plan was made with. -/
def answerIntent (plan : ScheduleFireDeliveryPlan) (run : Run) (fingerprint body : String)
    (id : DeliveryId) (now : Time) : OutboundDelivery.Intent where
  id := id
  sourceKind := .scheduledRunAnswer
  sourceRunId := run.id
  sourceToolInvocationId := none
  sourceScheduleFireId := some plan.scheduleFireId
  routeId := plan.routeId
  routeFingerprint := fingerprint
  subject := none
  body := body
  bodySha256 := none
  availableAt := now
  createdAt := now

/-- `_materialize_one`. -/
def materializeOne (sha256 : String → String) (s : AnswerState) (fireId : ScheduleFireId)
    (id : DeliveryId) (now : Time) : Result (Bool × AnswerState) :=
  match getByFire s.plans fireId with
  | none => .ok (false, s)
  | some plan =>
    if plan.status ≠ .ready then .ok (false, s)
    else if (getBySourceScheduleFireId s.dispatch.db plan.scheduleFireId).isSome then .ok (false, s)
    else match s.latest plan.executionId with
      | none => .ok (false, s)
      | some run =>
        if run.executionId ≠ plan.executionId then .ok (false, s)
        else if run.status ≠ .succeeded then .ok (false, s)
        else match ContentGate.validate (finalSummary s.app run.id) plan.routeMaxBodyChars, plan.routeFingerprint with
          | some body, some fingerprint => do
            let db ← addDelivery sha256 s.dispatch.db (answerIntent plan run fingerprint body id now)
            return (true, s.withDeliveries db)
          | _, _ => .ok (rejectContent s plan.scheduleFireId run.id)

/-- The loop of `execute`, with the id drawn and the instant read for each fire; what a candidate
raises is swallowed. -/
def materializeAll (sha256 : String → String) (draw : ScheduleFireId → DeliveryId × Time) :
    AnswerState → List ScheduleFireId → Nat × AnswerState
  | s, [] => (0, s)
  | s, fireId :: rest =>
    match materializeOne sha256 s fireId (draw fireId).1 (draw fireId).2 with
    | .ok (materialized, s') =>
      let (count, s'') := materializeAll sha256 draw s' rest
      ((if materialized then 1 else 0) + count, s'')
    | .error _ => materializeAll sha256 draw s rest

def execute (sha256 : String → String) (batchSize : Nat) (draw : ScheduleFireId → DeliveryId × Time)
    (s : AnswerState) : Nat × AnswerState :=
  materializeAll sha256 draw s (listReadyWithoutDelivery s batchSize)

end Answers

/-! ## The system -/

inductive AnswerAction where
  | app (a : AppAction)
  /-- A transaction of the dispatcher, or of the message tool. -/
  | dispatch (a : Delivery.Action)
  | tick (batchSize : Nat) (draw : ScheduleFireId → DeliveryId × Time)

/-- The message tool adds the deliveries an agent asked for. -/
def asksForAgent : Delivery.Action → Bool
  | .add intent => intent.sourceKind = .agentRequest
  | _ => true

def answerStep (cfg : AppConfig) (sha256 : String → String) (s : AnswerState) : AnswerAction →
    Option AnswerState
  | .app a => (appCommit cfg s.app a).map fun app => { s with app := app }
  | .dispatch a =>
    if asksForAgent a then (s.dispatch.act sha256 a).map fun dispatch => { s with dispatch := dispatch } else none
  | .tick batchSize draw => some (Answers.execute sha256 batchSize draw s).2

def answerGuard (s : AnswerState) : AnswerAction → Prop
  | .dispatch a => a.Ok s.dispatch
  | _ => True

/-- Every history of ticks, run use cases, schedules and deliveries, from a database without
plans. -/
def answerSystem (cfg : AppConfig) (sha256 : String → String) : System AnswerState AnswerAction :=
  .ofStep (fun s => s.app.toCore = .empty ∧ s.app.scheduleFireDeliveryPlans = .empty ∧
    s.dispatch.Initial) (answerStep cfg sha256) answerGuard

end Friday.App
