import FridayAssistant.App.Store
/-!
# Schedule use cases (schedule_lifecycle.py, materialize_due_schedule.py, put_schedule_delivery_policy.py)

`MaterializeDueSchedules` materializes each due schedule in a transaction of its own
(`materializeOne`); what goes wrong with one schedule is logged and the others go on.
-/
namespace Friday.App
open Tables Runs

structure CreateScheduleCommand where
  taskId : TaskId
  kind : ScheduleKind
  cron : Option String
  runAt : Option GivenTime
  timezone : String

/-- `run_at` is interpreted in its zone when the schedule fires once; a cron schedule takes none. -/
def commandRunAt (cal : Calendar) (c : CreateScheduleCommand) : Result (Option Time) :=
  match c.kind, c.runAt with
  | .once, some value => do
    let resolved ← resolveRunAt cal c.timezone value
    return some resolved
  | _, some (.aware value) | _, some (.naive value) => .ok (some value)
  | _, none => .ok none

def createSchedule (cal : Calendar) (db : AppDb) (c : CreateScheduleCommand) (id : ScheduleId)
    (now : Time) : Result AppDb := do
  let task ← getTask db.toDb c.taskId
  validateTimezone cal c.timezone
  let runAt ← commandRunAt cal c
  let first ← firstOccurrence cal c.kind c.cron runAt c.timezone now
  let schedule ← Schedule.new cal id task.id c.kind c.cron runAt c.timezone now first
  let schedules ← found (db.schedules.insert? schedule) .integrity
  return { db with schedules := schedules }

/-! ## Control -/

inductive ScheduleControl where
  | pause | resume | cancel
  deriving DecidableEq

/-- The schedule a control names, of the task it names. -/
def getSchedule (db : AppDb) (id : ScheduleId) (taskId : Option TaskId) : Result Schedule := do
  let s ← found (db.schedules.get? id) (.notFound "Schedule" id)
  require (taskId.all (· = s.taskId)) (.notFound "Schedule" id)
  return s

/-- `except InvalidStateTransition as exc: raise EntityConflict(str(exc))`. -/
def asConflict (x : Result Schedule) : Result Schedule :=
  match x with
  | .error (.invalidStateTransition entity source target) =>
    .error (.entityConflict (entity ++ " cannot transition from '" ++ source ++ "' to '" ++ target ++ "'"))
  | x => x

/-- What the control makes of the schedule. -/
def controlled (cal : Calendar) (s : Schedule) (control : ScheduleControl) (now : Time) :
    Result Schedule :=
  asConflict <| match control with
    | .resume => do
      let next ← nextOccurrence cal s now
      s.resume now next
    | .pause => s.pause now
    | .cancel => s.cancel now

/-- `ScheduleControl._change`. -/
def changeSchedule (cal : Calendar) (db : AppDb) (id : ScheduleId) (taskId : Option TaskId)
    (control : ScheduleControl) (now : Time) : Result AppDb := do
  let s ← getSchedule db id taskId
  let s' ← controlled cal s control now
  return { db with schedules := db.schedules.put s' }

/-! ## Delivery policies -/

/-- `PutScheduleDeliveryPolicy`, with the write that only matches a schedule that is not over. -/
def putScheduleDeliveryPolicy (db : AppDb) (id : ScheduleId) (taskId : TaskId) (routeId : String)
    (enabled : Bool) (now : Time) : Result AppDb := do
  let s ← getSchedule db id (some taskId)
  require (!s.status.isTerminal) (.entityConflict "terminal schedule cannot own delivery policy")
  let createdAt := ((db.scheduleDeliveryPolicies.get? s.id).map (·.createdAt)).getD now
  require (createdAt ≤ now)
    (.domainValidation "ScheduleDeliveryPolicy.updated_at must not precede created_at")
  return { db with scheduleDeliveryPolicies := db.scheduleDeliveryPolicies.put ⟨s.id, routeId, enabled, createdAt, now⟩ }

/-! ## Materialization -/

/-- `DeliveryRouteAuthorityResolver.resolve`, or no resolver. -/
abbrev Resolver := String → Option DeliveryRouteAuthority

/-- The ids one materialization draws. -/
structure FireIds where
  runId : RunId
  fireId : ScheduleFireId
  planId : ScheduleFireDeliveryPlanId

/-- The plan of a fire under its policy: an authority for another alias counts as none. -/
def planFor (resolve : Resolver) (policy : ScheduleDeliveryPolicy) (fire : ScheduleFire)
    (id : ScheduleFireDeliveryPlanId) (now : Time) : ScheduleFireDeliveryPlan :=
  match resolve policy.routeId with
  | none => .suppressed id fire policy.routeId false now
  | some a =>
    if a.routeId ≠ policy.routeId then .suppressed id fire policy.routeId false now
    else if !a.enabled then .suppressed id fire policy.routeId true now
    else .ready id fire a policy.routeId now

/-- The plan is added when an enabled policy asks for one. -/
def addPlan (resolve : Resolver) (plans : ScheduleFireDeliveryPlans)
    (policy : Option ScheduleDeliveryPolicy) (fire : ScheduleFire) (id : ScheduleFireDeliveryPlanId)
    (now : Time) : Result ScheduleFireDeliveryPlans :=
  match policy with
  | none => .ok plans
  | some policy =>
    if policy.enabled then plans.addForFire (planFor resolve policy fire id now) else .ok plans

def newFire (s : Schedule) (occurrence : Time) (ids : FireIds) (now : Time) : ScheduleFire :=
  ⟨ids.fireId, s.id, occurrence, now, ids.runId⟩

/-- The inserts of a materialization: the run with its item and event, the fire and its plan. -/
def startFire (resolve : Resolver) (db : AppDb) (s : Schedule) (task : Task)
    (policy : Option ScheduleDeliveryPolicy) (occurrence : Time) (ids : FireIds) (now : Time) :
    Result AppDb := do
  let started ← startRunInUow db.toDb task ids.runId now
  let root ← found (started.runs.get? ids.runId)
    (.entityConflict "scheduled fire requires a root execution run")
  require (root.id = root.executionId)
    (.entityConflict "scheduled fire requires a root execution run")
  let fires ← db.scheduleFires.add (newFire s occurrence ids now)
  let plans ← addPlan resolve db.scheduleFireDeliveryPlans policy (newFire s occurrence ids now)
    ids.planId now
  return { db with toDb := started, scheduleFires := fires, scheduleFireDeliveryPlans := plans }

/-- What the transaction has read decides what it does. -/
inductive Decision where
  /-- Not due, or an earlier fire still runs. -/
  | wait
  /-- The task is over. -/
  | complete (s : Schedule)
  | fire (s : Schedule) (task : Task) (policy : Option ScheduleDeliveryPolicy) (occurrence : Time)

/-- The reads of `_materialize_one`. -/
def readDue (db : AppDb) (id : ScheduleId) (now : Time) : Result Decision :=
  match db.schedules.get? id with
  | none => .ok .wait
  | some s =>
    match s.nextFireAt with
    | none => .ok .wait
    | some occurrence =>
      if s.status ≠ .active ∨ now < occurrence then .ok .wait
      else do
        let task ← getTask db.toDb s.taskId
        if task.status.isTerminal then return .complete s
        else if db.hasNonTerminalExecution s.id then return .wait
        else return .fire s task (db.scheduleDeliveryPolicies.get? s.id) occurrence

/-- Its writes. -/
def materialized (cal : Calendar) (resolve : Resolver) (db : AppDb) (ids : FireIds) (now : Time) :
    Decision → Result (Bool × AppDb)
  | .wait => .ok (false, db)
  | .complete s => .ok (false, { db with schedules := db.schedules.put (s.complete now) })
  | .fire s task policy occurrence => do
    let db ← startFire resolve db s task policy occurrence ids now
    let next ← coalescedNext cal s now
    return (true, { db with schedules := db.schedules.put (s.advanceAfterFire now next) })

/-- `_materialize_one`: a conflict is another scheduler's fire, and nothing is committed. -/
def materializeOne (cal : Calendar) (resolve : Resolver) (db : AppDb) (id : ScheduleId)
    (ids : FireIds) (now : Time) : Result (Bool × AppDb) :=
  match (do
    let decision ← readDue db id now
    materialized cal resolve db ids now decision) with
  | .error (.entityConflict _) => .ok (false, db)
  | result => result

end Friday.App
