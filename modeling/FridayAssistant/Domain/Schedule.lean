import FridayAssistant.Delivery.Domain
/-!
# Schedules, their fires and their delivery plans

domain/schedule.py, domain/schedule_fire.py, domain/schedule_fire_delivery_plan.py,
domain/schedule_delivery_policy.py, domain/delivery_route.py, application/schedule_recurrence.py.

The time zone database and croniter are not part of the program: `Calendar` is what it takes from
them.
-/
namespace Friday
open Tables

abbrev ScheduleId := Uuid
abbrev ScheduleFireDeliveryPlanId := Uuid

inductive ScheduleKind where
  | once | cron
  deriving DecidableEq

inductive ScheduleStatus where
  | active | paused | completed | cancelled
  deriving DecidableEq

def ScheduleStatus.value : ScheduleStatus → String
  | .active => "active"
  | .paused => "paused"
  | .completed => "completed"
  | .cancelled => "cancelled"

/-- `TERMINAL_SCHEDULE_STATUSES`. -/
def ScheduleStatus.isTerminal : ScheduleStatus → Bool
  | .completed | .cancelled => true
  | _ => false

structure Schedule where
  id : ScheduleId
  taskId : TaskId
  kind : ScheduleKind
  cron : Option String
  runAt : Option Time
  timezone : String
  status : ScheduleStatus
  nextFireAt : Option Time
  createdAt : Time
  updatedAt : Time
  deriving DecidableEq

instance : Keyed Schedule ScheduleId := ⟨Schedule.id⟩

@[simp] theorem key_schedule (s : Schedule) : key s = s.id := rfl

/-! ## Recurrence -/

/-- `ZoneInfo(value)` exists; the instant of a wall time in a zone, when there is one; the next
occurrence of a cron expression in a zone, when the expression is valid. -/
structure Calendar where
  zoneExists : String → Bool
  wallTime : String → Time → Option Time
  croniter : String → String → Time → Option Time
  croniter_later : ∀ expression zone after next, croniter expression zone after = some next →
    after < next

/-- A `datetime` with or without an offset. -/
inductive GivenTime where
  | aware (at_ : Time)
  | naive (wall : Time)

def validateTimezone (cal : Calendar) (zone : String) : Result Unit :=
  require (cal.zoneExists zone) (.domainValidation "Schedule.timezone must be an IANA timezone")

/-- `_resolve_run_at`. -/
def resolveRunAt (cal : Calendar) (zone : String) : GivenTime → Result Time
  | .aware at_ => .ok at_
  | .naive wall =>
    found (cal.wallTime zone wall) (.domainValidation "Schedule.run_at is a nonexistent local time")

/-- `_next_cron`. -/
def nextCron (cal : Calendar) (expression zone : String) (after : Time) : Result Time := do
  require ((PyText.words expression).length = 5)
    (.domainValidation "Schedule.cron must have exactly five fields (no seconds)")
  found (cal.croniter expression zone after) (.domainValidation "Schedule.cron is invalid")

variable {next : Time} {cal : Calendar}

theorem nextCron_later {expression zone : String} {after : Time}
    (h : nextCron cal expression zone after = .ok next) : after < next := by
  obtain ⟨_, h⟩ := bind_rest h
  exact cal.croniter_later _ _ _ _ (found_eq_ok.1 h)

/-- `first_occurrence`, of a `run_at` that is resolved. -/
def firstOccurrence (cal : Calendar) (kind : ScheduleKind) (cron : Option String)
    (runAt : Option Time) (zone : String) (now : Time) : Result (Option Time) := do
  validateTimezone cal zone
  match kind, runAt with
  | .once, none => return none
  | .once, some value => do
    require (now < value) (.domainValidation "Schedule.run_at must be in the future")
    return some value
  | .cron, _ => do
    let expression ← found cron .assertion
    let next ← nextCron cal expression zone now
    return some next

/-- `next_occurrence`. -/
def nextOccurrence (cal : Calendar) (s : Schedule) (after : Time) : Result (Option Time) :=
  match s.kind with
  | .once => .ok (s.runAt.filter (after < ·))
  | .cron => do
    let expression ← found s.cron .assertion
    let next ← nextCron cal expression s.timezone after
    return some next

/-- `coalesced_next`: occurrences missed before `now` are skipped. -/
def coalescedNext (cal : Calendar) (s : Schedule) (now : Time) : Result (Option Time) :=
  match s.kind with
  | .once => .ok none
  | .cron => do
    let expression ← found s.cron .assertion
    let next ← nextCron cal expression s.timezone now
    return some next

theorem nextOccurrence_later {s : Schedule} {after : Time}
    (h : nextOccurrence cal s after = .ok (some next)) : after < next := by
  unfold nextOccurrence at h
  split at h
  · have hfilter := Except.ok.inj h
    exact of_decide_eq_true (Option.filter_eq_some_iff.1 hfilter).2
  · obtain ⟨_, h⟩ := bind_rest h
    obtain ⟨_, hnext, h⟩ := bind_ok h
    cases h
    exact nextCron_later hnext

theorem coalescedNext_later {s : Schedule} {now : Time}
    (h : coalescedNext cal s now = .ok (some next)) : now < next := by
  unfold coalescedNext at h
  split at h
  · cases h
  · obtain ⟨_, h⟩ := bind_rest h
    obtain ⟨_, hnext, h⟩ := bind_ok h
    cases h
    exact nextCron_later hnext

/-! ## Transitions -/

namespace Schedule

/-- ACTIVE while there is a next occurrence. -/
def statusFor (nextFireAt : Option Time) : ScheduleStatus :=
  if nextFireAt.isSome then .active else .completed

/-- The shape `Schedule.new` asks for. -/
def requireShape (kind : ScheduleKind) (cron : Option String) (runAt : Option Time) : Result Unit :=
  match kind with
  | .once => require (runAt.isSome && cron.isNone)
      (.domainValidation "once schedules require run_at and forbid cron")
  | .cron => require (cron.isSome && runAt.isNone)
      (.domainValidation "cron schedules require cron and forbid run_at")

def new (cal : Calendar) (id : ScheduleId) (taskId : TaskId) (kind : ScheduleKind)
    (cron : Option String) (runAt : Option Time) (timezone : String) (now : Time)
    (nextFireAt : Option Time) : Result Schedule := do
  validateTimezone cal timezone
  requireShape kind cron runAt
  return { id := id, taskId := taskId, kind := kind, cron := cron.map PyText.strip, runAt := runAt,
           timezone := timezone, status := statusFor nextFireAt, nextFireAt := nextFireAt,
           createdAt := now, updatedAt := now }

def transition (s : Schedule) (target : ScheduleStatus) : AppError :=
  .invalidStateTransition "Schedule" s.status.value target.value

def pause (s : Schedule) (now : Time) : Result Schedule := do
  require (s.status = .active) (s.transition .paused)
  return { s with status := .paused, updatedAt := now }

def resume (s : Schedule) (now : Time) (nextFireAt : Option Time) : Result Schedule := do
  require (s.status = .paused) (s.transition .active)
  return { s with nextFireAt := nextFireAt, status := statusFor nextFireAt, updatedAt := now }

def cancel (s : Schedule) (now : Time) : Result Schedule := do
  require (!s.status.isTerminal) (s.transition .cancelled)
  return { s with status := .cancelled, nextFireAt := none, updatedAt := now }

def complete (s : Schedule) (now : Time) : Schedule :=
  { s with status := .completed, nextFireAt := none, updatedAt := now }

def advanceAfterFire (s : Schedule) (now : Time) (nextFireAt : Option Time) : Schedule :=
  { s with nextFireAt := nextFireAt, status := statusFor nextFireAt, updatedAt := now }

end Schedule

abbrev Schedules := Table Schedule

/-- `complete_for_task`. -/
def Schedules.completeForTask (t : Schedules) (taskId : TaskId) (now : Time) (cancelled : Bool) :
    Schedules :=
  (t.updateWhere (fun s => s.taskId = taskId && !s.status.isTerminal)
    (fun s => { s with status := if cancelled then .cancelled else .completed, nextFireAt := none, updatedAt := now })
    fun _ => rfl).2

/-! ## Fires -/

structure ScheduleFire where
  id : ScheduleFireId
  scheduleId : ScheduleId
  scheduledFor : Time
  firedAt : Time
  runId : RunId
  deriving DecidableEq

instance : Keyed ScheduleFire ScheduleFireId := ⟨ScheduleFire.id⟩

abbrev ScheduleFires := Table ScheduleFire

/-- `add` under `uq_schedule_fires_occurrence` and `uq_schedule_fires_run_id`. -/
def ScheduleFires.add (t : ScheduleFires) (f : ScheduleFire) : Result ScheduleFires := do
  require (t.rows.all fun x => !(x.scheduleId = f.scheduleId && x.scheduledFor = f.scheduledFor) &&
    x.runId ≠ f.runId) .integrity
  found (t.insert? f) .integrity

theorem ScheduleFires.add_eq_ok {t t' : ScheduleFires} {f : ScheduleFire} (h : t.add f = .ok t') :
    t.get? f.id = none ∧ t' = t.put f ∧
      ∀ x ∈ t.rows, ¬(x.scheduleId = f.scheduleId ∧ x.scheduledFor = f.scheduledFor) ∧ x.runId ≠ f.runId := by
  obtain ⟨_, hunique, h⟩ := bind_ok h
  obtain ⟨hfresh, rfl⟩ := Table.insert?_eq_some.1 (found_eq_ok.1 h)
  refine ⟨hfresh, rfl, fun x hx => ?_⟩
  have hx := List.all_eq_true.1 (require_eq_ok.1 hunique) x hx
  simpa [imp_iff_not_or] using hx

/-! ## Delivery plans -/

structure ScheduleDeliveryPolicy where
  scheduleId : ScheduleId
  routeId : String
  enabled : Bool
  createdAt : Time
  updatedAt : Time

instance : Keyed ScheduleDeliveryPolicy ScheduleId := ⟨ScheduleDeliveryPolicy.scheduleId⟩

/-- `DeliveryRouteAuthority`; its constructor checks the fingerprint and the bound. -/
structure DeliveryRouteAuthority where
  routeId : String
  enabled : Bool
  fingerprint : String
  maxBodyChars : Nat
  fingerprint_hex : Delivery.isSha256Hex fingerprint = true
  maxBodyChars_pos : 0 < maxBodyChars

inductive ScheduleFireDeliveryPlanStatus where
  | ready | suppressed
  deriving DecidableEq

def routeMissing : String := "schedule_delivery_route_missing"
def routeDisabled : String := "schedule_delivery_route_disabled"

/-- `__post_init__` of a plan. -/
def planShapeOk : ScheduleFireDeliveryPlanStatus → Option String → Option Nat → Option String → Bool
  | .ready, fingerprint, maxBody, reason =>
    fingerprint.any Delivery.isSha256Hex && maxBody.all (0 < ·) && reason.isNone
  | .suppressed, fingerprint, maxBody, reason =>
    fingerprint.isNone && maxBody.isNone && (reason = some routeMissing || reason = some routeDisabled)

/-- What was decided about the answer when the fire was committed. -/
structure ScheduleFireDeliveryPlan where
  id : ScheduleFireDeliveryPlanId
  scheduleFireId : ScheduleFireId
  scheduleId : ScheduleId
  executionId : RunId
  routeId : String
  routeFingerprint : Option String
  routeMaxBodyChars : Option Nat
  status : ScheduleFireDeliveryPlanStatus
  reasonCode : Option String
  contentRejectedRunId : Option RunId
  createdAt : Time
  shape : planShapeOk status routeFingerprint routeMaxBodyChars reasonCode = true

instance : Keyed ScheduleFireDeliveryPlan ScheduleFireDeliveryPlanId :=
  ⟨ScheduleFireDeliveryPlan.id⟩

namespace ScheduleFireDeliveryPlan

def ready (id : ScheduleFireDeliveryPlanId) (fire : ScheduleFire) (a : DeliveryRouteAuthority)
    (routeId : String) (now : Time) : ScheduleFireDeliveryPlan where
  id := id
  scheduleFireId := fire.id
  scheduleId := fire.scheduleId
  executionId := fire.runId
  routeId := routeId
  routeFingerprint := some a.fingerprint
  routeMaxBodyChars := some a.maxBodyChars
  status := .ready
  reasonCode := none
  contentRejectedRunId := none
  createdAt := now
  shape := by simp [planShapeOk, a.fingerprint_hex, a.maxBodyChars_pos]

def suppressed (id : ScheduleFireDeliveryPlanId) (fire : ScheduleFire) (routeId : String)
    (disabled : Bool) (now : Time) : ScheduleFireDeliveryPlan where
  id := id
  scheduleFireId := fire.id
  scheduleId := fire.scheduleId
  executionId := fire.runId
  routeId := routeId
  routeFingerprint := none
  routeMaxBodyChars := none
  status := .suppressed
  reasonCode := some (if disabled then routeDisabled else routeMissing)
  contentRejectedRunId := none
  createdAt := now
  shape := by cases disabled <;> rfl

end ScheduleFireDeliveryPlan

abbrev ScheduleFireDeliveryPlans := Table ScheduleFireDeliveryPlan

/-- `add_for_fire` under `uq_schedule_fire_delivery_plans_fire`; the plan is built from its fire. -/
def ScheduleFireDeliveryPlans.addForFire (t : ScheduleFireDeliveryPlans)
    (p : ScheduleFireDeliveryPlan) : Result ScheduleFireDeliveryPlans := do
  require (t.rows.all (·.scheduleFireId ≠ p.scheduleFireId)) .integrity
  found (t.insert? p) .integrity

end Friday
