import FridayAssistant.Runs.Store
/-!
# Runs and tasks (start_run.py, run_lifecycle.py, task_lifecycle.py, delegation_reconciliation.py)

The use cases that create, start, end, retry and cancel runs, and those of their tasks. Whatever
ends a run also settles the delegation the run was a child of (`reconcileChildTerminal`), except
the cancellation of a task: `_TaskCancellation._cancel_run` only ends the run and its
descendants.

Schedules, which the task use cases also complete, are read by no function here.
-/
namespace Friday.Runs
open Tables PyJson Queue
open Uuid (text)

/-- The limits of `DispatchDelegation`; its constructor rejects a bound below 1. -/
structure DelegationLimits where
  maxDelegationsPerRun : Nat
  maxDelegationsPerTree : Nat
  maxDelegationDepth : Nat
  perRun_pos : 1 ≤ maxDelegationsPerRun
  perTree_pos : 1 ≤ maxDelegationsPerTree
  depth_pos : 1 ≤ maxDelegationDepth

/-- What the use cases are constructed with. `failureEq` is `==` on two `Failure` values. -/
structure Config where
  sha256 : String → String
  runtimeRegistry : BrainRuntimeRegistry
  limits : DelegationLimits
  retryPolicy : RetryPolicy
  failureEq : Failure → Failure → Bool

/-- `CreateTask`. -/
def createTask (db : Db) (id : TaskId) (title description : String) (now : Time) :
    Result (Task × Db) := do
  let task ← Task.new id title description now
  let tasks ← found (db.tasks.insert? task) .integrity
  return (task, { db with tasks := tasks })

/-! ## `StartRun` -/

/-- `_ensure_task_can_own_a_run`. -/
def ensureTaskCanOwnARun (db : Db) (task : Task) (now : Time) : Result Db :=
  match task.status with
  | .pending => do
    let started ← task.start now
    return { db with tasks := db.tasks.put started }
  | .active => .ok db
  | _ => .error (.entityConflict
      ("Task " ++ text task.id ++ " is '" ++ task.status.value ++ "' and cannot start a run"))

/-- `execute_in_uow`: a queued run with its work item. -/
def startRunInUow (db : Db) (task : Task) (runId : RunId) (now : Time) : Result Db := do
  let db ← ensureTaskCanOwnARun db task now
  let runs ← found (db.runs.insert? (Run.new runId task.id now none)) .integrity
  let db := enqueueRun { db with runs := runs } runId now now
  return appendRunEvents db runId now [⟨.runCreated, textPayload [("task_id", text task.id)], none⟩]

def startRun (db : Db) (taskId : TaskId) (runId : RunId) (now : Time) : Result Db := do
  let task ← getTask db taskId
  startRunInUow db task runId now

/-! ## Delegation reconciliation -/

/-- What the end of the latest attempt makes of the request: its status, the event, the code. -/
def settlement (latest : Run) : Option (DelegationStatus × RunEventType × Option String) :=
  match latest.status with
  | .succeeded => some (.succeeded, .delegationSucceeded, none)
  | .failed =>
    some (.failed, .delegationFailed, some ((latest.failure.map (·.code)).getD "child_run_failed"))
  | .cancelled => some (.cancelled, .delegationCancelled, none)
  | _ => none

/-- The transition of the loaded request, which is where a failure code is checked. -/
def settleRequest (request : DelegationRequest) (status : DelegationStatus) (now : Time)
    (code : Option String) : Result DelegationRequest :=
  match status with
  | .succeeded => request.succeed now
  | .failed => do
    let code ← found code .assertion
    request.fail now code
  | _ => request.cancel now

def settlementPayload (request : DelegationRequest) (latest : Run) (status : DelegationStatus)
    (code : Option String) : JsonValue :=
  textPayload ([("delegation_request_id", text request.id), ("child_run_id", text latest.id),
    ("status", status.value)] ++ (code.map fun c => ("failure_code", c)).toList)

/-- A parent that waits for exactly this request is resumed and enqueued. -/
def wakeParent (db : Db) (request : DelegationRequest) (spec : EventSpec) (now : Time) :
    Result Db :=
  match db.runs.get? request.parentRunId with
  | none => .ok db
  | some parent =>
    if parent.status = .waitingForDelegation ∧ parent.delegationRequestId = some request.id then do
      let resumed ← parent.resumeFromDelegation
      let db := enqueueRun (saveRun db resumed) parent.id now now
      return appendRunEvents db parent.id now [spec, ⟨.runResumed, textPayload [("run_id", text parent.id),
        ("delegation_request_id", text request.id)], none⟩]
    else .ok db

/-- From the conditional `UPDATE` on. -/
def settleDelegation (db : Db) (request : DelegationRequest) (latest : Run)
    (outcome : DelegationStatus × RunEventType × Option String) (now : Time) : Result Db :=
  match db.delegationRequests.finalizeIfDispatched request.id outcome.1 now outcome.2.2 with
  | (false, _) => .ok db
  | (true, requests) => do
    let _ ← settleRequest request outcome.1 now outcome.2.2
    wakeParent { db with delegationRequests := requests } request
      ⟨outcome.2.1, settlementPayload request latest outcome.1 outcome.2.2, none⟩ now

/-- `reconcile_child_terminal_in_uow`. -/
def reconcileChildTerminal (db : Db) (childRun : Run) (now : Time) : Result Db :=
  if (db.runs.listForExecution childRun.executionId).isEmpty then .ok db
  else match db.delegationRequests.getForChildExecution db.runs childRun.executionId with
    | none => .ok db
    | some request =>
      if request.status ≠ .dispatched then .ok db
      else match db.runs.getLatestForExecution childRun.executionId with
        | none => .ok db
        | some latest =>
          match settlement latest with
          | none => .ok db
          | some outcome => settleDelegation db request latest outcome now

/-! ## Ending a run -/

/-- `_fail_run_event_specs`, with the run as it is after. -/
def failRunEventSpecs (db : Db) (run : Run) (now : Time) (failure : Failure) :
    Result (Run × List EventSpec × Db) := do
  let failed ← run.fail now failure
  let (specs, db) ← cancelDescendants (saveRun db failed) run.id now
  return (failed, specs ++ [⟨.runFailed, textPayload [("run_id", text run.id),
    ("failure_code", failure.code)], none⟩], db)

/-- `_succeed_run_event_specs`. -/
def succeedRunEventSpecs (db : Db) (run : Run) (now : Time) : Result (Run × List EventSpec × Db) :=
  do
  let succeeded ← run.succeed now
  return (succeeded, [⟨.runSucceeded, textPayload [("run_id", text run.id)], none⟩],
    saveRun db succeeded)

def startQueuedRun (db : Db) (runId : RunId) (now : Time) : Result (Run × Db) := do
  let run ← getRun db runId
  if run.status = .running then return (run, db)
  else do
    require (run.status = .queued) (.entityConflict "run cannot start")
    let task ← getTask db run.taskId
    require (task.status = .active) (.entityConflict "owning task is not active")
    let started ← run.start now
    return (started, appendRunEvents (saveRun db started) run.id now
      [⟨.runStarted, textPayload [("run_id", text run.id)], none⟩])

def completeRun (db : Db) (runId : RunId) (now : Time) : Result (Run × Db) := do
  let run ← getRun db runId
  if run.status = .succeeded then return (run, db)
  else do
    require (!run.status.isTerminal) (.entityConflict "run is terminal")
    require (run.status = .running) (.entityConflict "run cannot complete")
    require (stepsTerminal db run.id) (.entityConflict "run has non-terminal steps")
    require (toolsTerminal db run.id) (.entityConflict "run has non-terminal tool invocations")
    require (!db.delegationRequests.hasDispatchedForRun run.id) (.entityConflict "run has an active delegation")
    let (succeeded, specs, db) ← succeedRunEventSpecs db run now
    let db := appendRunEvents (removeItem db run.id) run.id now specs
    let db ← reconcileChildTerminal db succeeded now
    let db ← materializeSkillUsage db run.id now
    return (succeeded, db)

def failRun (cfg : Config) (db : Db) (runId : RunId) (failure : Failure) (now : Time) :
    Result (Run × Db) := do
  let run ← getRun db runId
  if run.status = .failed then do
    require (run.failure.any (cfg.failureEq · failure)) (.entityConflict "run failure is immutable")
    return (run, db)
  else do
    require (!run.status.isTerminal) (.entityConflict "run is terminal")
    require (run.status = .running) (.entityConflict "run cannot fail")
    let (failed, specs, db) ← failRunEventSpecs db run now failure
    let db := removeItem (appendRunEvents db run.id now specs) run.id
    let db ← reconcileChildTerminal db failed now
    let db ← materializeSkillUsage db run.id now
    return (failed, db)

/-! ## Cancelling a run -/

/-- `_cancel_pending_approvals`. -/
def cancelApprovals (now : Time) : Db → List ApprovalRequest → Result (List EventSpec × Db)
  | db, [] => .ok ([], db)
  | db, approval :: approvals => do
    let cancelled ← approval.cancel now (some "run cancelled")
    let (specs, db) ← cancelApprovals now { db with approvals := db.approvals.put cancelled } approvals
    return (⟨.approvalResolved, textPayload [("approval_request_id", text approval.id),
      ("status", cancelled.status.value)], approval.stepId⟩ :: specs, db)

def runCancelled (runId : RunId) : EventSpec :=
  ⟨.runCancelled, textPayload [("run_id", text runId)], none⟩

/-- `_RunCancellation._cancel_run`. -/
def runCancellation (db : Db) (run : Run) (now : Time) : Result (Run × Db) := do
  let cancelled ← run.cancel now
  let db := saveRun db cancelled
  let (approvalSpecs, db) ← cancelApprovals now db (pendingForRun db.approvals run.id)
  let (specs, db) ← cancelDescendants (removeItem db run.id) run.id now
  let db := appendRunEvents db run.id now (runCancelled run.id :: (approvalSpecs ++ specs))
  let db ← reconcileChildTerminal db cancelled now
  let db ← materializeSkillUsage db run.id now
  return (cancelled, db)

/-- A live run of a task owns a RUNNING workflow. -/
def ownsRunningWorkflow (db : Db) (runId : RunId) : Bool :=
  (db.workflowExecutions.listByRootRunId runId).any (·.status = .running)

/-- The branch of `CancelRun` for an ended run: the latest attempt, if it lives, is cancelled, and
nothing asks whether it owns a workflow. -/
def cancelLatest (db : Db) (run : Run) (now : Time) : Result (Run × Db) :=
  match db.runs.getLatestForExecution run.executionId with
  | none => .error (.entityConflict "run is terminal")
  | some latest =>
    if latest.status.isTerminal then .error (.entityConflict "run is terminal")
    else runCancellation db latest now

def cancelRun (db : Db) (runId : RunId) (now : Time) : Result (Run × Db) := do
  let run ← getRun db runId
  if run.status = .cancelled then return (run, db)
  else if run.status.isTerminal then cancelLatest db run now
  else do
    require (!(ownsRunningWorkflow db run.id && run.status = .waitingForWorkflow))
      .workflowCancelNotSupportedWhileActive
    runCancellation db run now

/-! ## `RetryFailedRun` -/

/-- The new attempt: its row, what it inherits and its work item. -/
def addRetry (db : Db) (source : Run) (ids : RetryIds) (availableAt : Result Time) (now : Time) :
    Result Db := do
  let runs ← found (db.runs.insert? (Run.new ids.runId source.taskId now (some source.executionId)))
    .integrity
  let db ← inheritFrozenResolutions { db with runs := runs } source.id ids
  let availableAt ← availableAt
  return appendRunEvents (enqueueRun db ids.runId availableAt now) ids.runId now
    [⟨.runCreated, textPayload [("task_id", text source.taskId), ("retry_of", text source.id)], none⟩]

def retryFailedRun (db : Db) (runId : RunId) (ids : RetryIds) (now : Time) : Result Db := do
  let source ← getRun db runId
  require (source.status = .failed) (.entityConflict "only failed runs may be retried")
  require (db.workflowNodeExecutions.getByChildExecutionId source.executionId).isNone
    .workflowNodeManualRetryForbidden
  require (db.delegationRequests.getForChildExecution db.runs source.executionId).isNone
    .delegatedManualRetryForbidden
  let task ← getTask db source.taskId
  let runs := db.runs.listForTask task.id
  require (runs.getLast?.any (·.id = source.id))
    (.entityConflict "only latest attempt may be retried")
  require (runs.all (·.status.isTerminal)) (.entityConflict "task already has non-terminal run")
  require (task.status = .active) (.entityConflict "task is not retryable")
  addRetry db source ids (.ok now) now

/-! ## Tasks -/

/-- `_TaskCancellation._cancel_run`: the run and its descendants, nothing else. -/
def taskCancellation (db : Db) (run : Run) (now : Time) : Result Db := do
  let cancelled ← run.cancel now
  let (specs, db) ← cancelDescendants (saveRun db cancelled) run.id now
  materializeSkillUsage (appendRunEvents db run.id now (runCancelled run.id :: specs)) run.id now

/-- The loop of `CancelTask` over the runs it listed. -/
def cancelRuns (now : Time) : Db → List Run → Result Db
  | db, [] => .ok db
  | db, run :: runs =>
    if run.status.isTerminal then cancelRuns now db runs
    else do
      let db ← taskCancellation db run now
      cancelRuns now db runs

def taskEventPayload (taskId : TaskId) : JsonValue := textPayload [("task_id", text taskId)]

def cancelTask (db : Db) (taskId : TaskId) (now : Time) : Result (Task × Db) := do
  let task ← getTask db taskId
  if task.status = .cancelled then return (task, db)
  else do
    require (!task.status.isTerminal) (.entityConflict "task is terminal")
    require ((db.runs.listForTask task.id).all fun run => run.status.isTerminal ||
      !ownsRunningWorkflow db run.id) .workflowCancelNotSupportedWhileActive
    let cancelled ← task.cancel now
    let db := appendTaskEvent { db with tasks := db.tasks.put cancelled } task.id now .taskCancelled
      (taskEventPayload task.id)
    let db ← cancelRuns now db (db.runs.listForTask task.id)
    return (cancelled, db)

def completeTask (db : Db) (taskId : TaskId) (now : Time) : Result (Task × Db) := do
  let task ← getTask db taskId
  if task.status = .completed then return (task, db)
  else do
    require (!task.status.isTerminal) (.entityConflict "task is terminal")
    require (task.status = .active) (.entityConflict "task cannot complete")
    let runs := db.runs.listForTask task.id
    require (runs.all (·.status.isTerminal)) (.entityConflict "task has non-terminal runs")
    require (runs.all fun run => stepsTerminal db run.id) (.entityConflict "task has non-terminal steps")
    require (runs.all fun run => toolsTerminal db run.id) (.entityConflict "task has non-terminal tool invocations")
    let completed ← task.complete now
    return (completed, appendTaskEvent { db with tasks := db.tasks.put completed } task.id now
      .taskCompleted (taskEventPayload task.id))

def failTask (cfg : Config) (db : Db) (taskId : TaskId) (failure : Failure) (now : Time) :
    Result (Task × Db) := do
  let task ← getTask db taskId
  if task.status = .failed then do
    require (task.failure.any (cfg.failureEq · failure)) (.entityConflict "task failure is immutable")
    return (task, db)
  else do
    require (!task.status.isTerminal) (.entityConflict "task is terminal")
    let failed ← task.fail now failure
    return (failed, appendTaskEvent { db with tasks := db.tasks.put failed } task.id now .taskFailed
      (textPayload [("task_id", text task.id), ("failure_code", failure.code)]))

end Friday.Runs
