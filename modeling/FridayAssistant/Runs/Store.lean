import FridayAssistant.Domain.Task
import FridayAssistant.Domain.Tool
import FridayAssistant.Domain.Delegation
import FridayAssistant.Domain.Registry
import FridayAssistant.Domain.Workflow
import FridayAssistant.Queue.WorkQueue
/-!
# The database of the run use cases

`Core` holds the tables the life of a run is written to: the runs, their work items, approvals,
delegation requests, workflow executions and the agent bindings of tasks. `Db` adds the tables
that are read for decisions or written alongside: tasks, steps, tool invocations, event streams,
workflow nodes, definitions and frozen resolutions.

A use case is a function from a database and its arguments, among them the instant `clock.now()`
returned and the ids it drew, to its result and the database it commits.
-/
namespace Friday.Runs
open Tables PyJson Queue

/-- `RunEventType` (domain/event.py). -/
inductive RunEventType where
  | runCreated | runStarted | runWaitingForApproval | runWaitingForDelegation | runResumed | runSucceeded
  | runFailed | runCancelled | stepCreated | stepStarted | stepSucceeded | stepFailed | stepSkipped | stepCancelled
  | approvalRequested | approvalResolved | toolInvocationRequested | toolInvocationStarted
  | toolInvocationSucceeded | toolInvocationFailed | toolInvocationCancelled | artifactCreated | agentFinished
  | delegationDispatched | delegationSucceeded | workflowExecutionStarted | workflowNodeDispatched
  | workflowNodeSucceeded | workflowNodeFailed | workflowNodeCancelled | workflowNodeBlocked
  | workflowExecutionSucceeded | workflowExecutionFailed | delegationFailed | delegationCancelled
  | memoryContextAttached | memoryRetrievalDegraded | memoryWriteRequested | memoryWriteCommitted
  | memoryWriteConflicted | memoryIndexMarkedStale
  deriving DecidableEq

/-- What an event says before it gets its place in the stream. -/
structure EventSpec where
  type : RunEventType
  payload : JsonValue
  stepId : Option RunStepId

structure RunEvent extends EventSpec where
  runId : RunId
  sequence : Nat
  occurredAt : Time

inductive TaskEventType where
  | taskCompleted | taskFailed | taskCancelled
  deriving DecidableEq

structure TaskEvent where
  taskId : TaskId
  type : TaskEventType
  sequence : Nat
  occurredAt : Time
  payload : JsonValue

/-- The tables that say where each run stands. -/
structure Core where
  runs : RunTable
  workQueue : WorkItems
  approvals : Approvals
  delegationRequests : DelegationRequests
  workflowExecutions : WorkflowExecutions
  taskAgentBindings : TaskAgentBindings

structure Db extends Core where
  tasks : Tasks
  steps : RunSteps
  toolInvocations : ToolInvocations
  events : List RunEvent
  taskEvents : List TaskEvent
  workflowNodeExecutions : WorkflowNodeExecutions
  runWorkflowResolutions : Table RunWorkflowResolution
  taskWorkflowBindings : Table TaskWorkflowBinding
  workflows : Table Workflow
  workflowRevisions : Table WorkflowRevision
  agents : Agents
  agentRevisions : Table AgentRevision
  runAgentResolutions : Table RunAgentResolution
  runSkillResolutions : Table RunSkillResolution
  runSkillBindings : RunSkillBindings
  skillUsageRecords : SkillUsageRecords

/-- A JSON object of texts. -/
def textPayload (members : List (String × String)) : JsonValue :=
  .obj (members.map fun kv => (kv.1, .str kv.2))

/-! ## Event streams (lifecycle_events.py) -/

/-- The events of one append, numbered from `start`. -/
def numbered (runId : RunId) (now : Time) : Nat → List EventSpec → List RunEvent
  | _, [] => []
  | start, spec :: specs =>
    { spec with runId := runId, sequence := start, occurredAt := now } :: numbered runId now (start + 1) specs

/-- `append_run_events`: the stream of a run is numbered from 1 without gaps, so the counter row
of the run is one more than the number of its events. -/
def appendRunEvents (db : Db) (runId : RunId) (now : Time) (specs : List EventSpec) : Db :=
  { db with events := db.events ++ numbered runId now (db.events.countP (·.runId = runId) + 1) specs }

/-- `append_task_event`. -/
def appendTaskEvent (db : Db) (taskId : TaskId) (now : Time) (type : TaskEventType)
    (payload : JsonValue) : Db :=
  { db with taskEvents := db.taskEvents ++
      [{ taskId := taskId, type := type, sequence := db.taskEvents.countP (·.taskId = taskId) + 1,
         occurredAt := now, payload := payload }] }

@[simp] theorem appendRunEvents_toCore (db : Db) (runId : RunId) (now : Time)
    (specs : List EventSpec) : (appendRunEvents db runId now specs).toCore = db.toCore := rfl

/-! ## Lookups -/

theorem insert_eq_ok {ρ κ : Type} [Keyed ρ κ] [DecidableEq κ] {t t' : Table ρ} {r : ρ}
    {e : AppError} : found (t.insert? r) e = .ok t' ↔ t.get? (key r) = none ∧ t' = t.put r := by
  rw [found_eq_ok, Table.insert?_eq_some]

def getRun (db : Db) (runId : RunId) : Result Run :=
  found (db.runs.get? runId) (.notFound "Run" runId)

def getTask (db : Db) (taskId : TaskId) : Result Task :=
  found (db.tasks.get? taskId) (.notFound "Task" taskId)

def getStep (db : Db) (stepId : RunStepId) : Result RunStep :=
  found (db.steps.get? stepId) (.notFound "Run step" stepId)

/-- `ToolInvocationRepository.list_for_step`. -/
def toolsForStep (db : Db) (stepId : RunStepId) : List ToolInvocation :=
  (db.toolInvocations.select (·.stepId = some stepId)).insertionSort ToolInvocation.requestOrder

/-- `ApprovalRepository.list_pending_for_run`. -/
def pendingForRun (approvals : Approvals) (runId : RunId) : List ApprovalRequest :=
  (approvals.select fun a => a.runId = some runId && a.status = .pending).insertionSort
    ApprovalRequest.requestOrder

/-- Every step of the run is terminal. -/
def stepsTerminal (db : Db) (runId : RunId) : Bool :=
  (db.steps.listForRun runId).all (·.status.isTerminal)

/-- Every tool invocation of the run is terminal. -/
def toolsTerminal (db : Db) (runId : RunId) : Bool :=
  (db.toolInvocations.listForRun runId).all (·.status.isTerminal)

/-- `uow.runs.save`. -/
def saveRun (db : Db) (run : Run) : Db := { db with runs := db.runs.put run }

/-- `uow.work_queue.remove`. -/
def removeItem (db : Db) (runId : RunId) : Db := { db with workQueue := remove db.workQueue runId }

/-- `uow.work_queue.enqueue`. -/
def enqueueRun (db : Db) (runId : RunId) (availableAt enqueuedAt : Time) : Db :=
  { db with workQueue := enqueue db.workQueue runId availableAt enqueuedAt }

@[simp] theorem removeItem_toCore (db : Db) (runId : RunId) :
    (removeItem db runId).toCore = { db.toCore with workQueue := remove db.workQueue runId } := rfl

@[simp] theorem enqueueRun_toCore (db : Db) (runId : RunId) (availableAt enqueuedAt : Time) :
    (enqueueRun db runId availableAt enqueuedAt).toCore =
      { db.toCore with workQueue := enqueue db.workQueue runId availableAt enqueuedAt } := rfl

/-! ## Cancelling what a run has under way -/

/-- `cancel_tools` of one invocation. -/
def cancelTool (db : Db) (tool : ToolInvocation) (now : Time) : Result (List EventSpec × Db) :=
  if tool.status.isTerminal then .ok ([], db)
  else do
    let cancelled ← tool.cancel now
    return ([⟨.toolInvocationCancelled, textPayload [("tool_invocation_id", Uuid.text tool.id)],
      tool.stepId⟩], { db with toolInvocations := db.toolInvocations.put cancelled })

/-- `cancel_tools`. -/
def cancelTools (now : Time) : Db → List ToolInvocation → Result (List EventSpec × Db)
  | db, [] => .ok ([], db)
  | db, tool :: tools => do
    let (spec, db) ← cancelTool db tool now
    let (specs, db) ← cancelTools now db tools
    return (spec ++ specs, db)

/-- One step of the loop over `steps.list_for_run`, with the tools of the step. -/
def cancelStep (db : Db) (step : RunStep) (now : Time) : Result (List EventSpec × Db) :=
  if step.status.isTerminal then .ok ([], db)
  else do
    let cancelled ← step.cancel now
    let db := { db with steps := db.steps.put cancelled }
    let (specs, db) ← cancelTools now db (toolsForStep db step.id)
    return (⟨.stepCancelled, textPayload [("step_id", Uuid.text step.id)], some step.id⟩ :: specs, db)

def cancelSteps (now : Time) : Db → List RunStep → Result (List EventSpec × Db)
  | db, [] => .ok ([], db)
  | db, step :: steps => do
    let (spec, db) ← cancelStep db step now
    let (specs, db) ← cancelSteps now db steps
    return (spec ++ specs, db)

/-- The cascade that `_fail_run_event_specs`, `_RunCancellation._cancel_run` and
`_TaskCancellation._cancel_run` share: live steps with their tools, then the live tools left. -/
def cancelDescendants (db : Db) (runId : RunId) (now : Time) : Result (List EventSpec × Db) := do
  let (specs, db) ← cancelSteps now db (db.steps.listForRun runId)
  let (rest, db) ← cancelTools now db (db.toolInvocations.listForRun runId)
  return (specs ++ rest, db)

/-- Only steps and tool invocations differ. -/
def SameButDescendants (db db' : Db) : Prop :=
  db' = { db with steps := db'.steps, toolInvocations := db'.toolInvocations }

theorem SameButDescendants.trans {a b c : Db} (h : SameButDescendants a b)
    (h' : SameButDescendants b c) : SameButDescendants a c := by
  unfold SameButDescendants at *
  rw [h', h]

variable {now : Time} {db db' : Db} {specs : List EventSpec}

/-! ## The skill ledger (skill_usage.py) -/

/-- `_outcome`; only called for a terminal run. -/
def usageOutcome : RunStatus → SkillUsageOutcome
  | .succeeded => .succeeded
  | .failed => .failed
  | _ => .cancelled

/-- The record of one frozen skill. `int(seconds * 1000)` may round a whole millisecond down;
only its sign is read. -/
def usageRecord (db : Db) (run : Run) (resolution : RunSkillResolution) (attempt : Nat)
    (binding : RunSkillBinding) (now : Time) : SkillUsageRecord :=
  let ended := run.endedAt.getD now
  { runId := run.id, taskId := run.taskId, skillId := binding.skillId, revisionId := binding.revisionId,
    position := binding.position, resolutionId := resolution.id, executionId := run.executionId,
    attemptNumber := attempt, startedAt := run.startedAt, completedAt := ended,
    outcome := usageOutcome run.status,
    failureCode := run.failure.map (·.code),
    toolCallCount := (db.toolInvocations.listForRun run.id).length,
    approvalCount := (db.approvals.listForRun run.id).length,
    durationMs := run.startedAt.map fun started => (ended - started).tdiv 1000, createdAt := now }

/-- The loop over the frozen bindings; an existing record is kept. -/
def recordUsage (run : Run) (resolution : RunSkillResolution) (attempt : Nat) (now : Time) :
    Db → List RunSkillBinding → Result Db
  | db, [] => .ok db
  | db, binding :: bindings =>
    if (db.skillUsageRecords.get? (run.id, binding.skillId)).isSome then
      recordUsage run resolution attempt now db bindings
    else do
      let record := usageRecord db run resolution attempt binding now
      record.validate
      let records ← db.skillUsageRecords.add record
      recordUsage run resolution attempt now { db with skillUsageRecords := records } bindings

/-- `materialize_skill_usage_in_uow`. -/
def materializeSkillUsage (db : Db) (runId : RunId) (now : Time) : Result Db := do
  let run ← getRun db runId
  require run.status.isTerminal (.entityConflict
    "skill usage is materialized only for terminal runs")
  match db.runSkillResolutions.get? run.id with
  | none => return db
  | some resolution =>
    let attempt := db.runs.ordinalForExecution run.id
    require (1 ≤ attempt) (.entityConflict "terminal Run is missing its execution ordinal")
    recordUsage run resolution attempt now db (db.runSkillBindings.listForRun run.id)

theorem recordUsage_frame {run : Run} {resolution : RunSkillResolution} {attempt : Nat}
    {now : Time} : ∀ {bindings : List RunSkillBinding} {db db' : Db},
      recordUsage run resolution attempt now db bindings = .ok db' →
      db' = { db with skillUsageRecords := db'.skillUsageRecords }
  | [], _, _, h => by cases h; rfl
  | _ :: _, _, _, h => by
    unfold recordUsage at h
    split at h
    · exact recordUsage_frame h
    · obtain ⟨_, _, h⟩ := bind_rest₂ h
      rw [recordUsage_frame h]

theorem materializeSkillUsage_frame {runId : RunId}
    (h : materializeSkillUsage db runId now = .ok db') :
    db' = { db with skillUsageRecords := db'.skillUsageRecords } := by
  obtain ⟨run, -, h⟩ := bind_ok h
  obtain ⟨_, h⟩ := bind_rest h
  split at h
  · cases h; rfl
  · obtain ⟨_, h⟩ := bind_rest h
    exact recordUsage_frame h

/-! ## Retries inherit frozen resolutions (retry_inheritance.py) -/

/-- The ids a retry draws. -/
structure RetryIds where
  runId : RunId
  skillResolutionId : Uuid
  agentResolutionId : Uuid

/-- The bindings of a run, copied to its retry. -/
def copyBindings (retryId : RunId) : RunSkillBindings → List RunSkillBinding →
    Result RunSkillBindings
  | t, [] => .ok t
  | t, b :: bs => do
    let t ← found (t.insert? { b with runId := retryId }) .integrity
    copyBindings retryId t bs

def inheritSkills (db : Db) (source : RunId) (ids : RetryIds) : Result Db :=
  match db.runSkillResolutions.get? source with
  | none => .ok db
  | some r => do
    let resolutions ← found (db.runSkillResolutions.insert? ⟨ids.skillResolutionId, ids.runId, r.resolvedAt⟩) .integrity
    let bindings ← copyBindings ids.runId db.runSkillBindings (db.runSkillBindings.listForRun source)
    return { db with runSkillResolutions := resolutions, runSkillBindings := bindings }

def inheritAgent (db : Db) (source : RunId) (ids : RetryIds) : Result Db :=
  match db.runAgentResolutions.get? source with
  | none => .ok db
  | some r => do
    let resolutions ← found (db.runAgentResolutions.insert?
      ⟨ids.agentResolutionId, ids.runId, r.agentId, r.revisionId, r.resolvedAt⟩) .integrity
    return { db with runAgentResolutions := resolutions }

/-- `inherit_frozen_resolutions_in_uow`. -/
def inheritFrozenResolutions (db : Db) (source : RunId) (ids : RetryIds) : Result Db := do
  let db ← inheritSkills db source ids
  inheritAgent db source ids

theorem inheritFrozenResolutions_frame {source : RunId} {ids : RetryIds}
    (h : inheritFrozenResolutions db source ids = .ok db') :
    db' = { db with runSkillResolutions := db'.runSkillResolutions, runSkillBindings := db'.runSkillBindings,
                    runAgentResolutions := db'.runAgentResolutions } := by
  obtain ⟨mid, h₁, h₂⟩ := bind_ok h
  have hmid : mid = { db with runSkillResolutions := mid.runSkillResolutions,
                              runSkillBindings := mid.runSkillBindings } := by
    unfold inheritSkills at h₁
    split at h₁
    · cases h₁; rfl
    · obtain ⟨_, _, h₁⟩ := bind_rest₂ h₁
      cases h₁; rfl
  unfold inheritAgent at h₂
  split at h₂
  · cases h₂; rw [hmid]
  · obtain ⟨_, h₂⟩ := bind_rest h₂
    cases h₂; rw [hmid]

end Friday.Runs
