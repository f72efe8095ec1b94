import FridayAssistant.Runs.Scheduling
/-!
# Workflow executions (workflow_execution_use_cases.py:647-1006)

`StartWorkflowExecution` freezes a revision for the root run, creates the nodes, dispatches those
that are ready and parks the root; `ReconcileWorkflowExecution` takes over what the children
ended with and schedules on.
-/
namespace Friday.Runs
open Tables PyJson Queue

/-! ## `StartWorkflowExecution` -/

/-- A task is bound to an agent or to a workflow, not to both. -/
def requireBindingExclusive (db : Db) (taskId : TaskId) : Result Unit :=
  require (db.taskAgentBindings.get? taskId).isNone
    (.workflowBinding "a Task cannot have both TaskAgentBinding and TaskWorkflowBinding")

/-- The resolution is that of the execution. -/
def resolutionMatches (db : Db) (execution : WorkflowExecution) : Bool :=
  (db.runWorkflowResolutions.get? execution.rootRunId).any fun r =>
    r.workflowId = execution.workflowId && r.workflowRevisionId = execution.workflowRevisionId &&
      r.contentSha256 = execution.workflowContentSha256

/-- The root already has an execution: it is checked and returned. -/
def existingExecution (cfg : Config) (db : Db) (root : Run) (workflowId : WorkflowId)
    (execution : WorkflowExecution) : Result WorkflowExecution := do
  require (execution.workflowId = workflowId)
    (.workflowBinding "root Run is already owned by another Workflow")
  require (root.workflowExecutionId = some execution.id)
    (.workflowIntegrity "root Run does not point to its Workflow execution")
  require (root.status = .waitingForWorkflow || root.status.isTerminal)
    (.workflowIntegrity "existing Workflow execution has an invalid root Run state")
  require (resolutionMatches db execution)
    (.workflowIntegrity "existing Workflow execution does not match its frozen resolution")
  let _ ← loadFrozenRevision cfg db execution.workflowId execution.workflowRevisionId
    execution.workflowContentSha256
  return execution

/-- The resolution of the root: the frozen one, or that of the task's binding. -/
def resolveRoot (cfg : Config) (db : Db) (root : Run) (workflowId : WorkflowId) (ids : WorkflowIds)
    (now : Time) : Result RunWorkflowResolution :=
  match db.runWorkflowResolutions.get? root.id with
  | some r => do
    require (r.workflowId = workflowId) (.workflowBinding "root Run is already frozen to another Workflow")
    return r
  | none => do
    require ((db.taskWorkflowBindings.get? root.taskId).any (·.workflowId = workflowId))
      (.workflowBinding "root Run does not have the requested Workflow binding")
    let (workflow, revision, digest) ← loadActiveRevision cfg db workflowId
    return ⟨ids.resolutionId, root.id, workflow.id, revision.id, digest, now⟩

/-- Every agent is checked before anything is created. -/
def agentSnapshots (cfg : Config) (db : Db) : List WorkflowNode →
    Result (List (WorkflowNode × AgentRevision))
  | [] => .ok []
  | node :: nodes => do
    let revision ← ensureAgentSnapshot cfg db node
    let rest ← agentSnapshots cfg db nodes
    return (node, revision) :: rest

def newExecution (ids : WorkflowIds) (resolution : RunWorkflowResolution) (rootRunId : RunId)
    (now : Time) : WorkflowExecution where
  id := ids.executionId
  rootRunId := rootRunId
  workflowId := resolution.workflowId
  workflowRevisionId := resolution.workflowRevisionId
  workflowContentSha256 := resolution.contentSha256
  status := .running
  startedAt := now
  completedAt := none
  failureCode := none
  failureMessage := none

def newNode (ids : WorkflowIds) (execution : WorkflowExecution) (now : Time)
    (part : WorkflowNode × AgentRevision) : WorkflowNodeExecution where
  id := ids.nodeExecution part.1.id
  workflowExecutionId := execution.id
  workflowNodeId := part.1.id
  workflowRevisionId := execution.workflowRevisionId
  nodeKey := part.1.nodeKey
  targetAgentId := part.1.targetAgentId
  targetAgentRevisionId := part.2.id
  targetAgentRevisionSha256 := part.2.contentSha256
  status := .pending
  createdAt := now
  childTaskId := none
  childRunId := none
  childExecutionId := none
  resultPayload := .null
  failureCode := none
  failureMessage := none
  startedAt := none
  completedAt := none

def createNodes : WorkflowNodeExecutions → List WorkflowNodeExecution →
    Result WorkflowNodeExecutions
  | t, [] => .ok t
  | t, node :: nodes => do
    let t ← found (t.insert? node) .integrity
    createNodes t nodes

/-- The nodes without predecessor are dispatched first. -/
def dispatchRoots (ids : WorkflowIds) (edges : List WorkflowEdge) (now : Time) :
    Sched → List WorkflowNode → Result Sched
  | s, [] => .ok s
  | s, definition :: rest =>
    match s.1.find? (·.workflowNodeId = definition.id), predecessorsOf edges definition.id with
    | some node, [] => do
      let s ← dispatchNode ids s node definition now
      dispatchRoots ids edges now s rest
    | _, _ => dispatchRoots ids edges now s rest

/-- The resolution is kept if the root had none, and the execution and its nodes are created. -/
def createExecution (db : Db) (resolution : RunWorkflowResolution) (execution : WorkflowExecution)
    (nodes : List WorkflowNodeExecution) (now : Time) : Result Db := do
  let resolutions := (db.runWorkflowResolutions.insert? resolution).getD db.runWorkflowResolutions
  let executions ← found (db.workflowExecutions.insert? execution) .integrity
  let db := emitWorkflowEvent
    { db with runWorkflowResolutions := resolutions, workflowExecutions := executions } execution
    .workflowExecutionStarted (textPayload [("workflow_execution_id", Uuid.text execution.id)]) now
  let rows ← createNodes db.workflowNodeExecutions nodes
  return { db with workflowNodeExecutions := rows }

/-- `_remove_root_claim`. -/
def removeRootClaim (runId : RunId) (claim : ClaimTriple) (now : Time) : WorkItems →
    Result WorkItems :=
  removeClaimed runId claim now "Workflow bootstrap lost the exact root Run claim"

/-- The root waits, its execution ends at once if every node is done, otherwise its item goes. -/
def parkRoot (cfg : Config) (s : Sched) (root : Run) (execution : WorkflowExecution)
    (claim : ClaimTriple) (now : Time) : Result (WorkflowExecution × Db) := do
  let waiting ← root.waitForWorkflow execution.id
  let (ended, db) ← finishIfTerminal cfg (saveRun s.2 waiting) execution s.1
    (removeRootClaim root.id claim now) now
  if ended.status = .running then do
    let items ← removeRootClaim root.id claim now db.workQueue
    return (ended, { db with workQueue := items })
  else return (ended, db)

/-- The part of `StartWorkflowExecution` for a root that has no execution yet. -/
def bootstrap (cfg : Config) (db : Db) (root : Run) (workflowId : WorkflowId) (claim : ClaimTriple)
    (ids : WorkflowIds) (now : Time) : Result (WorkflowExecution × Db) := do
  require (isClaimActive db.workQueue root.id claim now)
    (.claimLost ("workflow operation requires an exact active claim for run " ++ Uuid.text root.id))
  require (root.status = .running)
    (.workflowExecution "Workflow bootstrap requires a RUNNING root Run")
  require root.workflowExecutionId.isNone (.workflowIntegrity
    "root Run references a missing Workflow execution")
  requireBindingExclusive db root.taskId
  let resolution ← resolveRoot cfg db root workflowId ids now
  let (_, revision) ← loadFrozenRevision cfg db resolution.workflowId resolution.workflowRevisionId
    resolution.contentSha256
  let definitions := revision.nodes.insertionSort definitionOrder
  let parts ← agentSnapshots cfg db definitions
  let execution := newExecution ids resolution root.id now
  let nodes := parts.map (newNode ids execution now)
  let db ← createExecution db resolution execution nodes now
  let s ← dispatchRoots ids revision.edges now (nodes, db) definitions
  let s ← scheduleToFixedPoint ids revision now s
  parkRoot cfg s root execution claim now

def startWorkflowExecution (cfg : Config) (db : Db) (rootRunId : RunId) (workflowId : WorkflowId)
    (claim : ClaimTriple) (ids : WorkflowIds) (now : Time) : Result (WorkflowExecution × Db) := do
  let root ← getRun db rootRunId
  match db.workflowExecutions.listByRootRunId rootRunId with
  | [] => bootstrap cfg db root workflowId claim ids now
  | [execution] => do
    let execution ← existingExecution cfg db root workflowId execution
    return (execution, db)
  | _ => .error (.workflowIntegrity "multiple Workflow executions exist for one root Run")

/-! ## `ReconcileWorkflowExecution` -/

/-- `_bounded_child_result`: the details go when the whole is too long. -/
def boundedChildResult (db : Db) (child : Run) (completedAt : Time) : JsonValue :=
  let payload := ((db.events.filter fun e => e.runId = child.id &&
    e.type = .agentFinished).getLast?).map (·.payload)
  let summary := match payload.bind (·.get? "summary") with
    | some (.str s) => String.ofList (s.toList.take 4000)
    | _ => ""
  let result := [("child_run_id", JsonValue.str (Uuid.text child.id)),
    ("child_execution_id", .str (Uuid.text child.executionId)),
    ("completed_at", .str (PyText.isoformat (child.endedAt.getD completedAt))),
    ("summary", .str summary)]
  match (payload.bind (·.get? "details") : Option JsonValue) with
  | none | some .null => .obj result
  | some details =>
    let full := JsonValue.obj (result ++ [("details", details)])
    if (dumps full).toList.length > 8000 then .obj result else full

/-- `_failure_from_child`. -/
def failureFromChild (run : Run) : String × String :=
  match run.failure with
  | some failure => (failure.code, failure.message)
  | none => ("child_run_failed", "Workflow child Run failed")

/-- What one dispatched node takes over from the latest attempt of its child. -/
def reconcileChild (s : Sched) (node : WorkflowNodeExecution) (child : Run) (now : Time) :
    Result Sched :=
  match child.status with
  | .succeeded => do
    let ended ← node.succeed now (boundedChildResult s.2 child now)
    recordNode s ended .workflowNodeSucceeded now
  | .failed => do
    let ended ← node.fail now (failureFromChild child).1 (failureFromChild child).2
    recordNode s ended .workflowNodeFailed now
  | .cancelled => do
    let ended ← node.cancel now
    recordNode s ended .workflowNodeCancelled now
  | _ => .ok s

/-- `_reconcile_dispatched_children`. -/
def reconcileChildren (now : Time) : Sched → List WorkflowNodeExecution → Result Sched
  | s, [] => .ok s
  | s, node :: nodes =>
    if node.status ≠ .dispatched then reconcileChildren now s nodes
    else do
      let executionId ← found node.childExecutionId
        (.workflowIntegrity "dispatched Workflow node has no child execution")
      let s ← match s.2.runs.getLatestForExecution executionId with
        | none => Except.ok s
        | some child => reconcileChild s node child now
      reconcileChildren now s nodes

/-- The child run of a node belongs to the execution and task the node names. -/
def childLineageOk (db : Db) (node : WorkflowNodeExecution) : Bool :=
  match node.childTaskId, node.childRunId, node.childExecutionId with
  | some taskId, some runId, some executionId =>
    (db.runs.get? runId).any fun r => r.executionId = executionId && r.taskId = taskId
  | _, _, _ => true

/-- The checks on one stored node. -/
def verifyNode (db : Db) (execution : WorkflowExecution) (revision : WorkflowRevision)
    (node : WorkflowNodeExecution) : Result Unit := do
  require (node.workflowRevisionId = execution.workflowRevisionId)
    (.workflowIntegrity "Workflow node execution frozen revision ownership mismatch")
  require ((revision.nodes.find? (·.id = node.workflowNodeId)).any fun d =>
      d.nodeKey = node.nodeKey && d.targetAgentId = node.targetAgentId)
    (.workflowIntegrity "Workflow node execution does not match its frozen node definition")
  require ((db.agentRevisions.get? node.targetAgentRevisionId).any fun r =>
      r.agentId = node.targetAgentId && r.contentSha256 = node.targetAgentRevisionSha256)
    (.workflowIntegrity "Workflow node Agent revision snapshot is invalid")
  require (node.childTaskId.all fun t => (db.taskAgentBindings.get? t).any
    (·.agentId = node.targetAgentId)) (.workflowIntegrity
    "Workflow node child Task binding mismatch")
  require (childLineageOk db node) (.workflowIntegrity "Workflow node child Run lineage mismatch")

def verifyNodes (db : Db) (execution : WorkflowExecution) (revision : WorkflowRevision) :
    List WorkflowNodeExecution → Result Unit
  | [] => .ok ()
  | node :: nodes => do
    verifyNode db execution revision node
    verifyNodes db execution revision nodes

/-- One stored node for each node of the revision. -/
def nodeSetMatches (revision : WorkflowRevision) (nodes : List WorkflowNodeExecution) : Bool :=
  nodes.length = revision.nodes.length && (nodes.all fun n => revision.nodes.any (·.id = n.workflowNodeId)) &&
    revision.nodes.all fun d => nodes.any (·.workflowNodeId = d.id)

/-- The part of `ReconcileWorkflowExecution` for a RUNNING execution. -/
def advance (cfg : Config) (db : Db) (execution : WorkflowExecution) (revision : WorkflowRevision)
    (nodes : List WorkflowNodeExecution) (ids : WorkflowIds) (now : Time) :
    Result (List WorkflowNodeExecution × Db) := do
  let s ← reconcileChildren now (nodes, db) (nodes.insertionSort WorkflowNodeExecution.nodeOrder)
  let s ← scheduleToFixedPoint ids revision now s
  let (_, db) ← finishIfTerminal cfg s.2 execution s.1
    (fun items => .ok (remove items execution.rootRunId)) now
  return (s.1, db)

def reconcileWorkflowExecution (cfg : Config) (db : Db) (executionId : WorkflowExecutionId)
    (ids : WorkflowIds) (now : Time) : Result (List WorkflowNodeExecution × Db) := do
  let execution ← found (db.workflowExecutions.get? executionId)
    (.workflowExecution "Workflow execution not found")
  let nodes := db.workflowNodeExecutions.listByExecution execution.id
  require (resolutionMatches db execution)
    (.workflowIntegrity "Workflow execution does not match its frozen Run resolution")
  let (_, revision) ← loadFrozenRevision cfg db execution.workflowId execution.workflowRevisionId
    execution.workflowContentSha256
  require (nodeSetMatches revision nodes)
    (.workflowIntegrity "Workflow node execution set does not match revision")
  verifyNodes db execution revision nodes
  if execution.status = .running then advance cfg db execution revision nodes ids now
  else return (nodes, db)

end Friday.Runs
