import FridayAssistant.Domain.Run
import FridayAssistant.Domain.Approval
/-!
# Workflow definitions and executions (domain/workflow.py, domain/workflow_execution.py)

A revision is a graph of nodes, each a piece of work for one agent. An execution freezes one
revision for a root run and has one node execution for each node.

`validateWorkflowDag` is the source's check, Kahn's algorithm with the queue kept sorted by id;
`visitCount` is its loop, with the number of nodes as fuel (a node enters the queue once).
-/
namespace Friday
open Tables PyJson

/-! ## Definitions -/

inductive WorkflowStatus where
  | active | disabled | archived
  deriving DecidableEq

/-- `Workflow`, without the texts shown to people. -/
structure Workflow where
  id : WorkflowId
  workflowKey : String
  status : WorkflowStatus
  activeRevisionId : Option WorkflowRevisionId

instance : Keyed Workflow WorkflowId := ⟨Workflow.id⟩

structure WorkflowNode where
  id : WorkflowNodeId
  revisionId : WorkflowRevisionId
  nodeKey : String
  targetAgentId : AgentId
  objective : String
  inputPayload : JsonValue
  expectedOutputContract : String

structure WorkflowEdge where
  revisionId : WorkflowRevisionId
  fromNodeId : WorkflowNodeId
  toNodeId : WorkflowNodeId

structure WorkflowRevision where
  id : WorkflowRevisionId
  workflowId : WorkflowId
  version : Nat
  contentSha256 : String
  nodes : List WorkflowNode
  edges : List WorkflowEdge

instance : Keyed WorkflowRevision WorkflowRevisionId := ⟨WorkflowRevision.id⟩

def maxWorkflowNodes : Nat := 64
def maxWorkflowEdges : Nat := 256

/-- The key of the node with an id. -/
def nodeKeyOf (nodes : List WorkflowNode) (id : WorkflowNodeId) : String :=
  ((nodes.find? (·.id = id)).map (·.nodeKey)).getD ""

/-- `canonical_workflow_content`. -/
def canonicalWorkflowContent (nodes : List WorkflowNode) (edges : List WorkflowEdge) : String :=
  let ends := edges.map fun e => (nodeKeyOf nodes e.fromNodeId, nodeKeyOf nodes e.toNodeId)
  dumpsUnicode (.obj [
    ("nodes", .arr ((nodes.insertionSort fun a b => a.nodeKey ≤ b.nodeKey).map fun n =>
      .obj [("node_key", .str n.nodeKey), ("target_agent_id", .str (Uuid.text n.targetAgentId)),
        ("objective", .str n.objective), ("input_payload", n.inputPayload),
        ("expected_output_contract", .str n.expectedOutputContract)])),
    ("edges", .arr ((ends.insertionSort fun a b => a.1 < b.1 ∨ a.1 = b.1 ∧ a.2 ≤ b.2).map fun e =>
      .obj [("from", .str e.1), ("to", .str e.2)]))])

/-- `validate_workflow_revision_ownership`. -/
def validateWorkflowRevisionOwnership (revisionId : WorkflowRevisionId) (nodes : List WorkflowNode)
    (edges : List WorkflowEdge) : Result Unit := do
  require (nodes.all (·.revisionId = revisionId))
    (.domainValidation "WorkflowNode ownership does not match revision")
  require (edges.all (·.revisionId = revisionId))
    (.domainValidation "WorkflowEdge ownership does not match revision")

/-- The loop over the edges: each belongs to the revision, joins two of its nodes, and is new. -/
def checkEdges (revisionId : WorkflowRevisionId) (ids : List WorkflowNodeId) :
    List (WorkflowNodeId × WorkflowNodeId) → List WorkflowEdge → Result Unit
  | _, [] => .ok ()
  | pairs, e :: es => do
    require (e.revisionId = revisionId) (.domainValidation "WorkflowEdge ownership does not match revision")
    require (ids.contains e.fromNodeId && ids.contains e.toNodeId)
      (.domainValidation "WorkflowEdge endpoint does not belong to revision")
    require (!pairs.contains (e.fromNodeId, e.toNodeId)) (.domainValidation "duplicate WorkflowEdge")
    checkEdges revisionId ids ((e.fromNodeId, e.toNodeId) :: pairs) es

/-- Each target loses one incoming edge and joins the sorted queue when it has none left. -/
def releaseTargets (indegree : WorkflowNodeId → Nat) (queue : List WorkflowNodeId) :
    List WorkflowNodeId → (WorkflowNodeId → Nat) × List WorkflowNodeId
  | [] => (indegree, queue)
  | t :: ts =>
    let indegree' := fun x => if x = t then indegree t - 1 else indegree x
    releaseTargets indegree'
      (if indegree' t = 0 then (queue ++ [t]).insertionSort (· ≤ ·) else queue) ts

/-- `while queue`: how many nodes are visited. -/
def visitCount (edges : List WorkflowEdge) : Nat → (WorkflowNodeId → Nat) → List WorkflowNodeId →
    Nat
  | 0, _, _ => 0
  | _ + 1, _, [] => 0
  | fuel + 1, indegree, current :: queue =>
    let outgoing := (edges.filter (·.fromNodeId = current)).map (·.toNodeId)
    let next := releaseTargets indegree queue (outgoing.insertionSort (· ≤ ·))
    visitCount edges fuel next.1 next.2 + 1

/-- `validate_workflow_dag`. -/
def validateWorkflowDag (nodes : List WorkflowNode) (edges : List WorkflowEdge) : Result Unit := do
  let ids := nodes.map (·.id)
  let indegree := fun n => edges.countP (·.toNodeId = n)
  let revisionId := (nodes.map (·.revisionId)).headD 0
  require (!nodes.isEmpty) (.domainValidation "WorkflowRevision requires at least one node")
  require (nodes.length ≤ maxWorkflowNodes && edges.length ≤ maxWorkflowEdges)
    (.domainValidation "WorkflowRevision graph exceeds limits")
  require ids.Nodup (.domainValidation "duplicate WorkflowNode.id")
  require (nodes.all (·.revisionId = revisionId))
    (.domainValidation "WorkflowNode ownership does not match revision")
  require (nodes.map (·.nodeKey)).Nodup (.domainValidation "duplicate WorkflowNode.node_key")
  checkEdges revisionId ids [] edges
  require (visitCount edges nodes.length indegree ((ids.filter (indegree · = 0)).insertionSort (· ≤ ·))
      = nodes.length) (.domainValidation "WorkflowRevision graph contains a cycle")

/-! ## Executions -/

inductive WorkflowExecutionStatus where
  | running | succeeded | failed | cancelled
  deriving DecidableEq

def WorkflowExecutionStatus.value : WorkflowExecutionStatus → String
  | .running => "running"
  | .succeeded => "succeeded"
  | .failed => "failed"
  | .cancelled => "cancelled"

structure WorkflowExecution where
  id : WorkflowExecutionId
  rootRunId : RunId
  workflowId : WorkflowId
  workflowRevisionId : WorkflowRevisionId
  workflowContentSha256 : String
  status : WorkflowExecutionStatus
  startedAt : Time
  completedAt : Option Time
  failureCode : Option String
  failureMessage : Option String

instance : Keyed WorkflowExecution WorkflowExecutionId := ⟨WorkflowExecution.id⟩

@[simp] theorem key_workflowExecution (e : WorkflowExecution) : key e = e.id := rfl

/-- `_validate_failure(code, message, required=True)`. -/
def validateFailure (code message : String) : Result Unit := do
  require (code ≠ "" && message ≠ "")
    (.domainValidation "failed workflow state requires failure code and message")
  require (!PyText.isBlank code) (.domainValidation "failure code must not be empty")
  require (!PyText.isBlank message) (.domainValidation "failure message must not be empty")

namespace WorkflowExecution

def requireRunning (e : WorkflowExecution) (target : WorkflowExecutionStatus) : Result Unit :=
  require (e.status = .running)
    (.invalidStateTransition "WorkflowExecution" e.status.value target.value)

def validatedEnd (e : WorkflowExecution) (now : Time) : Result Time := do
  require (e.startedAt ≤ now)
    (.domainValidation "WorkflowExecution.completed_at precedes WorkflowExecution.started_at")
  return now

def succeed (e : WorkflowExecution) (now : Time) : Result WorkflowExecution := do
  e.requireRunning .succeeded
  let ended ← e.validatedEnd now
  return { e with completedAt := some ended, failureCode := none, failureMessage := none, status := .succeeded }

def fail (e : WorkflowExecution) (now : Time) (code message : String) : Result WorkflowExecution :=
  do
  e.requireRunning .failed
  validateFailure code message
  let ended ← e.validatedEnd now
  return { e with completedAt := some ended, failureCode := some code, failureMessage := some message,
                  status := .failed }

/-- `cancel` with a message. -/
def cancel (e : WorkflowExecution) (now : Time) (message : String) : Result WorkflowExecution := do
  e.requireRunning .cancelled
  let ended ← e.validatedEnd now
  require (!PyText.isBlank message)
    (.domainValidation "WorkflowExecution cancellation message must not be empty")
  return { e with completedAt := some ended, failureCode := none, failureMessage := some message,
                  status := .cancelled }

end WorkflowExecution

abbrev WorkflowExecutions := Table WorkflowExecution

namespace WorkflowExecutions

/-- `list_by_root_run_id`; at most one by `uq_workflow_executions_root_run_id`. -/
def listByRootRunId (t : WorkflowExecutions) (rootRunId : RunId) : List WorkflowExecution :=
  (t.select (·.rootRunId = rootRunId)).insertionSort fun a b =>
    a.startedAt < b.startedAt ∨ a.startedAt = b.startedAt ∧ a.id ≤ b.id

theorem mem_listByRootRunId {t : WorkflowExecutions} {rootRunId : RunId} {x : WorkflowExecution} :
    x ∈ t.listByRootRunId rootRunId ↔ t.get? x.id = some x ∧ x.rootRunId = rootRunId := by
  rw [listByRootRunId, List.mem_insertionSort, Table.mem_select, key_workflowExecution,
    decide_eq_true_iff]

/-- `update_status`: only a RUNNING row changes, writing the same status again is allowed. -/
def updateStatus (t : WorkflowExecutions) (e : WorkflowExecution) : Result WorkflowExecutions :=
  match t.update e.id (·.status = .running) fun row =>
      { row with status := e.status, completedAt := e.completedAt, failureCode := e.failureCode,
                 failureMessage := e.failureMessage } with
  | (true, t') => .ok t'
  | (false, _) =>
    if (t.get? e.id).any (·.status = e.status) then .ok t
    else .error (.concurrencyConflict "Workflow execution status transition raced")

end WorkflowExecutions

inductive WorkflowNodeExecutionStatus where
  | pending | dispatched | succeeded | failed | cancelled | blocked
  deriving DecidableEq

def WorkflowNodeExecutionStatus.value : WorkflowNodeExecutionStatus → String
  | .pending => "pending"
  | .dispatched => "dispatched"
  | .succeeded => "succeeded"
  | .failed => "failed"
  | .cancelled => "cancelled"
  | .blocked => "blocked"

/-- `TERMINAL_WORKFLOW_NODE_EXECUTION_STATUSES`. -/
def WorkflowNodeExecutionStatus.isTerminal : WorkflowNodeExecutionStatus → Bool
  | .succeeded | .failed | .cancelled | .blocked => true
  | _ => false

structure WorkflowNodeExecution where
  id : WorkflowNodeExecutionId
  workflowExecutionId : WorkflowExecutionId
  workflowNodeId : WorkflowNodeId
  workflowRevisionId : WorkflowRevisionId
  nodeKey : String
  targetAgentId : AgentId
  targetAgentRevisionId : AgentRevisionId
  targetAgentRevisionSha256 : String
  status : WorkflowNodeExecutionStatus
  createdAt : Time
  childTaskId : Option TaskId
  childRunId : Option RunId
  childExecutionId : Option RunId
  resultPayload : JsonValue
  failureCode : Option String
  failureMessage : Option String
  startedAt : Option Time
  completedAt : Option Time

instance : Keyed WorkflowNodeExecution WorkflowNodeExecutionId := ⟨WorkflowNodeExecution.id⟩

@[simp] theorem key_workflowNodeExecution (n : WorkflowNodeExecution) : key n = n.id := rfl

namespace WorkflowNodeExecution

def requireStatus (n : WorkflowNodeExecution) (target : WorkflowNodeExecutionStatus)
    (allowed : List WorkflowNodeExecutionStatus) : Result Unit :=
  require (allowed.contains n.status)
    (.invalidStateTransition "WorkflowNodeExecution" n.status.value target.value)

/-- The check of `completed_at` that every ending but `block` makes. -/
def validatedEnd (n : WorkflowNodeExecution) (now : Time) : Result Time := do
  require (n.startedAt.getD n.createdAt ≤ now)
    (.domainValidation "WorkflowNodeExecution.completed_at precedes start/creation time")
  return now

def dispatch (n : WorkflowNodeExecution) (childTaskId : TaskId)
    (childRunId childExecutionId : RunId) (now : Time) : Result WorkflowNodeExecution := do
  n.requireStatus .dispatched [.pending]
  require (n.childTaskId.isNone && n.childRunId.isNone && n.childExecutionId.isNone)
    (.domainValidation "WorkflowNodeExecution has already been dispatched")
  require (n.createdAt ≤ now)
    (.domainValidation "WorkflowNodeExecution.started_at precedes created_at")
  return { n with childTaskId := some childTaskId, childRunId := some childRunId,
                  childExecutionId := some childExecutionId, startedAt := some now, completedAt := none,
                  failureCode := none, failureMessage := none, status := .dispatched }

def succeed (n : WorkflowNodeExecution) (now : Time) (resultPayload : JsonValue) :
    Result WorkflowNodeExecution := do
  n.requireStatus .succeeded [.dispatched]
  let ended ← n.validatedEnd now
  return { n with resultPayload := resultPayload, completedAt := some ended, failureCode := none,
                  failureMessage := none, status := .succeeded }

def fail (n : WorkflowNodeExecution) (now : Time) (code message : String) :
    Result WorkflowNodeExecution := do
  n.requireStatus .failed [.dispatched]
  validateFailure code message
  let ended ← n.validatedEnd now
  return { n with completedAt := some ended, failureCode := some code, failureMessage := some message,
                  status := .failed }

def cancel (n : WorkflowNodeExecution) (now : Time) : Result WorkflowNodeExecution := do
  n.requireStatus .cancelled [.pending, .dispatched]
  let ended ← n.validatedEnd now
  return { n with completedAt := some ended, failureCode := none, failureMessage := none, status := .cancelled }

def block (n : WorkflowNodeExecution) (now : Time) (code message : String) :
    Result WorkflowNodeExecution := do
  n.requireStatus .blocked [.pending]
  validateFailure code message
  require (n.createdAt ≤ now)
    (.domainValidation "WorkflowNodeExecution.completed_at precedes created_at")
  return { n with completedAt := some now, failureCode := some code, failureMessage := some message,
                  status := .blocked }

/-- `(node_key, str(id))`. -/
def nodeOrder (a b : WorkflowNodeExecution) : Prop := a.nodeKey < b.nodeKey ∨
    a.nodeKey = b.nodeKey ∧ a.id ≤ b.id
  deriving Decidable

end WorkflowNodeExecution

abbrev WorkflowNodeExecutions := Table WorkflowNodeExecution

namespace WorkflowNodeExecutions

/-- `expected_statuses` of `update_status`. -/
def expectedStatuses : WorkflowNodeExecutionStatus → List WorkflowNodeExecutionStatus
  | .dispatched | .blocked => [.pending]
  | .succeeded | .failed => [.dispatched]
  | .cancelled => [.pending, .dispatched]
  | .pending => [.pending]

/-- `update_status` with the columns of the node; a dispatch that lost its race fails. -/
def updateStatus (t : WorkflowNodeExecutions) (n : WorkflowNodeExecution) :
    Result WorkflowNodeExecutions :=
  match t.update n.id (fun row => (expectedStatuses n.status).contains row.status) fun row =>
      { row with status := n.status, childTaskId := n.childTaskId, childRunId := n.childRunId,
                 childExecutionId := n.childExecutionId, resultPayload := n.resultPayload,
                 failureCode := n.failureCode, failureMessage := n.failureMessage,
                 startedAt := n.startedAt, completedAt := n.completedAt } with
  | (true, t') => .ok t'
  | (false, _) =>
    if (t.get? n.id).any (·.status = n.status) && n.status ≠ .dispatched then .ok t
    else .error (.concurrencyConflict "Workflow node execution status transition raced")

def listByExecution (t : WorkflowNodeExecutions) (executionId : WorkflowExecutionId) :
    List WorkflowNodeExecution :=
  (t.select (·.workflowExecutionId = executionId)).insertionSort WorkflowNodeExecution.nodeOrder

def getByChildTaskId (t : WorkflowNodeExecutions) (taskId : TaskId) :
    Option WorkflowNodeExecution :=
  t.rows.find? (·.childTaskId = some taskId)

def getByChildExecutionId (t : WorkflowNodeExecutions) (executionId : RunId) :
    Option WorkflowNodeExecution :=
  t.rows.find? (·.childExecutionId = some executionId)

end WorkflowNodeExecutions

structure RunWorkflowResolution where
  id : RunWorkflowResolutionId
  runId : RunId
  workflowId : WorkflowId
  workflowRevisionId : WorkflowRevisionId
  contentSha256 : String
  resolvedAt : Time

/-- `uq_run_workflow_resolutions_run_id`. -/
instance : Keyed RunWorkflowResolution RunId := ⟨RunWorkflowResolution.runId⟩

structure TaskWorkflowBinding where
  taskId : TaskId
  workflowId : WorkflowId

instance : Keyed TaskWorkflowBinding TaskId := ⟨TaskWorkflowBinding.taskId⟩

end Friday
