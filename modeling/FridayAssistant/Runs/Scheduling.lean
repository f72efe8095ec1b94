import FridayAssistant.Runs.Worker
/-!
# Workflow scheduling (workflow_execution_use_cases.py:77-538, workflow_context.py)

What starting and reconciling an execution share: loading the frozen revision, building a node's
context, dispatching and blocking nodes to a fixed point, and ending the execution with its root
run once every node is done.

The node objects the source mutates are a list here, one entry for each node of the revision,
threaded together with the database.
-/
namespace Friday.Runs
open Tables PyJson Queue

/-! ## Frozen revisions -/

/-- `_validate_revision_integrity`: any failure of the graph checks becomes one error. -/
def validateRevisionIntegrity (cfg : Config) (workflow : Workflow) (revision : WorkflowRevision) :
    Result String := do
  require (revision.workflowId = workflow.id)
    (.workflowIntegrity "workflow revision ownership mismatch")
  let graph := do
    validateWorkflowRevisionOwnership revision.id revision.nodes revision.edges
    validateWorkflowDag revision.nodes revision.edges
  require graph.isOk (.workflowIntegrity "workflow graph integrity verification failed")
  let digest := cfg.sha256 (canonicalWorkflowContent revision.nodes revision.edges)
  require (digest = revision.contentSha256)
    (.workflowIntegrity "workflow graph digest does not match revision")
  return digest

def getWorkflow (db : Db) (id : WorkflowId) : Result Workflow :=
  found (db.workflows.get? id) (.notFound "Workflow" id)

def getWorkflowRevision (db : Db) (id : WorkflowRevisionId) : Result WorkflowRevision :=
  found (db.workflowRevisions.get? id) (.notFound "Workflow revision" id)

/-- `_load_active_revision`. -/
def loadActiveRevision (cfg : Config) (db : Db) (workflowId : WorkflowId) :
    Result (Workflow × WorkflowRevision × String) := do
  let workflow ← getWorkflow db workflowId
  require (workflow.status ≠ .archived)
    (.workflowBinding "archived workflow cannot be newly resolved")
  require (workflow.status = .active)
    (.workflowBinding "workflow must be active with an active revision")
  let revisionId ← found workflow.activeRevisionId
    (.workflowBinding "workflow must be active with an active revision")
  let revision ← getWorkflowRevision db revisionId
  let digest ← validateRevisionIntegrity cfg workflow revision
  return (workflow, revision, digest)

/-- `_load_frozen_revision`. -/
def loadFrozenRevision (cfg : Config) (db : Db) (workflowId : WorkflowId)
    (revisionId : WorkflowRevisionId) (expectedDigest : String) :
    Result (Workflow × WorkflowRevision) := do
  let workflow ← getWorkflow db workflowId
  let revision ← getWorkflowRevision db revisionId
  let digest ← validateRevisionIntegrity cfg workflow revision
  require (digest = expectedDigest && revision.contentSha256 = expectedDigest)
    (.workflowIntegrity "frozen workflow resolution digest mismatch")
  return (workflow, revision)

/-- `_ensure_agent_snapshot`. -/
def ensureAgentSnapshot (cfg : Config) (db : Db) (node : WorkflowNode) : Result AgentRevision := do
  let agent ← found (db.agents.get? node.targetAgentId)
    (.workflowIntegrity "workflow target Agent is missing")
  let inactive := AppError.workflowIntegrity
    ("workflow target agent " ++ Uuid.text node.targetAgentId ++ " is not active and resolvable")
  require (agent.status = .active) inactive
  let revisionId ← found agent.activeRevisionId inactive
  let revision ← found (db.agentRevisions.get? revisionId)
    (.workflowIntegrity "workflow target Agent revision is missing")
  require (revision.agentId = agent.id)
    (.workflowIntegrity "workflow target Agent revision ownership mismatch")
  require (revision.contentSha256 = cfg.sha256 revision.canonicalContent)
    (.workflowIntegrity "workflow target Agent revision digest mismatch")
  require (cfg.runtimeRegistry.isRegistered revision.runtimeKind)
    (.workflowIntegrity "workflow target Agent runtime is not registered")
  require (BrainRuntimeRegistry.validateRuntimeConfig revision.runtimeConfig)
    (.workflowIntegrity "workflow target Agent runtime configuration is invalid")
  return revision

/-! ## Events of an execution -/

/-- `payload.get("node_execution_id", payload.get("workflow_execution_id"))`, when it is a text. -/
def markerOf (payload : JsonValue) : Option String :=
  match payload.get? "node_execution_id" <|> payload.get? "workflow_execution_id" with
  | some (.str s) => some s
  | _ => none

/-- `_emit_workflow_event`: once for each type and marker, on the stream of the root run. -/
def emitWorkflowEvent (db : Db) (execution : WorkflowExecution) (type : RunEventType)
    (payload : JsonValue) (now : Time) : Db :=
  match db.runs.get? execution.rootRunId with
  | none => db
  | some root =>
    let seen := db.events.any fun e => e.runId = root.id && e.type = type && markerOf e.payload = markerOf payload
    if (markerOf payload).isSome && seen then db
    else appendRunEvents db root.id now [⟨type, payload, none⟩]

/-- `_emit_node_event`. -/
def emitNodeEvent (db : Db) (node : WorkflowNodeExecution) (type : RunEventType) (now : Time) :
    Db :=
  match db.workflowExecutions.get? node.workflowExecutionId with
  | none => db
  | some execution => emitWorkflowEvent db execution type
      (textPayload [("workflow_execution_id", Uuid.text execution.id),
        ("node_execution_id", Uuid.text node.id), ("node_key", node.nodeKey)]) now

theorem emitWorkflowEvent_frame (db : Db) (execution : WorkflowExecution) (type : RunEventType)
    (payload : JsonValue) (now : Time) :
    ∃ events, emitWorkflowEvent db execution type payload now = { db with events := events } := by
  unfold emitWorkflowEvent
  split
  · exact ⟨db.events, rfl⟩
  · dsimp only
    split
    · exact ⟨db.events, rfl⟩
    · exact ⟨_, rfl⟩

theorem emitNodeEvent_frame (db : Db) (node : WorkflowNodeExecution) (type : RunEventType)
    (now : Time) : ∃ events, emitNodeEvent db node type now = { db with events := events } := by
  unfold emitNodeEvent
  split
  · exact ⟨db.events, rfl⟩
  · exact emitWorkflowEvent_frame db _ type _ now

/-! ## The context of a node (workflow_context.py) -/

def maxWorkflowContextChars : Nat := 6000
def maxWorkflowPredecessorResultChars : Nat := 2000

/-- `WorkflowNodeContextTooLarge`, or any other `ValueError`. -/
inductive ContextError where
  | tooLarge (message : String)
  | invalid (message : String)

/-- One line for each predecessor, in the order of the node keys. -/
def predecessorLines (revision : WorkflowRevision) (nodes : List WorkflowNodeExecution) :
    List WorkflowNodeId → Except ContextError (List String)
  | [] => .ok []
  | id :: ids =>
    match nodes.find? (·.workflowNodeId = id) with
    | none => .error (.invalid "workflow_predecessor_context_unavailable")
    | some predecessor =>
      if predecessor.status ≠ .succeeded then .error (.invalid "workflow_predecessor_context_unavailable")
      else match predecessor.resultPayload with
        | .null => .error (.invalid "workflow_predecessor_context_unavailable")
        | payload =>
          let result := dumps payload
          if result.toList.length > maxWorkflowPredecessorResultChars then
            .error (.tooLarge "a predecessor result exceeds the durable workflow context bound")
          else do
            let lines ← predecessorLines revision nodes ids
            return ("- " ++ nodeKeyOf revision.nodes id ++ ": " ++ result) :: lines

/-- The first lines, about the node itself. -/
def nodeLines (workflow : Workflow) (revision : WorkflowRevision) (execution : WorkflowExecution)
    (definition : WorkflowNode) : List String :=
  ["# WORKFLOW NODE", "workflow_key: " ++ workflow.workflowKey,
    "workflow_revision_version: " ++ toString revision.version,
    "workflow_revision_sha256: " ++ execution.workflowContentSha256,
    "node_key: " ++ definition.nodeKey, "objective: " ++ definition.objective,
    "input_payload: " ++ dumps definition.inputPayload,
    "expected_output_contract: " ++ definition.expectedOutputContract]

/-- The execution, workflow, revision and definition of a node must fit together. -/
def contextParts (db : Db) (node : WorkflowNodeExecution) :
    Except ContextError (WorkflowExecution × Workflow × WorkflowRevision × WorkflowNode) :=
  match db.workflowExecutions.get? node.workflowExecutionId with
  | none => .error (.invalid "workflow_execution_context_missing")
  | some execution =>
    match db.workflowRevisions.get? execution.workflowRevisionId, db.workflows.get? execution.workflowId with
    | some revision, some workflow =>
      if revision.workflowId ≠ workflow.id then .error (.invalid "workflow_execution_context_invalid")
      else match revision.nodes.find? (·.id = node.workflowNodeId) with
        | none => .error (.invalid "workflow_node_context_invalid")
        | some definition =>
          if definition.nodeKey ≠ node.nodeKey then .error (.invalid "workflow_node_context_invalid")
          else .ok (execution, workflow, revision, definition)
    | _, _ => .error (.invalid "workflow_execution_context_invalid")

/-- `build_workflow_node_context`. -/
def buildWorkflowNodeContext (db : Db) (node : WorkflowNodeExecution) :
    Except ContextError String := do
  let (execution, workflow, revision, definition) ← contextParts db node
  let predecessors := ((revision.edges.filter (·.toNodeId = definition.id)).map
    (·.fromNodeId)).insertionSort fun a b => nodeKeyOf revision.nodes a ≤ nodeKeyOf revision.nodes b
  let lines ← predecessorLines revision (db.workflowNodeExecutions.listByExecution execution.id)
    predecessors
  let header := if predecessors.isEmpty then [] else ["# WORKFLOW PREDECESSORS"]
  let rendered := PyText.join "\n" (nodeLines workflow revision execution definition ++
    header ++ lines)
  if rendered.toList.length > maxWorkflowContextChars then
    .error (.tooLarge "the aggregate workflow context exceeds the durable bound")
  else .ok rendered

/-! ## Scheduling -/

/-- The ids a bootstrap or a reconciliation draws for the nodes of a revision. -/
structure WorkflowIds where
  executionId : WorkflowExecutionId
  resolutionId : RunWorkflowResolutionId
  nodeExecution : WorkflowNodeId → WorkflowNodeExecutionId
  childTask : WorkflowNodeId → TaskId
  childRun : WorkflowNodeId → RunId

/-- The node objects of one execution and the database. -/
abbrev Sched := List WorkflowNodeExecution × Db

def replaceNode (nodes : List WorkflowNodeExecution) (node : WorkflowNodeExecution) :
    List WorkflowNodeExecution :=
  nodes.map fun x => if x.workflowNodeId = node.workflowNodeId then node else x

/-- `_persist_node` and `_emit_node_event`, after a transition of the node. -/
def recordNode (s : Sched) (node : WorkflowNodeExecution) (type : RunEventType) (now : Time) :
    Result Sched := do
  let rows ← s.2.workflowNodeExecutions.updateStatus node
  return (replaceNode s.1 node, emitNodeEvent { s.2 with workflowNodeExecutions := rows }
    node type now)

def blockNode (s : Sched) (node : WorkflowNodeExecution) (code message : String) (now : Time) :
    Result Sched := do
  let blocked ← node.block now code message
  recordNode s blocked .workflowNodeBlocked now

/-- `_dispatch_node`. -/
def dispatchNode (ids : WorkflowIds) (s : Sched) (node : WorkflowNodeExecution)
    (definition : WorkflowNode) (now : Time) : Result Sched :=
  if node.status ≠ .pending then .ok s
  else match buildWorkflowNodeContext s.2 node with
    | .error (.invalid message) => .error (.valueError message)
    | .error (.tooLarge message) => blockNode s node "workflow_context_too_large" message now
    | .ok _ => do
      let taskId := ids.childTask definition.id
      let db ← startChild s.2 taskId (ids.childRun definition.id)
        ("Workflow: " ++ definition.nodeKey) definition.objective node.targetAgentId now
      let child ← found (db.runs.get? (ids.childRun definition.id))
        (.workflowExecution "workflow child Run disappeared during dispatch")
      let dispatched ← node.dispatch taskId child.id child.executionId now
      recordNode (s.1, db) dispatched .workflowNodeDispatched now

/-- `_predecessors`. -/
def predecessorsOf (edges : List WorkflowEdge) (id : WorkflowNodeId) : List WorkflowNodeId :=
  (edges.filter (·.toNodeId = id)).map (·.fromNodeId)

/-- `(node_key, str(id))` on the nodes of a revision. -/
def definitionOrder (a b : WorkflowNode) : Prop := a.nodeKey < b.nodeKey ∨ a.nodeKey = b.nodeKey ∧
    a.id ≤ b.id
  deriving Decidable

/-- FAILED, CANCELLED or BLOCKED. -/
def isLost : WorkflowNodeExecutionStatus → Bool
  | .failed | .cancelled | .blocked => true
  | _ => false

/-- One node of one pass; the flag says that it changed. -/
def scheduleNode (ids : WorkflowIds) (edges : List WorkflowEdge) (now : Time) (s : Sched)
    (definition : WorkflowNode) : Result (Bool × Sched) :=
  match s.1.find? (·.workflowNodeId = definition.id) with
  | none => .ok (false, s)
  | some node =>
    if node.status ≠ .pending then .ok (false, s)
    else
      let statuses := (predecessorsOf edges definition.id).filterMap fun p =>
        (s.1.find? (·.workflowNodeId = p)).map (·.status)
      if statuses.any isLost then do
        let s ← blockNode s node "blocked_by_predecessor" "A predecessor Workflow node did not succeed" now
        return (true, s)
      else if statuses.all (· = .succeeded) then do
        let s ← dispatchNode ids s node definition now
        return (true, s)
      else .ok (false, s)

def schedulePass (ids : WorkflowIds) (edges : List WorkflowEdge) (now : Time) :
    Bool → Sched → List WorkflowNode → Result (Bool × Sched)
  | changed, s, [] => .ok (changed, s)
  | changed, s, definition :: rest => do
    let (c, s) ← scheduleNode ids edges now s definition
    schedulePass ids edges now (changed || c) s rest

/-- `_schedule_to_fixed_point`: every pass that changes something takes a node out of PENDING, so
one pass more than there are nodes is enough. -/
def scheduleLoop (ids : WorkflowIds) (revision : WorkflowRevision) (now : Time) : Nat → Sched →
    Result Sched
  | 0, s => .ok s
  | fuel + 1, s => do
    let (changed, s) ← schedulePass ids revision.edges now false s (revision.nodes.insertionSort definitionOrder)
    if changed then scheduleLoop ids revision now fuel s else .ok s

def scheduleToFixedPoint (ids : WorkflowIds) (revision : WorkflowRevision) (now : Time)
    (s : Sched) : Result Sched :=
  scheduleLoop ids revision now (revision.nodes.length + 1) s

/-! ## Ending an execution -/

/-- `_root_workflow_result`. -/
def rootWorkflowResult (execution : WorkflowExecution) (workflow : Workflow)
    (revision : WorkflowRevision) (nodes : List WorkflowNodeExecution) : JsonValue :=
  .obj [("workflow_execution_id", .str (Uuid.text execution.id)),
    ("workflow_id", .str (Uuid.text workflow.id)), ("workflow_key", .str workflow.workflowKey),
    ("workflow_revision_id", .str (Uuid.text revision.id)),
    ("workflow_revision_version", .int revision.version),
    ("workflow_revision_sha256", .str execution.workflowContentSha256),
    ("nodes", .obj ((nodes.insertionSort WorkflowNodeExecution.nodeOrder).map fun n =>
      (n.nodeKey, n.resultPayload)))]

def failurePayload (execution : WorkflowExecution) (code message : String) : JsonValue :=
  textPayload [("workflow_execution_id", Uuid.text execution.id), ("failure_code", code),
    ("failure_message", message)]

/-- The root run ends with its workflow when it waits for it, and its work item goes. -/
def endRoot (db : Db) (root : Option Run) (finish : Run → Result Run)
    (remover : WorkItems → Result WorkItems) : Result Db :=
  match root with
  | none => .ok db
  | some run =>
    if run.status = .waitingForWorkflow then do
      let ended ← finish run
      let items ← remover db.workQueue
      return { saveRun db ended with workQueue := items }
    else .ok db

/-- `_persist_execution`, its event, and the end of the root. -/
def endExecution (db : Db) (ended : WorkflowExecution) (type : RunEventType) (payload : JsonValue)
    (root : Option Run) (finish : Run → Result Run) (remover : WorkItems → Result WorkItems)
    (now : Time) : Result (WorkflowExecution × Db) := do
  let rows ← db.workflowExecutions.updateStatus ended
  let db := emitWorkflowEvent { db with workflowExecutions := rows } ended type payload now
  let db ← endRoot db root finish remover
  return (ended, db)

/-- `Failure(code, message, False, FailureCause.RUNTIME)`; its constructor rejects a blank text. -/
def runtimeFailure (code message : String) : Result Failure :=
  if hc : PyText.isBlank code = true then
    .error (.domainValidation "Failure.code must not be empty")
  else if hm : PyText.isBlank message = true then
    .error (.domainValidation "Failure.message must not be empty")
  else .ok ⟨code, message, false, .runtime, .null, by simpa using hc, by simpa using hm⟩

/-- The failed end of an execution, with the code and message of the run's failure. -/
def failExecution (db : Db) (execution : WorkflowExecution) (root : Option Run)
    (code message : String) (remover : WorkItems → Result WorkItems) (now : Time) :
    Result (WorkflowExecution × Db) := do
  let ended ← execution.fail now code message
  endExecution db ended .workflowExecutionFailed (failurePayload execution code message) root
    (fun run => do
      let failure ← runtimeFailure code message
      run.failWorkflow now failure) remover now

/-- `text or default`. -/
def textOr (text : Option String) (default : String) : String :=
  match text with
  | some s => if s = "" then default else s
  | none => default

/-- Why an execution without failed or cancelled node failed (:512-521). -/
def blockedReason (nodes : List WorkflowNodeExecution) : String × String :=
  let generic := ("workflow_node_blocked", "A Workflow node was blocked by a predecessor")
  match nodes.find? (·.status = .blocked) with
  | none => generic
  | some blocked =>
    if blocked.failureCode = some "blocked_by_predecessor" then generic
    else (textOr blocked.failureCode generic.1, textOr blocked.failureMessage generic.2)

/-- The marker of a waiting root must name the execution. -/
def requireMarker (root : Option Run) (execution : WorkflowExecution) : Result Unit :=
  require (root.all fun r => r.status ≠ .waitingForWorkflow ||
    r.workflowExecutionId = some execution.id)
    (.workflowIntegrity "root Run Workflow ownership marker mismatch")

def succeedExecution (cfg : Config) (db : Db) (execution : WorkflowExecution) (root : Option Run)
    (nodes : List WorkflowNodeExecution) (remover : WorkItems → Result WorkItems) (now : Time) :
    Result (WorkflowExecution × Db) := do
  let (workflow, revision) ← loadFrozenRevision cfg db execution.workflowId
    execution.workflowRevisionId execution.workflowContentSha256
  let ended ← execution.succeed now
  endExecution db ended .workflowExecutionSucceeded (rootWorkflowResult execution workflow revision
    nodes) root (·.succeedWorkflow now) remover now

def cancelExecution (db : Db) (execution : WorkflowExecution) (root : Option Run)
    (remover : WorkItems → Result WorkItems) (now : Time) : Result (WorkflowExecution × Db) := do
  let ended ← execution.cancel now "A Workflow node was cancelled"
  endExecution db ended .workflowExecutionFailed
    (failurePayload execution "workflow_node_cancelled" "A Workflow node was cancelled") root
    (·.cancelWorkflow now) remover now

/-- The end of an execution whose nodes are all terminal. -/
def finish (cfg : Config) (db : Db) (execution : WorkflowExecution) (root : Option Run)
    (nodes : List WorkflowNodeExecution) (remover : WorkItems → Result WorkItems) (now : Time) :
    Result (WorkflowExecution × Db) :=
  if nodes.all (·.status = .succeeded) then succeedExecution cfg db execution root nodes remover now
  else match nodes.find? (·.status = .failed) with
    | some failed => failExecution db execution root (textOr failed.failureCode "workflow_node_failed")
        (textOr failed.failureMessage "A Workflow node failed") remover now
    | none =>
      if nodes.any (·.status = .cancelled) then cancelExecution db execution root remover now
      else failExecution db execution root (blockedReason nodes).1 (blockedReason nodes).2 remover now

/-- `_finish_if_terminal`. -/
def finishIfTerminal (cfg : Config) (db : Db) (execution : WorkflowExecution)
    (nodes : List WorkflowNodeExecution) (remover : WorkItems → Result WorkItems) (now : Time) :
    Result (WorkflowExecution × Db) :=
  if nodes.isEmpty ∨ nodes.any (!·.status.isTerminal) then .ok (execution, db)
  else do
    let root := db.runs.get? execution.rootRunId
    requireMarker root execution
    finish cfg db execution root nodes remover now

end Friday.Runs
