import FridayAssistant.Runs.Approvals
/-!
# Delegations (delegation.py, agent_registry.py)

`DispatchDelegation` creates the child task and run, records the request and parks the parent,
in one transaction under the parent's claim. `ReplaceTaskAgent` is here because a delegated
task's binding is frozen by its request.
-/
namespace Friday.Runs
open Tables PyJson Queue

/-- The arguments of the two use cases that say what is delegated. -/
structure DelegationIntent where
  parentRunId : RunId
  objective : String
  inputPayload : JsonValue
  expectedOutputContract : String
  parentRunStepId : Option RunStepId

/-- A step that is named must belong to the parent. -/
def requireParentStep (db : Db) (parentRunId : RunId) : Option RunStepId → Result Unit
  | none => .ok ()
  | some stepId => do
    let step ← getStep db stepId
    require (step.runId = parentRunId) (.entityConflict "parent_run_step_id must belong to the parent run")

def DelegationIntent.draft (i : DelegationIntent) (id : DelegationRequestId) (target : AgentId)
    (root : Option DelegationRequestId) (depth : Nat) (now : Time) : DelegationRequest.Draft where
  id := id
  parentRunId := i.parentRunId
  targetAgentId := target
  objective := i.objective
  inputPayload := i.inputPayload
  expectedOutputContract := i.expectedOutputContract
  createdAt := now
  parentRunStepId := i.parentRunStepId
  rootDelegationId := root
  depth := depth

/-- `CreateDelegationRequest`: a record only, nothing is dispatched. -/
def createDelegationRequest (cfg : Config) (db : Db) (i : DelegationIntent)
    (targetAgentId : AgentId) (id : DelegationRequestId) (now : Time) :
    Result (DelegationRequest × Db) := do
  let _ ← getRun db i.parentRunId
  requireParentStep db i.parentRunId i.parentRunStepId
  let agent ← found (db.agents.get? targetAgentId) (.notFound "Agent" targetAgentId)
  require agent.isAvailable
    (.entityConflict "delegation target requires an active agent with an active revision")
  let request ← DelegationRequest.new cfg.sha256 (i.draft id targetAgentId none 1 now)
  let requests ← db.delegationRequests.add request
  return (request, { db with delegationRequests := requests })

/-! ## `DispatchDelegation` -/

/-- The root and depth the new request inherits from the one its parent is a child of. -/
def lineage (cfg : Config) : Option DelegationRequest → Result (Option DelegationRequestId × Nat)
  | none => .ok (none, 1)
  | some incoming => do
    require (incoming.depth + 1 ≤ cfg.limits.maxDelegationDepth) (.entityConflict "delegation_depth_exhausted")
    return (some incoming.rootDelegationId, incoming.depth + 1)

/-- The two budgets, counted over requests that have a child; the fence on the root of a tree
exists when the root does. -/
def requireBudget (cfg : Config) (db : Db) (parentRunId : RunId)
    (root : Option DelegationRequestId) : Result Unit := do
  require (root.all fun r => (db.delegationRequests.get? r).isSome)
    (.entityConflict "delegation_lineage_invalid")
  require (db.delegationRequests.countMaterializedForRun parentRunId <
    cfg.limits.maxDelegationsPerRun) (.entityConflict "delegation_budget_exhausted")
  require (root.all fun r => db.delegationRequests.countMaterializedForTree r <
    cfg.limits.maxDelegationsPerTree) (.entityConflict "delegation_budget_exhausted")

/-- The agent with its active revision, whose runtime must be registered and configured. -/
def delegationTarget (cfg : Config) (db : Db) (targetAgentKey : String) : Result Agent := do
  let agent ← found (db.agents.getByKey targetAgentKey)
    (.entityConflict "delegation_target_not_found")
  require (agent.status = .active) (.entityConflict "delegation_target_unavailable")
  let revisionId ← found agent.activeRevisionId (.entityConflict "delegation_target_unavailable")
  let revision ← found (db.agentRevisions.get? revisionId)
    (.entityConflict "delegation_target_revision_unavailable")
  require (revision.agentId = agent.id) (.entityConflict "delegation_target_revision_unavailable")
  require (cfg.runtimeRegistry.isRegistered revision.runtimeKind)
    (.entityConflict "delegation_target_runtime_unavailable")
  require (BrainRuntimeRegistry.validateRuntimeConfig revision.runtimeConfig)
    (.entityConflict "delegation_target_runtime_unavailable")
  return agent

def maxDispatchInputBytes : Nat := 16384

/-- The ids `DispatchDelegation` draws. -/
structure DispatchIds where
  requestId : DelegationRequestId
  childTaskId : TaskId
  childRunId : RunId

/-- A bound child task with its queued run; delegations and workflow nodes both make one. -/
def startChild (db : Db) (taskId : TaskId) (runId : RunId) (title description : String)
    (agentId : AgentId) (now : Time) : Result Db := do
  let task ← Task.new taskId (String.ofList (title.toList.take 4000)) description now
  let tasks ← found (db.tasks.insert? task) .integrity
  let bindings := db.taskAgentBindings.replace task.id (some ⟨task.id, agentId, now⟩)
  startRunInUow { db with tasks := tasks, taskAgentBindings := bindings } task runId now

def dispatchedPayload (request : DelegationRequest) (ids : DispatchIds) : JsonValue :=
  textPayload [("delegation_request_id", Uuid.text request.id),
    ("child_task_id", Uuid.text ids.childTaskId), ("child_run_id", Uuid.text ids.childRunId),
    ("target_agent_id", Uuid.text request.targetAgentId), ("status", request.status.value)]

/-- The writes of `DispatchDelegation`, once every check has passed. -/
def materializeDelegation (db : Db) (parent : Run) (request : DelegationRequest) (ids : DispatchIds)
    (claim : ClaimTriple) (now : Time) : Result (DelegationRequest × Db) := do
  let db ← startChild db ids.childTaskId ids.childRunId ("Delegated: " ++ request.objective)
    request.objective request.targetAgentId now
  let dispatched ← request.dispatch ids.childTaskId ids.childRunId now
  let requests ← db.delegationRequests.add dispatched
  let waiting ← parent.waitForDelegation dispatched.id
  let items ← removeClaimed parent.id claim now
    ("delegation dispatch lost claim for run " ++ Uuid.text parent.id) db.workQueue
  let db := { db with delegationRequests := requests, runs := db.runs.put waiting, workQueue := items }
  return (dispatched, appendRunEvents db parent.id now
    [⟨.delegationDispatched, dispatchedPayload dispatched ids, none⟩,
      ⟨.runWaitingForDelegation, textPayload [("run_id", Uuid.text parent.id),
        ("delegation_request_id", Uuid.text dispatched.id)], none⟩])

/-- `DispatchDelegation`. -/
def dispatchDelegation (cfg : Config) (db : Db) (i : DelegationIntent) (targetAgentKey : String)
    (ids : DispatchIds) (claim : ClaimTriple) (now : Time) : Result (DelegationRequest × Db) := do
  require (isClaimActive db.workQueue i.parentRunId claim now)
    (.claimLost ("delegation dispatch requires an exact active claim for run " ++ Uuid.text i.parentRunId))
  let parent ← getRun db i.parentRunId
  require (parent.status = .running) (.entityConflict "delegation parent must be running")
  let (root, depth) ← lineage cfg (db.delegationRequests.getForChildExecution db.runs
    parent.executionId)
  requireBudget cfg db parent.id root
  require ((dumpsUnicode i.inputPayload).utf8ByteSize ≤ maxDispatchInputBytes)
    (.entityConflict "delegation_input_too_large")
  requireParentStep db parent.id i.parentRunStepId
  let agent ← delegationTarget cfg db targetAgentKey
  let request ← DelegationRequest.new cfg.sha256 (i.draft ids.requestId agent.id root depth now)
  materializeDelegation db parent request ids claim now

/-! ## `ReplaceTaskAgent` -/

/-- The agent a task is bound to must be available. -/
def newBinding (db : Db) (taskId : TaskId) (now : Time) : Option AgentId →
    Result (Option TaskAgentBinding)
  | none => .ok none
  | some agentId => do
    let agent ← found (db.agents.get? agentId) (.notFound "Agent" agentId)
    require agent.isAvailable (.entityConflict "task bindings require active agents with an active revision")
    return some ⟨taskId, agentId, now⟩

def replaceTaskAgent (db : Db) (taskId : TaskId) (agentId : Option AgentId) (now : Time) :
    Result (Option TaskAgentBinding × Db) := do
  let _ ← getTask db taskId
  require (db.workflowNodeExecutions.getByChildTaskId taskId).isNone
    (.workflowBinding "workflow child Task Agent binding is frozen")
  require (agentId.isNone || (db.taskWorkflowBindings.get? taskId).isNone)
    (.workflowBinding "a Task cannot have both TaskAgentBinding and TaskWorkflowBinding")
  require ((db.delegationRequests.getForChildTask taskId).all (·.status = .requested))
    (.entityConflict "delegated_task_agent_binding_frozen")
  let binding ← newBinding db taskId now agentId
  return (binding, { db with taskAgentBindings := db.taskAgentBindings.replace taskId binding })

end Friday.Runs
