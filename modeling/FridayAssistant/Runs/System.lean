import FridayAssistant.Lib.Transition
import FridayAssistant.Runs.Workflows
/-!
# The system of all run use cases

A state is the committed database, a step is one committed use case, with any arguments: any
instant the clock may return, any ids drawn, any claim presented. A use case that raises commits
nothing and is no step.

The use cases that are not spelled out only write tables outside `Core` (`elsewhere`: steps,
tool invocations, definitions, schedules, skill and workflow resolutions), consume an approved
approval (`consumeApproval`, the tool executor) or write approvals that belong to no run
(`subjectApproval`, skill promotion and rollback).
-/
namespace Friday.Runs
open Tables Transition PyJson Queue

inductive RunAction where
  | createTask (id : TaskId) (title description : String) (now : Time)
  | startRun (taskId : TaskId) (runId : RunId) (now : Time)
  | startQueuedRun (runId : RunId) (now : Time)
  | completeRun (runId : RunId) (now : Time)
  | failRun (runId : RunId) (failure : Failure) (now : Time)
  | cancelRun (runId : RunId) (now : Time)
  | retryFailedRun (runId : RunId) (ids : RetryIds) (now : Time)
  | cancelTask (taskId : TaskId) (now : Time)
  | completeTask (taskId : TaskId) (now : Time)
  | failTask (taskId : TaskId) (failure : Failure) (now : Time)
  | requestApproval (command : RequestApprovalCommand) (id : ApprovalRequestId) (now : Time)
  | requestToolApproval (command : RequestApprovalCommand) (id : ApprovalRequestId) (claim : ClaimTriple) (now : Time)
  | approveRequest (id : ApprovalRequestId) (resolver : String) (note : Option String) (now : Time)
  | rejectRequest (id : ApprovalRequestId) (resolver : String) (note : Option String) (now : Time)
  | cancelApproval (id : ApprovalRequestId) (note : Option String) (now : Time)
  | expireApproval (id : ApprovalRequestId) (now : Time)
  | createDelegationRequest (intent : DelegationIntent) (target : AgentId) (id : DelegationRequestId) (now : Time)
  | dispatchDelegation (intent : DelegationIntent) (targetKey : String) (ids : DispatchIds) (claim : ClaimTriple)
      (now : Time)
  | replaceTaskAgent (taskId : TaskId) (agentId : Option AgentId) (now : Time)
  | claimNextRun (request : ClaimRequest) (now : Time)
  | renewRunLease (runId : RunId) (claim : ClaimTriple) (leaseDuration now : Time)
  | releaseRunClaim (runId : RunId) (claim : ClaimTriple) (now : Time)
  | requeueClaimedRun (runId : RunId) (claim : ClaimTriple) (availableAt now : Time)
  | recoverExpiredLeases (batchSize : Nat) (now : Time)
  | applyFailedOutcome (runId : RunId) (claim : ClaimTriple) (failure : Failure) (ids : RetryIds) (now : Time)
  | applySucceededOutcome (runId : RunId) (claim : ClaimTriple) (finalResponse : Option (String × JsonValue))
      (now : Time)
  | applyWaitingOutcome (runId : RunId) (claim : ClaimTriple) (approvalId : ApprovalRequestId) (now : Time)
  | applyWaitingForDelegationOutcome (runId : RunId) (claim : ClaimTriple) (requestId : DelegationRequestId)
      (now : Time)
  | startWorkflowExecution (rootRunId : RunId) (workflowId : WorkflowId) (claim : ClaimTriple) (ids : WorkflowIds)
      (now : Time)
  | reconcileWorkflowExecution (executionId : WorkflowExecutionId) (ids : WorkflowIds) (now : Time)
  | consumeApproval (id : ApprovalRequestId) (now : Time)
  | subjectApproval (approval : ApprovalRequest)
  | elsewhere (other : Db)

/-- Spelled out, not one of the other use cases. -/
def RunAction.isSpelledOut : RunAction → Bool
  | .elsewhere _ => false
  | _ => true

/-- `consume_if_unconsumed`, and the consumption the tool executor commits. -/
def consumeApproval (db : Db) (id : ApprovalRequestId) (now : Time) : Db :=
  { db with approvals := (db.approvals.update id (fun a => a.status = .approved && !a.isConsumed)
      fun a => { a with consumedAt := some now }).2 }

/-- An approval of a skill promotion or rollback, before and after. -/
def subjectApproval (db : Db) (approval : ApprovalRequest) : Result Db := do
  require (approval.runId.isNone && (db.approvals.get? approval.id).all (·.runId.isNone))
    (.domainValidation "run ApprovalRequest must use the run subject kind")
  return { db with approvals := db.approvals.put approval }

/-- The database a use case commits. -/
def act (cfg : Config) (db : Db) : RunAction → Result Db
  | .createTask id title description now => (createTask db id title description now).map (·.2)
  | .startRun taskId runId now => startRun db taskId runId now
  | .startQueuedRun runId now => (startQueuedRun db runId now).map (·.2)
  | .completeRun runId now => (completeRun db runId now).map (·.2)
  | .failRun runId failure now => (failRun cfg db runId failure now).map (·.2)
  | .cancelRun runId now => (cancelRun db runId now).map (·.2)
  | .retryFailedRun runId ids now => retryFailedRun db runId ids now
  | .cancelTask taskId now => (cancelTask db taskId now).map (·.2)
  | .completeTask taskId now => (completeTask db taskId now).map (·.2)
  | .failTask taskId failure now => (failTask cfg db taskId failure now).map (·.2)
  | .requestApproval command id now => (requestApproval db command id now).map (·.2)
  | .requestToolApproval command id claim now =>
    (requestToolApproval db command id claim now).map (·.2)
  | .approveRequest id resolver note now => (approveRequest db id resolver note now).map (·.2)
  | .rejectRequest id resolver note now => (rejectRequest db id resolver note now).map (·.2)
  | .cancelApproval id note now => (cancelApproval db id note now).map (·.2)
  | .expireApproval id now => (expireApproval db id now).map (·.2)
  | .createDelegationRequest intent target id now =>
    (createDelegationRequest cfg db intent target id now).map (·.2)
  | .dispatchDelegation intent targetKey ids claim now =>
    (dispatchDelegation cfg db intent targetKey ids claim now).map (·.2)
  | .replaceTaskAgent taskId agentId now => (replaceTaskAgent db taskId agentId now).map (·.2)
  | .claimNextRun request now => (claimNextRun db request now).map (·.2)
  | .renewRunLease runId claim leaseDuration now => renewRunLease db runId claim leaseDuration now
  | .releaseRunClaim runId claim now => releaseRunClaim db runId claim now
  | .requeueClaimedRun runId claim availableAt now =>
    requeueClaimedRun db runId claim availableAt now
  | .recoverExpiredLeases batchSize now => .ok (recoverExpiredLeases db batchSize now)
  | .applyFailedOutcome runId claim failure ids now =>
    (applyFailedOutcome cfg db runId claim failure ids now).map (·.2)
  | .applySucceededOutcome runId claim finalResponse now =>
    (applySucceededOutcome db runId claim finalResponse now).map (·.2)
  | .applyWaitingOutcome runId claim approvalId now =>
    (applyWaitingOutcome db runId claim approvalId now).map (·.2)
  | .applyWaitingForDelegationOutcome runId claim requestId now =>
    (applyWaitingForDelegationOutcome db runId claim requestId now).map (·.2)
  | .startWorkflowExecution rootRunId workflowId claim ids now =>
    (startWorkflowExecution cfg db rootRunId workflowId claim ids now).map (·.2)
  | .reconcileWorkflowExecution executionId ids now =>
    (reconcileWorkflowExecution cfg db executionId ids now).map (·.2)
  | .consumeApproval id now => .ok (consumeApproval db id now)
  | .subjectApproval approval => subjectApproval db approval
  | .elsewhere other => .ok { other with toCore := db.toCore }

/-- A commit, when there is one. -/
def commit (cfg : Config) (db : Db) (a : RunAction) : Option Db := (act cfg db a).toOption

def Core.empty : Core := ⟨.empty, .empty, .empty, .empty, .empty, .empty⟩

/-- Every committed use case, in any order, from a database without runs. -/
def runSystem (cfg : Config) : System Db RunAction :=
  .ofStep (fun db => db.toCore = .empty) (commit cfg) fun _ _ => True

theorem runSystem_next {cfg : Config} {db db' : Db} {a : RunAction}
    (h : (runSystem cfg).next db a db') : act cfg db a = .ok db' := by
  obtain ⟨h, -⟩ := h
  exact toOption_eq_some.1 h

/-! ## A small deployment

One agent and one workflow, to which task 1 is bound: node `b` comes after node `a`. No run yet. -/

def sampleDigest : String := String.ofList (List.replicate 64 '0')

def sampleConfig : Config where
  sha256 := fun _ => sampleDigest
  runtimeRegistry := ⟨true⟩
  limits := ⟨8, 8, 4, by decide, by decide, by decide⟩
  retryPolicy := ⟨3, 60, fun _ => some 1, Nat.le_add_left 1 2⟩
  failureEq := fun a b => a.code = b.code && a.message = b.message

def sampleNode (id : WorkflowNodeId) (key : String) : WorkflowNode :=
  ⟨id, 31, key, 20, "o", .obj [], "c"⟩

def sampleDb : Db where
  toCore := .empty
  tasks := .empty
  steps := .empty
  toolInvocations := .empty
  events := []
  taskEvents := []
  workflowNodeExecutions := .empty
  runWorkflowResolutions := .empty
  taskWorkflowBindings := Table.empty.put ⟨1, 30⟩
  workflows := Table.empty.put ⟨30, "w", .active, some 31⟩
  workflowRevisions := Table.empty.put ⟨31, 30, 1, sampleDigest, [sampleNode 32 "a", sampleNode 33 "b"], [⟨31, 32, 33⟩]⟩
  agents := Table.empty.put ⟨20, "helper", .active, some 21⟩
  agentRevisions := Table.empty.put ⟨21, 20, 1, "help", "claude_cli", .obj [], sampleDigest⟩
  runAgentResolutions := .empty
  runSkillResolutions := .empty
  runSkillBindings := .empty
  skillUsageRecords := .empty

/-- The ids drawn for the nodes of the workflow. -/
def sampleIds : WorkflowIds := ⟨40, 41, (· + 10), (· + 20), (· + 30)⟩

/-- A worker claims whatever is due, with one token for each run. -/
def sampleClaim : ClaimRequest := ⟨"worker", fun _ => "token", 100, 10⟩

theorem sample_reachable {as : List RunAction}
    (h : System.Legal (commit sampleConfig) (fun _ _ => True) sampleDb as) :
    (runSystem sampleConfig).Reachable (System.run (commit sampleConfig) sampleDb as) :=
  have hinit : (runSystem sampleConfig).init sampleDb := rfl
  .steps (.of_init hinit) (.run h)

theorem sample_reachable_restrict {cond : Db → RunAction → Prop} {as : List RunAction}
    (h : System.Legal (commit sampleConfig) cond sampleDb as) :
    ((runSystem sampleConfig).restrict cond).Reachable (System.run (commit sampleConfig) sampleDb as) :=
  have hinit : ((runSystem sampleConfig).restrict cond).init sampleDb := rfl
  .steps (.of_init hinit) (.run_restrict (h.mono fun _ _ _ hcond => ⟨trivial, hcond⟩))

end Friday.Runs
