import FridayAssistant.Basic
import FridayAssistant.Lib.Table
/-!
# `Run` (domain/run.py)

One execution attempt of a task, as the state machine its methods make. Attempts of one
execution share `executionId`, the id of the first of them. A method that raises leaves the
aggregate as it was, so a transition is a function into `Result Run`, and each has one
lemma that says when it succeeds and with what.
-/
namespace Friday
open Tables

inductive RunStatus where
  | queued | running | waitingForApproval | waitingForDelegation | waitingForWorkflow
  | succeeded | failed | cancelled
  deriving DecidableEq

def RunStatus.value : RunStatus → String
  | .queued => "queued"
  | .running => "running"
  | .waitingForApproval => "waiting_for_approval"
  | .waitingForDelegation => "waiting_for_delegation"
  | .waitingForWorkflow => "waiting_for_workflow"
  | .succeeded => "succeeded"
  | .failed => "failed"
  | .cancelled => "cancelled"

/-- `TERMINAL_RUN_STATUSES`. -/
def RunStatus.isTerminal : RunStatus → Bool
  | .succeeded | .failed | .cancelled => true
  | _ => false

/-- The statuses in which a run waits for something other than a worker. -/
def RunStatus.isWaiting : RunStatus → Bool
  | .waitingForApproval | .waitingForDelegation | .waitingForWorkflow => true
  | _ => false

structure Run where
  id : RunId
  taskId : TaskId
  executionId : RunId
  status : RunStatus
  createdAt : Time
  startedAt : Option Time
  endedAt : Option Time
  failure : Option Failure
  approvalRequestId : Option ApprovalRequestId
  delegationRequestId : Option DelegationRequestId
  workflowExecutionId : Option WorkflowExecutionId

instance : Keyed Run RunId := ⟨Run.id⟩

@[simp] theorem key_run (r : Run) : key r = r.id := rfl

namespace Run

/-- `Run.new`; without an `execution_id` the run opens its own execution. -/
def new (id : RunId) (taskId : TaskId) (createdAt : Time) (executionId : Option RunId) : Run where
  id := id
  taskId := taskId
  executionId := executionId.getD id
  status := .queued
  createdAt := createdAt
  startedAt := none
  endedAt := none
  failure := none
  approvalRequestId := none
  delegationRequestId := none
  workflowExecutionId := none

def requireStatus (r : Run) (allowed : List RunStatus) (target : RunStatus) : Result Unit :=
  require (allowed.contains r.status) (.invalidStateTransition "Run" r.status.value target.value)

/-- `_validated_end`. -/
def validatedEnd (r : Run) (now : Time) : Result Time := do
  require (r.startedAt.getD r.createdAt ≤ now)
    (.domainValidation "Run end timestamp precedes its start/creation time")
  return now

def start (r : Run) (now : Time) : Result Run := do
  r.requireStatus [.queued] .running
  return { r with startedAt := some now, status := .running }

def markersExclusive : AppError :=
  .domainValidation "approval, delegation, and workflow wait markers are mutually exclusive"

def waitForApproval (r : Run) (approval : ApprovalRequestId) : Result Run := do
  r.requireStatus [.running] .waitingForApproval
  require (r.delegationRequestId.isNone && r.workflowExecutionId.isNone) markersExclusive
  return { r with approvalRequestId := some approval, status := .waitingForApproval }

def waitForDelegation (r : Run) (delegation : DelegationRequestId) : Result Run := do
  r.requireStatus [.running] .waitingForDelegation
  require (r.approvalRequestId.isNone && r.workflowExecutionId.isNone) markersExclusive
  return { r with delegationRequestId := some delegation, status := .waitingForDelegation }

def waitForWorkflow (r : Run) (execution : WorkflowExecutionId) : Result Run := do
  r.requireStatus [.running] .waitingForWorkflow
  require (r.approvalRequestId.isNone && r.delegationRequestId.isNone)
    (.domainValidation "workflow and other wait markers are mutually exclusive")
  require r.workflowExecutionId.isNone (.domainValidation
    "Run already has a Workflow execution owner")
  return { r with workflowExecutionId := some execution, status := .waitingForWorkflow }

def resume (r : Run) : Result Run := do
  r.requireStatus [.waitingForApproval, .waitingForDelegation] .running
  return { r with approvalRequestId := none, delegationRequestId := none, status := .running }

def resumeFromDelegation (r : Run) : Result Run := do
  r.requireStatus [.waitingForDelegation] .running
  return { r with delegationRequestId := none, status := .running }

def succeed (r : Run) (now : Time) : Result Run := do
  r.requireStatus [.running, .waitingForWorkflow] .succeeded
  let ended ← r.validatedEnd now
  return { r with endedAt := some ended, status := .succeeded }

def fail (r : Run) (now : Time) (failure : Failure) : Result Run := do
  r.requireStatus [.running, .waitingForWorkflow] .failed
  let ended ← r.validatedEnd now
  return { r with endedAt := some ended, failure := some failure, status := .failed }

/-- The workflow marker is not cleared. -/
def cancel (r : Run) (now : Time) : Result Run := do
  r.requireStatus [.queued, .running, .waitingForApproval, .waitingForDelegation,
    .waitingForWorkflow] .cancelled
  let ended ← r.validatedEnd now
  return { r with endedAt := some ended, approvalRequestId := none, delegationRequestId := none,
                  status := .cancelled }

def succeedWorkflow (r : Run) (now : Time) : Result Run := do
  r.requireStatus [.waitingForWorkflow] .succeeded
  r.succeed now

def failWorkflow (r : Run) (now : Time) (failure : Failure) : Result Run := do
  r.requireStatus [.waitingForWorkflow] .failed
  r.fail now failure

def cancelWorkflow (r : Run) (now : Time) : Result Run := do
  r.requireStatus [.waitingForWorkflow] .cancelled
  r.cancel now

/-! ## When a transition succeeds, and with what -/

variable {r : Run}

theorem requireStatus_eq_ok {allowed : List RunStatus} {target : RunStatus} {u : Unit} :
    r.requireStatus allowed target = .ok u ↔ r.status ∈ allowed := by
  simp [requireStatus]

variable {now : Time}

theorem validatedEnd_eq_ok {ended : Time} :
    r.validatedEnd now = .ok ended ↔ r.startedAt.getD r.createdAt ≤ now ∧ ended = now := by
  simp only [validatedEnd, bind_eq_ok, require_eq_ok, pure_eq_ok]
  simp

variable {r' : Run}

theorem start_eq_ok :
    r.start now = .ok r' ↔ r.status = .queued ∧ r' = { r with startedAt := some now, status := .running } := by
  simp only [start, bind_eq_ok, requireStatus_eq_ok, pure_eq_ok]
  simp

theorem waitForApproval_eq_ok {a : ApprovalRequestId} :
    r.waitForApproval a = .ok r' ↔ r.status = .running ∧ (r.delegationRequestId = none ∧ r.workflowExecutionId = none) ∧
      r' = { r with approvalRequestId := some a, status := .waitingForApproval } := by
  simp only [waitForApproval, bind_eq_ok, require_eq_ok, requireStatus_eq_ok, pure_eq_ok]
  simp

theorem waitForDelegation_eq_ok {q : DelegationRequestId} :
    r.waitForDelegation q = .ok r' ↔ r.status = .running ∧ (r.approvalRequestId = none ∧ r.workflowExecutionId = none) ∧
      r' = { r with delegationRequestId := some q, status := .waitingForDelegation } := by
  simp only [waitForDelegation, bind_eq_ok, require_eq_ok, requireStatus_eq_ok, pure_eq_ok]
  simp

theorem waitForWorkflow_eq_ok {x : WorkflowExecutionId} :
    r.waitForWorkflow x = .ok r' ↔ r.status = .running ∧
      (r.approvalRequestId = none ∧ r.delegationRequestId = none) ∧ r.workflowExecutionId = none ∧
      r' = { r with workflowExecutionId := some x, status := .waitingForWorkflow } := by
  simp only [waitForWorkflow, bind_eq_ok, require_eq_ok, requireStatus_eq_ok, pure_eq_ok]
  simp

theorem resume_eq_ok :
    r.resume = .ok r' ↔ (r.status = .waitingForApproval ∨ r.status = .waitingForDelegation) ∧
      r' = { r with approvalRequestId := none, delegationRequestId := none, status := .running } := by
  simp only [resume, bind_eq_ok, requireStatus_eq_ok, pure_eq_ok]
  simp

theorem resumeFromDelegation_eq_ok :
    r.resumeFromDelegation = .ok r' ↔ r.status = .waitingForDelegation ∧
      r' = { r with delegationRequestId := none, status := .running } := by
  simp only [resumeFromDelegation, bind_eq_ok, requireStatus_eq_ok, pure_eq_ok]
  simp

theorem succeed_eq_ok :
    r.succeed now = .ok r' ↔ (r.status = .running ∨ r.status = .waitingForWorkflow) ∧
      r.startedAt.getD r.createdAt ≤ now ∧ r' = { r with endedAt := some now, status := .succeeded } := by
  simp only [succeed, bind_eq_ok, requireStatus_eq_ok, validatedEnd_eq_ok, pure_eq_ok]
  simp

theorem fail_eq_ok {failure : Failure} :
    r.fail now failure = .ok r' ↔ (r.status = .running ∨ r.status = .waitingForWorkflow) ∧
      r.startedAt.getD r.createdAt ≤ now ∧
      r' = { r with endedAt := some now, failure := some failure, status := .failed } := by
  simp only [fail, bind_eq_ok, requireStatus_eq_ok, validatedEnd_eq_ok, pure_eq_ok]
  simp

theorem cancel_eq_ok :
    r.cancel now = .ok r' ↔ r.status.isTerminal = false ∧ r.startedAt.getD r.createdAt ≤ now ∧
      r' = { r with endedAt := some now, approvalRequestId := none, delegationRequestId := none,
                    status := .cancelled } := by
  simp only [cancel, bind_eq_ok, requireStatus_eq_ok, validatedEnd_eq_ok, pure_eq_ok]
  cases hs : r.status <;> simp [RunStatus.isTerminal]

theorem succeedWorkflow_eq_ok :
    r.succeedWorkflow now = .ok r' ↔ r.status = .waitingForWorkflow ∧ r.succeed now = .ok r' := by
  simp only [succeedWorkflow, bind_eq_ok, requireStatus_eq_ok]
  simp

theorem failWorkflow_eq_ok {failure : Failure} :
    r.failWorkflow now failure = .ok r' ↔ r.status = .waitingForWorkflow ∧ r.fail now failure = .ok r' := by
  simp only [failWorkflow, bind_eq_ok, requireStatus_eq_ok]
  simp

theorem cancelWorkflow_eq_ok :
    r.cancelWorkflow now = .ok r' ↔ r.status = .waitingForWorkflow ∧ r.cancel now = .ok r' := by
  simp only [cancelWorkflow, bind_eq_ok, requireStatus_eq_ok]
  simp

end Run
end Friday
