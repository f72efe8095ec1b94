import FridayAssistant.Basic
import FridayAssistant.Lib.Table
/-!
# `Task` and `RunStep` (domain/task.py, domain/step.py)

A task is what was asked for; its runs are the attempts at it. A step is an ordered unit of
work inside a run.
-/
namespace Friday
open Tables

inductive TaskStatus where
  | pending | active | completed | failed | cancelled
  deriving DecidableEq

def TaskStatus.value : TaskStatus → String
  | .pending => "pending"
  | .active => "active"
  | .completed => "completed"
  | .failed => "failed"
  | .cancelled => "cancelled"

/-- `TERMINAL_TASK_STATUSES`. -/
def TaskStatus.isTerminal : TaskStatus → Bool
  | .completed | .failed | .cancelled => true
  | _ => false

structure Task where
  id : TaskId
  title : String
  description : String
  status : TaskStatus
  createdAt : Time
  startedAt : Option Time
  completedAt : Option Time
  failedAt : Option Time
  cancelledAt : Option Time
  failure : Option Failure

instance : Keyed Task TaskId := ⟨Task.id⟩

@[simp] theorem key_task (t : Task) : key t = t.id := rfl

namespace Task

def new (id : TaskId) (title description : String) (createdAt : Time) : Result Task := do
  require (!PyText.isBlank title) (.domainValidation "Task.title must not be empty after trimming")
  return { id := id, title := PyText.strip title, description := PyText.strip description, status := .pending,
           createdAt := createdAt, startedAt := none, completedAt := none, failedAt := none,
           cancelledAt := none, failure := none }

def requireStatus (t : Task) (allowed : List TaskStatus) (target : TaskStatus) : Result Unit :=
  require (allowed.contains t.status) (.invalidStateTransition "Task" t.status.value target.value)

def start (t : Task) (now : Time) : Result Task := do
  t.requireStatus [.pending] .active
  return { t with startedAt := some now, status := .active }

def complete (t : Task) (now : Time) : Result Task := do
  t.requireStatus [.active] .completed
  return { t with completedAt := some now, status := .completed }

def fail (t : Task) (now : Time) (failure : Failure) : Result Task := do
  t.requireStatus [.active] .failed
  return { t with failedAt := some now, failure := some failure, status := .failed }

def cancel (t : Task) (now : Time) : Result Task := do
  t.requireStatus [.pending, .active] .cancelled
  return { t with cancelledAt := some now, status := .cancelled }

end Task

abbrev Tasks := Table Task

inductive RunStepStatus where
  | pending | running | waitingForApproval | succeeded | failed | skipped | cancelled
  deriving DecidableEq

def RunStepStatus.value : RunStepStatus → String
  | .pending => "pending"
  | .running => "running"
  | .waitingForApproval => "waiting_for_approval"
  | .succeeded => "succeeded"
  | .failed => "failed"
  | .skipped => "skipped"
  | .cancelled => "cancelled"

/-- `TERMINAL_RUN_STEP_STATUSES`. -/
def RunStepStatus.isTerminal : RunStepStatus → Bool
  | .succeeded | .failed | .skipped | .cancelled => true
  | _ => false

structure RunStep where
  id : RunStepId
  runId : RunId
  name : String
  position : Nat
  status : RunStepStatus
  createdAt : Time
  startedAt : Option Time
  endedAt : Option Time
  failure : Option Failure
  approvalRequestId : Option ApprovalRequestId

instance : Keyed RunStep RunStepId := ⟨RunStep.id⟩

@[simp] theorem key_step (s : RunStep) : key s = s.id := rfl

namespace RunStep

def requireStatus (s : RunStep) (allowed : List RunStepStatus) (target : RunStepStatus) :
    Result Unit :=
  require (allowed.contains s.status)
    (.invalidStateTransition "RunStep" s.status.value target.value)

/-- `_validated_end`. -/
def validatedEnd (s : RunStep) (now : Time) : Result Time := do
  require (s.startedAt.getD s.createdAt ≤ now)
    (.domainValidation "RunStep end timestamp precedes its start/creation time")
  return now

def waitForApproval (s : RunStep) (approval : ApprovalRequestId) : Result RunStep := do
  s.requireStatus [.running] .waitingForApproval
  return { s with approvalRequestId := some approval, status := .waitingForApproval }

def resume (s : RunStep) : Result RunStep := do
  s.requireStatus [.waitingForApproval] .running
  return { s with approvalRequestId := none, status := .running }

def cancel (s : RunStep) (now : Time) : Result RunStep := do
  s.requireStatus [.pending, .running, .waitingForApproval] .cancelled
  let ended ← s.validatedEnd now
  return { s with endedAt := some ended, approvalRequestId := none, status := .cancelled }

/-- `ORDER BY position, id`. -/
def stepOrder (a b : RunStep) : Prop := a.position < b.position ∨ a.position = b.position ∧
    a.id ≤ b.id
  deriving Decidable

end RunStep

abbrev RunSteps := Table RunStep

/-- `list_for_run` (repositories.py, `RunStepRepository`). -/
def RunSteps.listForRun (t : RunSteps) (runId : RunId) : List RunStep :=
  (t.select (·.runId = runId)).insertionSort RunStep.stepOrder

end Friday
