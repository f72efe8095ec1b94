import FridayAssistant.Runs.Moves
/-!
# What `save` writes (repositories.py, `Session.merge`)

`save` merges the aggregate into the row the session has loaded, and the flush is an `UPDATE` of
the columns that changed, by primary key. While nothing else commits between the load and the
flush that is the whole row; between two transactions it is the row as it stands by then, with
the changed columns written over it.
-/
namespace Friday.Runs
open Tables

/-- One column: what was saved, unless it is what was loaded. -/
def changed {α : Type} [DecidableEq α] (loaded saved current : α) : α :=
  if saved = loaded then current else saved

@[simp] theorem changed_same {α : Type} [DecidableEq α] (x current : α) :
    changed x x current = current := if_pos rfl

@[simp] theorem changed_current {α : Type} [DecidableEq α] (loaded saved : α) :
    changed loaded saved loaded = saved := by
  unfold changed
  split
  · next h => exact h.symm
  · rfl

theorem changed_of_ne {α : Type} [DecidableEq α] {loaded saved : α} (h : saved ≠ loaded)
    (current : α) : changed loaded saved current = saved := if_neg h

/-- The failure is a JSON column, compared as Python compares it. -/
def changedFailure (failureEq : Failure → Failure → Bool) : Option Failure → Option Failure →
    Option Failure → Option Failure
  | none, none, current => current
  | some loaded, some saved, current => if failureEq loaded saved then current else some saved
  | _, saved, _ => saved

/-- `UPDATE runs SET` the changed columns `WHERE id = …`. -/
def flushRun (failureEq : Failure → Failure → Bool) (loaded saved current : Run) : Run where
  id := current.id
  taskId := changed loaded.taskId saved.taskId current.taskId
  executionId := changed loaded.executionId saved.executionId current.executionId
  status := changed loaded.status saved.status current.status
  createdAt := changed loaded.createdAt saved.createdAt current.createdAt
  startedAt := changed loaded.startedAt saved.startedAt current.startedAt
  endedAt := changed loaded.endedAt saved.endedAt current.endedAt
  failure := changedFailure failureEq loaded.failure saved.failure current.failure
  approvalRequestId := changed loaded.approvalRequestId saved.approvalRequestId current.approvalRequestId
  delegationRequestId := changed loaded.delegationRequestId saved.delegationRequestId current.delegationRequestId
  workflowExecutionId := changed loaded.workflowExecutionId saved.workflowExecutionId current.workflowExecutionId

/-- No transition writes the columns that say which attempt a row is. -/
theorem flushRun_same (failureEq : Failure → Failure → Bool) {loaded saved : Run}
    (h : SameAttempt loaded saved) (current : Run) :
    SameAttempt current (flushRun failureEq loaded saved current) := by
  constructor <;> simp [flushRun, h.taskId, h.executionId, h.createdAt]

/-- A row nobody else wrote is saved as it is. A failure is only ever set on a run that has none. -/
theorem flushRun_loaded (failureEq : Failure → Failure → Bool) {loaded saved : Run} (hid : saved.id = loaded.id)
    (hfailure : loaded.failure = none ∨ saved.failure = loaded.failure) :
    flushRun failureEq loaded saved loaded = saved := by
  have hf : changedFailure failureEq loaded.failure saved.failure loaded.failure = saved.failure := by
    rcases hfailure with h | h
    · rw [h]; cases saved.failure <;> rfl
    · rw [h]
      cases loaded.failure with
      | none => rfl
      | some f => exact ite_self _
  simp only [flushRun, changed_current, hf, ← hid]

end Friday.Runs
