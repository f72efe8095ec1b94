import FridayAssistant.Domain.Workflow
/-!
# The rows of an execution and its nodes

What the transitions of `WorkflowExecution` and `WorkflowNodeExecution`
(domain/workflow_execution.py) ask for and write, and what `update_status` and `list_by_execution`
(repositories.py) make of a transition: the row is replaced and the list of the execution keeps its
order.
-/
namespace Friday
open Tables Table PyJson
open PyText (isBlank)

theorem validateFailure_eq_ok {code message : String} {u : Unit} :
    validateFailure code message = .ok u ↔ isBlank code = false ∧ isBlank message = false := by
  simp only [validateFailure, bind_eq_ok, require_eq_ok]
  constructor
  · rintro ⟨-, -, -, hcode, hmessage⟩
    exact ⟨by simpa using hcode, by simpa using hmessage⟩
  · rintro ⟨hcode, hmessage⟩
    have hne : ∀ {s : String}, isBlank s = false → s ≠ "" := by
      rintro _ hs rfl
      exact absurd hs (by decide)
    exact ⟨(), by simp [hne hcode, hne hmessage], (), by simpa using hcode, by simpa using hmessage⟩

/-! ## Executions -/

namespace WorkflowExecution
variable {x x' : WorkflowExecution} {now : Time}

theorem validatedEnd_eq_ok {ended : Time} : x.validatedEnd now = .ok ended ↔ x.startedAt ≤ now ∧
    ended = now := by
  simp only [validatedEnd, bind_eq_ok, require_eq_ok, pure_eq_ok]
  simp

theorem succeed_eq_ok : x.succeed now = .ok x' ↔ x.status = .running ∧ x.startedAt ≤ now ∧
    x' = { x with completedAt := some now, failureCode := none, failureMessage := none, status := .succeeded } := by
  simp only [succeed, requireRunning, bind_eq_ok, require_eq_ok, validatedEnd_eq_ok, pure_eq_ok]
  simp

theorem fail_eq_ok {code message : String} : x.fail now code message = .ok x' ↔
    x.status = .running ∧ (isBlank code = false ∧ isBlank message = false) ∧ x.startedAt ≤ now ∧
    x' = { x with completedAt := some now, failureCode := some code, failureMessage := some message,
                  status := .failed } := by
  simp only [fail, requireRunning, bind_eq_ok, require_eq_ok, validateFailure_eq_ok,
    validatedEnd_eq_ok, pure_eq_ok]
  simp

theorem cancel_eq_ok {message : String} : x.cancel now message = .ok x' ↔ x.status = .running ∧
    x.startedAt ≤ now ∧ isBlank message = false ∧
    x' = { x with completedAt := some now, failureCode := none, failureMessage := some message,
                  status := .cancelled } := by
  simp only [cancel, requireRunning, bind_eq_ok, require_eq_ok, validatedEnd_eq_ok, pure_eq_ok]
  simp

/-- Only the columns `update_status` writes differ. -/
def SameButEnd (x x' : WorkflowExecution) : Prop :=
  x' = { x with status := x'.status, completedAt := x'.completedAt, failureCode := x'.failureCode,
                failureMessage := x'.failureMessage }

theorem SameButEnd.id (h : SameButEnd x x') : x'.id = x.id := by rw [h]

end WorkflowExecution

/-- The end of a RUNNING execution is stored as it is. -/
theorem WorkflowExecutions.updateStatus_eq {t : WorkflowExecutions} {x x' : WorkflowExecution}
    (hx : t.get? x.id = some x) (running : x.status = .running) (same : x.SameButEnd x') :
    t.updateStatus x' = .ok (t.put x') := by
  have hrow : { x with status := x'.status, completedAt := x'.completedAt, failureCode := x'.failureCode,
                       failureMessage := x'.failureMessage } = x' := same.symm
  rw [updateStatus, same.id, update_of_get? hx (decide_eq_true running), hrow]

/-! ## Nodes -/

namespace WorkflowNodeExecution
variable {n n' : WorkflowNodeExecution} {now : Time}

theorem validatedEnd_eq_ok {ended : Time} :
    n.validatedEnd now = .ok ended ↔ n.startedAt.getD n.createdAt ≤ now ∧ ended = now := by
  simp only [validatedEnd, bind_eq_ok, require_eq_ok, pure_eq_ok]
  simp

theorem dispatch_eq_ok {taskId : TaskId} {runId executionId : RunId} :
    n.dispatch taskId runId executionId now = .ok n' ↔ n.status = .pending ∧
      (n.childTaskId = none ∧ n.childRunId = none ∧ n.childExecutionId = none) ∧ n.createdAt ≤ now ∧
      n' = { n with childTaskId := some taskId, childRunId := some runId, childExecutionId := some executionId,
                    startedAt := some now, completedAt := none, failureCode := none,
                    failureMessage := none,
                    status := .dispatched } := by
  simp only [dispatch, requireStatus, bind_eq_ok, require_eq_ok, pure_eq_ok]
  simp [and_assoc]

theorem succeed_eq_ok {payload : JsonValue} :
    n.succeed now payload = .ok n' ↔ n.status = .dispatched ∧ n.startedAt.getD n.createdAt ≤ now ∧
      n' = { n with resultPayload := payload, completedAt := some now, failureCode := none, failureMessage := none,
                    status := .succeeded } := by
  simp only [succeed, requireStatus, bind_eq_ok, require_eq_ok, validatedEnd_eq_ok, pure_eq_ok]
  simp

variable {code message : String}

theorem fail_eq_ok :
    n.fail now code message = .ok n' ↔ n.status = .dispatched ∧
      (isBlank code = false ∧ isBlank message = false) ∧ n.startedAt.getD n.createdAt ≤ now ∧
      n' = { n with completedAt := some now, failureCode := some code, failureMessage := some message,
                    status := .failed } := by
  simp only [fail, requireStatus, bind_eq_ok, require_eq_ok, validateFailure_eq_ok,
    validatedEnd_eq_ok, pure_eq_ok]
  simp

theorem cancel_eq_ok :
    n.cancel now = .ok n' ↔ (n.status = .pending ∨ n.status = .dispatched) ∧ n.startedAt.getD n.createdAt ≤ now ∧
      n' = { n with completedAt := some now, failureCode := none, failureMessage := none, status := .cancelled } := by
  simp only [cancel, requireStatus, bind_eq_ok, require_eq_ok, validatedEnd_eq_ok, pure_eq_ok]
  simp

theorem block_eq_ok :
    n.block now code message = .ok n' ↔ n.status = .pending ∧
      (isBlank code = false ∧ isBlank message = false) ∧ n.createdAt ≤ now ∧
      n' = { n with completedAt := some now, failureCode := some code, failureMessage := some message,
                    status := .blocked } := by
  simp only [block, requireStatus, bind_eq_ok, require_eq_ok, validateFailure_eq_ok, pure_eq_ok]
  simp

/-- The columns `update_status` does not write. -/
structure Same (n n' : WorkflowNodeExecution) : Prop where
  id : n'.id = n.id
  workflowExecutionId : n'.workflowExecutionId = n.workflowExecutionId
  workflowNodeId : n'.workflowNodeId = n.workflowNodeId
  workflowRevisionId : n'.workflowRevisionId = n.workflowRevisionId
  nodeKey : n'.nodeKey = n.nodeKey
  targetAgentId : n'.targetAgentId = n.targetAgentId
  targetAgentRevisionId : n'.targetAgentRevisionId = n.targetAgentRevisionId
  targetAgentRevisionSha256 : n'.targetAgentRevisionSha256 = n.targetAgentRevisionSha256
  createdAt : n'.createdAt = n.createdAt

theorem Same.refl (n : WorkflowNodeExecution) : Same n n :=
  ⟨rfl, rfl, rfl, rfl, rfl, rfl, rfl, rfl, rfl⟩

theorem Same.trans {a b c : WorkflowNodeExecution} (h : Same a b) (h' : Same b c) : Same a c :=
  ⟨h'.id.trans h.id, h'.workflowExecutionId.trans h.workflowExecutionId,
    h'.workflowNodeId.trans h.workflowNodeId, h'.workflowRevisionId.trans h.workflowRevisionId,
    h'.nodeKey.trans h.nodeKey, h'.targetAgentId.trans h.targetAgentId,
    h'.targetAgentRevisionId.trans h.targetAgentRevisionId,
    h'.targetAgentRevisionSha256.trans h.targetAgentRevisionSha256, h'.createdAt.trans h.createdAt⟩

/-- A transition writes its own columns and moves the status. -/
theorem dispatch_moves {taskId : TaskId} {runId executionId : RunId}
    (h : n.dispatch taskId runId executionId now = .ok n') :
    Same n n' ∧ n.status = .pending ∧ n'.status = .dispatched := by
  obtain ⟨hs, -, -, rfl⟩ := dispatch_eq_ok.1 h
  exact ⟨⟨rfl, rfl, rfl, rfl, rfl, rfl, rfl, rfl, rfl⟩, hs, rfl⟩

theorem succeed_moves {payload : JsonValue} (h : n.succeed now payload = .ok n') :
    Same n n' ∧ n.status = .dispatched ∧ n'.status = .succeeded := by
  obtain ⟨hs, -, rfl⟩ := succeed_eq_ok.1 h
  exact ⟨⟨rfl, rfl, rfl, rfl, rfl, rfl, rfl, rfl, rfl⟩, hs, rfl⟩

theorem fail_moves (h : n.fail now code message = .ok n') :
    Same n n' ∧ n.status = .dispatched ∧ n'.status = .failed := by
  obtain ⟨hs, -, -, rfl⟩ := fail_eq_ok.1 h
  exact ⟨⟨rfl, rfl, rfl, rfl, rfl, rfl, rfl, rfl, rfl⟩, hs, rfl⟩

theorem cancel_moves (h : n.cancel now = .ok n') :
    Same n n' ∧ (n.status = .pending ∨ n.status = .dispatched) ∧ n'.status = .cancelled := by
  obtain ⟨hs, -, rfl⟩ := cancel_eq_ok.1 h
  exact ⟨⟨rfl, rfl, rfl, rfl, rfl, rfl, rfl, rfl, rfl⟩, hs, rfl⟩

theorem block_moves (h : n.block now code message = .ok n') :
    Same n n' ∧ n.status = .pending ∧ n'.status = .blocked := by
  obtain ⟨hs, -, -, rfl⟩ := block_eq_ok.1 h
  exact ⟨⟨rfl, rfl, rfl, rfl, rfl, rfl, rfl, rfl, rfl⟩, hs, rfl⟩

end WorkflowNodeExecution

namespace WorkflowNodeExecutions
open WorkflowNodeExecution
variable {t : WorkflowNodeExecutions} {n n' : WorkflowNodeExecution} {e : WorkflowExecutionId}

/-- A transition from an expected status is stored as it is. -/
theorem updateStatus_eq (hn : t.get? n.id = some n) (same : Same n n')
    (expected : n.status ∈ expectedStatuses n'.status) : t.updateStatus n' = .ok (t.put n') := by
  have hrow : { n with status := n'.status, childTaskId := n'.childTaskId, childRunId := n'.childRunId,
                       childExecutionId := n'.childExecutionId, resultPayload := n'.resultPayload,
                       failureCode := n'.failureCode, failureMessage := n'.failureMessage,
                       startedAt := n'.startedAt, completedAt := n'.completedAt } = n' := by
    obtain ⟨h₁, h₂, h₃, h₄, h₅, h₆, h₇, h₈, h₉⟩ := same
    cases n
    cases n'
    simp_all
  have hallowed : (expectedStatuses n'.status).contains n.status = true :=
    List.contains_iff_mem.2 expected
  rw [updateStatus, same.id, update_of_get? hn hallowed, hrow]

theorem mem_listByExecution : n ∈ t.listByExecution e ↔ t.get? n.id = some n ∧
    n.workflowExecutionId = e := by
  rw [listByExecution, List.mem_insertionSort, mem_select, key_workflowNodeExecution,
    decide_eq_true_iff]

/-- A row written again keeps its place in every list. -/
theorem listByExecution_put (hn : t.get? n.id = some n) (same : Same n n')
    (e : WorkflowExecutionId) : listByExecution (t.put n') e = (t.listByExecution e).map fun x =>
      if n.id = x.id then n' else x := by
  have hin := mem_of_get? hn
  have hsame : ∀ x ∈ t.rows, Same x (if n.id = x.id then n' else x) := fun x hx => by
    split
    · next hk => rw [← eq_of_key hin hx hk]; exact same
    · exact .refl x
  refine insertionSort_select_put hin same.id (fun x hx => ?_) fun x hx y hy => ?_
  · exact congrArg (fun k => decide (k = e)) (hsame x hx).workflowExecutionId
  · have hx' := hsame x hx
    have hy' := hsame y hy
    simp only [key_workflowNodeExecution, nodeOrder, hx'.nodeKey, hy'.nodeKey, hx'.id, hy'.id]

/-- The lists of the other executions do not change. -/
theorem listByExecution_put_ne (hn : t.get? n.id = some n) (same : Same n n')
    (hne : n.workflowExecutionId ≠ e) : listByExecution (t.put n') e = t.listByExecution e := by
  rw [listByExecution_put hn same]
  refine (List.map_congr_left fun x hx => ?_).trans (List.map_id _)
  refine if_neg fun hk => hne ?_
  obtain ⟨hx, he⟩ := mem_listByExecution.1 hx
  rw [← hk, hn] at hx
  rw [Option.some.inj hx]
  exact he

end WorkflowNodeExecutions
end Friday
