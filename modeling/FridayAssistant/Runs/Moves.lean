import Mathlib
import FridayAssistant.Runs.System
/-!
# What a committed use case does to the runs

`Move` says once what can happen to the tables of `Core`: a run is created, starts, parks,
resumes, ends. Every use case is a sequence of moves (`Effects`), and every invariant is proved
over the moves alone.

Some kinds of move are the ones the invariants can depend on, and carry a side condition that
the system under study chooses (`Guard`): a new attempt of an execution, the cancellation of the
latest attempt through an older one, the cancellation of a run through its task, a new delegation
request, and an approval of something else than a run.
-/
namespace Friday.Runs
open Tables Table Queue

/-- The attempt is the same one: only what a transition writes may differ. -/
structure SameAttempt (r r' : Run) : Prop where
  id : r'.id = r.id
  taskId : r'.taskId = r.taskId
  executionId : r'.executionId = r.executionId
  createdAt : r'.createdAt = r.createdAt

theorem SameAttempt.refl (r : Run) : SameAttempt r r := ⟨rfl, rfl, rfl, rfl⟩

theorem SameAttempt.trans {a b c : Run} (h : SameAttempt a b) (h' : SameAttempt b c) :
    SameAttempt a c :=
  ⟨h'.id.trans h.id, h'.taskId.trans h.taskId, h'.executionId.trans h.executionId,
    h'.createdAt.trans h.createdAt⟩

namespace Core

/-- The row of a run is written. -/
def withRun (c : Core) (r : Run) : Core := { c with runs := c.runs.put r }

def dropItem (c : Core) (runId : RunId) : Core := { c with workQueue := remove c.workQueue runId }

def addItem (c : Core) (runId : RunId) (availableAt enqueuedAt : Time) : Core :=
  { c with workQueue := enqueue c.workQueue runId availableAt enqueuedAt }

theorem get?_withRun (c : Core) (r : Run) (k : RunId) :
    (c.withRun r).runs.get? k = if r.id = k then some r else c.runs.get? k := get?_put _ _ _

theorem get?_dropItem (c : Core) (runId k : RunId) :
    (c.dropItem runId).workQueue.get? k = if runId = k then none else c.workQueue.get? k :=
  get?_erase _ _ _

/-- A settled request with what it was settled to. -/
def finalized (q : DelegationRequest) (outcome : DelegationStatus × RunEventType × Option String)
    (now : Time) : DelegationRequest :=
  { q with status := outcome.1, completedAt := some now, failureCode := outcome.2.2 }

/-- A parent that waits for the request goes on. -/
def wake (c : Core) (q : DelegationRequest) (now : Time) : Core :=
  match c.runs.get? q.parentRunId with
  | none => c
  | some p =>
    if p.status = .waitingForDelegation ∧ p.delegationRequestId = some q.id then
      (c.withRun { p with delegationRequestId := none, status := .running }).addItem p.id now now
    else c

/-- What `reconcile_child_terminal_in_uow` does when it raises nothing. -/
def settle (c : Core) (executionId : RunId) (now : Time) : Core :=
  match c.delegationRequests.getForChildExecution c.runs executionId with
  | none => c
  | some q =>
    if q.status ≠ .dispatched then c
    else match (c.runs.getLatestForExecution executionId).bind settlement with
      | none => c
      | some outcome =>
        ({ c with delegationRequests := c.delegationRequests.put (finalized q outcome now) }).wake q now

theorem wake_cases (c : Core) (q : DelegationRequest) (now : Time) :
    (c.wake q now = c ∧ ∀ p, c.runs.get? q.parentRunId = some p →
      ¬(p.status = .waitingForDelegation ∧ p.delegationRequestId = some q.id)) ∨
    ∃ p, c.runs.get? p.id = some p ∧ q.parentRunId = p.id ∧ p.status = .waitingForDelegation ∧
      p.delegationRequestId = some q.id ∧
      c.wake q now = (c.withRun { p with delegationRequestId := none, status := .running }).addItem p.id now now := by
  unfold wake
  split
  · next hnone => exact .inl ⟨rfl, fun p hp => by rw [hnone] at hp; cases hp⟩
  · next p hp =>
    have hid : p.id = q.parentRunId := key_of_get? hp
    split
    · next hw => exact .inr ⟨p, by rw [hid]; exact hp, hid.symm, hw.1, hw.2, rfl⟩
    · next hw => exact .inl ⟨rfl, fun x hx => by rw [hp] at hx; cases hx; exact hw⟩

theorem settle_cases (c : Core) (executionId : RunId) (now : Time) :
    (c.settle executionId now = c ∧ ∀ q, c.delegationRequests.getForChildExecution c.runs executionId = some q →
      q.status = .dispatched → (c.runs.getLatestForExecution executionId).bind settlement = none) ∨
    ∃ q outcome, c.delegationRequests.getForChildExecution c.runs executionId = some q ∧ q.status = .dispatched ∧
      (c.runs.getLatestForExecution executionId).bind settlement = some outcome ∧ c.settle executionId now =
        ({ c with delegationRequests := c.delegationRequests.put (finalized q outcome now) }).wake q now := by
  unfold settle
  split
  · next hnone => exact .inl ⟨rfl, fun q hq => by rw [hnone] at hq; cases hq⟩
  · next q hq =>
    split
    · next hs => exact .inl ⟨rfl, fun x hx hd => by rw [hq] at hx; cases hx; exact absurd hd hs⟩
    · next hs =>
      split
      · next hnone => exact .inl ⟨rfl, fun _ _ _ => hnone⟩
      · next outcome ho => exact .inr ⟨q, outcome, hq, not_not.1 hs, ho, rfl⟩

/-- A settlement writes the requests, and the parent that waits goes on. -/
theorem settle_shape (c : Core) (executionId : RunId) (now : Time) : ∃ requests,
    c.settle executionId now = { c with delegationRequests := requests } ∨
    ∃ p, c.runs.get? p.id = some p ∧ p.status = .waitingForDelegation ∧ c.settle executionId now =
      ({ c with delegationRequests := requests }.withRun
        { p with delegationRequestId := none, status := .running }).addItem p.id now now := by
  rcases c.settle_cases executionId now with ⟨h, -⟩ | ⟨q, outcome, -, -, -, h⟩
  · exact ⟨c.delegationRequests, .inl h⟩
  · rcases wake_cases { c with delegationRequests := c.delegationRequests.put (finalized q outcome now) } q now with
      ⟨hw, -⟩ | ⟨p, hp, -, hstatus, -, hw⟩
    · exact ⟨_, .inl (h.trans hw)⟩
    · exact ⟨_, .inr ⟨p, hp, hstatus, h.trans hw⟩⟩

theorem settle_runs (c : Core) (executionId : RunId) (now : Time) :
    (c.settle executionId now).runs = c.runs ∨ ∃ p, c.runs.get? p.id = some p ∧
      p.status = .waitingForDelegation ∧ (c.settle executionId now).runs = c.runs.put
      { p with delegationRequestId := none, status := .running } := by
  obtain ⟨_, h | ⟨p, hp, hwaiting, h⟩⟩ := c.settle_shape executionId now
  · exact .inl (by rw [h])
  · exact .inr ⟨p, hp, hwaiting, by rw [h]; rfl⟩

/-- Only a parent that waits is touched. -/
theorem get?_settle {c : Core} {executionId k : RunId} {now : Time} {r : Run}
    (hr : c.runs.get? k = some r) (hs : r.status ≠ .waitingForDelegation) :
    (c.settle executionId now).runs.get? k = some r := by
  rcases c.settle_runs executionId now with h | ⟨p, hp, hwaiting, h⟩
  · rw [h]; exact hr
  · rw [h]
    refine (get?_put_ne ?_).trans hr
    rintro rfl
    cases hr.symm.trans hp
    exact hs hwaiting

theorem settle_approvals (c : Core) (executionId : RunId) (now : Time) :
    (c.settle executionId now).approvals = c.approvals := by
  obtain ⟨_, h | ⟨_, -, -, h⟩⟩ := c.settle_shape executionId now
  · rw [h]
  · rw [h]; rfl

theorem settle_executions (c : Core) (executionId : RunId) (now : Time) :
    (c.settle executionId now).workflowExecutions = c.workflowExecutions := by
  obtain ⟨_, h | ⟨_, -, -, h⟩⟩ := c.settle_shape executionId now
  · rw [h]
  · rw [h]; rfl

/-- A live run of the task owns a RUNNING workflow. -/
def OwnsRunningWorkflow (c : Core) (runId : RunId) : Prop :=
  ∃ x, c.workflowExecutions.get? x.id = some x ∧ x.rootRunId = runId ∧ x.status = .running

end Core

/-- The side conditions a system puts on those kinds of move. -/
structure Guard where
  attempt : Core → RunId → Time → Prop
  latest : Core → Run → Prop
  viaTask : Core → Run → Prop
  viaTask_stable : ∀ {c x x' r}, c.runs.get? x.id = some x → SameAttempt x x' → x.id ≠ r.id →
    viaTask c r → viaTask (c.withRun x') r
  request : Prop
  subject : Core → ApprovalRequest → Prop := fun _ _ => True

/-- No side condition. -/
def Guard.free : Guard where
  attempt _ _ _ := True
  latest _ _ := True
  viaTask _ _ := True
  viaTask_stable _ _ _ _ := trivial
  request := True

/-- A run may end: it runs, or waits for its workflow while a work item still stands for it. -/
def MayEnd (c : Core) (r : Run) : Prop :=
  r.status = .running ∨ r.status = .waitingForWorkflow ∧ (c.workQueue.get? r.id).isSome

theorem MayEnd.live {c : Core} {r : Run} (h : MayEnd c r) : r.status.isTerminal = false := by
  rcases h with hs | ⟨hs, -⟩ <;> rw [hs] <;> rfl

theorem isTerminal_of_ended {s : RunStatus} (h : s = .succeeded ∨ s = .failed) :
    s.isTerminal = true := by
  rcases h with rfl | rfl <;> rfl

/-- The pending approvals of a run are cancelled, every other approval is as it was. -/
def ApprovalsCancelled (t t' : Approvals) (runId : RunId) : Prop :=
  ∀ k, (t'.get? k = t.get? k ∧ ∀ a, t.get? k = some a → ¬(a.runId = some runId ∧ a.status = .pending)) ∨
    ∃ a a', t.get? k = some a ∧ a.runId = some runId ∧ a.status = .pending ∧
      t'.get? k = some a' ∧ a'.runId = a.runId ∧ a'.status = .cancelled

/-- One change of `Core`. -/
inductive Move (g : Guard) : Core → Core → Prop where
  /-- A first attempt, queued with its item. -/
  | create {c : Core} {r : Run} {at₁ at₂ : Time} (fresh : c.runs.get? r.id = none) (queued : r.status = .queued)
      (root : r.executionId = r.id) : Move g c ((c.withRun r).addItem r.id at₁ at₂)
  /-- `RetryFailedRun`. -/
  | retry {c : Core} {source r : Run} {at₁ at₂ : Time} (hsource : c.runs.get? source.id = some source)
      (ended : ∀ x, c.runs.get? x.id = some x → x.taskId = source.taskId → x.status.isTerminal = true)
      (notDelegated : c.delegationRequests.getForChildExecution c.runs source.executionId = none)
      (fresh : c.runs.get? r.id = none) (queued : r.status = .queued)
      (task : r.taskId = source.taskId) (execution : r.executionId = source.executionId)
      (clock : g.attempt c source.executionId r.createdAt) :
      Move g c ((c.withRun r).addItem r.id at₁ at₂)
  | start {c : Core} {r r' : Run} (hr : c.runs.get? r.id = some r) (queued : r.status = .queued)
      (same : SameAttempt r r') (running : r'.status = .running) : Move g c (c.withRun r')
  /-- Claims change, and items of runs that have nothing to run go. -/
  | queue {c : Core} {items : WorkItems}
      (kept : ∀ k, (items.get? k).isSome = (c.workQueue.get? k).isSome ∨
        items.get? k = none ∧ isStale (c.runs.get? k) = true) :
      Move g c { c with workQueue := items }
  | park {c : Core} {r r' : Run} {a : ApprovalRequest} (hr : c.runs.get? r.id = some r) (running : r.status = .running)
      (fresh : c.approvals.get? a.id = none) (pending : a.status = .pending) (owner : a.runId = some r.id)
      (only : ∀ b, c.approvals.get? b.id = some b → b.runId = some r.id → b.status ≠ .pending)
      (same : SameAttempt r r') (waiting : r'.status = .waitingForApproval) (marker : r'.approvalRequestId = some a.id) :
      Move g c (({ c with approvals := c.approvals.put a }.withRun r').dropItem r.id)
  /-- A resolution nobody waits for. -/
  | resolve {c : Core} {a a' : ApprovalRequest} (ha : c.approvals.get? a.id = some a) (pending : a.status = .pending)
      (id : a'.id = a.id) (owner : a'.runId = a.runId) (resolved : a'.status ≠ .pending)
      (idle : ∀ r, a.runId = some r.id → c.runs.get? r.id = some r →
        ¬(r.status = .waitingForApproval ∧ r.approvalRequestId = some a.id)) :
      Move g c { c with approvals := c.approvals.put a' }
  /-- A resolution that resumes the run. -/
  | resume {c : Core} {a a' : ApprovalRequest} {r r' : Run} {at₁ at₂ : Time} (ha : c.approvals.get? a.id = some a)
      (pending : a.status = .pending) (id : a'.id = a.id) (owner : a'.runId = a.runId) (resolved : a'.status ≠ .pending)
      (hr : c.runs.get? r.id = some r) (ofRun : a.runId = some r.id)
      (waiting : r.status = .waitingForApproval) (marker : r.approvalRequestId = some a.id)
      (same : SameAttempt r r') (running : r'.status = .running) :
      Move g c (({ c with approvals := c.approvals.put a' }.withRun r').addItem r.id at₁ at₂)
  /-- An approval is consumed, or belongs to no run. -/
  | approval {c : Core} {a : ApprovalRequest}
      (harmless : (a.runId = none ∧ (∀ b, c.approvals.get? a.id = some b → b.runId = none) ∧ g.subject c a) ∨
        ∃ b, c.approvals.get? a.id = some b ∧ b.runId = a.runId ∧ b.status = a.status) :
      Move g c { c with approvals := c.approvals.put a }
  | request {c : Core} {q : DelegationRequest} (fresh : c.delegationRequests.get? q.id = none)
      (requested : q.status = .requested) (noTask : q.childTaskId = none)
      (noRun : q.childRunId = none) (allowed : g.request) :
      Move g c { c with delegationRequests := c.delegationRequests.put q }
  | bind {c : Core} {b : TaskAgentBinding} :
      Move g c { c with taskAgentBindings := c.taskAgentBindings.replace b.taskId (some b) }
  | unbind {c : Core} {t : TaskId}
      (free : (c.delegationRequests.getForChildTask t).all (·.status = .requested) = true) :
      Move g c { c with taskAgentBindings := c.taskAgentBindings.replace t none }
  /-- The child is created, the request recorded and the parent parked. -/
  | dispatch {c : Core} {p p' child : Run} {q : DelegationRequest} {at₁ at₂ : Time} (hp : c.runs.get? p.id = some p)
      (running : p.status = .running) (fresh : c.runs.get? child.id = none) (queued : child.status = .queued)
      (root : child.executionId = child.id) (freshRequest : c.delegationRequests.get? q.id = none)
      (dispatched : q.status = .dispatched) (parent : q.parentRunId = p.id) (childRun : q.childRunId = some child.id)
      (childTask : q.childTaskId = some child.taskId) (bound : (c.taskAgentBindings.get? child.taskId).isSome = true)
      (same : SameAttempt p p') (waiting : p'.status = .waitingForDelegation)
      (marker : p'.delegationRequestId = some q.id) (allowed : g.request) :
      Move g c (((({ c with delegationRequests := c.delegationRequests.put q }.withRun
        child).addItem child.id at₁ at₂).withRun p').dropItem p.id)
  /-- A run ends for good. -/
  | finish {c : Core} {r r' : Run} {now : Time} (hr : c.runs.get? r.id = some r) (may : MayEnd c r)
      (same : SameAttempt r r') (ended : r'.status = .succeeded ∨ r'.status = .failed) :
      Move g c (((c.withRun r').dropItem r.id).settle r.executionId now)
  /-- A run fails and its next attempt is queued. -/
  | finishRetry {c : Core} {r r' n : Run} {at₁ at₂ : Time} (hr : c.runs.get? r.id = some r) (may : MayEnd c r)
      (same : SameAttempt r r') (ended : r'.status = .failed) (fresh : c.runs.get? n.id = none)
      (queued : n.status = .queued) (task : n.taskId = r.taskId)
      (execution : n.executionId = r.executionId) (clock : g.attempt c r.executionId n.createdAt) :
      Move g c ((((c.withRun r').dropItem r.id).withRun n).addItem n.id at₁ at₂)
  /-- `CancelRun`, directly or through an older attempt. -/
  | cancel {c : Core} {r r' : Run} {approvals : Approvals} {now : Time} (hr : c.runs.get? r.id = some r)
      (live : r.status.isTerminal = false)
      (allowed : ¬(r.status = .waitingForWorkflow ∧ c.OwnsRunningWorkflow r.id) ∨ g.latest c r)
      (same : SameAttempt r r') (cancelled : r'.status = .cancelled)
      (resolved : ApprovalsCancelled c.approvals approvals r.id) :
      Move g c ((({ c with approvals := approvals }.withRun r').dropItem r.id).settle r.executionId now)
  /-- `CancelTask`, for one of the task's live runs. -/
  | viaTask {c : Core} {r r' : Run} (hr : c.runs.get? r.id = some r) (live : r.status.isTerminal = false)
      (noWorkflow : ¬c.OwnsRunningWorkflow r.id) (allowed : g.viaTask c r) (same : SameAttempt r r')
      (cancelled : r'.status = .cancelled) : Move g c (c.withRun r')
  | startWorkflow {c : Core} {r r' : Run} {x : WorkflowExecution} (hr : c.runs.get? r.id = some r)
      (running : r.status = .running) (fresh : c.workflowExecutions.get? x.id = none) (owner : x.rootRunId = r.id)
      (xrunning : x.status = .running) (unbound : c.taskAgentBindings.get? r.taskId = none) (same : SameAttempt r r')
      (waiting : r'.status = .waitingForWorkflow) (marker : r'.workflowExecutionId = some x.id) :
      Move g c (({ c with workflowExecutions := c.workflowExecutions.put x }.withRun r').dropItem r.id)
  /-- An execution ends whose root does not wait for it. -/
  | endWorkflow {c : Core} {x x' : WorkflowExecution} (hx : c.workflowExecutions.get? x.id = some x)
      (id : x'.id = x.id) (owner : x'.rootRunId = x.rootRunId) (ended : x'.status ≠ .running)
      (idle : ∀ r, c.runs.get? x.rootRunId = some r → r.status ≠ .waitingForWorkflow) :
      Move g c { c with workflowExecutions := c.workflowExecutions.put x' }
  /-- An execution ends together with its root. -/
  | finishWorkflow {c : Core} {x x' : WorkflowExecution} {r r' : Run} (hx : c.workflowExecutions.get? x.id = some x)
      (id : x'.id = x.id) (owner : x'.rootRunId = x.rootRunId) (ended : x'.status ≠ .running)
      (hr : c.runs.get? r.id = some r) (root : x.rootRunId = r.id) (waiting : r.status = .waitingForWorkflow)
      (marker : r.workflowExecutionId = some x.id) (same : SameAttempt r r') (terminal : r'.status.isTerminal = true) :
      Move g c (({ c with workflowExecutions := c.workflowExecutions.put x' }.withRun r').dropItem r.id)

/-- Any number of moves. -/
abbrev Moves (g : Guard) : Core → Core → Prop := Relation.ReflTransGen (Move g)

/-! ## Attempts -/

/-- An attempt that is saved again leaves every attempt in place. -/
theorem SameAttempt.kept {t : RunTable} {x x' r : Run} {k : RunId} (same : SameAttempt x x') (hx : t.get? x.id = some x)
    (hr : t.get? k = some r) : ∃ r', (t.put x').get? k = some r' ∧ SameAttempt r r' := by
  rw [get?_put, key_run, same.id]
  split
  · next hk =>
    rw [← hk, hx] at hr
    cases hr
    exact ⟨x', rfl, same⟩
  · exact ⟨r, hr, .refl r⟩

/-- Every attempt is still there. -/
def KeepsAttempts (c c' : Core) : Prop := ∀ k r, c.runs.get? k = some r →
    ∃ r', c'.runs.get? k = some r' ∧ SameAttempt r r'

namespace KeepsAttempts
variable {c c' c'' : Core} {g : Guard}

theorem refl (c : Core) : KeepsAttempts c c := fun _ r hr => ⟨r, hr, .refl r⟩

theorem trans (h : KeepsAttempts c c') (h' : KeepsAttempts c' c'') : KeepsAttempts c c'' :=
  fun k r hr => by
  obtain ⟨r', hr', hsame⟩ := h k r hr
  obtain ⟨r'', hr'', hsame'⟩ := h' k r' hr'
  exact ⟨r'', hr'', hsame.trans hsame'⟩

theorem save {x x' : Run} (hx : c.runs.get? x.id = some x) (same : SameAttempt x x') :
    KeepsAttempts c (c.withRun x') :=
  fun _ _ hr => same.kept hx hr

theorem create {x : Run} (fresh : c.runs.get? x.id = none) : KeepsAttempts c (c.withRun x) := by
  intro k r hr
  exact ⟨r, get?_put_fresh fresh hr, .refl r⟩

theorem settle (c : Core) (executionId : RunId) (now : Time) :
    KeepsAttempts c (c.settle executionId now) := by
  obtain ⟨_, h | ⟨p, hp, -, h⟩⟩ := c.settle_shape executionId now
  · rw [h]
    exact .refl c
  · rw [h]
    exact save (c := c) hp ⟨rfl, rfl, rfl, rfl⟩

end KeepsAttempts

end Friday.Runs
