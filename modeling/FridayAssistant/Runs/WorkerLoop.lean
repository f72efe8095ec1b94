import FridayAssistant.Runs.Outcomes
/-!
# The worker loop (apps/worker/worker_loop.py)

`run_once` claims a run, finds out whether a workflow is frozen for it, lets the processor work and
applies what it returned. Each of these is a transaction of its own, and between any two of them
everybody else may commit: operators, other workers, the processor itself and the heartbeat
(`env`). `serve_forever` calls `run_once` again and again and catches nothing, so an exception that
leaves `run_once` ends the worker: `escaped`.

The appliers raise more than the `ClaimLost` that `run_once` catches. `CancelTask` ends a claimed
run and leaves its work item, so the outcome of the processor passes the fence and meets an ended
run; `CancelRun` of a parked run meets the waiting outcome the same way. What holds is exact
(`run_once_returns`): an outcome escapes in exactly the states in which `outcomeApplies` fails.
-/
namespace Friday.Runs
open Tables Table Transition PyJson Queue

/-! ## What the processor returns (run_processor.py) -/

/-- `ProcessingOutcome`; `__post_init__` ties each payload to its kind. -/
inductive ProcessingOutcome where
  | succeeded (finalResponse : Option (String × JsonValue))
  | failed (failure : Failure)
  | waitingForApproval (approvalRequestId : ApprovalRequestId)
  | waitingForDelegation (delegationRequestId : DelegationRequestId)
  | yielded (availableAt : Time)

/-- The failures `run_once` makes itself. -/
def routingConflict : Failure :=
  ⟨"workflow_routing_conflict", "Run Workflow routing state is inconsistent.", false, .runtime,
    .null, by decide, by decide⟩

def bootstrapNotConfigured : Failure :=
  ⟨"workflow_bootstrap_not_configured", "Workflow execution is not configured for this worker.",
    false, .runtime, .null, by decide, by decide⟩

def bootstrapFailed : Failure :=
  ⟨"workflow_bootstrap_failed", "Workflow execution could not be bootstrapped safely.", false,
    .runtime, .null, by decide, by decide⟩

def processorException : Failure :=
  ⟨"processor_exception", "Run processor failed unexpectedly.", true, .runtime,
    .null, by decide, by decide⟩

/-! ## The loop -/

/-- The optional collaborators of `WorkerLoop`. -/
structure WorkerWiring where
  uowFactory : Bool
  workflowStarter : Bool
  workflowReconciler : Bool
  applyWaitingForDelegation : Bool

/-- What can leave `run_once`. -/
inductive Escape where
  | raised (error : AppError)
  | runtimeError (message : String)
  deriving DecidableEq

/-- Where `run_once` stands; `idle` is between two calls. -/
inductive Phase where
  | idle
  | routing (claim : RunClaimResult)
  | starting (claim : RunClaimResult) (workflowId : WorkflowId)
  | processing (claim : RunClaimResult)
  | applying (claim : RunClaimResult) (outcome : ProcessingOutcome) (thenReconcile : Bool)
  | reconciling (runId : RunId)
  | escaped (escape : Escape)

def Phase.escape : Phase → Option Escape
  | .escaped e => some e
  | _ => none

def Phase.isEscaped (p : Phase) : Bool := p.escape.isSome

/-- How many transactions `run_once` has left at most. -/
def Phase.remaining : Phase → Nat
  | .idle | .escaped _ => 0
  | .reconciling _ => 1
  | .applying .. => 2
  | .starting .. | .processing _ => 3
  | .routing _ => 4

structure WorkerState where
  db : Db
  phase : Phase

inductive WorkerAction where
  /-- Anybody else commits. -/
  | env (action : RunAction)
  | claim (request : ClaimRequest) (now : Time)
  | route
  | start (ids : WorkflowIds) (now : Time)
  | processed (outcome : ProcessingOutcome)
  | processorRaised
  /-- The heartbeat raised, or lost the lease. -/
  | abandon
  | shutdown (availableAt now : Time)
  | apply (ids : RetryIds) (now : Time)
  | reconcile (ids : WorkflowIds) (now : Time)

/-- A step of `run_once` itself, once it has its claim. -/
def WorkerAction.isOwn : WorkerAction → Bool
  | .env _ | .claim .. => false
  | _ => true

/-- `_frozen_workflow_id_for_run`. -/
def frozenWorkflowIdForRun (db : Db) (runId : RunId) (taskId : TaskId) :
    Result (Option WorkflowId) :=
  let binding := db.taskWorkflowBindings.get? taskId
  match db.runWorkflowResolutions.get? runId with
  | none => .ok (binding.map (·.workflowId))
  | some resolution =>
    if binding.any (·.workflowId ≠ resolution.workflowId) then
      .error (.workflowIntegrity "Run Workflow resolution disagrees with the current Task Workflow binding")
    else .ok (some resolution.workflowId)

/-- What follows the claim; without `uow_factory` nothing is routed. -/
def routed (w : WorkerWiring) (db : Db) (claim : RunClaimResult) : Phase :=
  if !w.uowFactory then .processing claim
  else match frozenWorkflowIdForRun db claim.runId claim.taskId with
    | .error _ => .applying claim (.failed routingConflict) false
    | .ok none => .processing claim
    | .ok (some workflowId) =>
      if w.workflowStarter then .starting claim workflowId
      else .applying claim (.failed bootstrapNotConfigured) false

/-- The applier of each outcome. -/
def applyOutcome (cfg : Config) (db : Db) (c : RunClaimResult) (outcome : ProcessingOutcome)
    (ids : RetryIds) (now : Time) : Result Db :=
  match outcome with
  | .succeeded finalResponse =>
    (applySucceededOutcome db c.runId c.claim finalResponse now).map (·.2)
  | .failed failure => (applyFailedOutcome cfg db c.runId c.claim failure ids now).map (·.2)
  | .waitingForApproval id => (applyWaitingOutcome db c.runId c.claim id now).map (·.2)
  | .waitingForDelegation id =>
    (applyWaitingForDelegationOutcome db c.runId c.claim id now).map (·.2)
  | .yielded availableAt => requeueClaimedRun db c.runId c.claim availableAt now

/-- The one applier a worker may lack. -/
def ProcessingOutcome.unconfigured (w : WorkerWiring) : ProcessingOutcome → Bool
  | .waitingForDelegation _ => !w.applyWaitingForDelegation
  | _ => false

/-- `try: … except ClaimLost: log`, and then `next` when nothing was raised. -/
def exceptClaimLost (db : Db) (next : Phase) : Result Db → WorkerState
  | .ok db' => ⟨db', next⟩
  | .error e => if e.isClaimLost then ⟨db, .idle⟩ else ⟨db, .escaped (.raised e)⟩

/-- `_reconcile_workflow_child` swallows whatever is raised. -/
def reconcileWorkflowChild (cfg : Config) (w : WorkerWiring) (db : Db) (runId : RunId)
    (ids : WorkflowIds) (now : Time) : Db :=
  if !w.uowFactory || !w.workflowReconciler then db
  else match (db.runs.get? runId).bind fun run => db.workflowNodeExecutions.getByChildExecutionId run.executionId with
    | none => db
    | some node =>
      match reconcileWorkflowExecution cfg db node.workflowExecutionId ids now with
      | .ok (_, db') => db'
      | .error _ => db

/-- A succeeded or failed outcome is followed by the reconciliation of its workflow. -/
def ProcessingOutcome.endsRun : ProcessingOutcome → Bool
  | .succeeded _ | .failed _ => true
  | _ => false

def workerStep (cfg : Config) (w : WorkerWiring) (s : WorkerState) : WorkerAction →
    Option WorkerState
  | .env a => (commit cfg s.db a).map fun db => { s with db := db }
  | .claim request now =>
    match s.phase with
    | .idle => some (match claimNextRun s.db request now with
      | .ok (none, db) => ⟨db, .idle⟩
      | .ok (some claim, db) => ⟨db, .routing claim⟩
      | .error e => ⟨s.db, .escaped (.raised e)⟩)
    | _ => none
  | .route =>
    match s.phase with
    | .routing claim => some ⟨s.db, routed w s.db claim⟩
    | _ => none
  | .start ids now =>
    match s.phase with
    | .starting c workflowId => some (match startWorkflowExecution cfg s.db c.runId workflowId c.claim ids now with
      | .ok (_, db) => ⟨db, .idle⟩
      | .error e => if e.isClaimLost then ⟨s.db, .idle⟩ else ⟨s.db, .applying c (.failed bootstrapFailed) false⟩)
    | _ => none
  | .processed outcome =>
    match s.phase with
    | .processing claim => some ⟨s.db, .applying claim outcome outcome.endsRun⟩
    | _ => none
  | .processorRaised =>
    match s.phase with
    | .processing claim => some ⟨s.db, .applying claim (.failed processorException) true⟩
    | _ => none
  | .abandon =>
    match s.phase with
    | .processing _ => some ⟨s.db, .idle⟩
    | _ => none
  | .shutdown availableAt now =>
    match s.phase with
    | .processing c => some (exceptClaimLost s.db .idle (requeueClaimedRun s.db c.runId c.claim availableAt now))
    | _ => none
  | .apply ids now =>
    match s.phase with
    | .applying c outcome thenReconcile => some (
      if outcome.unconfigured w then
        ⟨s.db, .escaped (.runtimeError "delegation waiting outcome applier is not configured")⟩
      else exceptClaimLost s.db (if thenReconcile then .reconciling c.runId else .idle)
        (applyOutcome cfg s.db c outcome ids now))
    | _ => none
  | .reconcile ids now =>
    match s.phase with
    | .reconciling runId => some ⟨reconcileWorkflowChild cfg w s.db runId ids now, .idle⟩
    | _ => none

/-- The worker and everybody else, from a database without runs. -/
def workerSystem (cfg : Config) (w : WorkerWiring) : System WorkerState WorkerAction :=
  .ofStep (fun s => s.db.toCore = .empty ∧ s.phase = .idle) (workerStep cfg w) fun _ _ => True

/-! ## Which outcomes escape -/

/-- The applier of the outcome returns or raises `ClaimLost`. -/
def outcomeApplies (cfg : Config) (db : Db) (c : RunClaimResult) (outcome : ProcessingOutcome)
    (ids : RetryIds) (now : Time) : Bool :=
  match outcome with
  | .succeeded _ => succeedApplies db c.runId c.claim now
  | .failed failure => failApplies cfg db c.runId c.claim failure ids now
  | .waitingForApproval id => approvalWaitApplies db c.runId c.claim id
  | .waitingForDelegation id => delegationWaitApplies db c.runId c.claim id
  | .yielded _ => true

/-- The condition on a step: an outcome is only applied where it can be. -/
def stepApplies (cfg : Config) (w : WorkerWiring) (s : WorkerState) (a : WorkerAction) : Bool :=
  match s.phase, a with
  | .applying c outcome _, .apply ids now =>
    !outcome.unconfigured w && outcomeApplies cfg s.db c outcome ids now
  | _, _ => true

section
variable {cfg : Config} {w : WorkerWiring} {s s' : WorkerState} {a : WorkerAction}

theorem applyOutcome_caught (db : Db) (c : RunClaimResult) (outcome : ProcessingOutcome) (ids : RetryIds) (now : Time) :
    OnlyRaises AppError.caught (applyOutcome cfg db c outcome ids now) ↔
      outcomeApplies cfg db c outcome ids now = true := by
  cases outcome with
  | succeeded resp => exact onlyRaises_map.trans (applySucceededOutcome_caught c.runId resp)
  | failed failure => exact onlyRaises_map.trans (applyFailedOutcome_caught c.runId)
  | waitingForApproval id => exact onlyRaises_map.trans (applyWaitingOutcome_caught c.runId id)
  | waitingForDelegation id =>
    exact onlyRaises_map.trans (applyWaitingForDelegationOutcome_caught c.runId id)
  | yielded availableAt => exact iff_of_true fenced_caught rfl

/-- Exactly what `except ClaimLost` does not catch escapes. -/
theorem exceptClaimLost_escapes {db : Db} {next : Phase} {x : Result Db} (hnext : next.isEscaped = false) :
    (exceptClaimLost db next x).phase.isEscaped = false ↔ OnlyRaises AppError.caught x := by
  cases x with
  | ok db' => simp [exceptClaimLost, hnext]
  | error e =>
    rw [onlyRaises_error, AppError.caught, exceptClaimLost]
    cases e.isClaimLost <;> simp [Phase.isEscaped, Phase.escape]

theorem beginClaimed_ok (db : Db) (run : Run) (now : Time) :
    ∃ db', beginClaimed db run now = .ok db' ∧ db'.workQueue = db.workQueue := by
  unfold beginClaimed
  split
  · next hqueued =>
    rw [Run.start_eq_ok.2 ⟨hqueued, rfl⟩]
    exact ⟨_, rfl, rfl⟩
  · exact ⟨db, rfl, rfl⟩

theorem claimed_ok {db : Db} {run : Run} (q : ClaimRequest) (now : Time)
    (h : (db.workQueue.get? run.id).isSome = true) : ∃ x, claimed db q run now = .ok x := by
  obtain ⟨db₁, hbegun, hqueue⟩ := beginClaimed_ok db run now
  obtain ⟨item, hitem⟩ := Option.isSome_iff_exists.1 h
  rw [claimed, exists_bind_ok]
  refine ⟨db₁, hbegun, ?_⟩
  rw [hqueue, hitem]
  exact ⟨_, rfl⟩

/-- `ClaimNextRun` raises nothing: the item it claimed is there. -/
theorem claimFirst_ok (q : ClaimRequest) (now : Time) : ∀ (db : Db) (candidates : List RunWorkItem),
    ∃ x, claimFirst q now db candidates = .ok x
  | _, [] => ⟨_, rfl⟩
  | db, candidate :: rest => by
    unfold claimFirst
    split
    · exact claimFirst_ok q now db rest
    · next items hclaim =>
      split
      · exact claimFirst_ok q now _ rest
      · next run hrun =>
        split
        · exact claimFirst_ok q now _ rest
        · obtain ⟨item, hitem, -, rfl⟩ := update_eq_true hclaim
          have hid : run.id = candidate.runId := key_of_get? hrun
          have hkey : item.runId = candidate.runId := key_of_get? hitem
          rw [exists_bind_ok]
          refine (claimed_ok q now ?_).imp fun x hx => ⟨hx, _, rfl⟩
          rw [hid, ← hkey]
          exact Option.isSome_iff_exists.2 ⟨_, get?_put_self db.workQueue _⟩

theorem stepApplies_of_ne (s : WorkerState) (h : ∀ ids now, a ≠ .apply ids now) :
    stepApplies cfg w s a = true := by
  unfold stepApplies
  split
  · next ids now _ => exact absurd rfl (h ids now)
  · rfl

/-- Only an outcome can escape, and it does when it does not apply. -/
theorem step_escapes (h : workerStep cfg w s a = some s') (hs : s.phase.isEscaped = false) :
    s'.phase.isEscaped = false ↔ stepApplies cfg w s a = true := by
  cases a with
  | env action =>
    obtain ⟨db, -, rfl⟩ := Option.map_eq_some_iff.1 h
    exact iff_of_true hs (stepApplies_of_ne s nofun)
  | claim request now =>
    refine iff_of_true ?_ (stepApplies_of_ne s nofun)
    dsimp only [workerStep] at h
    split at h
    · obtain ⟨⟨result, db⟩, hclaim⟩ := claimFirst_ok request now s.db (findDueCandidates s.db.workQueue now request.candidateLimit)
      rw [show claimNextRun s.db request now = .ok (result, db) from hclaim] at h
      cases result <;> cases h <;> rfl
    · cases h
  | route =>
    refine iff_of_true ?_ (stepApplies_of_ne s nofun)
    dsimp only [workerStep] at h
    split at h
    · cases h
      unfold routed
      repeat' split
      all_goals rfl
    · cases h
  | start ids now =>
    refine iff_of_true ?_ (stepApplies_of_ne s nofun)
    dsimp only [workerStep] at h
    split at h
    · cases h
      split
      · rfl
      · split <;> rfl
    · cases h
  | processed outcome | processorRaised | abandon | reconcile ids now =>
    refine iff_of_true ?_ (stepApplies_of_ne s nofun)
    dsimp only [workerStep] at h
    split at h <;> cases h
    rfl
  | shutdown availableAt now =>
    refine iff_of_true ?_ (stepApplies_of_ne s nofun)
    dsimp only [workerStep] at h
    split at h <;> cases h
    exact (exceptClaimLost_escapes rfl).2 fenced_caught
  | apply ids now =>
    dsimp only [workerStep] at h
    split at h
    · next c outcome thenReconcile hphase =>
      cases h
      have happlies : stepApplies cfg w s (.apply ids now) =
          (!outcome.unconfigured w && outcomeApplies cfg s.db c outcome ids now) := by
        simp only [stepApplies, hphase]
      rw [happlies]
      cases outcome.unconfigured w with
      | true => simp [Phase.isEscaped, Phase.escape]
      | false =>
        rw [if_neg nofun, Bool.not_false, Bool.true_and, ← applyOutcome_caught]
        exact exceptClaimLost_escapes (by cases thenReconcile <;> rfl)
    · cases h

/-- A phase that `exceptClaimLost` leaves behind has no more left to do than its `next`. -/
theorem exceptClaimLost_remaining (db : Db) (next : Phase) (x : Result Db) :
    (exceptClaimLost db next x).phase.remaining ≤ next.remaining := by
  cases x with
  | ok db' => exact Nat.le_refl _
  | error e =>
    rw [exceptClaimLost]
    split <;> exact Nat.zero_le _

/-- Every transaction of `run_once` brings it closer to its return. -/
theorem own_step_remaining (h : workerStep cfg w s a = some s') (hown : a.isOwn = true) :
    s'.phase.remaining < s.phase.remaining := by
  cases a with
  | env action => cases hown
  | claim request now => cases hown
  | route =>
    dsimp only [workerStep] at h
    split at h
    · next claim hphase =>
      cases h
      rw [hphase, routed]
      repeat' split
      all_goals simp [Phase.remaining]
    · cases h
  | start ids now =>
    dsimp only [workerStep] at h
    split at h
    · next c workflowId hphase =>
      cases h
      rw [hphase]
      split
      · exact Nat.succ_pos _
      · split <;> simp [Phase.remaining]
    · cases h
  | processed outcome | processorRaised =>
    dsimp only [workerStep] at h
    split at h <;> cases h
    next hphase => rw [hphase]; simp [Phase.remaining]
  | abandon | reconcile ids now =>
    dsimp only [workerStep] at h
    split at h <;> cases h
    next hphase => rw [hphase]; exact Nat.succ_pos _
  | shutdown availableAt now =>
    dsimp only [workerStep] at h
    split at h <;> cases h
    next hphase =>
      rw [hphase]
      exact Nat.lt_of_le_of_lt (exceptClaimLost_remaining _ _ _) (Nat.succ_pos _)
  | apply ids now =>
    dsimp only [workerStep] at h
    split at h <;> cases h
    next thenReconcile hphase =>
      rw [hphase]
      split
      · exact Nat.succ_pos _
      · refine Nat.lt_of_le_of_lt (exceptClaimLost_remaining _ _ _) ?_
        cases thenReconcile <;> simp [Phase.remaining]

/-- Until it returns, `run_once` has a next transaction. -/
theorem own_step_enabled (cfg : Config) (w : WorkerWiring) (h : s.phase.remaining ≠ 0) :
    ∃ a, a.isOwn = true ∧ (workerStep cfg w s a).isSome = true := by
  obtain ⟨db, phase⟩ := s
  cases phase with
  | idle => exact absurd rfl h
  | routing claim => exact ⟨.route, rfl, rfl⟩
  | starting claim workflowId =>
    exact ⟨.start ⟨0, 0, fun _ => 0, fun _ => 0, fun _ => 0⟩ 0, rfl, rfl⟩
  | processing claim => exact ⟨.abandon, rfl, rfl⟩
  | applying claim outcome thenReconcile => exact ⟨.apply ⟨0, 0, 0⟩ 0, rfl, rfl⟩
  | reconciling runId => exact ⟨.reconcile ⟨0, 0, fun _ => 0, fun _ => 0, fun _ => 0⟩ 0, rfl, rfl⟩
  | escaped e => exact absurd rfl h

end

/-- `run_once` returns. An exception leaves it exactly when an outcome is applied in a state that
does not meet `stepApplies`, so along every run that meets it none does; and each of its
transactions, of which there is one until it returns, brings it closer to the return. -/
theorem run_once_returns (cfg : Config) (w : WorkerWiring) :
    (∀ s, ((workerSystem cfg w).restrict fun s a => stepApplies cfg w s a = true).Reachable s →
      s.phase.isEscaped = false) ∧
    (∀ s a s', workerStep cfg w s a = some s' → s.phase.isEscaped = false →
      (s'.phase.isEscaped = true ↔ stepApplies cfg w s a = false)) ∧
    (∀ s a s', workerStep cfg w s a = some s' → a.isOwn = true → s'.phase.remaining < s.phase.remaining) ∧
    ∀ s : WorkerState, s.phase.remaining ≠ 0 → ∃ a, a.isOwn = true ∧ (workerStep cfg w s a).isSome = true := by
  refine ⟨fun s hreach => ?_, fun s a s' h hs => ?_, fun s a s' h hown => own_step_remaining h hown,
    fun s hs => own_step_enabled cfg w hs⟩
  · refine hreach.invariant (fun s => s.phase.isEscaped = false) (fun s hinit => ?_) fun s a s' _ hs hnext => ?_
    · rw [hinit.2]
      rfl
    · exact (step_escapes hnext.2.1 hs).2 hnext.1
  · rw [← Bool.not_eq_false, ← Bool.not_eq_true (stepApplies cfg w s a)]
    exact not_congr (step_escapes h hs)

/-! ## Two runs

Run 3 of task 2, which no workflow is bound to. -/

def sampleWiring : WorkerWiring := ⟨true, true, true, true⟩

def sampleWorker : WorkerState := ⟨sampleDb, .idle⟩

/-- The run is created, claimed and handed to the processor. -/
def processingRun : List WorkerAction :=
  [.env (.createTask 2 "t" "" 0), .env (.startRun 2 3 1), .claim sampleClaim 2, .route]

def sampleFate (as : List WorkerAction) : WorkerState :=
  System.run (workerStep sampleConfig sampleWiring) sampleWorker as

theorem worker_reachable {as : List WorkerAction}
    (h : System.Legal (workerStep sampleConfig sampleWiring) (fun _ _ => True) sampleWorker as) :
    (workerSystem sampleConfig sampleWiring).Reachable (sampleFate as) :=
  have hinit : (workerSystem sampleConfig sampleWiring).init sampleWorker := ⟨rfl, rfl⟩
  .steps (.of_init hinit) (.run h)

/-- A processor that succeeds while nobody interferes: the loop is idle again and the run has
succeeded. -/
theorem run_once_returns_sample :
    let s := sampleFate (processingRun ++ [.processed (.succeeded none), .apply ⟨10, 11, 12⟩ 3,
      .reconcile ⟨0, 0, fun _ => 0, fun _ => 0, fun _ => 0⟩ 4])
    s.phase.isEscaped = false ∧ (s.db.runs.get? 3).map (·.status) = some .succeeded := by
  intro s
  have hrun : System.Legal (workerStep sampleConfig sampleWiring)
      (fun s a => stepApplies sampleConfig sampleWiring s a = true) sampleWorker
      (processingRun ++ [.processed (.succeeded none), .apply ⟨10, 11, 12⟩ 3,
        .reconcile ⟨0, 0, fun _ => 0, fun _ => 0, fun _ => 0⟩ 4]) ∧
      (s.db.runs.get? 3).map (·.status) = some .succeeded := by decide +kernel
  have hinit : ((workerSystem sampleConfig sampleWiring).restrict
      fun s a => stepApplies sampleConfig sampleWiring s a = true).init sampleWorker := ⟨rfl, rfl⟩
  have hsteps := System.Legal.mono hrun.1 fun _ _ _ hcond => And.intro trivial hcond
  exact ⟨(run_once_returns sampleConfig sampleWiring).1 s (.steps (.of_init hinit)
    (.run_restrict hsteps)), hrun.2⟩

/-- Two races the loop does not survive. `CancelTask` while the processor works leaves the claimed
item, and the success passes the fence and meets a CANCELLED run. `CancelRun` after the processor
parked the run meets the waiting outcome. -/
theorem run_once_raises :
    let s₁ := sampleFate (processingRun ++ [.env (.cancelTask 2 3), .processed (.succeeded none), .apply ⟨10, 11, 12⟩ 4])
    let s₂ := sampleFate (processingRun ++ [
      .env (.requestToolApproval ⟨3, .other, "s", "", "a", .null, none, none, none⟩ 20 ⟨"worker", "token", 1⟩ 3),
      .env (.cancelRun 3 4), .processed (.waitingForApproval 20), .apply ⟨10, 11, 12⟩ 5])
    ((workerSystem sampleConfig sampleWiring).Reachable s₁ ∧
      s₁.phase.escape = some (.raised (.invalidStateTransition "Run" "cancelled" "succeeded"))) ∧
    (workerSystem sampleConfig sampleWiring).Reachable s₂ ∧
      s₂.phase.escape = some (.raised
        (.entityConflict "processor reported waiting_for_approval but the run is not waiting")) := by
  intro s₁ s₂
  have h₁ : System.Legal (workerStep sampleConfig sampleWiring) (fun _ _ => True) sampleWorker
      (processingRun ++ [.env (.cancelTask 2 3), .processed (.succeeded none), .apply ⟨10, 11, 12⟩ 4]) ∧
      s₁.phase.escape = some (.raised (.invalidStateTransition "Run" "cancelled" "succeeded")) := by decide +kernel
  have h₂ : System.Legal (workerStep sampleConfig sampleWiring) (fun _ _ => True) sampleWorker (processingRun ++ [
      .env (.requestToolApproval ⟨3, .other, "s", "", "a", .null, none, none, none⟩ 20 ⟨"worker", "token", 1⟩ 3),
      .env (.cancelRun 3 4), .processed (.waitingForApproval 20), .apply ⟨10, 11, 12⟩ 5]) ∧
      s₂.phase.escape = some (.raised
        (.entityConflict "processor reported waiting_for_approval but the run is not waiting")) := by decide +kernel
  exact ⟨⟨worker_reachable h₁.1, h₁.2⟩, worker_reachable h₂.1, h₂.2⟩

end Friday.Runs
