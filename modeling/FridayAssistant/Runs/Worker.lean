import FridayAssistant.Runs.Delegations
/-!
# The worker's use cases (worker_coordination.py, worker_maintenance.py)

Claiming the next run, keeping or giving back the claim, and applying what the processor
returned. Every write of a worker is fenced by its claim; an applier that finds the claim gone
raises `ClaimLost` and writes nothing.
-/
namespace Friday.Runs
open Tables PyJson Queue

/-- A work item whose run is missing, ended or waiting: there is nothing to run. -/
def isStale (run : Option Run) : Bool := run.all fun r => r.status.isTerminal || r.status.isWaiting

/-! ## Claims -/

structure RunClaimResult where
  runId : RunId
  taskId : TaskId
  claim : ClaimTriple
  attemptNumber : Nat
  acquiredAt : Time
  leaseExpiresAt : Time

/-- The arguments of one `ClaimNextRun`: the token is drawn anew for each candidate. -/
structure ClaimRequest where
  workerId : String
  token : RunId → String
  leaseDuration : Time
  candidateLimit : Nat

/-- A queued run starts when it is claimed; a running one is resumed work. -/
def beginClaimed (db : Db) (run : Run) (now : Time) : Result Db :=
  if run.status = .queued then do
    let started ← run.start now
    return appendRunEvents (saveRun db started) run.id now
      [⟨.runStarted, textPayload [("run_id", Uuid.text run.id)], none⟩]
  else .ok db

/-- The rest of the transaction, once a candidate is claimed and has something to run. -/
def claimed (db : Db) (q : ClaimRequest) (run : Run) (now : Time) : Result (RunClaimResult × Db) :=
  do
  let db ← beginClaimed db run now
  let item ← found (db.workQueue.get? run.id) .assertion
  return (⟨run.id, run.taskId, ⟨q.workerId, q.token run.id, item.claimGeneration⟩,
    db.runs.ordinalForExecution run.id, now, now + q.leaseDuration⟩, db)

/-- The loop over the candidates. -/
def claimFirst (q : ClaimRequest) (now : Time) : Db → List RunWorkItem →
    Result (Option RunClaimResult × Db)
  | db, [] => .ok (none, db)
  | db, candidate :: rest =>
    match tryClaim db.workQueue candidate.runId q.workerId (q.token candidate.runId) now (now + q.leaseDuration) with
    | (false, _) => claimFirst q now db rest
    | (true, items) =>
      match db.runs.get? candidate.runId with
      | none => claimFirst q now { db with workQueue := remove items candidate.runId } rest
      | some run =>
        if isStale (some run) then claimFirst q now { db with workQueue := remove items candidate.runId } rest
        else do
          let (result, db) ← claimed { db with workQueue := items } q run now
          return (some result, db)

def claimNextRun (db : Db) (q : ClaimRequest) (now : Time) : Result (Option RunClaimResult × Db) :=
  claimFirst q now db (findDueCandidates db.workQueue now q.candidateLimit)

/-- A statement of the queue that raises `ClaimLost` when its fence fails. -/
def fenced (db : Db) (result : Bool × WorkItems) (message : String) : Result Db :=
  match result with
  | (true, items) => .ok { db with workQueue := items }
  | (false, _) => .error (.claimLost message)

def renewRunLease (db : Db) (runId : RunId) (claim : ClaimTriple) (leaseDuration now : Time) :
    Result Db :=
  fenced db (renewLease db.workQueue runId claim now (now + leaseDuration))
    ("lease renewal lost for run " ++ Uuid.text runId)

def releaseRunClaim (db : Db) (runId : RunId) (claim : ClaimTriple) (now : Time) : Result Db :=
  fenced db (releaseClaim db.workQueue runId claim now)
    ("claim release lost for run " ++ Uuid.text runId)

def requeueClaimedRun (db : Db) (runId : RunId) (claim : ClaimTriple) (availableAt now : Time) :
    Result Db :=
  fenced db (requeueClaimed db.workQueue runId claim availableAt now now)
    ("requeue lost claim for run " ++ Uuid.text runId)

/-- The loop of `RecoverExpiredLeases`. -/
def recoverItems (now : Time) : Db → List RunWorkItem → Db
  | db, [] => db
  | db, item :: items =>
    let queue := if isStale (db.runs.get? item.runId) then (removeIfLeaseExpired db.workQueue item.runId now).2
      else (clearExpiredClaim db.workQueue item.runId now).2
    recoverItems now { db with workQueue := queue } items

def recoverExpiredLeases (db : Db) (batchSize : Nat) (now : Time) : Db :=
  recoverItems now db (findExpiredClaims db.workQueue now batchSize)

/-! ## Applying an outcome -/

/-- After a failure: the next attempt when the policy allows one, otherwise the delegation is
settled. -/
def retryOrReconcile (cfg : Config) (db : Db) (failed : Run) (failure : Failure) (ids : RetryIds)
    (now : Time) : Result Db :=
  let attempt := db.runs.ordinalForExecution failed.id
  if cfg.retryPolicy.isRetryAllowed attempt failure then
    addRetry db failed ids ((cfg.retryPolicy.computeDelay (attempt + 1)).map (now + ·)) now
  else reconcileChildTerminal db failed now

def applyFailedOutcome (cfg : Config) (db : Db) (runId : RunId) (claim : ClaimTriple)
    (failure : Failure) (ids : RetryIds) (now : Time) : Result (Run × Db) := do
  let run ← getRun db runId
  require (!(db.runs.listForExecution run.executionId).isEmpty) (.notFound "Run" runId)
  let items ← removeClaimed runId claim now ("failed outcome lost claim for run " ++
    Uuid.text runId) db.workQueue
  let (failed, specs, db) ← failRunEventSpecs { db with workQueue := items } run now failure
  let db ← materializeSkillUsage (appendRunEvents db run.id now specs) run.id now
  let db ← retryOrReconcile cfg db failed failure ids now
  return (failed, db)

/-- `AGENT_FINISHED` comes first when there is a final response. -/
def finishedSpecs : Option (String × JsonValue) → List EventSpec
  | none => []
  | some (summary, details) =>
    [⟨.agentFinished, .obj [("summary", .str (String.ofList (summary.toList.take 4000))),
      ("details", details)], none⟩]

def applySucceededOutcome (db : Db) (runId : RunId) (claim : ClaimTriple)
    (finalResponse : Option (String × JsonValue)) (now : Time) : Result (Run × Db) := do
  let run ← getRun db runId
  require (stepsTerminal db run.id) (.entityConflict "run has non-terminal steps")
  require (toolsTerminal db run.id) (.entityConflict "run has non-terminal tool invocations")
  require (stepsTerminal db runId && toolsTerminal db runId)
    (.entityConflict "run has non-terminal children")
  require (pendingForRun db.approvals runId).isEmpty (.entityConflict "run has pending approvals")
  require (!db.delegationRequests.hasDispatchedForRun runId)
    (.entityConflict "run has an active delegation")
  let items ← removeClaimed runId claim now ("successful outcome lost claim for run " ++
    Uuid.text runId) db.workQueue
  let (succeeded, specs, db) ← succeedRunEventSpecs { db with workQueue := items } run now
  let db := appendRunEvents db run.id now (finishedSpecs finalResponse ++ specs)
  let db ← reconcileChildTerminal db succeeded now
  let db ← materializeSkillUsage db run.id now
  return (succeeded, db)

/-- What both waiting outcomes do once the run is known to wait: the item is normally gone. -/
def dropWaitingItem (db : Db) (run : Run) (claim : ClaimTriple) (now : Time) (message : String) :
    Result (Run × Db) :=
  match db.workQueue.get? run.id with
  | none => .ok (run, db)
  | some _ => do
    let db ← fenced db (removeIfClaimed db.workQueue run.id claim now) message
    return (run, db)

/-- What both do when the run was resumed before the processor returned. -/
def alreadyResumed (db : Db) (run : Run) (claim : ClaimTriple) (stale resolved : String) :
    Result (Run × Db) :=
  match db.workQueue.get? run.id with
  | none => .ok (run, db)
  | some item =>
    if item.carries claim then .error (.entityConflict resolved) else .error (.claimLost stale)

def applyWaitingOutcome (db : Db) (runId : RunId) (claim : ClaimTriple)
    (approvalId : ApprovalRequestId) (now : Time) : Result (Run × Db) := do
  let run ← getRun db runId
  let approval ← getApproval db approvalId
  require (approval.runId = some run.id) (.entityConflict "approval request does not belong to run")
  if run.status = .running ∧ approval.status ≠ .pending then
    alreadyResumed db run claim ("stale waiting outcome for run " ++ Uuid.text runId)
      "processor reported waiting_for_approval after approval resolution"
  else do
    require (run.status = .waitingForApproval)
      (.entityConflict "processor reported waiting_for_approval but the run is not waiting")
    require (run.approvalRequestId = some approval.id)
      (.entityConflict "run is waiting for a different approval request")
    dropWaitingItem db run claim now ("waiting outcome lost claim for run " ++ Uuid.text runId)

/-- `status in {SUCCEEDED, FAILED, CANCELLED}`. -/
def isSettled : DelegationStatus → Bool
  | .succeeded | .failed | .cancelled => true
  | _ => false

def applyWaitingForDelegationOutcome (db : Db) (runId : RunId) (claim : ClaimTriple)
    (requestId : DelegationRequestId) (now : Time) : Result (Run × Db) := do
  let run ← getRun db runId
  let request ← found (db.delegationRequests.get? requestId)
    (.notFound "Delegation request" requestId)
  require (request.parentRunId = run.id)
    (.entityConflict "delegation request does not belong to run")
  if run.status = .running ∧ isSettled request.status = true then
    alreadyResumed db run claim ("stale waiting delegation outcome for run " ++ Uuid.text runId)
      "processor reported waiting_for_delegation after delegation resolution"
  else do
    require (run.status = .waitingForDelegation)
      (.entityConflict "processor reported waiting_for_delegation but the run is not waiting")
    require (run.delegationRequestId = some request.id)
      (.entityConflict "run is waiting for a different delegation request")
    require (request.status = .dispatched) (.entityConflict "delegation request has an invalid status")
    dropWaitingItem db run claim now ("waiting delegation outcome lost claim for run " ++ Uuid.text runId)

end Friday.Runs
