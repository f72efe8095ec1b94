import FridayAssistant.Runs.Lifecycle
/-!
# Approvals of runs (approval_workflow.py, tool_authorization.py)

`RequestApproval` parks a running run on a new approval; `RequestToolApproval` is the same under
the worker's claim. The four resolutions differ in the status they write and in who resolves; a
run that still waits for the approval is resumed and enqueued.
-/
namespace Friday.Runs
open Tables PyJson Queue

/-- `ApprovalCategory` as it is stored. -/
def categoryValue : ApprovalCategory → String
  | .toolExecution => "tool_execution"
  | .filesystemWrite => "filesystem_write"
  | .networkAccess => "network_access"
  | .computerUse => "computer_use"
  | .externalCommunication => "external_communication"
  | .other => "other"

structure RequestApprovalCommand where
  runId : RunId
  category : ApprovalCategory
  summary : String
  reason : String
  requestedAction : String
  requestedInput : JsonValue
  stepId : Option RunStepId
  expiresAt : Option Time
  authorizationFingerprint : Option String

def RequestApprovalCommand.draft (c : RequestApprovalCommand) (id : ApprovalRequestId)
    (now : Time) : ApprovalRequest.Draft where
  id := id
  runId := some c.runId
  category := c.category
  summary := c.summary
  reason := c.reason
  requestedAction := c.requestedAction
  requestedInput := c.requestedInput
  requestedAt := now
  stepId := c.stepId
  expiresAt := c.expiresAt
  authorizationFingerprint := c.authorizationFingerprint
  subjectKind := .run
  subjectId := none

/-- The step that waits with the run, if the command names one. -/
def waitingStep (db : Db) (runId : RunId) : Option RunStepId → Result (Option RunStep)
  | none => .ok none
  | some stepId => do
    let step ← getStep db stepId
    require (step.runId = runId) (.entityConflict "step does not belong to run")
    require (step.status = .running) (.entityConflict "step cannot wait for approval")
    return some step

def parkStep (db : Db) (approvalId : ApprovalRequestId) : Option RunStep → Result Db
  | none => .ok db
  | some step => do
    let waiting ← step.waitForApproval approvalId
    return { db with steps := db.steps.put waiting }

def approvalPayload (a : ApprovalRequest) : JsonValue :=
  .obj [("approval_request_id", .str (Uuid.text a.id)),
    ("category", .str (categoryValue a.category)),
    ("step_id", (a.stepId.map fun s => JsonValue.str (Uuid.text s)).getD .null)]

/-- The body of both requests; `release` removes the work item. -/
def parkForApproval (db : Db) (c : RequestApprovalCommand) (id : ApprovalRequestId) (now : Time)
    (release : WorkItems → Result WorkItems) : Result (ApprovalRequest × Db) := do
  let run ← getRun db c.runId
  require (run.status = .running) (.entityConflict "run cannot wait for approval")
  let step ← waitingStep db run.id c.stepId
  require (pendingForRun db.approvals run.id).isEmpty
    (.entityConflict "run already has a pending approval")
  let approval ← ApprovalRequest.new (c.draft id now)
  let approvals ← found (db.approvals.insert? approval) .integrity
  let waiting ← run.waitForApproval approval.id
  let items ← release db.workQueue
  let db ← parkStep { db with approvals := approvals, runs := db.runs.put waiting, workQueue := items } approval.id step
  return (approval, appendRunEvents db run.id now
    [⟨.approvalRequested, approvalPayload approval, approval.stepId⟩,
      ⟨.runWaitingForApproval, textPayload [("run_id", Uuid.text run.id),
        ("approval_request_id", Uuid.text approval.id)], approval.stepId⟩])

/-- `RequestApproval`. -/
def requestApproval (db : Db) (c : RequestApprovalCommand) (id : ApprovalRequestId) (now : Time) :
    Result (ApprovalRequest × Db) :=
  parkForApproval db c id now fun items => .ok (remove items c.runId)

/-- `remove_if_claimed`, or the claim is lost. -/
def removeClaimed (runId : RunId) (claim : ClaimTriple) (now : Time) (message : String)
    (items : WorkItems) : Result WorkItems :=
  match removeIfClaimed items runId claim now with
  | (true, items') => .ok items'
  | (false, _) => .error (.claimLost message)

/-- `RequestToolApproval`. -/
def requestToolApproval (db : Db) (c : RequestApprovalCommand) (id : ApprovalRequestId)
    (claim : ClaimTriple) (now : Time) : Result (ApprovalRequest × Db) := do
  require (isClaimActive db.workQueue c.runId claim now)
    (.claimLost "claim is no longer active; refusing to request approval")
  parkForApproval db c id now (removeClaimed c.runId claim now
    "claim lost while parking the run for approval")

/-! ## Resolutions -/

/-- `transition_approval_in_transaction` of a pending approval. -/
def transitionApproval (a : ApprovalRequest) (target : ApprovalStatus) (now : Time)
    (resolver note : Option String) : Result ApprovalRequest :=
  match target with
  | .approved => do
    let resolver ← found resolver (.entityConflict "approved approval requires a resolver")
    a.approve now resolver note
  | .rejected => do
    let resolver ← found resolver (.entityConflict "rejected approval requires a resolver")
    a.reject now resolver note
  | .cancelled => a.cancel now note
  | .expired => a.expire now
  | .pending => .error (.entityConflict "approval request transition is not terminal")

/-- The run the approval is about, if it is about one. -/
def approvalRun (db : Db) (a : ApprovalRequest) : Result (Option Run) :=
  match a.runId with
  | none => .ok none
  | some runId => do
    let run ← getRun db runId
    return some run

/-- The step the approval names must belong to its run. -/
def approvalStep (db : Db) (a : ApprovalRequest) (run : Option Run) : Result (Option RunStep) :=
  match a.stepId with
  | none => .ok none
  | some stepId => do
    let run ← found run (.entityConflict "non-run approval cannot reference a step")
    let step ← getStep db stepId
    require (step.runId = run.id) (.entityConflict "step does not belong to run")
    return some step

def resumeStep (db : Db) (approvalId : ApprovalRequestId) : Option RunStep → Result Db
  | none => .ok db
  | some step =>
    if step.status = .waitingForApproval ∧ step.approvalRequestId = some approvalId then do
      let resumed ← step.resume
      return { db with steps := db.steps.put resumed }
    else .ok db

/-- The run resumes when it still waits for this approval. -/
def resumeRun (db : Db) (a : ApprovalRequest) (run : Run) (now : Time) :
    Result (List EventSpec × Db) :=
  if run.status = .waitingForApproval ∧ run.approvalRequestId = some a.id then do
    let resumed ← run.resume
    return ([⟨.runResumed, textPayload [("run_id", Uuid.text run.id), ("approval_request_id", Uuid.text a.id)],
      a.stepId⟩], enqueueRun (saveRun db resumed) run.id now now)
  else .ok ([], db)

/-- After the transition: wake what waits and append the events. -/
def announceResolution (db : Db) (a : ApprovalRequest) (step : Option RunStep) (now : Time) :
    Option Run → Result Db
  | none => .ok db
  | some run => do
    let db ← resumeStep db a.id step
    let (specs, db) ← resumeRun db a run now
    return appendRunEvents db run.id now (⟨.approvalResolved, textPayload [("approval_request_id", Uuid.text a.id),
      ("resolution", a.status.value)], a.stepId⟩ :: specs)

/-- `_resolve`. -/
def resolveApproval (db : Db) (a : ApprovalRequest) (target : ApprovalStatus) (now : Time)
    (resolver note : Option String) : Result (ApprovalRequest × Db) :=
  if a.status = target then .ok (a, db)
  else do
    require (a.status = .pending) (.entityConflict "approval request is terminal")
    let run ← approvalRun db a
    let step ← approvalStep db a run
    let resolved ← transitionApproval a target now resolver note
    let db ← announceResolution { db with approvals := db.approvals.put resolved } resolved step now run
    return (resolved, db)

def getApproval (db : Db) (id : ApprovalRequestId) : Result ApprovalRequest :=
  found (db.approvals.get? id) (.notFound "Approval request" id)

def approveRequest (db : Db) (id : ApprovalRequestId) (resolver : String) (note : Option String)
    (now : Time) : Result (ApprovalRequest × Db) := do
  let approval ← getApproval db id
  resolveApproval db approval .approved now (some resolver) note

def rejectRequest (db : Db) (id : ApprovalRequestId) (resolver : String) (note : Option String)
    (now : Time) : Result (ApprovalRequest × Db) := do
  let approval ← getApproval db id
  resolveApproval db approval .rejected now (some resolver) note

def cancelApproval (db : Db) (id : ApprovalRequestId) (note : Option String) (now : Time) :
    Result (ApprovalRequest × Db) := do
  let approval ← getApproval db id
  resolveApproval db approval .cancelled now none note

/-- A pending approval expires only at or after its deadline. -/
def expiryDue (a : ApprovalRequest) (now : Time) : Result Unit :=
  if a.status = .pending then do
    let deadline ← found a.expiresAt (.entityConflict "approval request has no expiry deadline")
    require (deadline ≤ now) (.entityConflict "approval request expiry is not due")
  else .ok ()

def expireApproval (db : Db) (id : ApprovalRequestId) (now : Time) :
    Result (ApprovalRequest × Db) := do
  let approval ← getApproval db id
  expiryDue approval now
  resolveApproval db approval .expired now none none

end Friday.Runs
