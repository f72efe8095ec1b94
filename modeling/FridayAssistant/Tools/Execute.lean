import FridayAssistant.Tools.Authorization
import FridayAssistant.Runs.SplitRuns
import FridayAssistant.Queue.Exclusion
/-!
# `ExecuteToolAction` (application/claim_aware_tool_execution.py)

`execute` is two transactions with a claim check and the call of the gateway between them. The
first one reads at one instant and commits at a later one, and what it commits is built from
what it read: the approval is saved unconditionally. So it is cut in two here, `authorize` (its
reads and its decision) and `record` (its writes), and anything may happen in between.

| here | in `execute` |
| --- | --- |
| `begin` | Txn A up to the decision |
| `commit`, `rollback` | the commit of Txn A, or its failure |
| `recheck` | the claim check before the side effect |
| `call` | `gateway.execute`, or the exception it raises |
| `settle` | Txn B |

Around the workers every statement of the work queue may run at any time, runs change freely,
approvals are requested and resolved, and invocations are added and moved by the other use
cases. A resolution is cut in two as well (`resolve`, `commitResolution`): `_resolve` tests the
approval it has read and saves that one later. `hashed` records the texts that were hashed,
`history` what was committed and called.
-/
namespace Friday.Tools
open Tables Transition Queue PyJson

/-- The arguments of `execute`, with the verdict `gateway.assess` gave on the call. -/
structure ToolAction where
  runId : RunId
  stepId : Option RunStepId
  call : ToolCall
  risk : ToolRiskAssessment
  claim : ClaimTriple

namespace ToolAction

def material (a : ToolAction) : String :=
  authorizationMaterial a.runId a.stepId a.call a.risk.authorizationScope

def fingerprint (sha256 : String → String) (a : ToolAction) : String :=
  computeAuthorizationFingerprint sha256 a.runId a.stepId a.call a.risk.authorizationScope

def legacyFingerprint (sha256 : String → String) (a : ToolAction) : String :=
  computeLegacyAuthorizationFingerprint sha256 a.runId a.stepId a.call

end ToolAction

/-- The tables `execute` reads and writes. -/
structure ToolDb where
  items : WorkItems
  runs : Table Run
  approvals : Approvals
  invocations : ToolInvocations

/-- `ToolActionOutcome`. -/
inductive ToolActionOutcome where
  | approvalRequired (risk : ToolRiskAssessment) (fingerprint : String)
  | executed (risk : ToolRiskAssessment) (fingerprint : String) (invocationId : ToolInvocationId)
      (result : ToolExecutionResult) (replayed : Bool)

/-- `_require_claim` (:276). -/
def requireClaim (items : WorkItems) (a : ToolAction) (now : Time) : Result Unit :=
  require (isClaimActive items a.runId a.claim now)
    (.claimLost "claim is no longer active; refusing tool execution step")

def requireRun (runs : Table Run) (runId : RunId) : Result Run :=
  match runs.get? runId with
  | some run => .ok run
  | none => .error (.notFound "Run" runId)

/-- What a prior invocation under the same fingerprint says (:322-334). -/
def replayOf (v : ToolInvocation) : Result (ToolInvocationId × ToolExecutionResult) :=
  match v.status, v.failure with
  | .succeeded, _ => .ok (v.id, .succeeded v.output)
  | .failed, some failure => .ok (v.id, .failed failure .null)
  | .failed, none => .error .assertion
  | _, _ => .error (.toolExecutionAmbiguous ("a prior protected execution for this exact action is not terminal; " ++
      "its side effect may have completed — refusing automatic replay"))

/-- The approvals `_find_replay` looks at. -/
def isConsumedFor (fingerprint legacy : String) (x : ApprovalRequest) : Bool :=
  x.status = .approved && x.isConsumed &&
    (x.authorizationFingerprint = some fingerprint || x.authorizationFingerprint = some legacy)

/-- The invocations made under one of them; a legacy approval never speaks for an external
target. -/
def priorInvocations (invocations : ToolInvocations) (legacy : String) (x : ApprovalRequest) :
    List ToolInvocation :=
  match x.runId with
  | none => []
  | some runId => (invocations.listForRun runId).filter fun v =>
      v.approvalRequestId = some x.id && !(x.authorizationFingerprint = some legacy && v.provenance.isSome)

/-- `_find_replay` (:289): the first prior invocation decides. -/
def findReplay (invocations : ToolInvocations) (approvals : List ApprovalRequest)
    (fingerprint legacy : String) : Result (Option (ToolInvocationId × ToolExecutionResult)) :=
  match (approvals.filter (isConsumedFor fingerprint legacy)).flatMap (priorInvocations invocations legacy) with
  | [] => .ok none
  | v :: _ => (replayOf v).map some

/-- What Txn A decides: return without writing, or write under the approval it consumed. -/
inductive Decision where
  | done (outcome : ToolActionOutcome)
  | proceed (approval : Option ApprovalRequest)

/-- The part of Txn A for a call that requires approval (:148-162). -/
def authorizeProtected (sha256 : String → String) (db : ToolDb) (a : ToolAction) (now : Time) :
    Result Decision := do
  let approvals := db.approvals.listForRun a.runId
  match ← findReplay db.invocations approvals (a.fingerprint sha256) (a.legacyFingerprint sha256) with
  | some (id, result) => return .done (.executed a.risk (a.fingerprint sha256) id result true)
  | none => match findAuthorizingApproval approvals (a.fingerprint sha256) with
    | none => return .done (.approvalRequired a.risk (a.fingerprint sha256))
    | some approval => return .proceed (some (← approval.consume now))

/-- Txn A up to its decision (:137-162). -/
def authorize (sha256 : String → String) (db : ToolDb) (a : ToolAction) (now : Time) :
    Result Decision := do
  requireClaim db.items a now
  let run ← requireRun db.runs a.runId
  require (run.status = .running) (.entityConflict "run is not running")
  if a.risk.approvalRequired then authorizeProtected sha256 db a now else return .proceed none

/-- The writes of Txn A (:160-194): the approval as it was read, consumed, and a new invocation
that is running. -/
def record (db : ToolDb) (a : ToolAction) (approval : Option ApprovalRequest)
    (id : ToolInvocationId) (now : Time) : Result (ToolInvocation × ToolDb) := do
  let v ← ToolInvocation.new id a.runId a.call.tool a.call.toolInput now a.stepId
    (approval.map (·.id)) a.risk.provenance
  let started ← v.start now
  match db.invocations.insert? v with
  | none => .error .integrity
  | some t => return (started, { db with approvals := approval.elim db.approvals db.approvals.put
                                         invocations := t.put started })

/-- The outcome of the gateway on the aggregate (:233-256). -/
def ToolExecutionResult.apply (v : ToolInvocation) (now : Time) : ToolExecutionResult →
    Result ToolInvocation
  | .succeeded output => v.succeed now output
  | .failed failure _ => v.fail now failure

/-- Txn B (:222-272). -/
def persistResult (db : ToolDb) (a : ToolAction) (id : ToolInvocationId)
    (result : ToolExecutionResult) (now : Time) : Result ToolDb := do
  requireClaim db.items a now
  let _ ← requireRun db.runs a.runId
  match db.invocations.get? id with
  | some v =>
    require (v.status = .running) (.entityConflict "tool invocation is no longer running")
    let v' ← result.apply v now
    return { db with invocations := db.invocations.put v' }
  | none => .error (.entityConflict "tool invocation is no longer running")

/-! ## Workers -/

/-- Where a worker is inside `execute`. -/
inductive ToolPc where
  | idle
  | holding (runId : RunId) (claim : ClaimTriple)
  | authorized (a : ToolAction) (approval : Option ApprovalRequest) (now : Time)
  | recorded (a : ToolAction) (invocationId : ToolInvocationId)
  | checked (a : ToolAction) (invocationId : ToolInvocationId)
  | settling (a : ToolAction) (invocationId : ToolInvocationId) (result : ToolExecutionResult)

/-- The claim a worker acts under. -/
def ToolPc.holder : ToolPc → Option (RunId × ClaimTriple)
  | .idle => none
  | .holding runId claim => some (runId, claim)
  | .authorized a _ _ | .recorded a _ | .checked a _ | .settling a _ _ => some (a.runId, a.claim)

/-- A committed Txn A, or a call of `gateway.execute`. -/
inductive ToolEvent where
  | committed (a : ToolAction) (approval : Option ApprovalRequest) (invocation : ToolInvocation)
  | called (a : ToolAction) (invocationId : ToolInvocationId)

structure ToolState where
  queue : QueueState
  runs : Table Run
  approvals : Approvals
  invocations : ToolInvocations
  workers : Nat → ToolPc
  /-- Approvals that were read to be resolved, with what is to become of them. -/
  resolutions : List (ApprovalRequest × Runs.Resolution × Time)
  hashed : List String
  /-- Newest first. -/
  history : List ToolEvent

/-- What the other use cases do to an invocation that exists. -/
inductive InvocationMove where
  | start | succeed (output : JsonValue) | fail (failure : Failure) | cancel

def InvocationMove.apply (v : ToolInvocation) (now : Time) : InvocationMove → Result ToolInvocation
  | .start => v.start now
  | .succeed output => v.succeed now output
  | .fail failure => v.fail now failure
  | .cancel => v.cancel now

inductive ToolStep where
  | queue (q : QueueAction)
  | claim (worker : Nat) (runId : RunId) (workerId token : String) (now leaseExpiresAt : Time)
  | begin (worker : Nat) (stepId : Option RunStepId) (call : ToolCall) (risk : ToolRiskAssessment) (now : Time)
  | commit (worker : Nat) (invocationId : ToolInvocationId)
  | rollback (worker : Nat)
  | recheck (worker : Nat) (now : Time)
  | call (worker : Nat) (result : Option ToolExecutionResult)
  | settle (worker : Nat) (now : Time)
  | crash (worker : Nat)
  | saveRun (run : Run)
  | requestApproval (draft : ApprovalRequest.Draft)
  | resolve (id : ApprovalRequestId) (by_ : Runs.Resolution) (now : Time)
  | commitResolution (k : Nat) (held : Bool)
  | addInvocation (invocation : ToolInvocation)
  | moveInvocation (loaded : ToolInvocation) (move : InvocationMove) (now : Time)

/-- The statement of the work queue a step runs, or the clock it reads. -/
def ToolStep.queue? : ToolStep → Option QueueAction
  | .queue q => some q
  | .claim _ runId workerId token now lease => some (.tryClaim runId workerId token now lease)
  | .begin _ _ _ _ now | .recheck _ now | .settle _ now => some (.tick now)
  | _ => none

namespace ToolState

def db (s : ToolState) : ToolDb := ⟨s.queue.items, s.runs, s.approvals, s.invocations⟩

def goto (s : ToolState) (i : Nat) (pc : ToolPc) : ToolState :=
  { s with workers := Function.update s.workers i pc }

/-- The worker returns from `execute`, normally or by an exception, and keeps its claim. -/
def return_ (s : ToolState) (i : Nat) (a : ToolAction) : ToolState :=
  s.goto i (.holding a.runId a.claim)

/-- The texts `execute` hashes for an action; the legacy form only when approval is required. -/
def hash (s : ToolState) (a : ToolAction) : ToolState :=
  { s with hashed := a.material ::
      ((if a.risk.approvalRequired then [legacyMaterial a.runId a.stepId a.call] else []) ++ s.hashed) }

/-- One step. `none`: the worker is not at that point of `execute`. -/
def act (sha256 : String → String) (s : ToolState) : ToolStep → Option ToolState
  | .queue q => some { s with queue := s.queue.act q }
  | .claim i runId workerId token now lease => match s.workers i with
    | .idle =>
      let s' := { s with queue := s.queue.act (.tryClaim runId workerId token now lease) }
      match tryClaim s.queue.items runId workerId token now lease with
      | (true, items) =>
        some (s'.goto i (.holding runId ⟨workerId, token, ((items.get? runId).map (·.claimGeneration)).getD 0⟩))
      | (false, _) => some s'
    | _ => none
  | .begin i stepId call risk now => match s.workers i with
    | .holding runId claim =>
      let a : ToolAction := ⟨runId, stepId, call, risk, claim⟩
      let s' := { s with queue := s.queue.act (.tick now) }.hash a
      match authorize sha256 s'.db a now with
      | .ok (.proceed approval) => some (s'.goto i (.authorized a approval now))
      | .ok (.done _) => some s'
      | .error _ => some s'
    | _ => none
  | .commit i id => match s.workers i with
    | .authorized a approval now => match record s.db a approval id now with
      | .ok (v, db) =>
        some ({ s with approvals := db.approvals, invocations := db.invocations,
                       history := .committed a approval v :: s.history }.goto i (.recorded a id))
      | .error _ => some (s.return_ i a)
    | _ => none
  | .rollback i => match s.workers i with
    | .authorized a _ _ => some (s.return_ i a)
    | _ => none
  | .recheck i now => match s.workers i with
    | .recorded a id =>
      let s' := { s with queue := s.queue.act (.tick now) }
      match requireClaim s'.queue.items a now with
      | .ok _ => some (s'.goto i (.checked a id))
      | .error _ => some (s'.return_ i a)
    | _ => none
  | .call i result => match s.workers i with
    | .checked a id =>
      let s' := { s with history := .called a id :: s.history }
      some (s'.goto i (result.elim (.holding a.runId a.claim) (.settling a id)))
    | _ => none
  | .settle i now => match s.workers i with
    | .settling a id result =>
      let s' := { s with queue := s.queue.act (.tick now) }
      match persistResult s'.db a id result now with
      | .ok db => some ({ s' with invocations := db.invocations }.return_ i a)
      | .error _ => some (s'.return_ i a)
    | _ => none
  | .crash i => some (s.goto i .idle)
  | .saveRun run => some { s with runs := s.runs.put run }
  | .requestApproval draft => match ApprovalRequest.new draft with
    | .ok x => (s.approvals.insert? x).map fun t => { s with approvals := t }
    | .error _ => none
  | .resolve id by_ now => match s.approvals.get? id with
    | some x => match by_.due x now, x.status with
      | .ok _, .pending => some { s with resolutions := s.resolutions ++ [(x, by_, now)] }
      | _, _ => none
    | none => none
  | .commitResolution k held => match s.resolutions[k]? with
    | some (x, by_, now) =>
      let s' := { s with resolutions := s.resolutions.eraseIdx k }
      match Runs.transitionApproval x by_.target now by_.resolver by_.note with
      | .ok x' => some { s' with approvals := Runs.saveLoadedApproval held s.approvals x x' }
      | .error _ => some s'
    | none => none
  | .addInvocation v => (s.invocations.insert? v).map fun t => { s with invocations := t }
  -- `loaded` is the row as the use case has read it, perhaps long ago
  | .moveInvocation loaded move now =>
    match s.invocations.get? loaded.id, move.apply loaded now with
    | some v, .ok v' =>
      if v.runId = loaded.runId ∧ v.approvalRequestId = loaded.approvalRequestId then
        some { s with invocations := s.invocations.put v' }
      else none
    | _, _ => none

end ToolState

/-- The clock does not go back and a claim token is fresh. -/
def ToolStep.Ok (s : ToolState) (a : ToolStep) : Prop := ∀ q ∈ a.queue?, q.Ok s.queue
  deriving Decidable

def ToolState.Initial (s : ToolState) : Prop :=
  s.queue.items = .empty ∧ s.queue.usedTokens = [] ∧ s.approvals = .empty ∧ s.invocations = .empty ∧
    (∀ i, s.workers i = .idle) ∧ s.resolutions = [] ∧ s.hashed = [] ∧ s.history = []

/-- Any number of workers executing tool actions. -/
def toolWorkers (sha256 : String → String) : System ToolState ToolStep :=
  .ofStep ToolState.Initial (ToolState.act sha256) ToolStep.Ok

/-- The stored approval that the commit of a resolution overwrites. -/
def ToolStep.overwritten (s : ToolState) : ToolStep → Option ApprovalRequest
  | .commitResolution k _ => s.resolutions[k]?.bind fun r => s.approvals.get? r.1.id
  | _ => none

/-- When a resolution commits, its approval is still pending. -/
def ToolStep.StillPending (s : ToolState) (a : ToolStep) : Prop :=
  ∀ x ∈ a.overwritten s, x.status = .pending
  deriving Decidable

end Friday.Tools
