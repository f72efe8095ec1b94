import FridayAssistant.Lib.Split
import FridayAssistant.Runs.Flush
import FridayAssistant.Runs.WorkflowEffects
/-!
# Ending a run between other transactions

`CompleteRun`, `FailRun`, `CancelRun`, the two outcome appliers and the four resolutions of an
approval load the run (and the approval and its step) before their first write takes the lock.
Each is two halves here: what it reads and checks, and what it writes at its commit with the rows
it has loaded. Lists that are read after the first write are read at the commit; the claim fences
are conditional statements of the commit.

`runs.save`, `approvals.save` and `steps.save` are `Session.merge`: an `UPDATE` by primary key of
the columns that changed since the load, or, when the session has dropped the row meanwhile and
reads it again, of every column that differs.
-/
namespace Friday.Runs
open Tables PyJson Queue Transition Split

/-! ## What `save` writes -/

/-- Whether the session still holds the rows it loaded. -/
structure HeldRows where
  run : Bool
  approval : Bool
  step : Bool

def writtenRun (cfg : Config) (held : Bool) (loaded saved current : Run) : Run :=
  if held then flushRun cfg.failureEq loaded saved current else { saved with id := current.id }

/-- `runs.save`. -/
def saveLoadedRun (cfg : Config) (held : Bool) (db : Db) (loaded saved : Run) : Db :=
  match db.runs.get? loaded.id with
  | some current => saveRun db (writtenRun cfg held loaded saved current)
  | none => saveRun db saved

/-- No transition writes the requested input. -/
def writtenApproval (held : Bool) (loaded saved current : ApprovalRequest) : ApprovalRequest :=
  if held then
    { id := current.id
      runId := changed loaded.runId saved.runId current.runId
      category := changed loaded.category saved.category current.category
      summary := changed loaded.summary saved.summary current.summary
      reason := changed loaded.reason saved.reason current.reason
      requestedAction := changed loaded.requestedAction saved.requestedAction current.requestedAction
      requestedInput := current.requestedInput
      status := changed loaded.status saved.status current.status
      requestedAt := changed loaded.requestedAt saved.requestedAt current.requestedAt
      stepId := changed loaded.stepId saved.stepId current.stepId
      expiresAt := changed loaded.expiresAt saved.expiresAt current.expiresAt
      resolvedAt := changed loaded.resolvedAt saved.resolvedAt current.resolvedAt
      resolutionNote := changed loaded.resolutionNote saved.resolutionNote current.resolutionNote
      resolver := changed loaded.resolver saved.resolver current.resolver
      authorizationFingerprint :=
        changed loaded.authorizationFingerprint saved.authorizationFingerprint current.authorizationFingerprint
      consumedAt := changed loaded.consumedAt saved.consumedAt current.consumedAt
      subjectKind := changed loaded.subjectKind saved.subjectKind current.subjectKind
      subjectId := changed loaded.subjectId saved.subjectId current.subjectId }
  else { saved with id := current.id }

/-- `approvals.save`. -/
def saveLoadedApproval (held : Bool) (t : Approvals) (loaded saved : ApprovalRequest) : Approvals :=
  match t.get? loaded.id with
  | some current => t.put (writtenApproval held loaded saved current)
  | none => t.put saved

def writtenStep (cfg : Config) (held : Bool) (loaded saved current : RunStep) : RunStep :=
  if held then
    { id := current.id
      runId := changed loaded.runId saved.runId current.runId
      name := changed loaded.name saved.name current.name
      position := changed loaded.position saved.position current.position
      status := changed loaded.status saved.status current.status
      createdAt := changed loaded.createdAt saved.createdAt current.createdAt
      startedAt := changed loaded.startedAt saved.startedAt current.startedAt
      endedAt := changed loaded.endedAt saved.endedAt current.endedAt
      failure := changedFailure cfg.failureEq loaded.failure saved.failure current.failure
      approvalRequestId := changed loaded.approvalRequestId saved.approvalRequestId current.approvalRequestId }
  else { saved with id := current.id }

/-- `steps.save`. -/
def saveLoadedStep (cfg : Config) (held : Bool) (db : Db) (loaded saved : RunStep) : Db :=
  match db.steps.get? loaded.id with
  | some current => { db with steps := db.steps.put (writtenStep cfg held loaded saved current) }
  | none => { db with steps := db.steps.put saved }

/-! ## Commands, and what is read for them -/

/-- Who or what resolves an approval. -/
inductive Resolution where
  | approve (resolver : String) (note : Option String)
  | reject (resolver : String) (note : Option String)
  | cancel (note : Option String)
  | expire

namespace Resolution

def target : Resolution → ApprovalStatus
  | .approve .. => .approved
  | .reject .. => .rejected
  | .cancel _ => .cancelled
  | .expire => .expired

def resolver : Resolution → Option String
  | .approve resolver _ | .reject resolver _ => some resolver
  | _ => none

def note : Resolution → Option String
  | .approve _ note | .reject _ note | .cancel note => note
  | .expire => none

/-- Only an expiry looks at the deadline. -/
def due (by_ : Resolution) (a : ApprovalRequest) (now : Time) : Result Unit :=
  match by_ with
  | .expire => expiryDue a now
  | _ => .ok ()

end Resolution

inductive RunCommand where
  | completeRun (runId : RunId) (now : Time)
  | failRun (runId : RunId) (failure : Failure) (now : Time)
  | cancelRun (runId : RunId) (now : Time)
  | applyFailedOutcome (runId : RunId) (claim : ClaimTriple) (failure : Failure) (ids : RetryIds) (now : Time)
  | applySucceededOutcome (runId : RunId) (claim : ClaimTriple) (finalResponse : Option (String × JsonValue)) (now : Time)
  | resolve (id : ApprovalRequestId) (by_ : Resolution) (now : Time)

/-- The use case in one transaction. -/
def RunCommand.action : RunCommand → RunAction
  | .completeRun runId now => .completeRun runId now
  | .failRun runId failure now => .failRun runId failure now
  | .cancelRun runId now => .cancelRun runId now
  | .applyFailedOutcome runId claim failure ids now =>
    .applyFailedOutcome runId claim failure ids now
  | .applySucceededOutcome runId claim finalResponse now =>
    .applySucceededOutcome runId claim finalResponse now
  | .resolve id (.approve resolver note) now => .approveRequest id resolver note now
  | .resolve id (.reject resolver note) now => .rejectRequest id resolver note now
  | .resolve id (.cancel note) now => .cancelApproval id note now
  | .resolve id .expire now => .expireApproval id now

/-- A call that will write, with the rows it has loaded. -/
inductive RunCall where
  | complete (run : Run) (now : Time)
  | fail (run : Run) (failure : Failure) (now : Time)
  | cancel (run : Run) (now : Time)
  | applyFailed (run : Run) (claim : ClaimTriple) (failure : Failure) (ids : RetryIds) (now : Time)
  | applySucceeded (run : Run) (claim : ClaimTriple) (finalResponse : Option (String × JsonValue)) (now : Time)
  | resolve (approval : ApprovalRequest) (run : Option Run) (step : Option RunStep) (by_ : Resolution) (now : Time)

/-- The run `CancelRun` is about: the named one, or the latest attempt when that has ended. -/
def readCancel (db : Db) (run : Run) (now : Time) : Result (Option RunCall) :=
  if run.status = .cancelled then return none
  else if run.status.isTerminal then
    match db.runs.getLatestForExecution run.executionId with
    | none => .error (.entityConflict "run is terminal")
    | some latest =>
      if latest.status.isTerminal then .error (.entityConflict "run is terminal") else return some (.cancel latest now)
  else do
    require (!(ownsRunningWorkflow db run.id && run.status = .waitingForWorkflow))
      .workflowCancelNotSupportedWhileActive
    return some (.cancel run now)

/-- The first half; `none` returns without a write. -/
def readRun (cfg : Config) (db : Db) : RunCommand → Result (Option RunCall)
  | .completeRun runId now => do
    let run ← getRun db runId
    if run.status = .succeeded then return none
    else do
      require (!run.status.isTerminal) (.entityConflict "run is terminal")
      require (run.status = .running) (.entityConflict "run cannot complete")
      require (stepsTerminal db run.id) (.entityConflict "run has non-terminal steps")
      require (toolsTerminal db run.id) (.entityConflict "run has non-terminal tool invocations")
      require (!db.delegationRequests.hasDispatchedForRun run.id) (.entityConflict "run has an active delegation")
      return some (.complete run now)
  | .failRun runId failure now => do
    let run ← getRun db runId
    if run.status = .failed then do
      require (run.failure.any (cfg.failureEq · failure)) (.entityConflict "run failure is immutable")
      return none
    else do
      require (!run.status.isTerminal) (.entityConflict "run is terminal")
      require (run.status = .running) (.entityConflict "run cannot fail")
      return some (.fail run failure now)
  | .cancelRun runId now => do
    let run ← getRun db runId
    readCancel db run now
  | .applyFailedOutcome runId claim failure ids now => do
    let run ← getRun db runId
    return some (.applyFailed run claim failure ids now)
  | .applySucceededOutcome runId claim finalResponse now => do
    let run ← getRun db runId
    require (stepsTerminal db run.id) (.entityConflict "run has non-terminal steps")
    require (toolsTerminal db run.id) (.entityConflict "run has non-terminal tool invocations")
    require (stepsTerminal db runId && toolsTerminal db runId) (.entityConflict "run has non-terminal children")
    require (pendingForRun db.approvals runId).isEmpty (.entityConflict "run has pending approvals")
    require (!db.delegationRequests.hasDispatchedForRun runId) (.entityConflict "run has an active delegation")
    return some (.applySucceeded run claim finalResponse now)
  | .resolve id by_ now => do
    let approval ← getApproval db id
    by_.due approval now
    if approval.status = by_.target then return none
    else do
      require (approval.status = .pending) (.entityConflict "approval request is terminal")
      let run ← approvalRun db approval
      let step ← approvalStep db approval run
      return some (.resolve approval run step by_ now)

/-! ## What is written at the commit -/

/-- The delegation and the skill usage of a run that has ended. -/
def settleEnded (db : Db) (ended : Run) (now : Time) : Result Db := do
  let db ← reconcileChildTerminal db ended now
  materializeSkillUsage db ended.id now

def runSucceededSpec (runId : RunId) : EventSpec :=
  ⟨.runSucceeded, textPayload [("run_id", Uuid.text runId)], none⟩

def runFailedSpec (runId : RunId) (failure : Failure) : EventSpec :=
  ⟨.runFailed, textPayload [("run_id", Uuid.text runId), ("failure_code", failure.code)], none⟩

/-- A step that waits, as it was loaded, goes on. -/
def resumeLoadedStep (cfg : Config) (held : Bool) (db : Db) (approvalId : ApprovalRequestId) :
    Option RunStep → Result Db
  | none => .ok db
  | some step =>
    if step.status = .waitingForApproval ∧ step.approvalRequestId = some approvalId then do
      let resumed ← step.resume
      return saveLoadedStep cfg held db step resumed
    else .ok db

/-- The run waits for this approval, as it was loaded. -/
def waitsFor (run : Run) (approvalId : ApprovalRequestId) : Prop :=
  run.status = .waitingForApproval ∧ run.approvalRequestId = some approvalId
  deriving Decidable

def resumeLoadedRun (cfg : Config) (held : Bool) (db : Db) (a : ApprovalRequest) (run : Run)
    (now : Time) : Result (List EventSpec × Db) :=
  if waitsFor run a.id then do
    let resumed ← run.resume
    return ([⟨.runResumed, textPayload [("run_id", Uuid.text run.id), ("approval_request_id", Uuid.text a.id)],
      a.stepId⟩], enqueueRun (saveLoadedRun cfg held db run resumed) run.id now now)
  else .ok ([], db)

def announceLoaded (cfg : Config) (held : HeldRows) (db : Db) (a : ApprovalRequest)
    (step : Option RunStep) (now : Time) : Option Run → Result Db
  | none => .ok db
  | some run => do
    let db ← resumeLoadedStep cfg held.step db a.id step
    let (specs, db) ← resumeLoadedRun cfg held.run db a run now
    return appendRunEvents db run.id now (⟨.approvalResolved, textPayload [("approval_request_id", Uuid.text a.id),
      ("resolution", a.status.value)], a.stepId⟩ :: specs)

/-- `CompleteRun`, from its first write on; likewise the others. -/
def writeComplete (cfg : Config) (held : Bool) (db : Db) (run : Run) (now : Time) : Result Db := do
  let succeeded ← run.succeed now
  let db := removeItem (saveLoadedRun cfg held db run succeeded) run.id
  settleEnded (appendRunEvents db run.id now [runSucceededSpec run.id]) succeeded now

def writeFail (cfg : Config) (held : Bool) (db : Db) (run : Run) (failure : Failure) (now : Time) :
    Result Db := do
  let failed ← run.fail now failure
  let (specs, db) ← cancelDescendants (saveLoadedRun cfg held db run failed) run.id now
  settleEnded (removeItem (appendRunEvents db run.id now (specs ++ [runFailedSpec run.id failure]))
    run.id) failed now

def writeCancel (cfg : Config) (held : Bool) (db : Db) (run : Run) (now : Time) : Result Db := do
  let cancelled ← run.cancel now
  let db := saveLoadedRun cfg held db run cancelled
  let (approvalSpecs, db) ← cancelApprovals now db (pendingForRun db.approvals run.id)
  let (specs, db) ← cancelDescendants (removeItem db run.id) run.id now
  settleEnded (appendRunEvents db run.id now (runCancelled run.id :: (approvalSpecs ++ specs)))
    cancelled now

def writeApplyFailed (cfg : Config) (held : Bool) (db : Db) (run : Run) (claim : ClaimTriple)
    (failure : Failure) (ids : RetryIds) (now : Time) : Result Db := do
  require (!(db.runs.listForExecution run.executionId).isEmpty) (.notFound "Run" run.id)
  let items ← removeClaimed run.id claim now ("failed outcome lost claim for run " ++
    Uuid.text run.id) db.workQueue
  let failed ← run.fail now failure
  let (specs, db) ← cancelDescendants (saveLoadedRun cfg held { db with workQueue := items } run
    failed) run.id now
  let db ← materializeSkillUsage (appendRunEvents db run.id now (specs ++
    [runFailedSpec run.id failure])) run.id now
  retryOrReconcile cfg db failed failure ids now

def writeApplySucceeded (cfg : Config) (held : Bool) (db : Db) (run : Run) (claim : ClaimTriple)
    (finalResponse : Option (String × JsonValue)) (now : Time) : Result Db := do
  let items ← removeClaimed run.id claim now ("successful outcome lost claim for run " ++
    Uuid.text run.id) db.workQueue
  let succeeded ← run.succeed now
  let db := saveLoadedRun cfg held { db with workQueue := items } run succeeded
  settleEnded (appendRunEvents db run.id now (finishedSpecs finalResponse ++
    [runSucceededSpec run.id])) succeeded now

def writeResolve (cfg : Config) (held : HeldRows) (db : Db) (approval : ApprovalRequest)
    (run : Option Run) (step : Option RunStep) (by_ : Resolution) (now : Time) : Result Db := do
  let resolved ← transitionApproval approval by_.target now by_.resolver by_.note
  let approvals := saveLoadedApproval held.approval db.approvals approval resolved
  announceLoaded cfg held { db with approvals := approvals } resolved step now run

/-- The second half. -/
def writeRun (cfg : Config) (db : Db) (call : RunCall) (held : HeldRows) : Result Db :=
  match call with
  | .complete run now => writeComplete cfg held.run db run now
  | .fail run failure now => writeFail cfg held.run db run failure now
  | .cancel run now => writeCancel cfg held.run db run now
  | .applyFailed run claim failure ids now =>
    writeApplyFailed cfg held.run db run claim failure ids now
  | .applySucceeded run claim finalResponse now =>
    writeApplySucceeded cfg held.run db run claim finalResponse now
  | .resolve approval run step by_ now => writeResolve cfg held db approval run step by_ now

/-- The run a call writes. -/
def RunCall.writes : RunCall → Option Run
  | .complete run _ | .fail run _ _ | .cancel run _ | .applyFailed run _ _ _ _ | .applySucceeded run _ _ _ => some run
  | .resolve approval run _ _ _ => run.filter (waitsFor · approval.id)

/-! ## With nothing in between, the two halves are the use case -/

section
variable {cfg : Config} {held : Bool} {db : Db}

theorem saveLoadedRun_loaded {loaded saved : Run} (h : db.runs.get? loaded.id = some loaded) (hid : saved.id = loaded.id)
    (hfailure : loaded.failure = none ∨ saved.failure = loaded.failure) :
    saveLoadedRun cfg held db loaded saved = saveRun db saved := by
  unfold saveLoadedRun
  rw [h]
  cases held with
  | true => exact congrArg (saveRun db) (flushRun_loaded _ hid hfailure)
  | false => simp [writtenRun, ← hid]

theorem saveLoadedStep_loaded {loaded saved : RunStep} (h : db.steps.get? loaded.id = some loaded)
    (hid : saved.id = loaded.id) (hfailure : saved.failure = loaded.failure) :
    saveLoadedStep cfg held db loaded saved = { db with steps := db.steps.put saved } := by
  have hsame : changedFailure cfg.failureEq loaded.failure saved.failure loaded.failure = saved.failure := by
    rw [hfailure]
    cases loaded.failure with
    | none => rfl
    | some f => exact ite_self _
  unfold saveLoadedStep
  rw [h]
  cases held <;> simp [writtenStep, ← hid, hsame]

end

section
variable {cfg : Config} {db : Db} {held : HeldRows}

/-- Reading `p` and writing at once leaves what `q` leaves. -/
def Together {β : Type} (cfg : Config) (db : Db) (held : HeldRows) (p : Result (Option RunCall))
    (q : Result (β × Db)) : Prop :=
  (p.toOption.join.bind fun call => (writeRun cfg db call held).toOption).getD db =
    (q.map (·.2)).toOption.getD db

theorem Together.bind {α β : Type} {x : Result α} {f : α → Result (Option RunCall)}
    {g : α → Result (β × Db)} (h : ∀ a, x = .ok a → Together cfg db held (f a) (g a)) :
    Together cfg db held (x >>= f) (x >>= g) := by
  cases x with
  | error e => rfl
  | ok a => exact h a rfl

theorem Together.returns {β : Type} {b : β} : Together cfg db held (pure none) (pure (b, db)) := rfl

theorem Together.writes {β : Type} {call : RunCall} {q : Result (β × Db)}
    (h : writeRun cfg db call held = q.map (·.2)) : Together cfg db held (pure (some call)) q := by
  unfold Together
  rw [← h]
  rfl

variable {runId : RunId} {now : Time} {a : ApprovalRequest}

theorem transitionApproval_same {a' : ApprovalRequest} {target : ApprovalStatus}
    {resolver note : Option String} (h : transitionApproval a target now resolver note = .ok a') :
    a.status = .pending ∧ a'.id = a.id ∧ a'.requestedInput = a.requestedInput := by
  have hresolve : ∀ {t r n}, a.resolve t now r n = .ok a' →
      a.status = .pending ∧ a'.id = a.id ∧ a'.requestedInput = a.requestedInput := by
    intro t r n h
    refine ⟨(ApprovalRequest.resolve_eq_ok h).1, ?_⟩
    obtain ⟨_, _, h⟩ := bind_rest₂ h
    cases h
    exact ⟨rfl, rfl⟩
  unfold transitionApproval at h
  split at h
  · obtain ⟨_, h⟩ := bind_rest h
    exact hresolve h
  · obtain ⟨_, h⟩ := bind_rest h
    exact hresolve h
  · exact hresolve h
  · exact hresolve h
  · cases h

/-- A step the approval names is stored. -/
theorem approvalStep_stored {run : Option Run} {step : RunStep}
    (h : approvalStep db a run = .ok (some step)) : db.steps.get? step.id = some step := by
  unfold approvalStep at h
  split at h
  · cases h
  · next stepId _ =>
    obtain ⟨_, h⟩ := bind_rest h
    obtain ⟨s, hs, h⟩ := bind_ok h
    obtain ⟨_, h⟩ := bind_rest h
    cases h
    exact (Table.row_of_get? (found_eq_ok.1 hs)).1

theorem resumeStep_halves {held : Bool} {id : ApprovalRequestId} {step : Option RunStep}
    (h : ∀ x, step = some x → db.steps.get? x.id = some x) :
    resumeLoadedStep cfg held db id step = resumeStep db id step := by
  cases step with
  | none => rfl
  | some step =>
    show (if _ then _ else _) = if _ then _ else _
    split
    · cases hr : step.resume with
      | error e => rfl
      | ok resumed =>
        obtain ⟨hid, hfailure⟩ : resumed.id = step.id ∧ resumed.failure = step.failure := by
          obtain ⟨_, hr⟩ := bind_rest hr
          cases hr
          exact ⟨rfl, rfl⟩
        exact congrArg Except.ok (saveLoadedStep_loaded (h step rfl) hid hfailure)
    · rfl

theorem resumeRun_halves {held : Bool} {run : Run}
    (h : db.runs.get? run.id = some run) :
    resumeLoadedRun cfg held db a run now = resumeRun db a run now := by
  show (if waitsFor run a.id then _ else _) = if waitsFor run a.id then _ else _
  split
  · cases hr : run.resume with
    | error e => rfl
    | ok resumed =>
      obtain ⟨hid, hfailure⟩ : resumed.id = run.id ∧ resumed.failure = run.failure := by
        obtain ⟨-, rfl⟩ := Run.resume_eq_ok.1 hr
        exact ⟨rfl, rfl⟩
      rw [ok_bind rfl, ok_bind rfl, saveLoadedRun_loaded h hid (.inr hfailure)]
  · rfl

theorem resolveApproval_halves {approval : ApprovalRequest} {by_ : Resolution}
    (hget : db.approvals.get? approval.id = some approval) :
    Together cfg db held
      (if approval.status = by_.target then return none
      else do
        require (approval.status = .pending) (.entityConflict "approval request is terminal")
        let run ← approvalRun db approval
        let step ← approvalStep db approval run
        return some (.resolve approval run step by_ now))
      (resolveApproval db approval by_.target now by_.resolver by_.note) := by
  unfold resolveApproval
  split
  · exact .returns
  · refine .bind fun _ _ => .bind fun run hrun => .bind fun step hstep => .writes ?_
    show writeResolve cfg held db approval run step by_ now = _
    unfold writeResolve
    cases ht : transitionApproval approval by_.target now by_.resolver by_.note with
    | error e => rfl
    | ok resolved =>
      obtain ⟨-, hid, hinput⟩ := transitionApproval_same ht
      have hsaved : saveLoadedApproval held.approval db.approvals approval resolved = db.approvals.put resolved := by
        unfold saveLoadedApproval
        rw [hget]
        cases held.approval <;> simp [writtenApproval, ← hid, ← hinput]
      rw [ok_bind rfl, ok_bind rfl, hsaved]
      dsimp only
      have hannounce : announceLoaded cfg held { db with approvals := db.approvals.put resolved } resolved step now run =
          announceResolution { db with approvals := db.approvals.put resolved } resolved step now run := by
        cases run with
        | none => rfl
        | some run =>
          have hrun : db.runs.get? run.id = some run := by
            rcases approvalRun_eq_ok hrun with ⟨-, h⟩ | ⟨r, -, h, hr⟩
            · cases h
            · cases h
              exact hr
          unfold announceLoaded announceResolution
          dsimp only
          rw [resumeStep_halves fun x hx => approvalStep_stored (hx ▸ hstep)]
          cases h₁ : resumeStep { db with approvals := db.approvals.put resolved } resolved.id step with
          | error e => rfl
          | ok db₁ =>
            have hrun₁ : db₁.runs.get? run.id = some run := by
              rw [resumeStep_frame h₁]
              exact hrun
            rw [ok_bind rfl, ok_bind rfl, resumeRun_halves hrun₁]
      rw [hannounce]
      cases announceResolution { db with approvals := db.approvals.put resolved } resolved step now run <;> rfl

theorem resolve_halves (id : ApprovalRequestId) (by_ : Resolution) (now : Time) :
    ((readRun cfg db (.resolve id by_ now)).toOption.join.bind fun call => (writeRun cfg db call held).toOption).getD db =
      (commit cfg db (RunCommand.resolve id by_ now).action).getD db := by
  have hload : ∀ {approval : ApprovalRequest}, getApproval db id = .ok approval →
      db.approvals.get? approval.id = some approval := fun h => (Table.row_of_get? (found_eq_ok.1 h)).1
  cases by_ with
  | approve resolver note | reject resolver note | cancel note =>
    exact Together.bind fun approval hget => resolveApproval_halves (hload hget)
  | expire =>
    exact Together.bind fun approval hget => Together.bind fun _ _ => resolveApproval_halves (hload hget)

end

/-! ## The system -/

def runCalls (cfg : Config) : Protocol Db RunCommand RunCall HeldRows RunAction where
  atomic := commit cfg
  read db c := (readRun cfg db c).toOption.join
  write db call held := (writeRun cfg db call held).toOption

abbrev CallStep := Action RunCommand HeldRows RunAction

/-- Any number of these calls between their two halves, beside every use case in one transaction. -/
def splitRuns (cfg : Config) : System (State Db RunCall) CallStep :=
  (runCalls cfg).system (fun db => db.toCore = .empty ∧ db.events = []) tellsElsewhere

def runSample (s : State Db RunCall) (steps : List CallStep) : State Db RunCall :=
  System.run (runCalls sampleConfig).step s steps

end Friday.Runs
