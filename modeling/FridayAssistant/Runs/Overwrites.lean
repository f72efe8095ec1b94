import FridayAssistant.Runs.SplitRuns
import FridayAssistant.Runs.EventReplay
/-!
# What a commit does to rows that have changed since they were loaded

`Overwrite` says once what the second half of a call does: the run ends over whatever row is
stored by then, ends with a next attempt, or goes on; an approval is resolved. What is known about
the stored row is a parameter, so that each property can say what it needs of it.
-/
namespace Friday.Runs
open Tables Table PyJson Queue Transition Split

/-! ## The row that is written -/

section
variable {cfg : Config} {held : Bool} {db : Db} {loaded saved current : Run}

/-- The written row is the same attempt as the stored one, with the status that was saved. -/
theorem writtenRun_spec (cfg : Config) (held : Bool) (hcurrent : SameAttempt loaded current)
    (hsaved : SameAttempt loaded saved) (hmoved : saved.status ≠ loaded.status) :
    SameAttempt current (writtenRun cfg held loaded saved current) ∧
      (writtenRun cfg held loaded saved current).status = saved.status := by
  cases held with
  | true => exact ⟨flushRun_same _ hsaved current, changed_of_ne hmoved _⟩
  | false =>
    exact ⟨⟨rfl, hsaved.taskId.trans hcurrent.taskId.symm, hsaved.executionId.trans hcurrent.executionId.symm,
      hsaved.createdAt.trans hcurrent.createdAt.symm⟩, rfl⟩

theorem saveLoadedRun_stored (hstored : db.runs.get? loaded.id = some current) :
    saveLoadedRun cfg held db loaded saved = saveRun db (writtenRun cfg held loaded saved current) := by
  unfold saveLoadedRun
  rw [hstored]

/-- Nothing but the row of the approval changes, and it is resolved. -/
theorem saveLoadedApproval_spec (held : Bool) (t : Approvals) {loaded saved : ApprovalRequest}
    (hid : saved.id = loaded.id) (hmoved : saved.status ≠ loaded.status) :
      ∃ written, saveLoadedApproval held t loaded saved = t.put written ∧ written.id = loaded.id ∧
      written.status = saved.status := by
  unfold saveLoadedApproval
  split
  · next current hcurrent =>
    have hkey : current.id = loaded.id := key_of_get? hcurrent
    refine ⟨_, rfl, ?_, ?_⟩ <;> cases held <;> simp [writtenApproval, changed_of_ne hmoved, hkey]
  · exact ⟨saved, rfl, hid, rfl⟩

theorem resumeLoadedStep_frame {db' : Db} {id : ApprovalRequestId} {step : Option RunStep}
    (h : resumeLoadedStep cfg held db id step = .ok db') :
    db' = { db with steps := db'.steps } := by
  unfold resumeLoadedStep at h
  split at h
  · cases h; rfl
  · split at h
    · obtain ⟨resumed, -, h⟩ := bind_ok h
      cases h
      unfold saveLoadedStep
      split <;> rfl
    · cases h; rfl

end

/-! ## The second half of a call -/

/-- The event that tells an end. -/
def endEvent : RunStatus → Option RunEventType
  | .succeeded => some .runSucceeded
  | .failed => some .runFailed
  | .cancelled => some .runCancelled
  | _ => none

/-- What the parent of an approval is told when it goes on. -/
def resumedSpec (runId : RunId) (a : ApprovalRequest) : EventSpec :=
  ⟨.runResumed, textPayload [("run_id", Uuid.text runId), ("approval_request_id", Uuid.text a.id)],
    a.stepId⟩

def resolvedSpec (a : ApprovalRequest) : EventSpec :=
  ⟨.approvalResolved, textPayload [("approval_request_id", Uuid.text a.id),
    ("resolution", a.status.value)], a.stepId⟩

/-- The approval a call resolves. -/
def RunCall.resolves : RunCall → Option ApprovalRequestId
  | .resolve approval _ _ _ _ => some approval.id
  | _ => none

/-- The next attempt a call may create. -/
def RunCall.next : RunCall → Option Run
  | .applyFailed run _ _ ids now => some (Run.new ids.runId run.taskId now (some run.executionId))
  | _ => none

/-- A commit over stored rows of which `P` and `S` are known; `N` is known of a next attempt. -/
inductive Overwrite (P N : Run → Prop) (S : ApprovalRequestId → Prop) (db db' : Db) : Prop where
  /-- A run ends for good. -/
  | ended {r r' : Run} {approvals : Approvals} {e : RunEventType} {specs : List EventSpec} {now : Time}
      (stored : db.runs.get? r.id = some r) (known : P r) (same : SameAttempt r r')
      (told : endEvent r'.status = some e) (tells : marks specs = [e])
      (cancelled : approvals = db.approvals ∨ ApprovalsCancelled db.approvals approvals r.id)
      (core : db'.toCore =
        ((({ db.toCore with approvals := approvals }).withRun r').dropItem r.id).settle r.executionId now)
      (journal : ∀ R F A, Entries R F A ((db.journal.withRun r').append r.id now specs) db'.journal)
  /-- A run fails and its next attempt is queued. -/
  | retried {r r' n : Run} {specs specs' : List EventSpec} {at₁ now : Time} (stored : db.runs.get? r.id = some r)
      (known : P r) (same : SameAttempt r r') (failed : r'.status = .failed) (tells : marks specs = [.runFailed])
      (fresh : db.runs.get? n.id = none) (queued : n.status = .queued) (task : n.taskId = r.taskId)
      (execution : n.executionId = r.executionId) (next : N n) (tells' : marks specs' = [.runCreated])
      (core : db'.toCore = (((db.toCore.withRun r').dropItem r.id).withRun n).addItem n.id at₁ now)
      (journal : db'.journal = (((db.journal.withRun r').append r.id now specs).withRun n).append n.id now specs')
  /-- An approval is resolved and a run goes on. -/
  | resumed {r r' : Run} {a resolved : ApprovalRequest} {now : Time} (stored : db.runs.get? r.id = some r) (known : P r)
      (same : SameAttempt r r') (running : r'.status = .running) (settles : S a.id)
      (final : a.status ≠ .pending) (id : resolved.id = a.id)
      (core : db'.toCore = (({ db.toCore with approvals := db.approvals.put a }).withRun r').addItem r.id now now)
      (journal : db'.journal =
        (db.journal.withRun r').append r.id now [resolvedSpec resolved, resumedSpec r.id resolved])
  /-- An approval is resolved for which nothing waits. -/
  | resolved {a : ApprovalRequest} (settles : S a.id) (final : a.status ≠ .pending)
      (core : db'.toCore = { db.toCore with approvals := db.approvals.put a })
      (journal : db'.journal = db.journal ∨
        ∃ runId now b, db'.journal = db.journal.append runId now [resolvedSpec b])

section
variable {cfg : Config} {db db' : Db} {P N : Run → Prop} {S : ApprovalRequestId → Prop}
  {held : Bool} {run current : Run} {now : Time}

variable {s : RunStatus} {saved : Run} {failure : Failure}

theorem isTerminal_of_endEvent {e : RunEventType} (h : endEvent s = some e) :
    s.isTerminal = true := by
  cases s <;> first | rfl | cases h

theorem succeed_effect (h : run.succeed now = .ok saved) : Told run .runSucceeded saved ∧
    saved.status = .succeeded := by
  refine ⟨succeed_told h, ?_⟩
  obtain ⟨-, -, rfl⟩ := Run.succeed_eq_ok.1 h
  rfl

theorem fail_effect (h : run.fail now failure = .ok saved) : Told run .runFailed saved ∧
    saved.status = .failed := by
  refine ⟨fail_told h, ?_⟩
  obtain ⟨-, -, rfl⟩ := Run.fail_eq_ok.1 h
  rfl

/-- What is written over the stored row when a run that was live ends. -/
theorem writtenRun_ended (cfg : Config) (held : Bool) {e : RunEventType}
    (hsame : SameAttempt run current) (h : Told run e saved ∧ saved.status = s)
    (hs : s.isTerminal = true) : SameAttempt current (writtenRun cfg held run saved current) ∧
      (writtenRun cfg held run saved current).status = s := by
  obtain ⟨htold, hstatus⟩ := h
  have hlive := htold.live
  have hmoved : saved.status ≠ run.status := fun e => by
    rw [← e, hstatus, hs] at hlive
    cases hlive
  obtain ⟨same, hwritten⟩ := writtenRun_spec cfg held hsame htold.1 hmoved
  exact ⟨same, hwritten.trans hstatus⟩

/-- A run that ends and what is settled with it. -/
theorem settleEnded_overwrite (cfg : Config) (held : Bool) {db₁ : Db} {e : RunEventType}
    (approvals : Approvals) (specs : List EventSpec) (hstored : db.runs.get? run.id = some current)
    (hknown : P current) (hsame : SameAttempt run current)
    (hsaved : Told run e saved ∧ saved.status = s) (told : endEvent s = some e) (tells : marks specs = [e])
    (cancelled : approvals = db.approvals ∨ ApprovalsCancelled db.approvals approvals run.id)
      (core : db₁.toCore = (({ db.toCore with approvals := approvals }).withRun
        (writtenRun cfg held run saved current)).dropItem run.id)
    (journal : db₁.journal = (db.journal.withRun (writtenRun cfg held run saved current)).append run.id now specs)
    (h : settleEnded db₁ saved now = .ok db') : Overwrite P N S db db' := by
  obtain ⟨same, hstatus⟩ := writtenRun_ended cfg held hsame hsaved (isTerminal_of_endEvent told)
  obtain ⟨db₂, hrec, hskill⟩ := bind_ok h
  have hcore : db'.toCore = ((({ db.toCore with approvals := approvals }).withRun
      (writtenRun cfg held run saved current)).dropItem run.id).settle run.executionId now := by
    rw [materializeSkillUsage_core hskill, reconcile_core hrec, hsaved.1.1.executionId, core]
  rw [← hsame.executionId] at hcore
  rw [← hsame.id] at hcore hstored journal cancelled
  refine .ended hstored hknown same (by rw [hstatus]; exact told) tells cancelled hcore fun R F A =>
    ?_
  rw [← journal]
  exact afterwards_entries hrec hskill

variable (hstored : db.runs.get? run.id = some current) (hknown : P current)
  (hsame : SameAttempt run current)
include hstored hknown hsame

theorem writeComplete_overwrite (h : writeComplete cfg held db run now = .ok db') :
    Overwrite P N S db db' := by
  obtain ⟨succeeded, hs, h⟩ := bind_ok h
  rw [saveLoadedRun_stored hstored] at h
  exact settleEnded_overwrite cfg held _ _ hstored hknown hsame (succeed_effect hs) rfl rfl
    (.inl rfl) rfl rfl h

theorem writeFail_overwrite (h : writeFail cfg held db run failure now = .ok db') :
    Overwrite P N S db db' := by
  obtain ⟨failed, hf, ⟨specs, db₁⟩, hd, h⟩ := bind_ok₂ h
  rw [saveLoadedRun_stored hstored] at hd
  obtain ⟨hdown, hm⟩ := cancelDescendants_silent hd
  have hj := hdown.journal
  refine settleEnded_overwrite cfg held _ (specs ++ [runFailedSpec run.id failure]) hstored hknown
    hsame (fail_effect hf) rfl ?_ (.inl rfl) ?_ ?_ h
  · rw [marks_append, hm]; rfl
  · rw [removeItem_toCore, appendRunEvents_toCore, cancelDescendants_core hd]
    rfl
  · rw [removeItem_journal, appendRunEvents_journal, hj]
    rfl

theorem writeCancel_overwrite (h : writeCancel cfg held db run now = .ok db') :
    Overwrite P N S db db' := by
  obtain ⟨cancelled, hc, ⟨approvalSpecs, db₁⟩, ha, h⟩ := bind_ok₂ h
  obtain ⟨⟨specs, db₂⟩, hd, h⟩ := bind_ok h
  rw [saveLoadedRun_stored hstored] at ha
  obtain ⟨hdown, hmd⟩ := cancelDescendants_silent hd
  obtain ⟨hframe, hma, -⟩ := cancelApprovals_core ha
  have hcancelled := cancelApprovals_cancelled ha
  refine settleEnded_overwrite cfg held _ (runCancelled run.id :: (approvalSpecs ++ specs)) hstored
    hknown hsame (cancel_effect hc) rfl ?_ (.inr hcancelled) ?_ ?_ h
  · rw [marks_cons, marks_append, hma, hmd]; rfl
  · rw [appendRunEvents_toCore, cancelDescendants_core hd, removeItem_toCore, hframe]
    rfl
  · rw [appendRunEvents_journal, hdown.journal, removeItem_journal, hframe]
    rfl

theorem writeApplySucceeded_overwrite {claim : ClaimTriple} {response : Option (String × JsonValue)}
    (h : writeApplySucceeded cfg held db run claim response now = .ok db') :
    Overwrite P N S db db' := by
  obtain ⟨items, hitems, succeeded, hs, h⟩ := bind_ok₂ h
  have hstored' : ({ db with workQueue := items } : Db).runs.get? run.id = some current := hstored
  rw [saveLoadedRun_stored hstored'] at h
  obtain ⟨-, rfl⟩ := removeClaimed_eq_ok hitems
  have htells : marks (finishedSpecs response ++ [runSucceededSpec run.id]) = [.runSucceeded] := by
    rcases response with _ | ⟨summary, details⟩ <;> rfl
  exact settleEnded_overwrite cfg held _ _ hstored hknown hsame (succeed_effect hs) rfl htells
    (.inl rfl) rfl rfl h

/-- A failure with its retry, or for good. -/
theorem writeApplyFailed_overwrite {claim : ClaimTriple} {ids : RetryIds}
    (hnext : N (Run.new ids.runId run.taskId now (some run.executionId)))
    (h : writeApplyFailed cfg held db run claim failure ids now = .ok db') :
    Overwrite P N S db db' := by
  obtain ⟨_, h⟩ := bind_rest h
  obtain ⟨items, hitems, failed, hf, h⟩ := bind_ok₂ h
  obtain ⟨⟨specs, db₁⟩, hd, h⟩ := bind_ok h
  obtain ⟨db₂, hskill, hretry⟩ := bind_ok h
  have hstored' : ({ db with workQueue := items } : Db).runs.get? run.id = some current := hstored
  rw [saveLoadedRun_stored hstored'] at hd
  obtain ⟨-, rfl⟩ := removeClaimed_eq_ok hitems
  obtain ⟨hdown, hm⟩ := cancelDescendants_silent hd
  have hj := hdown.journal
  obtain ⟨same, hstatus⟩ := writtenRun_ended cfg held hsame (fail_effect hf) rfl
  obtain ⟨⟨hsaved, -⟩, -⟩ := fail_effect hf
  have htells : marks (specs ++ [runFailedSpec run.id failure]) = [.runFailed] := by
    rw [marks_append, hm]; rfl
  have hcore : db₂.toCore = (db.toCore.withRun (writtenRun cfg held run failed current)).dropItem current.id := by
    rw [materializeSkillUsage_core hskill, appendRunEvents_toCore, cancelDescendants_core hd, hsame.id]
    rfl
  have hjournal : db₂.journal = (db.journal.withRun (writtenRun cfg held run failed current)).append
      current.id now (specs ++ [runFailedSpec run.id failure]) := by
    rw [materializeSkillUsage_journal hskill, appendRunEvents_journal, hj, hsame.id]
    rfl
  rw [← hsame.id] at hstored
  rcases retryOrReconcile_eq_ok hretry with ⟨-, _, hretry⟩ | hretry
  · obtain ⟨hfresh, ⟨at₁, hadd⟩, ⟨specs', hm', haddj⟩, -⟩ := addRetry_writes hretry
    have hnone : db.runs.get? ids.runId = none := by
      rw [hcore] at hfresh
      exact fresh_of_put hfresh
    rw [hcore] at hadd
    rw [hjournal] at haddj
    refine .retried hstored hknown same hstatus htells hnone rfl ?_ ?_ ?_ hm' hadd haddj
    · exact hsaved.taskId.trans hsame.taskId.symm
    · exact hsaved.executionId.trans hsame.executionId.symm
    · rw [hsaved.taskId, hsaved.executionId]
      exact hnext
  · have hrec := reconcile_core hretry
    rw [hcore, hsaved.executionId, ← hsame.executionId] at hrec
    refine .ended hstored hknown same (by rw [hstatus]; rfl) htells (.inl rfl) hrec fun R F A => ?_
    rw [← hjournal]
    exact reconcile_entries hretry

end

/-! ## Resolutions -/

theorem resume_effect {run saved : Run} (h : run.resume = .ok saved) :
    SameAttempt run saved ∧ saved.status = .running ∧ saved.status ≠ run.status := by
  obtain ⟨hfrom, rfl⟩ := Run.resume_eq_ok.1 h
  refine ⟨⟨rfl, rfl, rfl, rfl⟩, rfl, fun e => ?_⟩
  rcases hfrom with hfrom | hfrom <;> rw [hfrom] at e <;> cases e

section
variable {cfg : Config} {db db' : Db} {P N : Run → Prop} {S : ApprovalRequestId → Prop}
  {held : HeldRows} {approval : ApprovalRequest} {run : Option Run} {step : Option RunStep}
  {by_ : Resolution} {now : Time}

theorem writeResolve_overwrite
    (hstored : ∀ r ∈ run, waitsFor r approval.id →
      ∃ current, db.runs.get? r.id = some current ∧ SameAttempt r current ∧ P current)
    (hsettles : S approval.id) (h : writeResolve cfg held db approval run step by_ now = .ok db') :
    Overwrite P N S db db' := by
  obtain ⟨resolved, ht, h⟩ := bind_ok h
  obtain ⟨hpending, hid, -⟩ := transitionApproval_same ht
  obtain ⟨-, -, hfinal⟩ := transitionApproval_eq_ok ht
  obtain ⟨written, hput, hkey, hstatus⟩ :=
    saveLoadedApproval_spec held.approval db.approvals hid (by rw [hpending]; exact hfinal)
  rw [hput] at h
  have hwritten : written.status ≠ .pending := by rw [hstatus]; exact hfinal
  have hset : S written.id := by rw [hkey]; exact hsettles
  cases run with
  | none =>
    cases h
    exact .resolved hset hwritten rfl (.inl rfl)
  | some run =>
    obtain ⟨db₁, hstep, ⟨specs, db₂⟩, hresume, h⟩ := bind_ok₂ h
    cases h
    have hframe := resumeLoadedStep_frame hstep
    unfold resumeLoadedRun at hresume
    split at hresume
    · next hwaits =>
      obtain ⟨resumed, hr, hresume⟩ := bind_ok hresume
      cases hresume
      obtain ⟨hsaved, hrunning, hmoved⟩ := resume_effect hr
      rw [hid] at hwaits
      obtain ⟨current, hcurrent, hsame, hknown⟩ := hstored run rfl hwaits
      obtain ⟨same, hs⟩ := writtenRun_spec cfg held.run hsame hsaved hmoved
      have hcurrent₁ : db₁.runs.get? run.id = some current := by rw [hframe]; exact hcurrent
      rw [saveLoadedRun_stored hcurrent₁]
      rw [← hsame.id] at hcurrent
      have hcore : (enqueueRun (saveRun db₁ (writtenRun cfg held.run run resumed current)) run.id
          now now).toCore = (({ db.toCore with approvals := db.approvals.put written }).withRun
            (writtenRun cfg held.run run resumed current)).addItem current.id now now := by
        rw [hframe, hsame.id]
        rfl
      refine .resumed hcurrent hknown same (hs.trans hrunning) hset hwritten (hid.trans hkey.symm) hcore ?_
      rw [appendRunEvents_journal, hframe, hsame.id]
      rfl
    · cases hresume
      refine .resolved hset hwritten ?_ (.inr ⟨run.id, now, resolved, ?_⟩)
      · rw [appendRunEvents_toCore, hframe]
      · rw [appendRunEvents_journal, hframe]
        rfl

end

/-! ## All calls -/

/-- What a call has loaded of the run it writes is still stored, with `P`. -/
def StillStored (P : Run → Prop) (db : Db) (call : RunCall) : Prop :=
  ∀ run ∈ call.writes, ∃ current, db.runs.get? run.id = some current ∧ SameAttempt run current ∧
    P current

variable {cfg : Config} {db db' : Db} {call : RunCall}

variable {N P : Run → Prop} {S : ApprovalRequestId → Prop} {held : HeldRows}

/-- **The second half of every call is an overwrite.** -/
theorem writeRun_overwrite (hloaded : StillStored P db call) (hnext : ∀ n ∈ call.next, N n)
    (hsettles : ∀ id ∈ call.resolves, S id) (h : writeRun cfg db call held = .ok db') :
    Overwrite P N S db db' := by
  cases call with
  | complete run now =>
    obtain ⟨current, hstored, hsame, hknown⟩ := hloaded run rfl
    exact writeComplete_overwrite hstored hknown hsame h
  | fail run failure now =>
    obtain ⟨current, hstored, hsame, hknown⟩ := hloaded run rfl
    exact writeFail_overwrite hstored hknown hsame h
  | cancel run now =>
    obtain ⟨current, hstored, hsame, hknown⟩ := hloaded run rfl
    exact writeCancel_overwrite hstored hknown hsame h
  | applyFailed run claim failure ids now =>
    obtain ⟨current, hstored, hsame, hknown⟩ := hloaded run rfl
    exact writeApplyFailed_overwrite hstored hknown hsame (hnext _ rfl) h
  | applySucceeded run claim finalResponse now =>
    obtain ⟨current, hstored, hsame, hknown⟩ := hloaded run rfl
    exact writeApplySucceeded_overwrite hstored hknown hsame h
  | resolve approval run step by_ now =>
    refine writeResolve_overwrite (fun r hr hwaits => hloaded r ?_) (hsettles _ rfl) h
    exact Option.mem_filter_iff.2 ⟨hr, decide_eq_true hwaits⟩

/-! ## What calls have loaded -/

theorem Overwrite.keeps (h : Overwrite P N S db db') :
    KeepsAttempts db.toCore db'.toCore := by
  cases h with
  | @ended r r' approvals e specs now stored known same told tells cancelled core journal =>
    rw [core]
    have hsaved := KeepsAttempts.save (c := db.toCore) stored same
    exact hsaved.trans (.settle ((({ db.toCore with approvals := approvals }).withRun r').dropItem r.id) _ _)
  | @retried r r' n specs specs' at₁ now stored known same failed tells fresh queued task execution next tells' core journal =>
    rw [core]
    exact (KeepsAttempts.save (c := db.toCore) stored same).trans (.create (fresh_put (same.id ▸ stored) fresh))
  | resumed stored known same running settles final id core journal =>
    rw [core]
    exact KeepsAttempts.save (c := db.toCore) stored same
  | resolved settles final core journal =>
    rw [core]
    exact .refl db.toCore

/-- A call writes a run that was stored when it was read. -/
theorem readRun_stored {c : RunCommand}
    (h : readRun cfg db c = .ok (some call)) : ∀ run ∈ call.writes, db.runs.get? run.id = some run := by
  cases c with
  | completeRun runId now =>
    obtain ⟨run, hrun, h⟩ := bind_ok h
    split at h
    · cases h
    · obtain ⟨_, _, _, h⟩ := bind_rest₃ h
      obtain ⟨_, _, h⟩ := bind_rest₂ h
      cases h
      intro r hr
      cases hr
      exact (getRun_eq_ok hrun).1
  | failRun runId failure now =>
    obtain ⟨run, hrun, h⟩ := bind_ok h
    split at h
    · obtain ⟨_, h⟩ := bind_rest h
      cases h
    · obtain ⟨_, _, h⟩ := bind_rest₂ h
      cases h
      intro r hr
      cases hr
      exact (getRun_eq_ok hrun).1
  | cancelRun runId now =>
    obtain ⟨run, hrun, h⟩ := bind_ok h
    unfold readCancel at h
    split at h
    · cases h
    · split at h
      · split at h
        · cases h
        · next latest hl =>
          split at h
          · cases h
          · cases h
            intro r hr
            cases hr
            exact (RunTable.getLatestForExecution_mem hl).1
      · obtain ⟨_, h⟩ := bind_rest h
        cases h
        intro r hr
        cases hr
        exact (getRun_eq_ok hrun).1
  | applyFailedOutcome runId claim failure ids now =>
    obtain ⟨run, hrun, h⟩ := bind_ok h
    cases h
    intro r hr
    cases hr
    exact (getRun_eq_ok hrun).1
  | applySucceededOutcome runId claim finalResponse now =>
    obtain ⟨run, hrun, h⟩ := bind_ok h
    obtain ⟨_, _, _, h⟩ := bind_rest₃ h
    obtain ⟨_, _, h⟩ := bind_rest₂ h
    cases h
    intro r hr
    cases hr
    exact (getRun_eq_ok hrun).1
  | resolve id by_ now =>
    obtain ⟨approval, -, h⟩ := bind_ok h
    obtain ⟨_, h⟩ := bind_rest h
    split at h
    · cases h
    · obtain ⟨_, h⟩ := bind_rest h
      obtain ⟨run, hrun, step, -, h⟩ := bind_ok₂ h
      cases h
      intro r hr
      have hr := (Option.mem_filter_iff.1 hr).1
      rcases approvalRun_eq_ok hrun with ⟨-, rfl⟩ | ⟨x, -, rfl, hx⟩
      · cases hr
      · cases hr
        exact hx

theorem StillStored.mono (h : StillStored (fun _ => True) db call)
    (hkeeps : KeepsAttempts db.toCore db'.toCore) : StillStored (fun _ => True) db' call := by
  intro run hrun
  obtain ⟨current, hcurrent, hsame, -⟩ := h run hrun
  obtain ⟨later, hlater, hsame'⟩ := hkeeps _ _ hcurrent
  exact ⟨later, hlater, hsame.trans hsame', trivial⟩

theorem commit_keeps {a : RunAction} (h : commit cfg db a = some db') :
    KeepsAttempts db.toCore db'.toCore :=
  .of_moves (act_moves (allowed_free db a) (fun _ _ _ => trivial) (toOption_eq_some.1 h))

/-- An invariant `I` of the database, if the calls under way may rely on their attempts being
stored. -/
theorem reachable_stored {init : Db → Prop} {guard : Db → RunAction → Prop}
    {C : Db → RunCall → Prop} (I : Db → Prop) (hinit : ∀ db, init db → I db)
    (hcommit : ∀ {db a db'}, I db → guard db a → commit cfg db a = some db' → I db')
    (hwrite : ∀ {db call held db'}, I db → StillStored (fun _ => True) db call → C db call →
      writeRun cfg db call held = .ok db' → I db')
    {s : State Db RunCall}
    (h : (((runCalls cfg).system init guard).restrict (AtCommit C)).Reachable s) :
    I s.db ∧ ∀ call ∈ s.calls, StillStored (fun _ => True) s.db call := by
  refine Reachable.split I (StillStored fun _ => True) hinit
    (fun hI hg ha => ⟨hcommit hI hg ha, fun _ hQ => hQ.mono (commit_keeps ha)⟩)
    (fun _ hread run hrun => ?_) (fun hI hQ hC hw => ?_) h
  · have hstored := readRun_stored (toOption_eq_some.1 (Option.join_eq_some_iff.1 hread)) run hrun
    exact ⟨run, hstored, .refl run, trivial⟩
  · have hw := toOption_eq_some.1 hw
    have hover : Overwrite (fun _ => True) (fun _ => True) (fun _ => True) _ _ :=
      writeRun_overwrite hQ (fun _ _ => trivial) (fun _ _ => trivial) hw
    exact ⟨hwrite hI hQ hC hw, fun _ hQ' => hQ'.mono hover.keeps⟩

/-- The queue fence of the two outcome appliers: the claim is still the run's. -/
def RunCall.passes (db : Db) : RunCall → Bool
  | .applyFailed run claim _ _ now | .applySucceeded run claim _ now =>
    isClaimActive db.workQueue run.id claim now
  | _ => true

theorem removeClaimed_active {items items' : WorkItems} {runId : RunId} {claim : ClaimTriple}
    {now : Time} {message : String} (h : removeClaimed runId claim now message items = .ok items') :
    isClaimActive items runId claim now = true := by
  unfold removeClaimed at h
  split at h
  · next hd =>
    obtain ⟨⟨r, hr, hholds⟩, -⟩ := deleteIf_eq_true hd
    unfold isClaimActive
    rw [hr]
    exact hholds
  · cases h

theorem writeRun_passes (h : writeRun cfg db call held = .ok db') : call.passes db = true := by
  cases call with
  | applyFailed run claim failure ids now =>
    obtain ⟨_, h⟩ := bind_rest h
    obtain ⟨items, hitems, -⟩ := bind_ok h
    exact removeClaimed_active hitems
  | applySucceeded run claim finalResponse now =>
    obtain ⟨items, hitems, -⟩ := bind_ok h
    exact removeClaimed_active hitems
  | _ => rfl

end Friday.Runs
