import FridayAssistant.Runs.Effects
/-!
# What approvals, delegations and workers write

The use cases of approval_workflow.py, delegation_use_cases.py and run_worker.py, as in `Effects`.
-/
namespace Friday.Runs
open Tables Table PyJson Queue Relation Replay

variable {db db' : Db} {runId k : RunId} {r run : Run} {now : Time} {ids : RetryIds}
  {claim : ClaimTriple} {message : String} {taskId : TaskId} {q : DelegationRequest}
  {failure : Failure} {cfg : Config} {id : ApprovalRequestId} {a : ApprovalRequest}
  {c : RequestApprovalCommand} {p : RunWorkItem → Bool} {g : Guard} {R : RunId → Prop}
  {F A S : Prop}

/-! ## Approvals -/

theorem parkStep_frame {step : Option RunStep} (h : parkStep db id step = .ok db') :
    db' = { db with steps := db'.steps } := by
  unfold parkStep at h
  split at h
  · cases h; rfl
  · obtain ⟨_, h⟩ := bind_rest h
    cases h; rfl

theorem parkForApproval_writes {release : WorkItems → Result WorkItems}
    (hrelease : ∀ items, release db.workQueue = .ok items → items = remove db.workQueue c.runId)
    (h : parkForApproval db c id now release = .ok (a, db')) : Writes g R F A S db db' := by
  obtain ⟨run, hrun, _, hrunning, h⟩ := bind_ok₂ h
  obtain ⟨step, -, _, honly, h⟩ := bind_ok₂ h
  obtain ⟨approval, hnew, approvals, hins, h⟩ := bind_ok₂ h
  obtain ⟨waiting, hwait, items, hitems, h⟩ := bind_ok₂ h
  obtain ⟨db₁, hstep, h⟩ := bind_ok h
  cases h
  obtain ⟨hr, hid⟩ := getRun_eq_ok hrun
  obtain ⟨-, howner, hpending⟩ := ApprovalRequest.new_eq_ok hnew
  obtain ⟨hfresh, rfl⟩ := insert_eq_ok.1 hins
  have hframe := parkStep_frame hstep
  have htold := waitForApproval_told hwait
  obtain ⟨-, -, rfl⟩ := Run.waitForApproval_eq_ok.1 hwait
  have hempty : pendingForRun db.approvals run.id = [] := List.isEmpty_iff.1 (require_eq_ok.1 honly)
  refine ⟨?_, ?_, fun _ => ?_⟩
  · rw [appendRunEvents_toCore, hframe, hrelease items hitems, ← hid]
    refine .single (.park hr (of_require hrunning) hfresh hpending ?_ (fun b hb hbr hbp => ?_)
      htold.1 rfl rfl)
    · rw [howner, hid]
      rfl
    · have hmem := mem_pendingForRun.2 ⟨hb, hbr, hbp⟩
      rw [hempty] at hmem
      cases hmem
  · rw [appendRunEvents_journal, hframe]
    exact .single (save_entry hr htold rfl nofun)
  · show db₁.fixed = db.fixed
    rw [hframe]
    rfl

theorem requestToolApproval_writes (h : requestToolApproval db c id claim now = .ok (a, db')) :
    Writes g R F A S db db' := by
  obtain ⟨_, h⟩ := bind_rest h
  exact parkForApproval_writes (fun _ hitems => (removeClaimed_eq_ok hitems).2) h

variable {target : ApprovalStatus} {note resolver : Option String}

theorem transitionApproval_eq_ok {a' : ApprovalRequest}
    (h : transitionApproval a target now resolver note = .ok a') :
    a'.id = a.id ∧ a'.runId = a.runId ∧ a'.status ≠ .pending := by
  unfold transitionApproval at h
  split at h
  · obtain ⟨_, h⟩ := bind_rest h
    obtain ⟨-, hid, howner, -, hs⟩ := ApprovalRequest.resolve_eq_ok h
    exact ⟨hid, howner, by rw [hs]; nofun⟩
  · obtain ⟨_, h⟩ := bind_rest h
    obtain ⟨-, hid, howner, -, hs⟩ := ApprovalRequest.resolve_eq_ok h
    exact ⟨hid, howner, by rw [hs]; nofun⟩
  · obtain ⟨-, hid, howner, -, hs⟩ := ApprovalRequest.resolve_eq_ok h
    exact ⟨hid, howner, by rw [hs]; nofun⟩
  · obtain ⟨-, hid, howner, -, hs⟩ := ApprovalRequest.resolve_eq_ok h
    exact ⟨hid, howner, by rw [hs]; nofun⟩
  · cases h

theorem resumeStep_frame {step : Option RunStep} (h : resumeStep db id step = .ok db') :
    db' = { db with steps := db'.steps } := by
  unfold resumeStep at h
  split at h
  · cases h; rfl
  · split at h
    · obtain ⟨_, h⟩ := bind_rest h
      cases h; rfl
    · cases h; rfl

theorem approvalRun_eq_ok {run : Option Run} (h : approvalRun db a = .ok run) :
    (a.runId = none ∧ run = none) ∨ ∃ r, a.runId = some r.id ∧ run = some r ∧ db.runs.get? r.id = some r := by
  unfold approvalRun at h
  split at h
  · next hnone => cases h; exact .inl ⟨hnone, rfl⟩
  · next runId hsome =>
    obtain ⟨r, hr, h⟩ := bind_ok h
    cases h
    obtain ⟨hr, hid⟩ := getRun_eq_ok hr
    exact .inr ⟨r, by rw [hsome, hid], rfl, hr⟩

/-- A resumption by an approval names no delegation. -/
theorem resumeRun_entries (hA : A) (spec : EventSpec) {specs : List EventSpec}
    (hrun : db.runs.get? run.id = some run) (hsilent : spec.type.isLifecycle = false)
    (h : resumeRun db a run now = .ok (specs, db')) :
    Entries R F A db.journal (db'.journal.append run.id now (spec :: specs)) := by
  unfold resumeRun at h
  split at h
  · obtain ⟨resumed, hresume, h⟩ := bind_ok h
    cases h
    have hm : marks [spec, ⟨.runResumed, textPayload [("run_id", Uuid.text run.id),
        ("approval_request_id", Uuid.text a.id)], a.stepId⟩] = [.runResumed] := by
      rw [marks_cons, if_neg (by rw [hsilent]; exact Bool.false_ne_true)]
      rfl
    have htold := resume_told hresume
    refine .single (.save hrun htold.1 (by rw [hm, replay_singleton]; exact htold.2) ?_ (.inr hA))
    have hplain : isPlain spec = true := by
      have hne : spec.type ≠ .runResumed := fun e => by rw [e] at hsilent; cases hsilent
      simp [isPlain, hne]
    rw [List.all_cons, hplain]
    rfl
  · cases h
    exact .single (.note (by rw [marks_cons, if_neg (by rw [hsilent]; exact Bool.false_ne_true)]; rfl))

theorem resumeRun_fixed {specs : List EventSpec} (h : resumeRun db a run now = .ok (specs, db')) :
    db'.fixed = db.fixed := by
  unfold resumeRun at h
  split at h
  · obtain ⟨_, h⟩ := bind_rest h
    cases h; rfl
  · cases h; rfl

theorem resolveApproval_writes {b : ApprovalRequest} (hA : A)
    (ha : db.approvals.get? a.id = some a)
    (h : resolveApproval db a target now resolver note = .ok (b, db')) :
    Writes g R F A S db db' := by
  unfold resolveApproval at h
  split at h
  · cases h; exact .refl db
  · obtain ⟨_, hpending, run, hrun, h⟩ := bind_ok₂ h
    obtain ⟨step, -, resolved, hres, h⟩ := bind_ok₂ h
    obtain ⟨db₁, hann, h⟩ := bind_ok h
    cases h
    obtain ⟨hid, howner, hdone⟩ := transitionApproval_eq_ok hres
    have hp := of_require hpending
    rcases approvalRun_eq_ok hrun with ⟨hnone, rfl⟩ | ⟨r, hof, rfl, hr⟩
    · cases hann
      exact ⟨.single (.resolve ha hp hid howner hdone fun r hr => by rw [hnone] at hr; cases hr), .refl, fun _ => rfl⟩
    · obtain ⟨db₂, hstep, ⟨specs, db₃⟩, hresume, hann⟩ := bind_ok₂ hann
      cases hann
      have hframe := resumeStep_frame hstep
      have hr₂ : db₂.runs.get? r.id = some r := by rw [hframe]; exact hr
      refine ⟨?_, ?_, fun _ => (resumeRun_fixed hresume).trans (by rw [hframe]; rfl)⟩
      · rw [appendRunEvents_toCore]
        unfold resumeRun at hresume
        split at hresume
        · next hw =>
          obtain ⟨r', hr', hresume⟩ := bind_ok hresume
          obtain ⟨-, rfl⟩ := Run.resume_eq_ok.1 hr'
          cases hresume
          rw [enqueueRun_toCore, hframe]
          exact .single (.resume ha hp hid howner hdone hr hof hw.1 (hid ▸ hw.2) ⟨rfl, rfl, rfl, rfl⟩ rfl)
        · next hw =>
          cases hresume
          rw [hframe]
          refine .single (.resolve ha hp hid howner hdone fun x hx hget hwx => hw ?_)
          have hxr : x.id = r.id := Option.some.inj (hx.symm.trans hof)
          rw [hxr, hr] at hget
          cases hget
          exact ⟨hwx.1, hid ▸ hwx.2⟩
      · have hentries := resumeRun_entries (R := R) (F := F) hA ⟨.approvalResolved, textPayload [("approval_request_id",
          Uuid.text b.id), ("resolution", b.status.value)], b.stepId⟩ hr₂ rfl hresume
        rw [hframe] at hentries
        exact hentries

theorem getApproval_eq_ok (h : getApproval db id = .ok a) :
    db.approvals.get? a.id = some a := (row_of_get? (found_eq_ok.1 h)).1

theorem consumeApproval_writes : Writes g R F A S db (consumeApproval db id now) := by
  refine ⟨?_, .refl, fun _ => rfl⟩
  unfold consumeApproval Table.update
  split
  · next a ha =>
    split
    · have hid : a.id = id := key_of_get? ha
      exact .single (.approval (.inr ⟨a, hid ▸ ha, rfl, rfl⟩))
    · exact .refl
  · exact .refl

theorem subjectApproval_writes (hallowed : g.subject db.toCore a)
    (h : subjectApproval db a = .ok db') : Writes g R F A S db db' := by
  obtain ⟨_, hnone, h⟩ := bind_ok h
  cases h
  obtain ⟨hnew, hold⟩ := Bool.and_eq_true_iff.1 (require_eq_ok.1 hnone)
  refine ⟨.single (.approval (.inl ⟨Option.isNone_iff_eq_none.1 hnew, fun b hb => ?_, hallowed⟩)),
    .refl, fun _ => rfl⟩
  rw [hb] at hold
  exact Option.isNone_iff_eq_none.1 hold

/-! ## Delegations -/

theorem createDelegationRequest_writes {i : DelegationIntent} {target : AgentId}
    {id : DelegationRequestId} (hallowed : g.request)
    (h : createDelegationRequest cfg db i target id now = .ok (q, db')) :
    Writes g R F A S db db' := by
  obtain ⟨_, _, _, h⟩ := bind_rest₃ h
  obtain ⟨_, h⟩ := bind_rest h
  obtain ⟨request, hnew, requests, hadd, h⟩ := bind_ok₂ h
  cases h
  obtain ⟨-, -, hs, htask, hrun⟩ := DelegationRequest.new_eq_ok hnew
  obtain ⟨hfresh, rfl⟩ := DelegationRequests.add_eq_ok hadd
  exact ⟨.single (.request hfresh hs htask hrun hallowed), .single (.request hfresh), fun _ => rfl⟩

theorem materializeDelegation_writes {parent : Run} {request : DelegationRequest}
    {ids : DispatchIds} (hS : ¬S) (hallowed : g.request)
    (hparent : db.runs.get? parent.id = some parent) (howner : request.parentRunId = parent.id)
    (h : materializeDelegation db parent request ids claim now = .ok (q, db')) :
    Writes g R F A S db db' := by
  obtain ⟨db₁, hchild, dispatched, hdis, h⟩ := bind_ok₂ h
  obtain ⟨requests, hadd, waiting, hwait, h⟩ := bind_ok₂ h
  obtain ⟨items, hitems, h⟩ := bind_ok h
  cases h
  have hq := DelegationRequest.dispatch_eq_ok hdis
  obtain ⟨hfreshRequest, rfl⟩ := DelegationRequests.add_eq_ok hadd
  have htold := waitForDelegation_told hwait
  obtain ⟨hrunning, -, rfl⟩ := Run.waitForDelegation_eq_ok.1 hwait
  obtain ⟨-, rfl⟩ := removeClaimed_eq_ok hitems
  obtain ⟨hfresh, hcore⟩ := startChild_core hchild
  have hparent₁ : db₁.runs.get? parent.id = some parent := by
    rw [hcore]
    exact get?_put_fresh hfresh hparent
  refine ⟨?_, ?_, fun hs => absurd hs hS⟩
  · rw [congrArg Core.delegationRequests hcore] at hfreshRequest
    rw [appendRunEvents_toCore, hcore]
    -- the child task is bound first, the rest is one move
    let bound : Core := { db.toCore with
      taskAgentBindings := db.taskAgentBindings.replace ids.childTaskId (some ⟨ids.childTaskId, request.targetAgentId, now⟩) }
    refine .tail (b := bound) (.single .bind) (.dispatch hparent hrunning hfresh rfl rfl hfreshRequest ?_ ?_ ?_ ?_ ?_
      htold.1 rfl rfl hallowed)
    · rw [hq]
    · rw [hq]; exact howner
    · rw [hq]; rfl
    · rw [hq]; rfl
    · show ((Table.put _ _).get? ids.childTaskId).isSome = true
      rw [get?_put, key_taskAgentBinding, if_pos rfl]
      rfl
  · refine (startChild_entries hchild).trans (.head (.request hfreshRequest) (.single ?_))
    exact save_entry (j := db₁.journal.withRequest q) hparent₁ htold rfl nofun

theorem dispatchDelegation_writes {i : DelegationIntent} {targetKey : String} {ids : DispatchIds}
    (hS : ¬S) (hallowed : g.request)
    (h : dispatchDelegation cfg db i targetKey ids claim now = .ok (q, db')) :
    Writes g R F A S db db' := by
  obtain ⟨_, h⟩ := bind_rest h
  obtain ⟨parent, hparent, h⟩ := bind_ok h
  obtain ⟨_, h⟩ := bind_rest h
  obtain ⟨⟨root, depth⟩, -, h⟩ := bind_ok h
  obtain ⟨_, _, _, h⟩ := bind_rest₃ h
  obtain ⟨agent, -, request, hnew, h⟩ := bind_ok₂ h
  obtain ⟨hr, hid⟩ := getRun_eq_ok hparent
  obtain ⟨-, howner, -⟩ := DelegationRequest.new_eq_ok hnew
  exact materializeDelegation_writes hS hallowed hr (howner.trans hid.symm) h

theorem replaceTaskAgent_writes {agentId : Option AgentId} {b : Option TaskAgentBinding} (hS : ¬S)
    (h : replaceTaskAgent db taskId agentId now = .ok (b, db')) : Writes g R F A S db db' := by
  obtain ⟨_, _, _, h⟩ := bind_rest₃ h
  obtain ⟨_, hfree, binding, hnew, h⟩ := bind_ok₂ h
  cases h
  refine ⟨?_, .refl, fun hs => absurd hs hS⟩
  cases agentId with
  | none =>
    cases hnew
    exact .single (.unbind (require_eq_ok.1 hfree))
  | some agentId =>
    obtain ⟨_, _, hnew⟩ := bind_rest₂ hnew
    cases hnew
    exact .single .bind

/-! ## Workers -/

/-- A conditional `UPDATE` of the queue adds and removes nothing. -/
theorem queue_update {c : Core} {f : RunWorkItem → RunWorkItem}
    (hf : ∀ r, (f r).runId = r.runId) :
    Move g c { c with workQueue := (c.workQueue.update k p f).2 } :=
  .queue fun k' => .inl (isSome_update c.workQueue k k' p hf)

/-- An item without anything to run goes. -/
theorem queue_remove {c : Core} (hstale : isStale (c.runs.get? k) = true) :
    Move g c { c with workQueue := remove c.workQueue k } := by
  refine .queue fun k' => ?_
  rw [remove, get?_erase]
  split
  · next h => exact .inr ⟨rfl, h ▸ hstale⟩
  · exact .inl rfl

theorem fenced_eq_ok {result : Bool × WorkItems}
    (h : fenced db result message = .ok db') : result = (true, db'.workQueue) ∧
      db' = { db with workQueue := result.2 } := by
  unfold fenced at h
  split at h
  · cases h; exact ⟨rfl, rfl⟩
  · cases h

theorem deleteIf_moves (hstale : isStale (db.runs.get? k) = true) :
    Moves g db.toCore { db.toCore with workQueue := (db.workQueue.deleteIf k p).2 } := by
  unfold Table.deleteIf
  split
  · exact .single (queue_remove hstale)
  · exact .refl

theorem recoverItems_moves : ∀ (items : List RunWorkItem) (db : Db),
    Moves g db.toCore (recoverItems now db items).toCore
  | [], _ => .refl
  | item :: items, db => by
    refine .trans ?_ (recoverItems_moves items _)
    dsimp only
    split
    · next hstale => exact deleteIf_moves hstale
    · exact .single (queue_update fun _ => rfl)

theorem recoverItems_fixed : ∀ (items : List RunWorkItem) (db : Db),
    (recoverItems now db items).fixed = db.fixed
  | [], _ => rfl
  | _ :: items, _ => recoverItems_fixed items _

theorem recoverItems_journal : ∀ (items : List RunWorkItem) (db : Db),
    (recoverItems now db items).journal = db.journal
  | [], _ => rfl
  | _ :: items, _ => recoverItems_journal items _

theorem beginClaimed_writes (hrun : db.runs.get? run.id = some run)
    (h : beginClaimed db run now = .ok db') : Writes g R F A S db db' := by
  unfold beginClaimed at h
  split at h
  · next hq =>
    obtain ⟨started, hs, h⟩ := bind_ok h
    have htold := start_told hs
    obtain ⟨-, rfl⟩ := Run.start_eq_ok.1 hs
    cases h
    exact ⟨.single (.start hrun hq htold.1 rfl), .single (save_entry hrun htold rfl nofun), fun _ => rfl⟩
  · cases h; exact .refl db

/-- Only the first candidate with something to run is started, and only when it was never
started. -/
theorem claimFirst_writes {q : ClaimRequest} : ∀ {candidates : List RunWorkItem} {db db' : Db}
    {result : Option RunClaimResult}, claimFirst q now db candidates = .ok (result, db') → Writes g R F A S db db'
  | [], db, _, _, h => by cases h; exact .refl db
  | candidate :: rest, db, db', result, h => by
    unfold claimFirst at h
    have hclaim : Move g db.toCore { db.toCore with workQueue := (tryClaim db.workQueue candidate.runId q.workerId
      (q.token candidate.runId) now (now + q.leaseDuration)).2 } := queue_update fun _ => rfl
    split at h
    · exact claimFirst_writes h
    · next items hitems =>
      rw [hitems] at hclaim
      have hdrop : ∀ {result : Option RunClaimResult}, isStale (db.runs.get? candidate.runId) = true → claimFirst q now
          { db with workQueue := remove items candidate.runId } rest = .ok (result, db') → Writes g R F A S db db' := by
        intro result hstale h
        obtain ⟨hmoves, hentries, hfixed⟩ := claimFirst_writes h
        exact ⟨.head hclaim (.head (queue_remove (c := { db.toCore with workQueue := items })
          hstale) hmoves), hentries, hfixed⟩
      split at h
      · next hnone => exact hdrop (by simp [hnone, isStale]) h
      · next run hrun =>
        split at h
        · next hstale => exact hdrop (by simpa [hrun] using hstale) h
        · obtain ⟨⟨_, db₁⟩, hc, h⟩ := bind_ok h
          obtain ⟨db₂, hbegin, hc⟩ := bind_ok hc
          obtain ⟨_, hc⟩ := bind_rest hc
          cases hc
          cases h
          have hid : run.id = candidate.runId := key_of_get? hrun
          obtain ⟨hmoves, hentries, hfixed⟩ :=
            beginClaimed_writes (g := g) (R := R) (F := F) (A := A) (S := S) (by rw [hid]; exact hrun) hbegin
          exact ⟨.head hclaim hmoves, hentries, hfixed⟩

theorem mayEnd_of_claim {items : WorkItems}
    (hfrom : run.status = .running ∨ run.status = .waitingForWorkflow)
    (hitems : removeClaimed run.id claim now message db.workQueue = .ok items) :
    MayEnd db.toCore run := by
  rcases hfrom with hs | hs
  · exact .inl hs
  · exact .inr ⟨hs, (removeClaimed_eq_ok hitems).1⟩

/-- The next attempt is queued, or the delegation is settled. -/
theorem retryOrReconcile_eq_ok (h : retryOrReconcile cfg db run failure ids now = .ok db') :
    (cfg.retryPolicy.isRetryAllowed (db.runs.ordinalForExecution run.id) failure = true ∧
      ∃ availableAt, addRetry db run ids availableAt now = .ok db') ∨ reconcileChildTerminal db run now = .ok db' := by
  unfold retryOrReconcile at h
  dsimp only at h
  split at h
  · next hallowed => exact .inl ⟨hallowed, _, h⟩
  · exact .inr h

section
variable (h : applyFailedOutcome cfg db runId claim failure ids now = .ok (r, db'))
include h

/-- **`ApplyFailedOutcome`**: the claimed run fails; then its next attempt is queued, if the policy
allows one for its ordinal, or the delegation is settled. -/
theorem applyFailedOutcome_eq_ok :
    ∃ run mid specs, db.runs.get? run.id = some run ∧ run.id = runId ∧ MayEnd db.toCore run ∧
      Told run .runFailed r ∧ r.status = .failed ∧ marks specs = [.runFailed] ∧
      mid.toCore = (db.toCore.withRun r).dropItem run.id ∧
      mid.journal = (db.journal.withRun r).append run.id now specs ∧ mid.fixed = db.fixed ∧
      retryOrReconcile cfg mid r failure ids now = .ok db' := by
  obtain ⟨run, hrun, h⟩ := bind_ok h
  obtain ⟨_, h⟩ := bind_rest h
  obtain ⟨items, hitems, ⟨failed, specs, db₁⟩, hfail, h⟩ := bind_ok₂ h
  obtain ⟨db₂, hskill, db₃, hretry, h⟩ := bind_ok₂ h
  cases h
  obtain ⟨hr, rfl⟩ := getRun_eq_ok hrun
  obtain ⟨hfrom, htold, hstatus, hcore, hj, hfixed, hm⟩ := failRunEventSpecs_writes hfail
  have hmay := mayEnd_of_claim hfrom hitems
  obtain ⟨-, rfl⟩ := removeClaimed_eq_ok hitems
  refine ⟨run, db₂, specs, hr, rfl, hmay, htold, hstatus, hm, ?_, ?_,
    (materializeSkillUsage_fixed hskill).trans hfixed, hretry⟩
  · rw [materializeSkillUsage_core hskill, appendRunEvents_toCore, hcore]
    rfl
  · rw [materializeSkillUsage_journal hskill, appendRunEvents_journal, hj]
    rfl

/-- What it does to the tables. -/
theorem applyFailedOutcome_core :
    ∃ run, db.runs.get? run.id = some run ∧ run.id = runId ∧ MayEnd db.toCore run ∧ SameAttempt run r ∧ r.status = .failed ∧
      ((cfg.retryPolicy.isRetryAllowed (RunTable.ordinalForExecution (db.runs.put r)
          r.id) failure = true ∧ db.runs.get? ids.runId = none ∧ ∃ at₁, db'.toCore =
            (((db.toCore.withRun r).dropItem run.id).withRun
              (Run.new ids.runId run.taskId now (some run.executionId))).addItem ids.runId at₁ now) ∨
        db'.toCore = ((db.toCore.withRun r).dropItem run.id).settle run.executionId now) := by
  obtain ⟨run, mid, -, hr, hid, hmay, htold, hstatus, -, hcore, -, -, h⟩ :=
    applyFailedOutcome_eq_ok h
  refine ⟨run, hr, hid, hmay, htold.1, hstatus, ?_⟩
  rcases retryOrReconcile_eq_ok h with ⟨hallowed, _, hretry⟩ | hrec
  · obtain ⟨hfresh, ⟨at₁, hadd⟩, -⟩ := addRetry_writes hretry
    rw [hcore] at hallowed hfresh
    rw [hcore, htold.1.taskId, htold.1.executionId] at hadd
    exact .inl ⟨hallowed, fresh_of_put hfresh, at₁, hadd⟩
  · right
    rw [reconcile_core hrec, hcore, htold.1.executionId]

theorem applyFailedOutcome_writes (clock : NewAttempts g db db') : Writes g R F A S db db' := by
  obtain ⟨run, mid, specs, hr, -, hmay, htold, hstatus, hm, hcore, hj, hfixed, h⟩ :=
    applyFailedOutcome_eq_ok h
  rcases retryOrReconcile_eq_ok h with ⟨-, _, hretry⟩ | hrec
  · obtain ⟨hfresh, ⟨at₁, hadd⟩, ⟨specs', hm', haddj⟩, hafter⟩ := addRetry_writes hretry
    have hnone : db.runs.get? ids.runId = none := by
      rw [hcore] at hfresh
      exact fresh_of_put hfresh
    have hnew : Run.new ids.runId r.taskId now (some r.executionId) ∈ db'.runs.rows := by
      rw [hadd]
      exact mem_of_get? (get?_put_self _ _)
    have hclock := clock _ hnew hnone
    rw [show (Run.new ids.runId r.taskId now (some r.executionId)).executionId = _ from htold.1.executionId] at hclock
    refine ⟨?_, ?_, fun _ => hafter.trans hfixed⟩
    · rw [hadd, hcore]
      exact .single (.finishRetry hr hmay htold.1 hstatus hnone rfl htold.1.taskId htold.1.executionId hclock)
    · rw [haddj, hj]
      exact .single (.failRetry hr htold.live htold.1 hstatus
        (by rw [hm, replay_singleton]; exact htold.2) (plain_of_marks (by rw [hm]; decide))
        (by rw [hm]; decide) hnone rfl htold.1.taskId htold.1.executionId hm')
  · exact finish_writes hr hmay htold nofun (.inr hstatus) hm hcore hj hrec hfixed

end

theorem applySucceededOutcome_writes {response : Option (String × JsonValue)}
    (h : applySucceededOutcome db runId claim response now = .ok (r, db')) :
    Writes g R F A S db db' := by
  obtain ⟨run, hrun, h⟩ := bind_ok h
  obtain ⟨_, _, _, h⟩ := bind_rest₃ h
  obtain ⟨_, _, h⟩ := bind_rest₂ h
  obtain ⟨items, hitems, ⟨succeeded, specs, db₁⟩, hs, h⟩ := bind_ok₂ h
  obtain ⟨db₂, hrec, db₃, hskill, h⟩ := bind_ok₂ h
  cases h
  obtain ⟨hr, rfl⟩ := getRun_eq_ok hrun
  obtain ⟨hfrom, htold, hstatus, hcore, hj, hfixed, hm⟩ := succeedRunEventSpecs_writes hs
  have hmay := mayEnd_of_claim hfrom hitems
  obtain ⟨-, rfl⟩ := removeClaimed_eq_ok hitems
  have hfinished : marks (finishedSpecs response) = [] := by
    rcases response with _ | ⟨summary, details⟩ <;> rfl
  have hmarks : marks (finishedSpecs response ++ specs) = [.runSucceeded] := by
    rw [marks_append, hfinished, hm]; rfl
  refine (finish_writes hr hmay htold nofun (.inl hstatus) hmarks ?_ ?_ hrec hfixed).ledger hskill
  · rw [appendRunEvents_toCore, hcore]; rfl
  · rw [appendRunEvents_journal, hj]; rfl

theorem dropWaitingItem_writes (hrun : db.runs.get? run.id = some run)
    (hwaiting : run.status.isWaiting = true)
    (h : dropWaitingItem db run claim now message = .ok (r, db')) : Writes g R F A S db db' := by
  unfold dropWaitingItem at h
  split at h
  · cases h; exact .refl db
  · obtain ⟨db₁, hf, h⟩ := bind_ok h
    cases h
    rw [(fenced_eq_ok hf).2]
    exact ⟨deleteIf_moves (by simp [hrun, isStale, hwaiting]), .refl, fun _ => rfl⟩

theorem alreadyResumed_eq_ok {stale resolved : String}
    (h : alreadyResumed db run claim stale resolved = .ok (r, db')) : db' = db := by
  unfold alreadyResumed at h
  split at h
  · cases h; rfl
  · split at h <;> cases h

theorem applyWaitingOutcome_writes {approvalId : ApprovalRequestId}
    (h : applyWaitingOutcome db runId claim approvalId now = .ok (r, db')) :
    Writes g R F A S db db' := by
  obtain ⟨run, hrun, h⟩ := bind_ok h
  obtain ⟨_, _, h⟩ := bind_rest₂ h
  split at h
  · rw [alreadyResumed_eq_ok h]
    exact .refl db
  · obtain ⟨_, hw, h⟩ := bind_ok h
    obtain ⟨_, h⟩ := bind_rest h
    have hwaiting := of_require hw
    exact dropWaitingItem_writes (getRun_eq_ok hrun).1 (by rw [hwaiting]; rfl) h

theorem applyWaitingForDelegationOutcome_writes {requestId : DelegationRequestId}
    (h : applyWaitingForDelegationOutcome db runId claim requestId now = .ok (r, db')) :
    Writes g R F A S db db' := by
  obtain ⟨run, hrun, h⟩ := bind_ok h
  obtain ⟨_, _, h⟩ := bind_rest₂ h
  split at h
  · rw [alreadyResumed_eq_ok h]
    exact .refl db
  · obtain ⟨_, hw, h⟩ := bind_ok h
    obtain ⟨_, _, h⟩ := bind_rest₂ h
    have hwaiting := of_require hw
    exact dropWaitingItem_writes (getRun_eq_ok hrun).1 (by rw [hwaiting]; rfl) h

end Friday.Runs
