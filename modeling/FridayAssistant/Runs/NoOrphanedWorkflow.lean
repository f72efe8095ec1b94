import FridayAssistant.Runs.NoLostWork
/-!
# No orphaned workflow

While a workflow execution is RUNNING its root run waits for it. `CancelRun` asks for this on
the run it is called on, `CancelTask` on every live run of the task; but `CancelRun` on an ended
attempt goes on to the latest attempt of the same execution without asking
(run_lifecycle.py:234), and cancels a root whose workflow goes on. Every other use case keeps the
property, so a run of the system keeps it exactly as long as no such call is made.
-/
namespace Friday.Runs
open Tables Table Queue Relation Transition

variable {c c' : Core} {E : Prop}

/-- The root of a RUNNING execution waits for it, or, where `E` allows that, has ended (a cancelled
root of a workflow that goes on). -/
def RootWaits (E : Prop) (c : Core) : Prop :=
  ∀ x, c.workflowExecutions.get? x.id = some x → x.status = .running → ∃ r, c.runs.get? x.rootRunId = some r ∧
    (E ∧ r.status.isTerminal = true ∨ r.status = .waitingForWorkflow ∧ r.workflowExecutionId = some x.id)

/-- The latest attempt is not cancelled through an older one while it waits for a RUNNING
workflow. -/
def Guard.spareRoots : Guard where
  attempt _ _ _ := True
  latest c r := ¬(r.status = .waitingForWorkflow ∧ c.OwnsRunningWorkflow r.id)
  viaTask _ _ := True
  viaTask_stable _ _ _ _ := trivial
  request := True

/-! ## What each kind of write keeps -/

variable {r r' : Run} {db db' : Db} {now : Time}

/-- A run may be saved that owns no RUNNING workflow, or has ended. -/
theorem RootWaits.save (h : RootWaits E c) (hr : c.OwnsRunningWorkflow r.id → E ∧
    r.status.isTerminal = true) : RootWaits E (c.withRun r) := by
  intro x hx hs
  rw [Core.get?_withRun]
  split
  · next hid => exact ⟨r, rfl, .inl (hr ⟨x, hx, hid.symm, hs⟩)⟩
  · exact h x hx hs

/-- A run that owns a RUNNING workflow waits for one, or has ended. -/
theorem RootWaits.waits (h : RootWaits E c) (hr : c.runs.get? r.id = some r) (howns : c.OwnsRunningWorkflow r.id) :
    E ∧ r.status.isTerminal = true ∨ r.status = .waitingForWorkflow := by
  obtain ⟨x, hx, hroot, hs⟩ := howns
  obtain ⟨root, hget, hroots⟩ := h x hx hs
  rw [hroot, hr] at hget
  cases hget
  exact hroots.imp_right And.left

theorem RootWaits.free {status : RunStatus} (h : RootWaits E c) (hr : c.runs.get? r.id = some r)
    (hs : r.status = status) (hlive : status.isTerminal = false)
    (hwaits : status ≠ .waitingForWorkflow) : ¬c.OwnsRunningWorkflow r.id := by
  subst hs
  intro howns
  rcases h.waits hr howns with ⟨-, hended⟩ | hw
  · rw [hlive] at hended
    cases hended
  · exact hwaits hw

theorem RootWaits.save_free {status : RunStatus} (h : RootWaits E c)
    (hr : c.runs.get? r.id = some r) (hs : r.status = status) (hlive : status.isTerminal = false)
    (hwaits : status ≠ .waitingForWorkflow) (same : SameAttempt r r') :
    RootWaits E (c.withRun r') :=
  h.save fun howns => absurd (same.id ▸ howns) (h.free hr hs hlive hwaits)

theorem RootWaits.create (h : RootWaits E c) (fresh : c.runs.get? r.id = none) :
    RootWaits E (c.withRun r) := by
  refine h.save fun ⟨x, hx, hroot, hs⟩ => ?_
  obtain ⟨root, hget, -⟩ := h x hx hs
  rw [hroot, fresh] at hget
  cases hget

theorem RootWaits.settle (h : RootWaits E c) (executionId : RunId) (now : Time) :
    RootWaits E (c.settle executionId now) := by
  obtain ⟨_, hs | ⟨p, hp, hwaits, hs⟩⟩ := c.settle_shape executionId now
  · rw [hs]
    exact h
  · rw [hs]
    have hsame : SameAttempt p { p with delegationRequestId := none, status := .running } := ⟨rfl, rfl, rfl, rfl⟩
    exact h.save_free hp hwaits rfl nofun hsame

/-- An execution that ends is off the list. -/
theorem RootWaits.ended {x' : WorkflowExecution} (h : RootWaits E c)
    (hended : x'.status ≠ .running) :
    RootWaits E { c with workflowExecutions := c.workflowExecutions.put x' } := by
  intro y hy hs
  rcases mem_put.1 (mem_of_get? hy) with rfl | ⟨hy, -⟩
  · exact absurd hs hended
  · exact h y (get?_of_mem hy) hs

/-! ## Moves -/

/-- A move keeps the property if the runs that it ends, by themselves or by `CancelRun`, own no
RUNNING workflow or may. -/
theorem RootWaits.move {g : Guard} (h : RootWaits E c)
    (hends : ∀ r, c.runs.get? r.id = some r →
      MayEnd c r ∨ ¬(r.status = .waitingForWorkflow ∧ c.OwnsRunningWorkflow r.id) ∨ g.latest c r →
      c.OwnsRunningWorkflow r.id → E)
    (hm : Move g c c') : RootWaits E c' := by
  cases hm with
  | create fresh _ _ | retry _ _ _ fresh _ _ _ _ => exact h.create fresh
  | start hr live same _ | park hr live _ _ _ _ same _ _ | resume _ _ _ _ _ hr _ live _ same _ =>
    exact h.save_free hr live rfl nofun same
  | queue _ | resolve | approval | request | bind | unbind => exact h
  | @dispatch p p' child q at₁ at₂ hp running fresh _ _ _ _ _ _ _ _ same _ _ =>
    have hchild : RootWaits E (c.withRun child) := h.create fresh
    exact hchild.save_free (get?_put_fresh fresh hp) running rfl nofun same
  | @finish r r' now hr may same ended =>
    have hended : RootWaits E ((c.withRun r').dropItem r.id) := h.save fun howns =>
      ⟨hends r hr (.inl may) (same.id ▸ howns), isTerminal_of_ended ended⟩
    exact hended.settle _ _
  | @finishRetry r r' n at₁ at₂ hr may same ended fresh _ _ _ _ =>
    have hended : RootWaits E (c.withRun r') := h.save fun howns =>
      ⟨hends r hr (.inl may) (same.id ▸ howns), by rw [ended]; rfl⟩
    exact hended.create (fresh_put (by rw [key_run, same.id]; exact hr) fresh)
  | @cancel r r' approvals now hr live allowed same cancelled _ =>
    have hended : RootWaits E (({ c with approvals := approvals }.withRun r').dropItem r.id) := h.save fun howns =>
      ⟨hends r hr (.inr allowed) (same.id ▸ howns), by rw [cancelled]; rfl⟩
    exact hended.settle _ _
  | viaTask hr _ noWorkflow _ same _ =>
    exact h.save fun howns => absurd (same.id ▸ howns) noWorkflow
  | @startWorkflow r r' x hr running fresh owner _ _ same waiting marker =>
    intro y hy hs
    rcases mem_put.1 (mem_of_get? hy) with rfl | ⟨hy, -⟩
    · exact ⟨r', by rw [owner, ← same.id]; exact get?_put_self _ _, .inr ⟨waiting, marker⟩⟩
    · exact h.save_free hr running rfl nofun same y (get?_of_mem hy) hs
  | endWorkflow _ _ _ ended _ => exact h.ended ended
  | @finishWorkflow x x' r r' hx id _ ended hr _ live marker same _ =>
    refine (h.ended ended).save fun howns => ?_
    -- another RUNNING execution of the root would be the one the root's marker names
    obtain ⟨y, hy, hroot, hs⟩ := howns
    rcases mem_put.1 (mem_of_get? hy) with rfl | ⟨hy, hne⟩
    · exact absurd hs ended
    · obtain ⟨root, hget, ⟨-, hended⟩ | ⟨-, hmark⟩⟩ := h y (get?_of_mem hy) hs <;>
        rw [hroot, same.id, hr] at hget <;> cases hget
      · rw [live] at hended
        cases hended
      · rw [marker] at hmark
        exact absurd (id.trans (Option.some.inj hmark)).symm hne

/-- The invariant with the one its proof rests on. -/
structure RootsOk (c : Core) : Prop where
  work : WorkOk c
  roots : RootWaits False c

/-- A run that may end owns no RUNNING workflow: waiting for one, it would have no item. -/
theorem RootsOk.free_of_mayEnd (h : RootsOk c) (hr : c.runs.get? r.id = some r)
    (hmay : MayEnd c r) : ¬c.OwnsRunningWorkflow r.id := by
  rcases hmay with hs | ⟨hs, hitem⟩
  · exact h.roots.free hr hs rfl nofun
  · have hnone := h.work r.id r hr (by rw [hs]; rfl)
    rw [hitem, hs] at hnone
    cases hnone

theorem RootsOk.move (h : RootsOk c) (hm : Move .spareRoots c c') : RootsOk c' := by
  refine ⟨h.work.move hm, h.roots.move (fun r hr hends howns => ?_) hm⟩
  rcases hends with hmay | hnot
  · exact h.free_of_mayEnd hr hmay howns
  · have hwaits := (h.roots.waits hr howns).resolve_left And.left
    exact hnot.elim (· ⟨hwaits, howns⟩) (· ⟨hwaits, howns⟩)

/-! ## Runs of the system -/

/-- Every RUNNING execution has a root that waits for it. -/
def NoOrphan (db : Db) : Prop :=
  ∀ x ∈ db.workflowExecutions.rows, x.status = .running → ∃ root ∈ db.runs.rows,
    root.id = x.rootRunId ∧ root.status = .waitingForWorkflow ∧ root.workflowExecutionId = some x.id
  deriving Decidable

/-- A `CancelRun` on an ended attempt finds no live root of a RUNNING workflow as the latest one. -/
def sparesRoot (db : Db) : RunAction → Bool
  | .cancelRun runId _ =>
    !(db.runs.get? runId).any fun run => run.status.isTerminal && run.status ≠ .cancelled &&
      (db.runs.getLatestForExecution run.executionId).any fun latest =>
        latest.status = .waitingForWorkflow && ownsRunningWorkflow db latest.id
  | _ => true

theorem noOrphan_iff : NoOrphan db ↔ RootWaits False db.toCore := by
  simp only [RootWaits, false_and, false_or]
  constructor
  · intro h x hx hs
    obtain ⟨root, hmem, hid, hrest⟩ := h x (mem_of_get? hx) hs
    exact ⟨root, by rw [← hid]; exact get?_of_mem hmem, hrest⟩
  · intro h x hx hs
    obtain ⟨root, hroot, hrest⟩ := h x (get?_of_mem hx) hs
    exact ⟨root, mem_of_get? hroot, key_of_get? hroot, hrest⟩

theorem allowed_of_sparesRoot {a : RunAction} (h : sparesRoot db a = true) :
    Allowed .spareRoots db a := by
  cases a with
  | cancelRun runId now =>
    rintro run x hrun hterminal hne hlatest - ⟨hw, howns⟩
    simp [sparesRoot, hrun, hterminal, hne, hlatest, hw, ownsRunningWorkflow_iff.2 howns] at h
  | _ => unfold Allowed; simp [Guard.spareRoots]

theorem cancelRun_executions {runId : RunId}
    (h : cancelRun db runId now = .ok (r, db')) :
    db'.workflowExecutions = db.workflowExecutions := by
  have hcancelled : ∀ run, runCancellation db run now = .ok (r, db') → db'.workflowExecutions = db.workflowExecutions := by
    intro run hrun
    obtain ⟨-, -, ⟨_, -, hcore⟩, -⟩ := runCancellation_told (R := db.Roots) (F := True) (A := True) hrun
    rw [hcore, Core.settle_executions]
    rfl
  obtain ⟨run, -, h⟩ := bind_ok h
  split at h
  · cases h; rfl
  · split at h
    · unfold cancelLatest at h
      split at h
      · cases h
      · split at h
        · cases h
        · exact hcancelled _ h
    · obtain ⟨_, h⟩ := bind_rest h
      exact hcancelled _ h

theorem cancelRuns_executions {now : Time} : ∀ {runs : List Run} {db db' : Db},
    cancelRuns now db runs = .ok db' → db'.workflowExecutions = db.workflowExecutions
  | [], _, _, h => by cases h; rfl
  | run :: runs, db, db', h => by
    unfold cancelRuns at h
    split at h
    · exact cancelRuns_executions h
    · obtain ⟨db₁, h₁, h⟩ := bind_ok h
      obtain ⟨_, -, -, -, -, hcore, -⟩ := taskCancellation_told h₁
      rw [cancelRuns_executions h, hcore]
      rfl

theorem cancelTask_executions {taskId : TaskId} {t : Task}
    (h : cancelTask db taskId now = .ok (t, db')) :
    db'.workflowExecutions = db.workflowExecutions := by
  obtain ⟨task, -, h⟩ := bind_ok h
  split at h
  · cases h; rfl
  · obtain ⟨_, _, _, h⟩ := bind_rest₃ h
    obtain ⟨db₁, hruns, h⟩ := bind_ok h
    cases h
    have hkept := cancelRuns_executions hruns
    exact hkept

/-- The call the condition excludes does cancel a root whose workflow is RUNNING. -/
theorem cancelRun_orphans {runId : RunId}
    (hcond : sparesRoot db (.cancelRun runId now) = false)
    (h : cancelRun db runId now = .ok (r, db')) : ¬NoOrphan db' := by
  intro hno
  obtain ⟨run, hrun, h⟩ := bind_ok h
  have hget := found_eq_ok.1 hrun
  simp only [sparesRoot, hget, Option.any_some, Bool.not_eq_false', Bool.and_eq_true,
    decide_eq_true_eq] at hcond
  obtain ⟨⟨hterminal, hne⟩, hlatest⟩ := hcond
  obtain ⟨latest, hl, hw⟩ := (Option.any_eq_true _ _).1 hlatest
  obtain ⟨hw, howns⟩ := Bool.and_eq_true_iff.1 hw
  have hwaits := of_decide_eq_true hw
  rw [if_neg hne, if_pos hterminal, cancelLatest, hl] at h
  simp only [hwaits, RunStatus.isTerminal, Bool.false_eq_true, if_false] at h
  obtain ⟨⟨hsame, -⟩, hcancelled, ⟨approvals, -, hcore⟩, -⟩ :=
    runCancellation_told (R := db.Roots) (F := True) (A := True) h
  obtain ⟨x, hx, hroot, hrunning⟩ := ownsRunningWorkflow_iff.1 howns
  -- the execution is untouched and its root is now CANCELLED
  have hx' : db'.workflowExecutions.get? x.id = some x := by
    rw [hcore, Core.settle_executions]
    exact hx
  have hr : db'.runs.get? x.rootRunId = some r := by
    rw [hcore]
    refine Core.get?_settle ?_ (by rw [hcancelled]; decide)
    rw [hroot, ← hsame.id]
    exact get?_put_self _ _
  obtain ⟨root, hget', ⟨⟨⟩, -⟩ | ⟨hstatus, -⟩⟩ := noOrphan_iff.1 hno x hx' hrunning
  rw [hr] at hget'
  cases hget'
  rw [hcancelled] at hstatus
  cases hstatus

/-- `CancelRun` and `CancelTask`. -/
def RunAction.isCancel : RunAction → Bool
  | .cancelRun .. | .cancelTask .. => true
  | _ => false

theorem isCancel_executions {cfg : Config} {a : RunAction} (ha : a.isCancel = true)
    (h : act cfg db a = .ok db') : db'.workflowExecutions = db.workflowExecutions := by
  cases a with
  | cancelRun runId now => exact of_map_snd h cancelRun_executions
  | cancelTask taskId now => exact of_map_snd h cancelTask_executions
  | _ => cases ha

theorem rootsOk_reachable {cfg : Config}
    (h : ((runSystem cfg).restrict fun db a => sparesRoot db a = true).Reachable db) :
    RootsOk db.toCore :=
  reachable_keep cfg (fun _ hinit => hinit)
    (fun _ _ _ hnext => ⟨allowed_of_sparesRoot (And.left hnext), fun _ _ _ => trivial, runSystem_next (And.right hnext)⟩)
    ⟨workOk_empty, fun x hx => by cases hx⟩ RootsOk.move h

/-- **No orphaned workflow.** In every run whose `CancelRun` calls on ended attempts spare the roots
of RUNNING workflows, the root of every RUNNING execution waits for it, and no cancellation changes
that; and the next committed step keeps the property exactly when it meets the condition. -/
theorem no_orphaned_workflow (cfg : Config) (db : Db)
    (h : ((runSystem cfg).restrict fun db a => sparesRoot db a = true).Reachable db) :
    NoOrphan db ∧
    (∀ a db', act cfg db a = .ok db' → (NoOrphan db' ↔ sparesRoot db a = true)) ∧
    ∀ a db', act cfg db a = .ok db' → sparesRoot db a = true → a.isCancel = true →
      ∀ x ∈ db.workflowExecutions.rows, x.status = .running →
        ∃ root ∈ db'.runs.rows, root.id = x.rootRunId ∧ root.status = .waitingForWorkflow := by
  have hok := rootsOk_reachable h
  have hnext : ∀ a db', act cfg db a = .ok db' → sparesRoot db a = true → NoOrphan db' := fun a db' hact hcond =>
    noOrphan_iff.2 ((act_moves (allowed_of_sparesRoot hcond) (fun _ _ _ => trivial) hact).keep hok RootsOk.move).roots
  refine ⟨noOrphan_iff.2 hok.roots, fun a db' hact => ⟨fun hno => ?_, hnext a db' hact⟩, ?_⟩
  · by_contra hcond
    have hfalse := Bool.eq_false_of_not_eq_true hcond
    cases a with
    | cancelRun runId now =>
      obtain ⟨_, hcancel⟩ := map_snd_eq_ok.1 hact
      exact cancelRun_orphans hfalse hcancel hno
    | _ => cases hfalse
  · intro a db' hact hcond hcancel x hx hs
    obtain ⟨root, hmem, hid, hw, -⟩ := hnext a db' hact hcond x (by rw [isCancel_executions hcancel hact]; exact hx) hs
    exact ⟨root, hmem, hid, hw⟩

/-- A failed attempt of the root, its retry, and the workflow the retry starts. -/
def workflowRun : List RunAction :=
  [.createTask 1 "title" "" 0, .startRun 1 2 1, .claimNextRun sampleClaim 2,
    .failRun 2 ⟨"code", "message", false, .runtime, .null, Eq.refl false, Eq.refl false⟩ 3,
    .retryFailedRun 2 ⟨3, 4, 5⟩ 4, .claimNextRun sampleClaim 5,
    .startWorkflowExecution 3 30 ⟨"worker", "token", 1⟩ sampleIds 6]

theorem no_orphaned_workflow_sample :
    let db := System.run (commit sampleConfig) sampleDb workflowRun
    (db.workflowExecutions.rows.map (·.status)) = [.running] ∧ NoOrphan db := by
  intro db
  have hrun : System.Legal (commit sampleConfig) (fun db a => sparesRoot db a = true) sampleDb workflowRun ∧
      (db.workflowExecutions.rows.map (·.status)) = [.running] := by decide +kernel
  exact ⟨hrun.2, (no_orphaned_workflow sampleConfig db (sample_reachable_restrict hrun.1)).1⟩

/-- Cancelling the failed attempt cancels the retry, and its workflow goes on without a root. -/
theorem cancelRun_orphans_the_root :
    let db := System.run (commit sampleConfig) sampleDb (workflowRun ++ [.cancelRun 2 7])
    (runSystem sampleConfig).Reachable db ∧ (db.runs.get? 3).map (·.status) = some .cancelled ∧
      (db.workflowExecutions.rows.map fun x => (x.rootRunId, x.status)) = [(3, .running)] ∧ ¬NoOrphan db := by
  intro db
  have hrun : System.Legal (commit sampleConfig) (fun _ _ => True) sampleDb (workflowRun ++ [.cancelRun 2 7]) ∧
      (db.runs.get? 3).map (·.status) = some .cancelled ∧
      (db.workflowExecutions.rows.map fun x => (x.rootRunId, x.status)) = [(3, .running)] ∧ ¬NoOrphan db := by
    decide +kernel
  exact ⟨sample_reachable hrun.1, hrun.2⟩

end Friday.Runs
