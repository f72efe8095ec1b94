import FridayAssistant.Runs.Ending
/-!
# The two cancellation cascades

`_RunCancellation._cancel_run` (run_lifecycle.py:74) and `_TaskCancellation._cancel_run`
(task_lifecycle.py:51) both end a run, its live steps and its live tool invocations, and write the
skill ledger. This file says for each exactly when it goes through and what it leaves behind.
-/
namespace Friday
open Tables Table

/-- What `cancel` makes of a live run. -/
def Run.cancelledAt (r : Run) (now : Time) : Run :=
  { r with endedAt := some now, approvalRequestId := none, delegationRequestId := none, status := .cancelled }

namespace Runs

/-! ## `_TaskCancellation._cancel_run` -/

/-- The run, what it has under way and its ledger can be closed at `now`. -/
def cancellable (db : Db) (r : Run) (now : Time) : Bool :=
  r.startedAt.getD r.createdAt ≤ now && descendantsTimely db r.id now &&
    ledgerOk db (r.cancelledAt now)

/-- What the cascade of the task leaves behind for one run. -/
structure TaskCancelled (now : Time) (r : Run) (db db' : Db) : Prop where
  core : db'.toCore = db.toCore.withRun (r.cancelledAt now)
  cascade : Cascaded now r.id db db'
  resolutions : db'.runSkillResolutions = db.runSkillResolutions
  bindings : db'.runSkillBindings = db.runSkillBindings
  records : ∀ k, k.1 ≠ r.id → db'.skillUsageRecords.get? k = db.skillUsageRecords.get? k

section
variable {now : Time} {r : Run}

theorem sameAttempt_cancelledAt (r : Run) (now : Time) : SameAttempt r (r.cancelledAt now) :=
  ⟨rfl, rfl, rfl, rfl⟩

theorem endedRun_cancelledAt (h : r.startedAt.getD r.createdAt ≤ now) :
    EndedRun now (r.cancelledAt now) := by
  refine ⟨rfl, ?_⟩
  show r.startedAt.all (· ≤ now) = true
  cases hs : r.startedAt with
  | none => rfl
  | some started => simpa [hs] using h

theorem cancel_ok (hlive : r.status.isTerminal = false) {r' : Run} :
    r.cancel now = .ok r' ↔ r.startedAt.getD r.createdAt ≤ now ∧ r' = r.cancelledAt now := by
  rw [Run.cancel_eq_ok]
  simp [hlive, Run.cancelledAt]

theorem taskCancellation_eq_ok {db db' : Db} (h : taskCancellation db r now = .ok db') :
    TaskCancelled now r db db' := by
  obtain ⟨cancelled, hc, h⟩ := bind_ok h
  obtain ⟨-, -, rfl⟩ := Run.cancel_eq_ok.1 hc
  obtain ⟨⟨_, db₁⟩, hd, h⟩ := bind_ok h
  have hframe : db₁ = _ := cancelDescendants_frame hd
  have hcascade := cancelDescendants_eq_ok hd
  have hskill := materializeSkillUsage_frame h
  refine ⟨?_, ?_, ?_, ?_, fun k hk => ?_⟩
  · rw [materializeSkillUsage_core h, appendRunEvents_toCore, cancelDescendants_core hd]
    rfl
  · rw [hskill]
    exact ⟨hcascade.steps, hcascade.tools, hcascade.stepsEnded, hcascade.toolsEnded, hcascade.others⟩
  · rw [hskill, hframe]
    rfl
  · rw [hskill, hframe]
    rfl
  · rw [materializeSkillUsage_records h hk, hframe]
    rfl

theorem taskCancellation_ok (db : Db) (hlive : r.status.isTerminal = false) :
    (∃ db', taskCancellation db r now = .ok db') ↔ cancellable db r now = true := by
  -- the ledger is read after the cascade, which leaves it alone
  have hledger : ∀ {x : List EventSpec × Db}, r.startedAt.getD r.createdAt ≤ now →
      cancelDescendants (saveRun db (r.cancelledAt now)) r.id now = .ok x →
      ((∃ db', materializeSkillUsage (appendRunEvents x.2 r.id now (runCancelled r.id :: x.1)) r.id
        now = .ok db') ↔ ledgerOk db (r.cancelledAt now) = true) := by
    intro x hstarted hd
    have hget : (appendRunEvents x.2 r.id now (runCancelled r.id :: x.1)).runs.get?
        (r.cancelledAt now).id = some (r.cancelledAt now) := by
      rw [appendRunEvents_toCore, cancelDescendants_core hd]
      exact get?_put_self _ _
    have hsame : ledgerOk (appendRunEvents x.2 r.id now (runCancelled r.id :: x.1)) (r.cancelledAt now) =
        ledgerOk db (r.cancelledAt now) := (cancelDescendants_frame hd).ledgerOk (r.cancelledAt now)
    have hledger := materializeSkillUsage_ok hget (endedRun_cancelledAt hstarted)
    rw [← hsame]
    exact hledger
  simp only [taskCancellation, exists_bind_ok, cancel_ok hlive, cancellable, Bool.and_eq_true,
    decide_eq_true_iff]
  constructor
  · rintro ⟨_, ⟨hstarted, rfl⟩, ⟨specs, db₁⟩, hd, hrest⟩
    exact ⟨⟨hstarted, (cancelDescendants_ok (saveRun db (r.cancelledAt now)) r.id).1 ⟨_, hd⟩⟩, (hledger hstarted hd).1 hrest⟩
  · rintro ⟨⟨hstarted, htimely⟩, hok⟩
    obtain ⟨x, hd⟩ := (cancelDescendants_ok (saveRun db (r.cancelledAt now)) r.id).2 htimely
    exact ⟨_, ⟨hstarted, rfl⟩, x, hd, (hledger hstarted hd).2 hok⟩

theorem TaskCancelled.cancellable {db db' : Db} {x : Run} (h : TaskCancelled now r db db')
    (hne : x.id ≠ r.id) : cancellable db' x now = cancellable db x now := by
  have hledger : ledgerOk db' (x.cancelledAt now) = ledgerOk db (x.cancelledAt now) :=
    ledgerOk_congr rfl rfl h.resolutions h.bindings fun k hk => h.records k (by rw [hk]; exact hne)
  rw [Runs.cancellable, Runs.cancellable, h.cascade.timely hne, hledger]

theorem TaskCancelled.get? {db db' : Db} {x : Run} (h : TaskCancelled now r db db')
    (hne : x.id ≠ r.id) (hx : db.runs.get? x.id = some x) : db'.runs.get? x.id = some x := by
  rw [h.core, Core.get?_withRun, if_neg fun e => hne e.symm]
  exact hx

/-- The loop goes through exactly when each of its live runs could be cancelled at the start. -/
theorem cancelRuns_ok : ∀ (db : Db) (runs : List Run), (runs.map Run.id).Nodup →
    ((∃ db', cancelRuns now db runs = .ok db') ↔
      runs.all (fun x => x.status.isTerminal || cancellable db x now) = true)
  | _, [], _ => ⟨fun _ => rfl, fun _ => ⟨_, rfl⟩⟩
  | db, x :: runs, hnodup => by
    obtain ⟨hnotin, hnodup⟩ := List.nodup_cons.1 hnodup
    rw [cancelRuns, List.all_cons, Bool.and_eq_true]
    split
    · next hended =>
      rw [cancelRuns_ok db runs hnodup, hended]
      simp
    · next hlive =>
      have hlive := Bool.eq_false_of_not_eq_true hlive
      have hlater : ∀ {db₁ : Db}, taskCancellation db x now = .ok db₁ →
          runs.all (fun y => y.status.isTerminal || cancellable db₁ y now) =
            runs.all fun y => y.status.isTerminal || cancellable db y now := by
        intro db₁ h₁
        rw [Bool.eq_iff_iff, List.all_eq_true, List.all_eq_true]
        refine forall₂_congr fun y hy => ?_
        rw [(taskCancellation_eq_ok h₁).cancellable fun e => hnotin (e ▸ List.mem_map_of_mem hy)]
      rw [exists_bind_ok, hlive, Bool.false_or, ← taskCancellation_ok db hlive]
      constructor
      · rintro ⟨db₁, h₁, hrest⟩
        exact ⟨⟨db₁, h₁⟩, hlater h₁ ▸ (cancelRuns_ok db₁ runs hnodup).1 hrest⟩
      · rintro ⟨⟨db₁, h₁⟩, hrest⟩
        exact ⟨db₁, h₁, (cancelRuns_ok db₁ runs hnodup).2 ((hlater h₁).trans hrest)⟩

/-- What the loop leaves behind: of `Core` only the runs change; a run is CANCELLED if it was live
and in the list, and as it was otherwise. -/
theorem cancelRuns_eq_ok : ∀ {runs : List Run} {db db' : Db}, cancelRuns now db runs = .ok db' →
    (runs.map Run.id).Nodup → (∀ x ∈ runs, db.runs.get? x.id = some x) →
    db'.toCore = { db.toCore with runs := db'.runs } ∧ ∀ k,
      EndsAlike now k db db' ∧ (AllEnded now k db → AllEnded now k db') ∧
      ((∀ x ∈ runs, x.id = k → x.status.isTerminal = true) → db'.runs.get? k = db.runs.get? k) ∧
      ∀ x ∈ runs, x.id = k → x.status.isTerminal = false →
        db'.runs.get? k = some (x.cancelledAt now) ∧ AllEnded now k db'
  | [], _, _, h, _, _ => by
    cases h
    exact ⟨rfl, fun k => ⟨⟨rfl, rfl⟩, id, fun _ => rfl, fun _ hx => by cases hx⟩⟩
  | y :: runs, db, db', h, hnodup, hin => by
    obtain ⟨hnotin, hnodup⟩ := List.nodup_cons.1 hnodup
    unfold cancelRuns at h
    split at h
    · next hended =>
      obtain ⟨hcore, hrest⟩ := cancelRuns_eq_ok h hnodup fun x hx => hin x (List.mem_cons_of_mem _ hx)
      refine ⟨hcore, fun k => ?_⟩
      obtain ⟨halike, hkeep, hsame, hcancelled⟩ := hrest k
      refine ⟨halike, hkeep, fun hall => hsame fun x hx => hall x (List.mem_cons_of_mem _ hx), fun x hx hk hl => ?_⟩
      rcases List.mem_cons.1 hx with rfl | hx
      · rw [hended] at hl
        cases hl
      · exact hcancelled x hx hk hl
    · next hlive =>
      have hlive := Bool.eq_false_of_not_eq_true hlive
      obtain ⟨db₁, h₁, h⟩ := bind_ok h
      have hone := taskCancellation_eq_ok h₁
      have hne : ∀ x ∈ runs, x.id ≠ y.id := fun x hx e => hnotin (e ▸ List.mem_map_of_mem hx)
      obtain ⟨hcore, hrest⟩ := cancelRuns_eq_ok h hnodup fun x hx =>
        hone.get? (hne x hx) (hin x (List.mem_cons_of_mem _ hx))
      refine ⟨by rw [hcore, hone.core]; rfl, fun k => ?_⟩
      obtain ⟨halike, hkeep, hsame, hcancelled⟩ := hrest k
      have hfirst := hone.cascade.endsAlike k
      refine ⟨⟨halike.1.trans hfirst.1, halike.2.trans hfirst.2⟩,
        fun hall => hkeep (hone.cascade.keep_allEnded hall), fun hall => ?_, fun x hx hk hl => ?_⟩
      · have hyk : y.id ≠ k := fun e => by
          rw [hall y List.mem_cons_self e] at hlive
          cases hlive
        rw [hsame fun x hx => hall x (List.mem_cons_of_mem _ hx), hone.core, Core.get?_withRun]
        exact if_neg hyk
      · rcases List.mem_cons.1 hx with rfl | hx
        · -- the row just saved is not visited again
          subst hk
          refine ⟨?_, hkeep hone.cascade.allEnded⟩
          rw [hsame fun z hz he => absurd he (hne z hz), hone.core, Core.get?_withRun]
          exact if_pos rfl
        · exact hcancelled x hx hk hl

end

/-! ## `CancelTask` -/

section
variable {now : Time} {db : Db} {taskId : TaskId}

/-- `CancelTask` reaches its runs and each of them can be cancelled. -/
def taskCancels (db : Db) (taskId : TaskId) (now : Time) : Bool :=
  (db.tasks.get? taskId).any fun task => !task.status.isTerminal &&
    (db.runs.listForTask taskId).all fun x =>
      x.status.isTerminal || (!ownsRunningWorkflow db x.id && cancellable db x now)

theorem task_cancel_ok {task : Task} (now : Time) (h : task.status.isTerminal = false) :
    ∃ t, task.cancel now = .ok t := by
  have hstatus : task.requireStatus [.pending, .active] .cancelled = .ok () := by
    simp only [Task.requireStatus, require_eq_ok]
    cases hs : task.status <;> rw [hs] at h <;> first | rfl | cases h
  rw [Task.cancel, exists_bind_ok]
  exact ⟨(), hstatus, _, rfl⟩

theorem cancelTask_ok (h : taskCancels db taskId now = true) :
    ∃ x, cancelTask db taskId now = .ok x := by
  obtain ⟨task, htask, hrest⟩ := (Option.any_eq_true _ _).1 h
  obtain ⟨hlive, hall⟩ := Bool.and_eq_true_iff.1 hrest
  have hlive : task.status.isTerminal = false := by simpa using hlive
  obtain rfl : task.id = taskId := key_of_get? htask
  have hfree : (db.runs.listForTask task.id).all (fun x => x.status.isTerminal || !ownsRunningWorkflow db x.id) = true := by
    refine List.all_eq_true.2 fun x hx => ?_
    have := List.all_eq_true.1 hall x hx
    cases hx : x.status.isTerminal <;> simp_all
  obtain ⟨t, ht⟩ := task_cancel_ok now hlive
  have hcancellable : (db.runs.listForTask task.id).all (fun x => x.status.isTerminal || cancellable db x now) = true := by
    refine List.all_eq_true.2 fun x hx => ?_
    have := List.all_eq_true.1 hall x hx
    cases hx : x.status.isTerminal <;> simp_all
  obtain ⟨db', hruns⟩ :=
    (cancelRuns_ok (appendTaskEvent { db with tasks := db.tasks.put t } task.id now .taskCancelled
    (taskEventPayload task.id)) (db.runs.listForTask task.id) RunTable.nodup_listForTask).2 hcancellable
  rw [cancelTask, exists_bind_ok]
  refine ⟨task, found_eq_ok.2 htask, ?_⟩
  rw [if_neg fun e => by rw [e] at hlive; cases hlive]
  simp only [exists_bind_ok, require_eq_ok]
  exact ⟨(), by simp [hlive], (), hfree, t, ht, db', hruns, _, rfl⟩

/-- A committed `CancelTask` found the task CANCELLED and did nothing, or ended every live run of
it. -/
theorem cancelTask_eq_ok {db' : Db} {t : Task} {r : Run} (h : cancelTask db taskId now = .ok (t, db'))
    (hr : db.runs.get? r.id = some r) (hof : r.taskId = taskId) (hlive : r.status.isTerminal = false) :
    (taskCancels db taskId now = false ∧ (db.tasks.get? taskId).any (·.status = .cancelled) = true ∧ db' = db) ∨
    (taskCancels db taskId now = true ∧ db'.toCore = { db.toCore with runs := db'.runs } ∧
      db'.runs.get? r.id = some (r.cancelledAt now) ∧ EndsAlike now r.id db db' ∧ AllEnded now r.id db') := by
  obtain ⟨task, hfound, hrest⟩ := bind_ok h
  clear h
  have htask := found_eq_ok.1 hfound
  obtain rfl : task.id = taskId := key_of_get? htask
  split at hrest
  · next hs =>
    cases hrest
    exact .inl ⟨by rw [taskCancels, htask, Option.any_some, hs]; rfl, by rw [htask]; simp [hs], rfl⟩
  · obtain ⟨_, hopen, h⟩ := bind_ok hrest
    obtain ⟨_, hfree, cancelled, -, h⟩ := bind_ok₂ h
    obtain ⟨db₁, hruns, h⟩ := bind_ok h
    cases h
    have hin : ∀ x ∈ db.runs.listForTask task.id, db.runs.get? x.id = some x := fun x hx =>
      (RunTable.mem_listForTask.1 hx).1
    have hall := (cancelRuns_ok _ _ RunTable.nodup_listForTask).1 ⟨db', hruns⟩
    obtain ⟨hcore, hrest⟩ := cancelRuns_eq_ok hruns RunTable.nodup_listForTask hin
    obtain ⟨halike, -, -, hcancelled⟩ := hrest r.id
    obtain ⟨hrow, hended⟩ := hcancelled r (RunTable.mem_listForTask.2 ⟨hr, hof⟩) rfl hlive
    refine .inr ⟨?_, hcore, hrow, halike, hended⟩
    rw [taskCancels, htask, Option.any_some, require_eq_ok.1 hopen, Bool.true_and]
    refine List.all_eq_true.2 fun x hx => ?_
    have hxfree := List.all_eq_true.1 (require_eq_ok.1 hfree) x hx
    have hxok : (x.status.isTerminal || cancellable db x now) = true := List.all_eq_true.1 hall x hx
    rw [Bool.or_eq_true, Bool.not_eq_true'] at hxfree
    rw [Bool.or_eq_true] at hxok
    rw [Bool.or_eq_true, Bool.and_eq_true, Bool.not_eq_true']
    tauto

end

/-! ## `CancelRun` -/

section
variable {now : Time} {db : Db} {r : Run}

/-- `CancelRun` of a live run goes through. -/
def runCancels (db : Db) (r : Run) (now : Time) : Bool :=
  cancellable db r now && settles db r (r.cancelledAt now)

theorem cancelApprovals_ok (now : Time) : ∀ (db : Db) (approvals : List ApprovalRequest),
    (∀ a ∈ approvals, a.status = .pending) → ∃ x, cancelApprovals now db approvals = .ok x
  | _, [], _ => ⟨_, rfl⟩
  | db, a :: approvals, h => by
    have ha : a.cancel now (some "run cancelled") = .ok { a with
        resolvedAt := some now, resolver := none, resolutionNote := some "run cancelled", status := .cancelled } := by
      simp [ApprovalRequest.cancel, ApprovalRequest.resolve, h a List.mem_cons_self, require,
        ApprovalRequest.normalizedResolver, bind, Except.bind, pure, Except.pure]
    obtain ⟨x, hx⟩ := cancelApprovals_ok now { db with approvals := db.approvals.put _ } approvals fun b hb =>
      h b (List.mem_cons_of_mem _ hb)
    rw [cancelApprovals, exists_bind_ok]
    exact ⟨_, ha, exists_bind_ok.2 ⟨x, hx, _, rfl⟩⟩

/-- What the cascade has written when the delegation is looked at. -/
structure Cascading (now : Time) (r : Run) (db db' : Db) : Prop where
  core : ∃ approvals, ApprovalsCancelled db.approvals approvals r.id ∧
    (pendingForRun db.approvals r.id = [] → approvals = db.approvals) ∧
    db'.toCore = ({ db.toCore with approvals := approvals }.withRun (r.cancelledAt now)).dropItem
    r.id
  cascade : Cascaded now r.id db db'
  ledger : ledgerOk db' (r.cancelledAt now) = ledgerOk db (r.cancelledAt now)

theorem cascading {db₁ db₂ : Db} {specs specs' : List EventSpec} (events : List EventSpec)
    (ha : cancelApprovals now (saveRun db (r.cancelledAt now)) (pendingForRun db.approvals r.id) = .ok (specs, db₁))
    (hd : cancelDescendants (removeItem db₁ r.id) r.id now = .ok (specs', db₂)) :
    Cascading now r db (appendRunEvents db₂ r.id now events) := by
  have happrovals := (cancelApprovals_core ha).1
  have hcascade := cancelDescendants_eq_ok hd
  have hframe := cancelDescendants_frame hd
  have hresolved : ApprovalsCancelled (saveRun db (r.cancelledAt now)).approvals db₁.approvals r.id :=
    cancelApprovals_cancelled ha
  refine ⟨⟨db₁.approvals, hresolved, fun hnone => ?_, ?_⟩, ?_, ?_⟩
  · rw [hnone] at ha
    cases ha
    rfl
  · rw [appendRunEvents_toCore, cancelDescendants_core hd, removeItem_toCore, happrovals]
    rfl
  · rw [happrovals] at hcascade
    exact ⟨hcascade.steps, hcascade.tools, hcascade.stepsEnded, hcascade.toolsEnded, hcascade.others⟩
  · have hledger := hframe.ledgerOk (r.cancelledAt now)
    rw [happrovals] at hledger
    exact hledger

variable {db₃ : Db}

theorem Cascading.reconcile_ok (h : Cascading now r db db₃) (hr : db.runs.get? r.id = some r) :
    (∃ db', reconcileChildTerminal db₃ (r.cancelledAt now) now = .ok db') ↔ settles db r (r.cancelledAt now) = true := by
  obtain ⟨approvals, -, -, hcore⟩ := h.core
  rw [reconcileChildTerminal_ok, hcore, ← settleable_put hr (sameAttempt_cancelledAt r now)]
  rfl

/-- The row of the cancelled run is not one the settlement touches. -/
theorem Cascading.get? {db₄ : Db} (h : Cascading now r db db₃)
    (hrec : reconcileChildTerminal db₃ (r.cancelledAt now) now = .ok db₄) :
    db₄.runs.get? (r.cancelledAt now).id = some (r.cancelledAt now) := by
  obtain ⟨approvals, -, -, hcore⟩ := h.core
  rw [reconcile_core hrec]
  refine Core.get?_settle ?_ nofun
  rw [hcore]
  exact get?_put_self _ _

theorem Cascading.materialize_ok {db₄ : Db} (h : Cascading now r db db₃) (hstarted : r.startedAt.getD r.createdAt ≤ now)
    (hrec : reconcileChildTerminal db₃ (r.cancelledAt now) now = .ok db₄) :
    (∃ db', materializeSkillUsage db₄ r.id now = .ok db') ↔ ledgerOk db (r.cancelledAt now) = true := by
  have hmaterialize := materializeSkillUsage_ok (h.get? hrec) (endedRun_cancelledAt hstarted)
  have hledger : ledgerOk db₄ (r.cancelledAt now) = ledgerOk db₃ (r.cancelledAt now) := by
    rw [reconcile_frame hrec]
    rfl
  rw [hledger, h.ledger] at hmaterialize
  exact hmaterialize

theorem runCancellation_ok (hr : db.runs.get? r.id = some r) (hlive : r.status.isTerminal = false) :
    (∃ x, runCancellation db r now = .ok x) ↔ runCancels db r now = true := by
  have hpending : ∀ a ∈ pendingForRun db.approvals r.id, a.status = .pending :=
    fun a ha => (mem_pendingForRun.1 ha).2.2
  have htimely : ∀ {x : List EventSpec × Db},
      cancelApprovals now (saveRun db (r.cancelledAt now)) (pendingForRun db.approvals r.id) = .ok x →
      ((∃ y, cancelDescendants (removeItem x.2 r.id) r.id now = .ok y) ↔ descendantsTimely db r.id now = true) := by
    intro x ha
    rw [cancelDescendants_ok, (cancelApprovals_core ha).1]
    rfl
  simp only [runCancellation, exists_bind_ok, cancel_ok hlive, runCancels, cancellable,
    Bool.and_eq_true, decide_eq_true_iff]
  constructor
  · rintro ⟨_, ⟨hstarted, rfl⟩, ⟨specs, db₁⟩, ha, ⟨specs', db₂⟩, hd, db₄, hrec, db₅, hskill, -⟩
    have hcascading := cascading (runCancelled r.id :: (specs ++ specs')) ha hd
    exact ⟨⟨⟨hstarted, (htimely ha).1 ⟨_, hd⟩⟩, (hcascading.materialize_ok hstarted hrec).1 ⟨db₅, hskill⟩⟩,
      (hcascading.reconcile_ok hr).1 ⟨db₄, hrec⟩⟩
  · rintro ⟨⟨⟨hstarted, hdescendants⟩, hledger⟩, hsettle⟩
    obtain ⟨⟨specs, db₁⟩, ha⟩ := cancelApprovals_ok now (saveRun db (r.cancelledAt now)) _ hpending
    obtain ⟨⟨specs', db₂⟩, hd⟩ := (htimely ha).2 hdescendants
    have hcascading := cascading (runCancelled r.id :: (specs ++ specs')) ha hd
    obtain ⟨db₄, hrec⟩ := (hcascading.reconcile_ok hr).2 hsettle
    obtain ⟨db₅, hskill⟩ := (hcascading.materialize_ok hstarted hrec).2 hledger
    exact ⟨_, ⟨hstarted, rfl⟩, _, ha, _, hd, db₄, hrec, db₅, hskill, _, rfl⟩

/-- What a committed `_RunCancellation._cancel_run` leaves behind. -/
structure RunCancelled (now : Time) (r : Run) (db db' : Db) : Prop where
  core : ∃ approvals, ApprovalsCancelled db.approvals approvals r.id ∧
    (pendingForRun db.approvals r.id = [] → approvals = db.approvals) ∧
    db'.toCore = ((({ db.toCore with approvals := approvals }).withRun (r.cancelledAt now)).dropItem
      r.id).settle r.executionId now
  alike : EndsAlike now r.id db db'
  ended : AllEnded now r.id db'

theorem runCancellation_eq_ok {db' : Db} {x : Run} (h : runCancellation db r now = .ok (x, db')) :
    RunCancelled now r db db' := by
  obtain ⟨cancelled, hc, h⟩ := bind_ok h
  obtain ⟨-, -, rfl⟩ := Run.cancel_eq_ok.1 hc
  obtain ⟨⟨specs, db₁⟩, ha, h⟩ := bind_ok h
  obtain ⟨⟨specs', db₂⟩, hd, h⟩ := bind_ok h
  obtain ⟨db₄, hrec, db₅, hskill, h⟩ := bind_ok₂ h
  cases h
  have hcascading := cascading (runCancelled r.id :: (specs ++ specs')) ha hd
  have hframe := reconcile_frame hrec
  have hledger := materializeSkillUsage_frame hskill
  obtain ⟨approvals, hresolved, hsame, hcore⟩ := hcascading.core
  refine ⟨⟨approvals, hresolved, hsame, ?_⟩, ?_, ?_⟩
  · rw [materializeSkillUsage_core hskill, reconcile_core hrec, hcore]
  · rw [hledger, hframe]
    exact hcascading.cascade.endsAlike r.id
  · rw [hledger, hframe]
    exact hcascading.cascade.allEnded

end

end Runs
end Friday
