import FridayAssistant.Runs.Cancellation
import FridayAssistant.Runs.NoLostWork
import FridayAssistant.Runs.NoStrandedParent
/-!
# Cancelling through the task and cancelling the run

`CancelRun` ends a run with everything that hangs on it. `CancelTask` ends the runs of a task with
a cascade of its own (task_lifecycle.py:51), which leaves out the pending approvals, the work item
and the delegation request. So the two have the same effect on a run exactly when there is none of
the three, or when neither goes through (`cancelsAlike`), and the invariants that tie approvals and
items to live runs hold exactly as long as no `CancelTask` meets a run with either.
-/
namespace Friday.Runs
open Tables Table Queue Relation Transition

/-! ## What the two commands can touch -/

structure Footprint where
  run : Option Run
  steps : List RunStep
  tools : List ToolInvocation
  approvals : List ApprovalRequest
  item : Option RunWorkItem
  request : Option DelegationRequest
  parent : Option Run

/-- The request that delegated the run's execution. -/
def requestOf (db : Db) (r : Run) : Option DelegationRequest :=
  db.delegationRequests.getForChildExecution db.runs r.executionId

/-- The run that waits for it. -/
def waitingParent (db : Db) (r : Run) : Option Run :=
  (requestOf db r).bind fun q => (db.runs.get? q.parentRunId).filter fun p =>
    p.status = .waitingForDelegation && p.delegationRequestId = some q.id

/-- The rows that belong to a run of `before`, as they are in `db`. -/
def footprint (before : Db) (r : Run) (db : Db) : Footprint where
  run := db.runs.get? r.id
  steps := db.steps.listForRun r.id
  tools := db.toolInvocations.listForRun r.id
  approvals := db.approvals.listForRun r.id
  item := db.workQueue.get? r.id
  request := (requestOf before r).bind fun q => db.delegationRequests.get? q.id
  parent := (waitingParent before r).bind fun p => db.runs.get? p.id

/-- The effect of a command on a run; a command that raises has none. -/
def effect (cfg : Config) (db : Db) (r : Run) (a : RunAction) : Footprint :=
  footprint db r ((commit cfg db a).getD db)

/-- Nothing hangs on the run that `CancelTask` would leave behind. -/
def unencumbered (db : Db) (r : Run) : Bool :=
  (db.workQueue.get? r.id).isNone && (pendingForRun db.approvals r.id).isEmpty &&
    !(requestOf db r).any (·.status = .dispatched)

/-- `CancelTask` goes through and finds the run without encumbrance, or neither command goes
through. -/
def cancelsAlike (db : Db) (r : Run) (now : Time) : Bool :=
  if taskCancels db r.taskId now then unencumbered db r else !runCancels db r now

section
variable {cfg : Config} {db : Db} {r : Run} {now : Time}

theorem effect_eq (a : RunAction) {db' : Db} (h : act cfg db a = .ok db') :
    effect cfg db r a = footprint db r db' := by
  rw [effect, commit, h]
  rfl

theorem effect_none (a : RunAction) (h : ∀ db', act cfg db a = .ok db' → db' = db) :
    effect cfg db r a = footprint db r db := by
  cases hact : act cfg db a with
  | error e => rw [effect, commit, hact]; rfl
  | ok db' => rw [effect_eq a hact, h db' hact]

/-- What `CancelTask` leaves of a run. -/
theorem effect_cancelTask (cfg : Config) (now : Time) (hr : db.runs.get? r.id = some r) (hlive : r.status.isTerminal = false) :
    (taskCancels db r.taskId now = false → effect cfg db r (.cancelTask r.taskId now) = footprint db r db) ∧
    (taskCancels db r.taskId now = true → ∃ db₁, effect cfg db r (.cancelTask r.taskId now) = footprint db r db₁ ∧
      db₁.toCore = { db.toCore with runs := db₁.runs } ∧ db₁.runs.get? r.id = some (r.cancelledAt now) ∧
      EndsAlike now r.id db db₁ ∧ AllEnded now r.id db₁) := by
  constructor
  · intro hnot
    refine effect_none _ fun db' hact => ?_
    obtain ⟨t, h⟩ := map_snd_eq_ok.1 hact
    rcases cancelTask_eq_ok h hr rfl hlive with ⟨-, -, hsame⟩ | ⟨htrue, -⟩
    · exact hsame
    · rw [hnot] at htrue
      cases htrue
  · intro hcancels
    obtain ⟨⟨t, db₁⟩, h⟩ := cancelTask_ok hcancels
    refine ⟨db₁, effect_eq _ (map_snd_eq_ok.2 ⟨t, h⟩), ?_⟩
    rcases cancelTask_eq_ok h hr rfl hlive with ⟨hfalse, -⟩ | ⟨-, hrest⟩
    · rw [hcancels] at hfalse
      cases hfalse
    · exact hrest

theorem cancelRun_live (hr : db.runs.get? r.id = some r) (hlive : r.status.isTerminal = false)
    (hfree : ownsRunningWorkflow db r.id = false) :
    cancelRun db r.id now = runCancellation db r now := by
  have hne : r.status ≠ .cancelled := fun e => by
    rw [e] at hlive
    cases hlive
  simp [cancelRun, getRun, hr, found, hne, hlive, hfree, require, bind, Except.bind]

/-- What `CancelRun` leaves of a run. -/
theorem effect_cancelRun (cfg : Config) (now : Time) (hr : db.runs.get? r.id = some r)
    (hlive : r.status.isTerminal = false) (hfree : ownsRunningWorkflow db r.id = false) :
    (runCancels db r now = false → effect cfg db r (.cancelRun r.id now) = footprint db r db) ∧
    (runCancels db r now = true → ∃ db₂, effect cfg db r (.cancelRun r.id now) = footprint db r db₂ ∧
      RunCancelled now r db db₂) := by
  constructor
  · intro hnot
    refine effect_none _ fun db' hact => ?_
    obtain ⟨x, h⟩ := map_snd_eq_ok.1 hact
    rw [cancelRun_live hr hlive hfree] at h
    rw [(runCancellation_ok hr hlive).1 ⟨_, h⟩] at hnot
    cases hnot
  · intro hcancels
    obtain ⟨⟨x, db₂⟩, h⟩ := (runCancellation_ok hr hlive).2 hcancels
    refine ⟨db₂, effect_eq _ (map_snd_eq_ok.2 ⟨x, ?_⟩), runCancellation_eq_ok h⟩
    rw [cancelRun_live hr hlive hfree]
    exact h

/-! ## When the footprints agree -/

/-- The item of a run that does not wait for a delegation is not one a settlement writes. -/
theorem get?_settle_item {c : Core} {executionId : RunId} {x : Run} (hx : c.runs.get? x.id = some x)
    (hs : x.status ≠ .waitingForDelegation) :
    (c.settle executionId now).workQueue.get? x.id = c.workQueue.get? x.id := by
  obtain ⟨_, h | ⟨p, hp, hwaiting, h⟩⟩ := c.settle_shape executionId now
  · rw [h]
  · rw [h]
    refine get?_enqueue_ne fun e => hs ?_
    rw [e, hx] at hp
    cases hp
    exact hwaiting

theorem getLatestForExecution_isSome {t : RunTable} {x : Run} (hx : x ∈ t.rows) :
    ∃ l, t.getLatestForExecution x.executionId = some l := by
  have hmem : x ∈ t.listForExecution x.executionId :=
    RunTable.mem_listForExecution.2 ⟨get?_of_mem hx, rfl⟩
  exact ⟨_, List.getLast?_eq_some_getLast (List.ne_nil_of_mem hmem)⟩

/-- With its last live attempt cancelled an execution has ended, and a DISPATCHED request is
settled. -/
theorem settle_cancelled {c : Core} {approvals : Approvals} {q : DelegationRequest}
    (hl : c.lineages) (hr : c.runs.get? r.id = some r) (hlive : r.status.isTerminal = false)
    (hq : c.delegationRequests.getForChildExecution c.runs r.executionId = some q) (hs : q.status = .dispatched) :
    (((({ c with approvals := approvals }).withRun (r.cancelledAt now)).dropItem r.id).settle
      r.executionId now).delegationRequests.get? q.id ≠ some q := by
  have hsame := sameAttempt_cancelledAt r now
  have hin := mem_of_get? hr
  have hrow : r.cancelledAt now ∈ (c.runs.put (r.cancelledAt now)).rows := mem_put.2 (.inl rfl)
  have hq' : c.delegationRequests.getForChildExecution (c.runs.put (r.cancelledAt now)) r.executionId = some q := by
    rw [DelegationRequests.getForChildExecution_put r.executionId hr hsame.id hsame.executionId]
    exact hq
  obtain ⟨l, hlatest⟩ := getLatestForExecution_isSome hrow
  obtain ⟨hlget, hlexec⟩ := RunTable.getLatestForExecution_mem hlatest
  obtain ⟨y, hy, hyl, hcase⟩ := saved_back hin hsame (mem_of_get? hlget)
  have hended : l.status.isTerminal = true := by
    rcases hcase with ⟨rfl, hne⟩ | ⟨-, rfl⟩
    · exact hl.others_ended hin hlive hy hlexec hne
    · rfl
  rcases Core.settle_cases ((({ c with approvals := approvals }).withRun
    (r.cancelledAt now)).dropItem r.id) r.executionId now with ⟨-, hnone⟩ | ⟨x, outcome, hx, -,
    ho, hsettle⟩
  · obtain ⟨outcome, ho⟩ := settlement_isSome hended
    have hnothing : (RunTable.getLatestForExecution (c.runs.put (r.cancelledAt now))
        (r.cancelledAt now).executionId).bind settlement = none := hnone q hq' hs
    rw [hlatest, Option.bind_some, ho] at hnothing
    cases hnothing
  · have hxq : some x = some q := hx.symm.trans hq'
    cases hxq
    obtain ⟨l', -, houtcome⟩ := Option.bind_eq_some_iff.1 ho
    intro hsame
    rw [hsettle, wake_requests] at hsame
    have hfinal : some (Core.finalized q outcome now) = some q := (get?_put_self _ _).symm.trans hsame
    have hstatus : outcome.1 = q.status := congrArg DelegationRequest.status (Option.some.inj hfinal)
    exact (settlement_status houtcome).2 (hstatus.trans hs)

/-- Two committed cancellations leave the same footprint exactly when nothing hangs on the run. -/
theorem footprint_eq_iff {db₁ db₂ : Db} (hl : db.toCore.lineages) (hp : db.toCore.parked)
    (hr : db.runs.get? r.id = some r) (hlive : r.status.isTerminal = false)
    (hcore : db₁.toCore = { db.toCore with runs := db₁.runs })
    (hrow : db₁.runs.get? r.id = some (r.cancelledAt now)) (halike : EndsAlike now r.id db db₁)
    (hended : AllEnded now r.id db₁) (h₂ : RunCancelled now r db db₂) :
    footprint db r db₁ = footprint db r db₂ ↔ unencumbered db r = true := by
  obtain ⟨approvals, hresolved, hsame, hcore₂⟩ := h₂.core
  have hqueue : db₁.workQueue = db.workQueue := by rw [hcore]
  have happrovals : db₁.approvals = db.approvals := by rw [hcore]
  have hrequests : db₁.delegationRequests = db.delegationRequests := by rw [hcore]
  have hcancelled : (((({ db.toCore with approvals := approvals }).withRun (r.cancelledAt now)).dropItem r.id)).runs.get?
      (r.cancelledAt now).id = some (r.cancelledAt now) := get?_put_self _ _
  have happrovals₂ : db₂.approvals = approvals := by
    rw [hcore₂, Core.settle_approvals]
    rfl
  have hitem₂ : db₂.workQueue.get? r.id = none := by
    rw [hcore₂]
    refine (get?_settle_item (x := r.cancelledAt now) hcancelled nofun).trans ?_
    rw [Core.get?_dropItem]
    exact if_pos rfl
  have hrow₂ : db₂.runs.get? r.id = some (r.cancelledAt now) := by
    rw [hcore₂]
    exact Core.get?_settle hcancelled nofun
  obtain ⟨hsteps, htools⟩ := descendants_eq halike h₂.alike hended h₂.ended
  constructor
  · intro heq
    have hitem : db₁.workQueue.get? r.id = db₂.workQueue.get? r.id := congrArg Footprint.item heq
    have hlists : db₁.approvals.listForRun r.id = db₂.approvals.listForRun r.id := congrArg Footprint.approvals heq
    have hrequest : ((requestOf db r).bind fun q => db₁.delegationRequests.get? q.id) =
        (requestOf db r).bind fun q => db₂.delegationRequests.get? q.id := congrArg Footprint.request heq
    rw [unencumbered, Bool.and_eq_true, Bool.and_eq_true]
    refine ⟨⟨?_, ?_⟩, ?_⟩
    · rw [← hqueue, hitem, hitem₂]
      rfl
    · -- a pending approval is in both lists, and cancelled in the second
      rw [List.isEmpty_iff, List.eq_nil_iff_forall_not_mem]
      intro a ha
      obtain ⟨hget, howner, hpending⟩ := mem_pendingForRun.1 ha
      have hmem : ∀ {t : Approvals}, a ∈ t.listForRun r.id ↔ t.get? a.id = some a ∧ a.runId = some r.id := by
        intro t
        rw [Approvals.listForRun, List.mem_insertionSort, mem_select, key_approval, decide_eq_true_iff]
      have ha₂ := (hmem.1 (hlists ▸ hmem.2 ⟨by rw [happrovals]; exact hget, howner⟩)).1
      rw [happrovals₂] at ha₂
      rcases hresolved a.id with ⟨-, hnot⟩ | ⟨_, a', -, -, -, ha', -, hstatus⟩
      · exact hnot a hget ⟨howner, hpending⟩
      · rw [ha₂] at ha'
        cases ha'
        rw [hpending] at hstatus
        cases hstatus
    · rw [Bool.not_eq_true', Bool.eq_false_iff]
      intro hany
      obtain ⟨q, hq, hd⟩ := (Option.any_eq_true _ _).1 hany
      have hget := (DelegationRequests.getForChildExecution_some hq).1
      rw [hq, Option.bind_some, Option.bind_some, hrequests, hget, hcore₂] at hrequest
      exact settle_cancelled hl hr hlive hq (of_decide_eq_true hd) hrequest.symm
  · intro hfree
    rw [unencumbered, Bool.and_eq_true, Bool.and_eq_true, Option.isNone_iff_eq_none,
      List.isEmpty_iff, Bool.not_eq_true'] at hfree
    obtain ⟨⟨hnoItem, hnoPending⟩, hnoRequest⟩ := hfree
    have hdispatched : ∀ q, requestOf db r = some q → q.status ≠ .dispatched := by
      intro q hq hs
      rw [hq, Option.any_some, hs] at hnoRequest
      cases hnoRequest
    have hsettled : (((({ db.toCore with approvals := approvals }).withRun (r.cancelledAt now)).dropItem r.id).settle
        r.executionId now).delegationRequests = db.delegationRequests := by
      rcases Core.settle_cases ((({ db.toCore with approvals := approvals }).withRun (r.cancelledAt now)).dropItem r.id)
        r.executionId now with ⟨hs, -⟩ | ⟨q, outcome, hq, hs, -, -⟩
      · rw [hs]; rfl
      · have hsame := sameAttempt_cancelledAt r now
        have hq' := (DelegationRequests.getForChildExecution_put r.executionId hr hsame.id hsame.executionId).symm.trans hq
        exact absurd hs (hdispatched q hq')
    have hnoParent : waitingParent db r = none := by
      rw [waitingParent, Option.bind_eq_none_iff]
      intro q hq
      rw [Option.filter_eq_none_iff]
      intro p hpget hwaits
      rw [Bool.and_eq_true, decide_eq_true_iff, decide_eq_true_iff] at hwaits
      obtain ⟨x, hx, hmark, hs, -⟩ := hp p (mem_of_get? hpget) hwaits.1
      have hid : x.id = q.id := Option.some.inj (hmark.symm.trans hwaits.2)
      have hqin := mem_of_get? (DelegationRequests.getForChildExecution_some hq).1
      exact hdispatched q hq (eq_of_key hx hqin hid ▸ hs)
    have happroved : db₂.approvals = db.approvals := happrovals₂.trans (hsame hnoPending)
    have hrequests₂ : db₂.delegationRequests = db.delegationRequests := by rw [hcore₂, hsettled]
    simp only [footprint, hrow, hrow₂, hsteps, htools, happrovals, happroved, hqueue, hnoItem,
      hitem₂, hrequests, hrequests₂, hnoParent, Option.bind_none]

theorem footprint_ne {db' : Db} (hr : db.runs.get? r.id = some r)
    (hlive : r.status.isTerminal = false) (hrow : db'.runs.get? r.id = some (r.cancelledAt now)) :
    footprint db r db' ≠ footprint db r db := by
  intro heq
  have hrun : db'.runs.get? r.id = db.runs.get? r.id := congrArg Footprint.run heq
  rw [hrow, hr] at hrun
  rw [← Option.some.inj hrun] at hlive
  cases hlive

theorem RunCancelled.row {db₂ : Db} (h : RunCancelled now r db db₂) :
    db₂.runs.get? r.id = some (r.cancelledAt now) := by
  obtain ⟨approvals, -, -, hcore⟩ := h.core
  rw [hcore]
  have hrow : (((({ db.toCore with approvals := approvals }).withRun (r.cancelledAt now)).dropItem
      r.id)).runs.get? (r.cancelledAt now).id = some (r.cancelledAt now) := get?_put_self _ _
  exact Core.get?_settle hrow nofun

/-- A run that `CancelTask` can close and nothing delegated hangs on can be closed by
`CancelRun`. -/
theorem runCancels_of_unencumbered (hr : db.runs.get? r.id = some r)
    (hlive : r.status.isTerminal = false) (htask : taskCancels db r.taskId now = true)
    (hfree : unencumbered db r = true) : runCancels db r now = true := by
  obtain ⟨task, -, hall⟩ := (Option.any_eq_true _ _).1 htask
  have hmine := List.all_eq_true.1 (Bool.and_eq_true_iff.1 hall).2 r
    (RunTable.mem_listForTask.2 ⟨hr, rfl⟩)
  rw [hlive, Bool.false_or, Bool.and_eq_true] at hmine
  rw [runCancels, hmine.2, Bool.true_and, settles]
  rw [unencumbered, Bool.and_eq_true, Bool.not_eq_true'] at hfree
  have hnone := hfree.2
  unfold requestOf at hnone
  cases hq : db.delegationRequests.getForChildExecution db.runs r.executionId with
  | none => rfl
  | some q =>
    rw [hq, Option.any_some] at hnone
    simp [of_decide_eq_false hnone]

theorem effect_eq_iff (hl : db.toCore.lineages) (hp : db.toCore.parked) (hr : db.runs.get? r.id = some r)
    (hlive : r.status.isTerminal = false) (hfree : ownsRunningWorkflow db r.id = false) :
    effect cfg db r (.cancelTask r.taskId now) = effect cfg db r (.cancelRun r.id now) ↔
      cancelsAlike db r now = true := by
  obtain ⟨htaskNone, htaskSome⟩ := effect_cancelTask cfg now hr hlive
  obtain ⟨hrunNone, hrunSome⟩ := effect_cancelRun cfg now hr hlive hfree
  unfold cancelsAlike
  cases htask : taskCancels db r.taskId now with
  | false =>
    rw [htaskNone htask]
    cases hrun : runCancels db r now with
    | false => simp [hrunNone hrun]
    | true =>
      obtain ⟨db₂, heffect, hcancelled⟩ := hrunSome hrun
      rw [heffect]
      simpa using (footprint_ne hr hlive hcancelled.row).symm
  | true =>
    obtain ⟨db₁, heffect₁, hcore, hrow, halike, hended⟩ := htaskSome htask
    rw [heffect₁, if_pos rfl]
    cases hrun : runCancels db r now with
    | true =>
      obtain ⟨db₂, heffect₂, hcancelled⟩ := hrunSome hrun
      rw [heffect₂]
      exact footprint_eq_iff hl hp hr hlive hcore hrow halike hended hcancelled
    | false =>
      -- `CancelRun` raises on the delegation, so there is one
      rw [hrunNone hrun]
      refine ⟨fun heq => absurd heq (footprint_ne hr hlive hrow), fun hunencumbered => ?_⟩
      rw [runCancels_of_unencumbered hr hlive htask hunencumbered] at hrun
      cases hrun

end

/-! ## Approvals and items belong to live runs -/

/-- A pending approval of a run is the one the run waits for. -/
def PendingAwaited (c : Core) : Prop :=
  ∀ a ∈ c.approvals.rows, a.status = .pending → ∀ k, a.runId = some k →
    ∃ r, c.runs.get? k = some r ∧ r.status = .waitingForApproval ∧ r.approvalRequestId = some a.id

def CancelledIdle (c : Core) : Prop :=
  ∀ k r, c.runs.get? k = some r → r.status = .cancelled → c.workQueue.get? k = none

/-- `CancelTask` spares runs with an item or a pending approval. -/
def Guard.spareWork : Guard where
  attempt _ _ _ := True
  latest _ _ := True
  viaTask c r := c.workQueue.get? r.id = none ∧ ∀ a ∈ c.approvals.rows, a.status = .pending →
    a.runId ≠ some r.id
  viaTask_stable _ _ _ h := h
  request := True

section
variable {g : Guard} {c : Core} {now : Time}

variable {r' r : Run}

theorem PendingAwaited.saved (h : PendingAwaited c)
    (hnone : ∀ a ∈ c.approvals.rows, a.status = .pending → a.runId ≠ some r'.id) :
    PendingAwaited (c.withRun r') := by
  intro a ha hs k hk
  obtain ⟨r, hr, hrest⟩ := h a ha hs k hk
  refine ⟨r, ?_, hrest⟩
  rw [Core.get?_withRun, if_neg fun e => hnone a ha hs (by rw [e]; exact hk)]
  exact hr

/-- No approval is pending for a run that does not wait for one. -/
theorem PendingAwaited.none (h : PendingAwaited c) {k : RunId}
    (hk : ∀ r, c.runs.get? k = some r → r.status ≠ .waitingForApproval) :
    ∀ a ∈ c.approvals.rows, a.status = .pending → a.runId ≠ some k := by
  intro a ha hs hrun
  obtain ⟨r, hr, hw, -⟩ := h a ha hs k hrun
  exact hk r hr hw

theorem PendingAwaited.saved_of_ne (h : PendingAwaited c) (hr : c.runs.get? r.id = some r)
    (hid : r'.id = r.id) (hs : r.status ≠ .waitingForApproval) : PendingAwaited (c.withRun r') := by
  refine h.saved (h.none fun x hx => ?_)
  rw [hid, hr] at hx
  cases hx
  exact hs

theorem PendingAwaited.fresh {n : Run} (h : PendingAwaited c) (hn : c.runs.get? n.id = .none) :
    PendingAwaited (c.withRun n) := by
  refine h.saved (h.none fun x hx => ?_)
  rw [hn] at hx
  cases hx

theorem PendingAwaited.settle {executionId : RunId} (h : PendingAwaited c) :
    PendingAwaited (c.settle executionId now) := by
  intro a ha hs k hk
  rw [Core.settle_approvals] at ha
  obtain ⟨r, hr, hw, hmark⟩ := h a ha hs k hk
  exact ⟨r, Core.get?_settle hr (by rw [hw]; nofun), hw, hmark⟩

theorem pendingAwaited_move {c' : Core} (h : PendingAwaited c) (hm : Move .spareWork c c') :
    PendingAwaited c' := by
  cases hm with
  | create fresh _ _ | retry _ _ _ fresh _ _ _ _ => exact h.fresh fresh
  | start hr queued same _ => exact h.saved_of_ne hr same.id (by rw [queued]; nofun)
  | queue | request | bind | unbind | endWorkflow => exact h
  | @park r r' a hr running fresh pending owner only same waiting marker =>
    intro b hb hs k hk
    rcases (mem_put_fresh fresh).1 hb with rfl | hb
    · rw [owner] at hk
      cases hk
      exact ⟨r', by rw [← same.id]; exact get?_put_self _ _, waiting, marker⟩
    · have hbk : b.runId ≠ some r'.id := fun e => only b (get?_of_mem hb) (by rw [e, same.id]) hs
      obtain ⟨x, hx, hrest⟩ := h b hb hs k hk
      refine ⟨x, ?_, hrest⟩
      exact (get?_put_ne fun e => hbk (by rw [hk]; exact congrArg some e.symm)).trans hx
  | resolve _ _ id _ resolved _ =>
    exact forall_put (fun hs _ _ => absurd hs resolved) h
  | @resume a a' r r' at₁ at₂ ha pending id owner resolved hr ofRun waiting marker same running =>
    have hothers : PendingAwaited { c with approvals := c.approvals.put a' } :=
      forall_put (fun hs _ _ => absurd hs resolved) h
    refine hothers.saved fun b hb hs hk => ?_
    -- the run waited for `a`, so nothing else can be pending for it
    obtain ⟨x, hx, -, hmark⟩ := hothers b hb hs r'.id hk
    have hxr : some x = some r := hx.symm.trans (by rw [same.id]; exact hr)
    cases hxr
    rw [marker] at hmark
    rcases mem_put.1 hb with rfl | ⟨-, hne⟩
    · exact resolved hs
    · exact hne (by rw [key_approval, key_approval, id, Option.some.inj hmark])
  | @approval a harmless =>
    refine forall_put (fun hs k hk => ?_) h
    rcases harmless with ⟨hnone, -⟩ | ⟨x, hx, howner, hstatus⟩
    · rw [hnone] at hk
      cases hk
    · have hxid : x.id = a.id := key_of_get? hx
      rw [← hxid]
      exact h x (mem_of_get? hx) (hstatus.trans hs) k (howner.trans hk)
  | @dispatch p p' child q at₁ at₂ hp running fresh _ _ _ _ _ _ _ _ same _ _ =>
    have hchild : PendingAwaited ({ c with delegationRequests := c.delegationRequests.put q }.withRun child) :=
      PendingAwaited.fresh h fresh
    exact hchild.saved_of_ne (r := p) (get?_put_fresh fresh hp) same.id (by rw [running]; nofun)
  | @finish r r' now hr may same _ =>
    have hended : PendingAwaited ((c.withRun r').dropItem r.id) := by
      refine PendingAwaited.saved_of_ne h hr same.id ?_
      rcases may with hs | ⟨hs, -⟩ <;> rw [hs] <;> nofun
    exact hended.settle
  | @finishRetry r r' n at₁ at₂ hr may same _ fresh _ _ _ _ =>
    have hfailed : PendingAwaited (c.withRun r') := by
      refine h.saved_of_ne hr same.id ?_
      rcases may with hs | ⟨hs, -⟩ <;> rw [hs] <;> nofun
    exact PendingAwaited.fresh hfailed (fresh_put (same.id ▸ hr) fresh)
  | @cancel r r' approvals now hr live allowed same cancelled resolved =>
    have hsaved : PendingAwaited ({ c with approvals := approvals }.withRun r') := by
      intro b hb hs k hk
      have hget : approvals.get? b.id = some b := get?_of_mem hb
      rcases resolved b.id with ⟨hsame, hnot⟩ | ⟨_, b', -, -, -, hb', -, hstatus⟩
      · have hold : c.approvals.get? b.id = some b := hsame.symm.trans hget
        obtain ⟨x, hx, hrest⟩ := h b (mem_of_get? hold) hs k hk
        refine ⟨x, ?_, hrest⟩
        have hne : r'.id ≠ k := fun e => hnot b hold ⟨by rw [hk, ← e, same.id], hs⟩
        exact (get?_put_ne hne).trans hx
      · rw [hget] at hb'
        cases hb'
        rw [hstatus] at hs
        cases hs
    exact PendingAwaited.settle hsaved
  | viaTask hr _ _ allowed same _ => exact h.saved (by rw [same.id]; exact allowed.2)
  | startWorkflow hr running _ _ _ _ same _ _ =>
    exact PendingAwaited.saved_of_ne h hr same.id (by rw [running]; nofun)
  | finishWorkflow _ _ _ _ hr _ waiting _ same _ =>
    exact PendingAwaited.saved_of_ne h hr same.id (by rw [waiting]; nofun)

/-- A run that is not CANCELLED gets an item. -/
theorem CancelledIdle.enqueued {at₁ at₂ : Time} (h : CancelledIdle c) (hs : r.status ≠ .cancelled) :
    CancelledIdle ((c.withRun r).addItem r.id at₁ at₂) := by
  intro k x hx hc
  have hx' : (c.withRun r).runs.get? k = some x := hx
  rw [Core.get?_withRun] at hx'
  split at hx'
  · cases hx'
    exact absurd hc hs
  · next hk => exact (get?_enqueue_ne hk).trans (h k x hx' hc)

theorem CancelledIdle.dropped (h : CancelledIdle c) :
    CancelledIdle ((c.withRun r).dropItem r.id) := by
  intro k x hx hc
  have hx' : (c.withRun r).runs.get? k = some x := hx
  rw [Core.get?_withRun] at hx'
  rw [Core.get?_dropItem]
  split at hx'
  · next hk => exact if_pos hk
  · next hk => exact (if_neg hk).trans (h k x hx' hc)

theorem CancelledIdle.saved (h : CancelledIdle c)
    (hs : r'.status ≠ .cancelled ∨ c.workQueue.get? r'.id = none) :
    CancelledIdle (c.withRun r') := by
  intro k x hx hc
  rw [Core.get?_withRun] at hx
  split at hx
  · next hk =>
    cases hx
    rcases hs with hs | hs
    · exact absurd hc hs
    · exact hk ▸ hs
  · exact h k x hx hc

theorem CancelledIdle.settle {executionId : RunId} (h : CancelledIdle c) :
    CancelledIdle (c.settle executionId now) := by
  obtain ⟨_, hs | ⟨p, -, -, hs⟩⟩ := c.settle_shape executionId now
  · rw [hs]; exact h
  · rw [hs]
    exact CancelledIdle.enqueued (r := { p with delegationRequestId := none, status := .running }) h nofun

theorem cancelledIdle_move {c' : Core} (h : CancelledIdle c) (hm : Move .spareWork c c') :
    CancelledIdle c' := by
  cases hm with
  | create _ queued _ | retry _ _ _ _ queued _ _ _ => exact h.enqueued (by rw [queued]; nofun)
  | start _ _ _ running => exact h.saved (.inl (by rw [running]; nofun))
  | queue kept =>
    intro k r hr hs
    have hnone := h k r hr hs
    rcases kept k with hk | ⟨hk, -⟩
    · rw [hnone, Option.isSome_none] at hk
      exact Option.isSome_eq_false_iff.1 hk |> Option.isNone_iff_eq_none.1
    · exact hk
  | park _ _ _ _ _ _ same _ _ | startWorkflow _ _ _ _ _ _ same _ _ | finishWorkflow _ _ _ _ _ _ _ _ same _ =>
    rw [← same.id]
    exact CancelledIdle.dropped h
  | resolve | approval | request | bind | unbind | endWorkflow => exact h
  | resume _ _ _ _ _ _ _ _ _ same running =>
    rw [← same.id]
    exact CancelledIdle.enqueued h (by rw [running]; nofun)
  | @dispatch p p' child q at₁ at₂ _ _ _ queued _ _ _ _ _ _ _ same _ _ =>
    have hchild : CancelledIdle (({ c with delegationRequests := c.delegationRequests.put q }.withRun child).addItem
      child.id at₁ at₂) := CancelledIdle.enqueued h (by rw [queued]; nofun)
    rw [← same.id]
    exact hchild.dropped
  | finish _ _ same _ =>
    rw [← same.id]
    exact h.dropped.settle
  | finishRetry _ _ same _ _ queued _ _ _ =>
    rw [← same.id]
    exact h.dropped.enqueued (by rw [queued]; nofun)
  | @cancel r r' approvals now _ _ _ same _ _ =>
    have h' : CancelledIdle { c with approvals := approvals } := h
    rw [← same.id]
    exact h'.dropped.settle
  | viaTask _ _ _ allowed same _ => exact h.saved (.inr (by rw [same.id]; exact allowed.1))

end

/-! ## Runs of the system -/

/-- What hangs on runs in a state: pending approvals on runs that wait for them, no item on a
CANCELLED run. -/
def Tidy (db : Db) : Prop :=
  (∀ a ∈ db.approvals.rows, a.status = .pending → a.runId.all (fun k => (db.runs.get? k).any fun r =>
    r.status = .waitingForApproval && r.approvalRequestId = some a.id) = true) ∧
  ∀ r ∈ db.runs.rows, r.status = .cancelled → (db.workQueue.get? r.id).isNone = true

variable {db : Db}

theorem tidy_iff : Tidy db ↔ PendingAwaited db.toCore ∧ CancelledIdle db.toCore := by
  refine and_congr ⟨fun h a ha hs k hk => ?_, fun h a ha hs => ?_⟩ ⟨fun h k r hr hs => ?_,
    fun h r hr hs => ?_⟩
  · have hall := h a ha hs
    rw [hk, Option.all_some] at hall
    obtain ⟨r, hr, hrest⟩ := (Option.any_eq_true _ _).1 hall
    simp only [Bool.and_eq_true, decide_eq_true_iff] at hrest
    exact ⟨r, hr, hrest⟩
  · cases hk : a.runId with
    | none => rfl
    | some k =>
      obtain ⟨r, hr, hw, hmark⟩ := h a ha hs k hk
      simp [hr, hw, hmark]
  · obtain rfl : r.id = k := key_of_get? hr
    exact Option.isNone_iff_eq_none.1 (h r (mem_of_get? hr) hs)
  · exact Option.isNone_iff_eq_none.2 (h r.id r (get?_of_mem hr) hs)

/-- A `CancelTask` that does something finds no live run with a work item or a pending approval. -/
def sparesWork (db : Db) : RunAction → Bool
  | .cancelTask taskId _ => (db.tasks.get? taskId).any (·.status = .cancelled) ||
      (db.runs.listForTask taskId).all fun r => r.status.isTerminal ||
        ((db.workQueue.get? r.id).isNone && (pendingForRun db.approvals r.id).isEmpty)
  | _ => true

theorem allowed_of_sparesWork {a : RunAction} (h : sparesWork db a = true) :
    Allowed .spareWork db a := by
  cases a with
  | cancelTask taskId now =>
    intro htask r hr hof hlive
    rcases Bool.or_eq_true_iff.1 h with hcancelled | hall
    · obtain ⟨task, ht, hs⟩ := (Option.any_eq_true _ _).1 hcancelled
      exact absurd (of_decide_eq_true hs) (htask task ht)
    · have hspared := List.all_eq_true.1 hall r (RunTable.mem_listForTask.2 ⟨hr, hof⟩)
      rw [hlive, Bool.false_or, Bool.and_eq_true, Option.isNone_iff_eq_none, List.isEmpty_iff] at hspared
      refine ⟨hspared.1, fun a ha hs hk => ?_⟩
      have hmem := mem_pendingForRun.2 ⟨get?_of_mem ha, hk, hs⟩
      rw [hspared.2] at hmem
      cases hmem
  | _ => unfold Allowed; simp [Guard.spareWork]

/-- The call the condition excludes leaves an item or a pending approval on a CANCELLED run. -/
theorem cancelTask_untidy {db' : Db} {taskId : TaskId} {now : Time} {t : Task}
    (hcond : sparesWork db (.cancelTask taskId now) = false)
    (h : cancelTask db taskId now = .ok (t, db')) : ¬Tidy db' := by
  intro htidy
  obtain ⟨hpending, hidle⟩ := tidy_iff.1 htidy
  obtain ⟨hnot, hspared⟩ := Bool.or_eq_false_iff.1 hcond
  obtain ⟨r, hmem, hr⟩ := List.all_eq_false.1 hspared
  obtain ⟨hget, hof⟩ := RunTable.mem_listForTask.1 hmem
  simp only [Bool.or_eq_true, Bool.and_eq_true, not_or, Bool.not_eq_true] at hr
  obtain ⟨hlive, hwork⟩ := hr
  rcases cancelTask_eq_ok h hget hof hlive with ⟨-, hcancelled, -⟩ | ⟨-, hcore, hrow, -⟩
  · rw [hnot] at hcancelled
    cases hcancelled
  · refine hwork ⟨?_, ?_⟩
    · have hnone := hidle r.id _ hrow rfl
      rw [hcore] at hnone
      exact Option.isNone_iff_eq_none.2 hnone
    · rw [List.isEmpty_iff, List.eq_nil_iff_forall_not_mem]
      intro a ha
      obtain ⟨haget, howner, hs⟩ := mem_pendingForRun.1 ha
      have ha' : a ∈ db'.approvals.rows := by rw [hcore]; exact mem_of_get? haget
      obtain ⟨x, hx, hw, -⟩ := hpending a ha' hs r.id howner
      rw [hrow] at hx
      cases hx
      cases hw

theorem tidy_reachable {cfg : Config}
    (h : ((runSystem cfg).restrict fun db a => sparesWork db a = true).Reachable db) : Tidy db := by
  refine tidy_iff.2 ?_
  refine reachable_keep cfg (P := fun c => PendingAwaited c ∧ CancelledIdle c) (fun _ hinit => hinit)
    (fun db a db' hnext => ?_) ⟨fun _ ha => (by cases ha), fun _ _ hr => (by cases hr)⟩
    (fun hok hm => ⟨pendingAwaited_move hok.1 hm, cancelledIdle_move hok.2 hm⟩) h
  obtain ⟨hcond, hstep⟩ := hnext
  exact ⟨allowed_of_sparesWork hcond, fun _ _ _ => trivial, runSystem_next hstep⟩

/-- Attempts and delegations are in order in every state, whatever the commands. -/
theorem lineages_reachable {cfg : Config} (h : (runSystem cfg).Reachable db) :
    db.toCore.lineages ∧ db.toCore.parked :=
  reachable_keep cfg (P := fun c => c.lineages ∧ c.parked) (fun _ hinit => hinit)
    (fun db a _ hnext => ⟨allowed_free db a, fun _ _ _ => trivial, runSystem_next hnext⟩)
    ⟨lineages_empty, fun _ hp => (by cases hp)⟩
    (fun hok hm => ⟨lineages_move hok.1 hm, parked_move hok.2 hm⟩) h

/-- **Cancelling through the task.** In every reachable state and for every live run without a
RUNNING workflow, `CancelTask` and `CancelRun` have the same effect on the run exactly under
`cancelsAlike`. In every run whose `CancelTask` steps spare work, pending approvals are awaited and
CANCELLED runs have no item, and the next committed step keeps this exactly when it spares work. -/
theorem cancelTask_like_cancelRun (cfg : Config) :
    (∀ db, (runSystem cfg).Reachable db → ∀ r, db.runs.get? r.id = some r →
      r.status.isTerminal = false → ownsRunningWorkflow db r.id = false → ∀ now,
      (effect cfg db r (.cancelTask r.taskId now) = effect cfg db r (.cancelRun r.id now) ↔
        cancelsAlike db r now = true)) ∧
    ∀ db, ((runSystem cfg).restrict fun db a => sparesWork db a = true).Reachable db →
      Tidy db ∧ ∀ a db', act cfg db a = .ok db' → (Tidy db' ↔ sparesWork db a = true) := by
  refine ⟨fun db h r hr hlive hfree now => ?_,
    fun db h => ⟨tidy_reachable h, fun a db' hact => ⟨fun htidy => ?_, ?_⟩⟩⟩
  · obtain ⟨hl, hp⟩ := lineages_reachable h
    exact effect_eq_iff hl hp hr hlive hfree
  · by_contra hcond
    have hfalse := Bool.eq_false_of_not_eq_true hcond
    cases a with
    | cancelTask taskId now =>
      obtain ⟨_, hcancel⟩ := map_snd_eq_ok.1 hact
      exact cancelTask_untidy hfalse hcancel htidy
    | _ => cases hfalse
  · intro hcond
    have hmoves := act_moves (allowed_of_sparesWork hcond) (fun _ _ _ => trivial) hact
    exact tidy_iff.2 (hmoves.keep (P := fun c => PendingAwaited c ∧ CancelledIdle c) (tidy_iff.1 (tidy_reachable h))
      fun hok hm => ⟨pendingAwaited_move hok.1 hm, cancelledIdle_move hok.2 hm⟩)

/-- Run 2 is queued. -/
def queuedRun : List RunAction := [.createTask 1 "t" "" 0, .startRun 1 2 1]

/-- Run 2 is claimed and waits for approval 10. -/
def awaitingRun : List RunAction :=
  [.createTask 1 "t" "" 0, .startRun 1 2 1, .claimNextRun sampleClaim 2,
    .requestApproval ⟨2, .other, "s", "", "a", .null, none, none, none⟩ 10 3]

/-- A run that waits for a delegation carries nothing `CancelTask` would leave behind. -/
theorem cancelTask_like_cancelRun_sample :
    let db := System.run (commit sampleConfig) sampleDb delegationRun
    (∃ r, db.runs.get? 2 = some r ∧ r.status = .waitingForDelegation ∧
      effect sampleConfig db r (.cancelTask 1 9) = effect sampleConfig db r (.cancelRun 2 9)) ∧ Tidy db := by
  intro db
  have hrun : System.Legal (commit sampleConfig) (fun db a => sparesWork db a = true) sampleDb delegationRun ∧
      (db.runs.get? 2).any (fun r => r.status = .waitingForDelegation && r.taskId = 1 && r.id = 2 &&
        !ownsRunningWorkflow db r.id && cancelsAlike db r 9) = true := by decide +kernel
  obtain ⟨hequal, htidy⟩ := cancelTask_like_cancelRun sampleConfig
  have hreach := sample_reachable_restrict hrun.1
  refine ⟨?_, (htidy db hreach).1⟩
  obtain ⟨r, hr, hrest⟩ := (Option.any_eq_true _ _).1 hrun.2
  simp only [Bool.and_eq_true, decide_eq_true_iff, Bool.not_eq_true'] at hrest
  obtain ⟨⟨⟨⟨hs, htask⟩, hid⟩, hfree⟩, halike⟩ := hrest
  refine ⟨r, hr, hs, ?_⟩
  have heq := (hequal db (System.Reachable.of_restrict hreach) r (by rw [hid]; exact hr)
    (by rw [hs]; rfl) hfree 9).2 halike
  rw [htask, hid] at heq
  exact heq

/-- `CancelTask` leaves the item of a queued run and the pending approval of a waiting one. -/
theorem cancelTask_unlike_cancelRun :
    let db := System.run (commit sampleConfig) sampleDb queuedRun
    let db₁ := System.run (commit sampleConfig) sampleDb (queuedRun ++ [.cancelTask 1 9])
    let db₂ := System.run (commit sampleConfig) sampleDb (awaitingRun ++ [.cancelTask 1 9])
    ((runSystem sampleConfig).Reachable db ∧ ∃ r, db.runs.get? 2 = some r ∧ r.status = .queued ∧
      ownsRunningWorkflow db r.id = false ∧
      effect sampleConfig db r (.cancelTask 1 9) ≠ effect sampleConfig db r (.cancelRun 2 9)) ∧
    ((runSystem sampleConfig).Reachable db₁ ∧ (db₁.runs.get? 2).map (·.status) = some .cancelled ∧
      (db₁.workQueue.get? 2).isSome = true) ∧
    (runSystem sampleConfig).Reachable db₂ ∧ (db₂.runs.get? 2).map (·.status) = some .cancelled ∧
      (db₂.approvals.get? 10).map (fun a => (a.runId, a.status)) = some (some 2, .pending) := by
  intro db db₁ db₂
  have hrun : System.Legal (commit sampleConfig) (fun _ _ => True) sampleDb queuedRun ∧
      (db.runs.get? 2).any (fun r => r.status = .queued && !ownsRunningWorkflow db r.id &&
        (effect sampleConfig db r (.cancelTask 1 9)).item.isSome &&
        (effect sampleConfig db r (.cancelRun 2 9)).item.isNone) = true := by decide +kernel
  have hrun₁ : System.Legal (commit sampleConfig) (fun _ _ => True) sampleDb (queuedRun ++ [.cancelTask 1 9]) ∧
      (db₁.runs.get? 2).map (·.status) = some .cancelled ∧ (db₁.workQueue.get? 2).isSome = true := by decide +kernel
  have hrun₂ : System.Legal (commit sampleConfig) (fun _ _ => True) sampleDb (awaitingRun ++ [.cancelTask 1 9]) ∧
      (db₂.runs.get? 2).map (·.status) = some .cancelled ∧
      (db₂.approvals.get? 10).map (fun a => (a.runId, a.status)) = some (some 2, .pending) := by decide +kernel
  obtain ⟨r, hr, hrest⟩ := (Option.any_eq_true _ _).1 hrun.2
  simp only [Bool.and_eq_true, decide_eq_true_iff, Bool.not_eq_true'] at hrest
  obtain ⟨⟨⟨hs, hfree⟩, hkept⟩, hgone⟩ := hrest
  refine ⟨⟨sample_reachable hrun.1, r, hr, hs, hfree, fun heq => ?_⟩,
    ⟨sample_reachable hrun₁.1, hrun₁.2⟩, sample_reachable hrun₂.1, hrun₂.2⟩
  rw [heq, Option.isNone_iff_eq_none.1 hgone] at hkept
  cases hkept

end Friday.Runs
