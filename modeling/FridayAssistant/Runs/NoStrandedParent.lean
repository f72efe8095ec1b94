import FridayAssistant.Runs.Lineage
/-!
# No stranded parent

A run that waits for a delegation waits for a DISPATCHED request whose child is still under way.
Whatever ends the last attempt of a child settles the request and resumes the parent
(`reconcile_child_terminal_in_uow`), with one exception: `_TaskCancellation._cancel_run`
(task_lifecycle.py:51) ends the child's run and does not reconcile. So the property holds exactly
as long as no `CancelTask` reaches a live attempt of a delegated execution.
-/
namespace Friday.Runs
open Tables Table Queue Relation Transition

/-- A DISPATCHED request has a live attempt of its child. -/
def UnderWay (runs : RunTable) (requests : DelegationRequests) : Prop :=
  ∀ q ∈ requests.rows, q.status = .dispatched → ∃ r ∈ runs.rows,
    q.childRunId = some r.executionId ∧ r.status.isTerminal = false

abbrev Core.underWay (c : Core) : Prop := UnderWay c.runs c.delegationRequests

/-- No request that is still DISPATCHED is about the execution. -/
def notDelegated (requests : DelegationRequests) (executionId : RunId) : Prop :=
  ∀ q ∈ requests.rows, q.status = .dispatched → q.childRunId ≠ some executionId

/-- New attempts are later than the others, and `CancelTask` spares delegated executions. -/
def Guard.spareDelegated : Guard where
  attempt := laterThanAll
  latest _ _ := True
  viaTask c r := ∀ q, c.delegationRequests.getForChildExecution c.runs r.executionId = some q →
    q.status ≠ .dispatched
  viaTask_stable {c x x' r} hx same _ h q hq := by
    have hsame := DelegationRequests.getForChildExecution_put (t := c.delegationRequests)
      r.executionId hx same.id same.executionId
    exact h q (hsame.symm.trans hq)
  request := True

/-! ## What each kind of write keeps -/

section
variable {runs : RunTable} {requests : DelegationRequests}

variable (h : UnderWay runs requests)
include h

/-- A saved attempt goes on, or is no delegated one. -/
theorem UnderWay.save {r r' : Run} (hr : r ∈ runs.rows) (same : SameAttempt r r')
    (hlive : r'.status.isTerminal = false ∨ notDelegated requests r.executionId) :
    UnderWay (runs.put r') requests := by
  intro q hq hs
  obtain ⟨x, hx, hc, hl⟩ := h q hq hs
  obtain ⟨y, hy, hxy, hcase⟩ := saved_forth hr same hx
  refine ⟨y, hy, by rw [hxy.executionId]; exact hc, ?_⟩
  rcases hcase with rfl | ⟨rfl, rfl⟩
  · exact hl
  · rcases hlive with hlive | hnot
    · exact hlive
    · exact absurd hc (hnot q hq hs)

theorem UnderWay.fresh {n : Run} (hfresh : runs.get? n.id = none) :
    UnderWay (runs.put n) requests := by
  intro q hq hs
  obtain ⟨x, hx, hrest⟩ := h q hq hs
  exact ⟨x, (mem_put_fresh hfresh).2 (.inr hx), hrest⟩

theorem UnderWay.request {q : DelegationRequest} (hs : q.status = .requested) :
    UnderWay runs (requests.put q) := by
  refine forall_put (fun hd => ?_) h
  rw [hs] at hd
  cases hd

/-- A new request with its new child. -/
theorem UnderWay.dispatch {q : DelegationRequest} {child : Run}
    (hfresh : runs.get? child.id = none) (hqueued : child.status = .queued)
    (hroot : child.executionId = child.id) (hrun : q.childRunId = some child.id) :
    UnderWay (runs.put child) (requests.put q) := by
  refine forall_put (fun _ => ⟨child, ?_, by rw [hrun, hroot], by rw [hqueued]; rfl⟩)
    (h.fresh hfresh)
  exact (mem_put_fresh hfresh).2 (.inl rfl)

end

/-! ## Settling -/

section
variable {c : Core}

/-- What lives goes on through a settlement. -/
theorem settle_live (c : Core) (executionId : RunId) (now : Time) : ∀ x ∈ c.runs.rows,
    x.status.isTerminal = false → ∃ y ∈ (c.settle executionId now).runs.rows,
      y.executionId = x.executionId ∧ y.status.isTerminal = false := by
  intro x hx hl
  rcases c.settle_runs executionId now with hs | ⟨p, hp, -, hs⟩
  · exact ⟨x, by rw [hs]; exact hx, rfl, hl⟩
  · have same : SameAttempt p { p with delegationRequestId := none, status := .running } := ⟨rfl, rfl, rfl, rfl⟩
    obtain ⟨y, hy, hxy, hcase⟩ := saved_forth (mem_of_get? hp) same hx
    refine ⟨y, by rw [hs]; exact hy, hxy.executionId, ?_⟩
    rcases hcase with rfl | ⟨-, rfl⟩
    · exact hl
    · rfl

/-- A live attempt ends and its execution is settled. -/
theorem underWay_ended {c₁ : Core} {r r' : Run} {now : Time} (hl : c.lineages) (hn : Newest c.runs)
    (h : c.underWay) (hr : r ∈ c.runs.rows) (hlive : r.status.isTerminal = false)
    (same : SameAttempt r r') (hended : r'.status.isTerminal = true)
    (hruns : c₁.runs = c.runs.put r') (hrequests : c₁.delegationRequests = c.delegationRequests) :
    (c₁.settle r.executionId now).underWay := by
  have hl₁ := Lineages.save hl hr same (fun _ => hlive) fun hw => by rw [hw] at hended; cases hended
  rw [← hruns, ← hrequests] at hl₁
  have hlatest : c₁.runs.getLatestForExecution r.executionId = some r' := by
    rw [hruns]
    exact hn.latest_saved hr hlive same
  rcases c₁.settle_cases r.executionId now with ⟨hs, hnone⟩ | ⟨q, outcome, hq, hstatus, ho, hs⟩
  · -- a DISPATCHED request of the execution would have been settled
    have hnot : notDelegated c.delegationRequests r.executionId := by
      intro q hq hd hc
      have hfound := hl₁.getForChildExecution.2 ⟨hrequests ▸ hq, hc⟩
      obtain ⟨outcome, ho⟩ := settlement_isSome hended
      have hnothing := hnone q hfound hd
      rw [hlatest, Option.bind_some, ho] at hnothing
      cases hnothing
    rw [hs]
    show UnderWay c₁.runs c₁.delegationRequests
    rw [hruns, hrequests]
    exact h.save hr same (.inr hnot)
  · obtain ⟨hqin, hqc⟩ := hl₁.getForChildExecution.1 hq
    rw [hrequests] at hqin
    rw [hlatest, Option.bind_some] at ho
    have hfinal := (settlement_status ho).2
    intro x hx hd
    have hgoes := settle_live c₁ r.executionId now
    rw [hs, wake_requests, hrequests] at hx
    rcases mem_put.1 hx with rfl | ⟨hx, hne⟩
    · exact absurd hd hfinal
    · -- another request, so its live attempt is another run
      obtain ⟨y, hy, hc, hyl⟩ := h x hx hd
      have hye : y ≠ r := fun e => by
        rw [e] at hc
        exact hne (by rw [hl.unique x hx q hqin _ hc hqc]; rfl)
      have hyid : y.id ≠ r.id := fun e => hye (eq_of_key hy hr e)
      have hy₁ : y ∈ c₁.runs.rows := by
        rw [hruns]
        exact mem_put.2 (.inr ⟨hy, by rw [key_run, key_run, same.id]; exact hyid⟩)
      obtain ⟨z, hz, hze, hzl⟩ := hgoes y hy₁ hyl
      exact ⟨z, hz, by rw [hze]; exact hc, hzl⟩

end

/-! ## Moves -/

theorem underWay_move {c c' : Core} (hl : c.lineages) (hn : Newest c.runs) (h : c.underWay)
    (hm : Move .spareDelegated c c') : c'.underWay := by
  cases hm with
  | create fresh _ _ | retry _ _ _ fresh _ _ _ _ => exact h.fresh fresh
  | start hr _ same running => exact h.save (mem_of_get? hr) same (.inl (by rw [running]; rfl))
  | queue | resolve | approval | bind | unbind | endWorkflow => exact h
  | park hr _ _ _ _ _ same waiting _ | startWorkflow hr _ _ _ _ _ same waiting _ =>
    exact UnderWay.save h (mem_of_get? hr) same (.inl (by rw [waiting]; rfl))
  | resume _ _ _ _ _ hr _ _ _ same running =>
    exact UnderWay.save h (mem_of_get? hr) same (.inl (by rw [running]; rfl))
  | request _ requested _ _ => exact h.request requested
  | dispatch hp _ fresh queued root _ _ _ childRun _ _ same waiting _ =>
    have hdispatched := UnderWay.dispatch h fresh queued root childRun
    exact hdispatched.save ((mem_put_fresh fresh).2 (.inr (mem_of_get? hp))) same
      (.inl (by rw [waiting]; rfl))
  | @finish r r' now hr may same ended =>
    exact underWay_ended hl hn h (mem_of_get? hr) may.live same (isTerminal_of_ended ended) rfl rfl
  | @finishRetry r r' n at₁ at₂ hr may same ended fresh queued _ execution _ =>
    have hin := mem_of_get? hr
    have hmem : ∀ {y : Run}, y ∈ ((c.runs.put r').put n).rows ↔ y = n ∨ y ∈ (c.runs.put r').rows :=
      mem_put_fresh (fresh_put (same.id ▸ hr) fresh)
    intro q hq hs
    -- the retry takes the place of the attempt that failed
    obtain ⟨x, hx, hc, hxl⟩ := h q hq hs
    by_cases hxr : x.id = r.id
    · have hxr : x = r := eq_of_key hx hin hxr
      exact ⟨n, hmem.2 (.inl rfl), by rw [execution, ← hxr]; exact hc, by rw [queued]; rfl⟩
    · refine ⟨x, hmem.2 (.inr (mem_put.2 (.inr ⟨hx, ?_⟩))), hc, hxl⟩
      rw [key_run, key_run, same.id]
      exact hxr
  | @cancel r r' approvals now hr live allowed same cancelled resolved =>
    have hended : r'.status.isTerminal = true := by rw [cancelled]; rfl
    exact underWay_ended hl hn h (mem_of_get? hr) live same hended rfl rfl
  | viaTask hr live _ allowed same cancelled =>
    refine h.save (mem_of_get? hr) same (.inr fun q hq hd hc => ?_)
    exact allowed q (hl.getForChildExecution.2 ⟨hq, hc⟩) hd
  | @finishWorkflow x x' r r' _ _ _ _ hr _ waiting _ same terminal =>
    have hin := mem_of_get? hr
    refine UnderWay.save h hin same (.inr fun q hq _ hc => ?_)
    exact hl.workflow q hq _ hc r hin rfl waiting

/-! ## Runs of the system -/

/-- The latest attempt of the child's execution has not ended. -/
def childUnderWay (db : Db) (q : DelegationRequest) : Bool :=
  q.childRunId.any fun k => (db.runs.get? k).any fun child =>
    (db.runs.getLatestForExecution child.executionId).any (!·.status.isTerminal)

/-- A waiting parent refers to a DISPATCHED request, and what is DISPATCHED is under way. -/
def NoStranded (db : Db) : Prop :=
  (∀ p ∈ db.runs.rows, p.status = .waitingForDelegation → ∃ q ∈ db.delegationRequests.rows,
    p.delegationRequestId = some q.id ∧ q.status = .dispatched ∧ childUnderWay db q = true) ∧
  ∀ q ∈ db.delegationRequests.rows, q.status = .dispatched → childUnderWay db q = true
  deriving Decidable

/-- Every new attempt of an execution is created after the earlier ones. -/
def attemptsIncrease (db db' : Db) : Bool :=
  db'.runs.rows.all fun n => (db.runs.get? n.id).isSome ||
    db.runs.rows.all fun x => x.executionId ≠ n.executionId || x.createdAt < n.createdAt

/-- The clock moves between two attempts of an execution. -/
def clockAdvances (cfg : Config) (db : Db) (a : RunAction) : Bool :=
  (commit cfg db a).all (attemptsIncrease db)

/-- A `CancelTask` that does something reaches no live attempt of an execution whose request is
DISPATCHED. -/
def sparesDelegated (db : Db) : RunAction → Bool
  | .cancelTask taskId _ => (db.tasks.get? taskId).any (·.status = .cancelled) ||
      (db.runs.listForTask taskId).all fun r => r.status.isTerminal ||
        !(db.delegationRequests.getForChildExecution db.runs r.executionId).any (·.status = .dispatched)
  | _ => true

structure DelegationsOk (c : Core) : Prop where
  lineages : c.lineages
  newest : Newest c.runs
  parked : c.parked
  underWay : c.underWay

theorem DelegationsOk.move {c c' : Core} (h : DelegationsOk c) (hm : Move .spareDelegated c c') :
    DelegationsOk c' :=
  ⟨lineages_move h.lineages hm, newest_move (fun hclock => hclock) h.lineages h.newest hm,
    parked_move h.parked hm, underWay_move h.lineages h.newest h.underWay hm⟩

variable {db : Db}

theorem DelegationsOk.childUnderWay (h : DelegationsOk db.toCore) {q : DelegationRequest}
    (hq : q ∈ db.delegationRequests.rows) (hs : q.status = .dispatched) :
    childUnderWay db q = true := by
  obtain ⟨r, hr, hc, hlive⟩ := h.underWay q hq hs
  obtain ⟨x, hx, hid, hxe, -⟩ := h.lineages.child q hq _ hc
  have hlatest := RunTable.getLatestForExecution_of_newest hr (h.newest r hr hlive)
  have hget : db.runs.get? r.executionId = some x := by rw [← hid]; exact get?_of_mem hx
  simp [Runs.childUnderWay, hc, hget, hxe, hlatest, hlive]

theorem DelegationsOk.noStranded (h : DelegationsOk db.toCore) : NoStranded db := by
  refine ⟨fun p hp hw => ?_, fun q hq hs => h.childUnderWay hq hs⟩
  obtain ⟨q, hq, hmark, hs, -⟩ := h.parked p hp hw
  exact ⟨q, hq, hmark, hs, h.childUnderWay hq hs⟩

theorem newAttempts_of_increase {db' : Db} (h : attemptsIncrease db db' = true) :
    NewAttempts .spareDelegated db db' := by
  intro n hn hfresh x hx he
  have hall := List.all_eq_true.1 h n hn
  rw [hfresh, Option.isSome_none, Bool.false_or] at hall
  have hlater := List.all_eq_true.1 hall x hx
  simpa [he] using hlater

theorem allowed_of_sparesDelegated {a : RunAction} (h : sparesDelegated db a = true) :
    Allowed .spareDelegated db a := by
  cases a with
  | cancelTask taskId now =>
    intro htask r hr hof hlive q hq hd
    rcases Bool.or_eq_true_iff.1 h with hcancelled | hall
    · obtain ⟨task, ht, hs⟩ := (Option.any_eq_true _ _).1 hcancelled
      exact htask task ht (of_decide_eq_true hs)
    · have hspared := List.all_eq_true.1 hall r (RunTable.mem_listForTask.2 ⟨hr, hof⟩)
      simp [hlive, hq, hd] at hspared
  | _ => unfold Allowed; simp [Guard.spareDelegated]

/-! ## What `CancelTask` does to a delegated child -/

/-- The rows after the loop: the live runs of the list are CANCELLED, nothing else changes. -/
theorem cancelRuns_rows {now : Time} : ∀ {runs : List Run} {db db' : Db},
    cancelRuns now db runs = .ok db' → (runs.map Run.id).Nodup → (∀ r ∈ runs, r ∈ db.runs.rows) →
    (∀ y ∈ db'.runs.rows, ∃ x ∈ db.runs.rows, SameAttempt x y ∧ (x = y ∨ y.status = .cancelled)) ∧
    (∀ r ∈ runs, r.status.isTerminal = false → ∀ y ∈ db'.runs.rows, y.id = r.id → y.status = .cancelled) ∧
    db'.delegationRequests = db.delegationRequests
  | [], db, _, h, _, _ => by
    cases h
    exact ⟨fun y hy => ⟨y, hy, .refl y, .inl rfl⟩, fun _ hr => (by cases hr), rfl⟩
  | run :: runs, db, db', h, hnodup, hin => by
    obtain ⟨hnotin, hnodup⟩ := List.nodup_cons.1 hnodup
    have hrest : ∀ r ∈ runs, r ∈ db.runs.rows := fun r hr => hin r (List.mem_cons_of_mem _ hr)
    unfold cancelRuns at h
    split at h
    · next hterminal =>
      obtain ⟨hback, hcancelled, hsame⟩ := cancelRuns_rows h hnodup hrest
      refine ⟨hback, fun r hr hlive => ?_, hsame⟩
      rcases List.mem_cons.1 hr with rfl | hr
      · rw [hterminal] at hlive
        cases hlive
      · exact hcancelled r hr hlive
    · obtain ⟨db₁, h₁, h⟩ := bind_ok h
      obtain ⟨r', -, ⟨same, -⟩, hstatus, -, hcore, -⟩ := taskCancellation_told h₁
      have hruns : db₁.runs = db.runs.put r' := congrArg Core.runs hcore
      have hrun := hin run List.mem_cons_self
      have hne : ∀ r ∈ runs, r.id ≠ run.id := fun r hr e => hnotin (e ▸ List.mem_map_of_mem hr)
      obtain ⟨hback, hcancelled, hsame⟩ := cancelRuns_rows h hnodup fun r hr => by
        rw [hruns]
        exact mem_put.2 (.inr ⟨hrest r hr, by rw [key_run, key_run, same.id]; exact hne r hr⟩)
      have hrequests : db₁.delegationRequests = db.delegationRequests := by rw [hcore]; rfl
      refine ⟨fun y hy => ?_, fun r hr hlive y hy hid => ?_, hsame.trans hrequests⟩
      · obtain ⟨x, hx, hxy, hcase⟩ := hback y hy
        rw [hruns] at hx
        obtain ⟨z, hz, hzx, hzcase⟩ := saved_back hrun same hx
        refine ⟨z, hz, hzx.trans hxy, ?_⟩
        rcases hcase with rfl | hcancel
        · rcases hzcase with ⟨rfl, -⟩ | ⟨-, rfl⟩
          · exact .inl rfl
          · exact .inr hstatus
        · exact .inr hcancel
      · rcases List.mem_cons.1 hr with rfl | hr
        · -- the row just saved stays CANCELLED
          obtain ⟨x, hx, hxy, hcase⟩ := hback y hy
          rcases hcase with rfl | hcancel
          · rw [hruns] at hx
            rcases mem_put.1 hx with rfl | ⟨-, hkey⟩
            · exact hstatus
            · exact absurd (hid.trans same.id.symm) hkey
          · exact hcancel
        · exact hcancelled r hr hlive y hy hid

/-- The call the condition excludes leaves a DISPATCHED request whose child has ended. -/
theorem cancelTask_strands {db' : Db} {taskId : TaskId} {now : Time} {t : Task}
    (hl : db.toCore.lineages) (hcond : sparesDelegated db (.cancelTask taskId now) = false)
    (h : cancelTask db taskId now = .ok (t, db')) : ¬NoStranded db' := by
  rintro ⟨-, hunderWay⟩
  obtain ⟨hlive, hspared⟩ := Bool.or_eq_false_iff.1 hcond
  obtain ⟨r, hmem, hr⟩ := List.all_eq_false.1 hspared
  simp only [Bool.or_eq_true, Bool.not_eq_true', not_or, Bool.not_eq_true, Bool.not_eq_false] at hr
  obtain ⟨hrlive, hdelegated⟩ := hr
  obtain ⟨q, hq, hd⟩ := (Option.any_eq_true _ _).1 hdelegated
  obtain ⟨hqin, hc⟩ := hl.getForChildExecution.1 hq
  obtain ⟨task, htask, h⟩ := bind_ok h
  have htid : task.id = taskId := key_of_get? (found_eq_ok.1 htask)
  split at h
  · next hs =>
    rw [found_eq_ok.1 htask, Option.any_some, hs] at hlive
    cases hlive
  · obtain ⟨_, _, h⟩ := bind_rest₂ h
    obtain ⟨cancelled, -, db₁, hruns, h⟩ := bind_ok₂ h
    cases h
    obtain ⟨hback, hcancelled, hsame⟩ := cancelRuns_rows hruns RunTable.nodup_listForTask fun x hx =>
      mem_of_get? (RunTable.mem_listForTask.1 hx).1
    -- the request is untouched, so a live attempt of its execution is left
    have hq' : q ∈ db'.delegationRequests.rows := by rw [hsame]; exact hqin
    obtain ⟨k, hk, hrest⟩ := (Option.any_eq_true _ _).1 (hunderWay q hq' (of_decide_eq_true hd))
    obtain ⟨child, hchild, hrest⟩ := (Option.any_eq_true _ _).1 hrest
    obtain ⟨latest, hlatest, hll⟩ := (Option.any_eq_true _ _).1 hrest
    obtain ⟨hget, hexec⟩ := RunTable.getLatestForExecution_mem hlatest
    rw [hc] at hk
    cases hk
    have hchildId : child.id = r.executionId := key_of_get? hchild
    obtain ⟨child₀, hchild₀, hsc, -⟩ := hback child (mem_of_get? hchild)
    obtain ⟨x, hx, hxid, hxe, -⟩ := hl.child q hqin _ hc
    have hcx : child₀ = x := eq_of_key hchild₀ hx (by rw [key_run, key_run, hxid, ← hsc.id, hchildId])
    obtain ⟨latest₀, hlatest₀, hsl, hcase⟩ := hback latest (mem_of_get? hget)
    rcases hcase with rfl | hdead
    · -- that attempt was live before, so it is the one that was cancelled
      have he : latest₀.executionId = r.executionId := by rw [hexec, hsc.executionId, hcx, hxe]
      have hrin := (RunTable.mem_listForTask.1 hmem).1
      have hsameRun := hl.single r (mem_of_get? hrin) hrlive latest₀ hlatest₀ he (by simpa using hll)
      have hdead := hcancelled r (by rw [htid]; exact hmem) hrlive latest₀ (mem_of_get? hget)
        (congrArg Run.id hsameRun)
      rw [hdead] at hll
      cases hll
    · rw [hdead] at hll
      cases hll

theorem delegationsOk_reachable {cfg : Config} (h : ((runSystem cfg).restrict fun db a =>
    clockAdvances cfg db a = true ∧ sparesDelegated db a = true).Reachable db) : DelegationsOk db.toCore := by
  refine reachable_keep cfg (fun _ hinit => hinit) (fun db a db' hnext => ?_)
    ⟨lineages_empty, fun _ hr => (by cases hr), fun _ hp => (by cases hp), fun _ hq => (by cases hq)⟩
    DelegationsOk.move h
  obtain ⟨⟨hclock, hcond⟩, hstep⟩ := hnext
  refine ⟨allowed_of_sparesDelegated hcond, newAttempts_of_increase ?_, runSystem_next hstep⟩
  have hcommit : commit cfg db a = some db' := hstep.1
  simpa [clockAdvances, hcommit] using hclock

/-- **No stranded parent.** When the clock moves between attempts and every `CancelTask` spares the
delegated executions under way, a run that waits for a delegation refers to a DISPATCHED request
whose child's latest attempt lives, and so does every DISPATCHED request; and the next committed
step keeps this exactly when it meets the condition. -/
theorem no_stranded_parent (cfg : Config) (db : Db) (h : ((runSystem cfg).restrict fun db a =>
      clockAdvances cfg db a = true ∧ sparesDelegated db a = true).Reachable db) :
    NoStranded db ∧ ∀ a db', act cfg db a = .ok db' → attemptsIncrease db db' = true →
      (NoStranded db' ↔ sparesDelegated db a = true) := by
  have hok := delegationsOk_reachable h
  refine ⟨hok.noStranded, fun a db' hact hclock => ⟨fun hno => ?_, fun hcond => ?_⟩⟩
  · by_contra hcond
    have hfalse := Bool.eq_false_of_not_eq_true hcond
    cases a with
    | cancelTask taskId now =>
      obtain ⟨_, hcancel⟩ := map_snd_eq_ok.1 hact
      exact cancelTask_strands hok.lineages hfalse hcancel hno
    | _ => cases hfalse
  · have hmoves := act_moves (allowed_of_sparesDelegated hcond) (newAttempts_of_increase hclock) hact
    exact (hmoves.keep hok DelegationsOk.move).noStranded

/-- A claimed run delegates to the helper: request 10, child task 11, child run 12. -/
def delegationRun : List RunAction :=
  [.createTask 1 "t" "" 0, .startRun 1 2 1, .claimNextRun sampleClaim 2,
    .dispatchDelegation ⟨2, "o", .obj [], "c", none⟩ "helper" ⟨10, 11, 12⟩ ⟨"worker", "token", 1⟩ 3]

theorem no_stranded_parent_sample :
    let db := System.run (commit sampleConfig) sampleDb delegationRun
    (db.runs.get? 2).map (·.status) = some .waitingForDelegation ∧ NoStranded db := by
  intro db
  have hrun : System.Legal (commit sampleConfig) (fun db a => clockAdvances sampleConfig db a = true ∧
      sparesDelegated db a = true) sampleDb delegationRun ∧
      (db.runs.get? 2).map (·.status) = some .waitingForDelegation := by decide +kernel
  exact ⟨hrun.2, (no_stranded_parent sampleConfig db (sample_reachable_restrict hrun.1)).1⟩

/-- Cancelling the child task ends the child and leaves the parent waiting for it. -/
theorem cancelTask_strands_the_parent :
    let db := System.run (commit sampleConfig) sampleDb (delegationRun ++ [.cancelTask 11 4])
    ((runSystem sampleConfig).restrict fun db a =>
      clockAdvances sampleConfig db a = true).Reachable db ∧ (db.runs.get? 12).map (·.status) = some .cancelled ∧
      (db.runs.get? 2).map (fun r => (r.status, r.delegationRequestId)) = some (.waitingForDelegation, some 10) ∧
      (db.delegationRequests.get? 10).map (·.status) = some .dispatched ∧ ¬NoStranded db := by
  intro db
  have hrun : System.Legal (commit sampleConfig) (fun db a => clockAdvances sampleConfig db a = true) sampleDb
      (delegationRun ++ [.cancelTask 11 4]) ∧ (db.runs.get? 12).map (·.status) = some .cancelled ∧
      (db.runs.get? 2).map (fun r => (r.status, r.delegationRequestId)) = some (.waitingForDelegation, some 10) ∧
      (db.delegationRequests.get? 10).map (·.status) = some .dispatched ∧ ¬NoStranded db := by decide +kernel
  exact ⟨sample_reachable_restrict hrun.1, hrun.2⟩

end Friday.Runs
