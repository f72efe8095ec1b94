import FridayAssistant.Runs.WorkflowEffects
/-!
# Attempts, executions and delegated children

What the runs and the delegation requests always say about each other: the attempts of an
execution are of one task and at most one of them lives; a request names one child, whose task
stays bound to an agent, so that no attempt of a delegated execution ever waits for a workflow; and
a run that waits for a delegation waits for a DISPATCHED request of its own (`Parked`).

That the live attempt is also the newest one (`Newest`) needs a clock that moves between two of
them (`laterThanAll`).
-/
namespace Friday.Runs
open Tables Table Queue Relation

structure Lineages (runs : RunTable) (requests : DelegationRequests)
    (bindings : TaskAgentBindings) : Prop where
  root : ∀ r ∈ runs.rows, ∃ x ∈ runs.rows, x.id = r.executionId
  task : ∀ r ∈ runs.rows, ∀ x ∈ runs.rows, x.executionId = r.executionId → x.taskId = r.taskId
  single : ∀ r ∈ runs.rows, r.status.isTerminal = false → ∀ x ∈ runs.rows,
    x.executionId = r.executionId → x.status.isTerminal = false → x = r
  child : ∀ q ∈ requests.rows, ∀ k, q.childRunId = some k →
    ∃ x ∈ runs.rows, x.id = k ∧ x.executionId = k ∧ q.childTaskId = some x.taskId
  unique : ∀ q ∈ requests.rows, ∀ q' ∈ requests.rows, ∀ k, q.childRunId = some k →
    q'.childRunId = some k → q = q'
  bound : ∀ q ∈ requests.rows, ∀ t, q.childTaskId = some t → (bindings.get? t).isSome = true
  requested : ∀ q ∈ requests.rows, q.status = .requested → q.childTaskId = none
  workflow : ∀ q ∈ requests.rows, ∀ k, q.childRunId = some k → ∀ r ∈ runs.rows, r.executionId = k →
    r.status ≠ .waitingForWorkflow

abbrev Core.lineages (c : Core) : Prop := Lineages c.runs c.delegationRequests c.taskAgentBindings

/-- Each attempt of an execution is created after the ones before it. -/
def laterThanAll (c : Core) (executionId : RunId) (now : Time) : Prop :=
  ∀ x ∈ c.runs.rows, x.executionId = executionId → x.createdAt < now

variable {q : DelegationRequest}

section
variable {runs : RunTable} {requests : DelegationRequests} {bindings : TaskAgentBindings}

theorem lineages_empty : Lineages .empty .empty .empty := by constructor <;> intro r hr <;> cases hr

theorem Lineages.getForChildExecution (h : Lineages runs requests bindings) {e : RunId} :
    requests.getForChildExecution runs e = some q ↔ q ∈ requests.rows ∧ q.childRunId = some e := by
  refine DelegationRequests.getForChildExecution_iff (fun q hq k hk => ?_) h.unique
  obtain ⟨x, hx, rfl, he, -⟩ := h.child q hq k hk
  exact ⟨x, get?_of_mem hx, he⟩

end

/-! ## What each kind of write keeps -/

variable {n x : Run}

section
variable {runs : RunTable} {requests : DelegationRequests} {bindings : TaskAgentBindings}

variable {r r' : Run}

/-- Where the rows come from after an attempt is saved again. -/
theorem saved_back {y : Run} (hr : r ∈ runs.rows) (same : SameAttempt r r') (hy : y ∈ (runs.put r').rows) :
    ∃ x ∈ runs.rows, SameAttempt x y ∧ (x = y ∧ y.id ≠ r.id ∨ x = r ∧ y = r') := by
  rcases mem_put.1 hy with rfl | ⟨hy, hne⟩
  · exact ⟨r, hr, same, .inr ⟨rfl, rfl⟩⟩
  · exact ⟨y, hy, .refl y, .inl ⟨rfl, fun e => hne (e.trans same.id.symm)⟩⟩

theorem saved_forth (hr : r ∈ runs.rows) (same : SameAttempt r r') (hx : x ∈ runs.rows) :
    ∃ y ∈ (runs.put r').rows, SameAttempt x y ∧ (x = y ∨ x = r ∧ y = r') := by
  by_cases hid : x.id = r.id
  · have hxr : x = r := eq_of_key hx hr hid
    exact ⟨r', mem_put.2 (.inl rfl), hxr ▸ same, .inr ⟨hxr, rfl⟩⟩
  · exact ⟨x, mem_put.2 (.inr ⟨hx, by rw [key_run, key_run, same.id]; exact hid⟩), .refl x, .inl rfl⟩

/-- What lives after an attempt is saved lived before. -/
theorem saved_live {y : Run} (hr : r ∈ runs.rows) (same : SameAttempt r r')
    (hlive : r'.status.isTerminal = false → r.status.isTerminal = false)
    (hy : y ∈ (runs.put r').rows) (hyl : y.status.isTerminal = false) : ∃ x ∈ runs.rows,
      SameAttempt x y ∧ x.status.isTerminal = false := by
  obtain ⟨x, hx, hxy, hcase⟩ := saved_back hr same hy
  refine ⟨x, hx, hxy, ?_⟩
  rcases hcase with ⟨rfl, -⟩ | ⟨rfl, rfl⟩
  · exact hyl
  · exact hlive hyl

variable (h : Lineages runs requests bindings)
include h

/-- An attempt is saved: it does not come back to life, nor does a delegated one wait for a
workflow. -/
theorem Lineages.save (hr : r ∈ runs.rows) (same : SameAttempt r r')
    (hlive : r'.status.isTerminal = false → r.status.isTerminal = false)
    (hworkflow : r'.status = .waitingForWorkflow → ∀ q ∈ requests.rows, q.childRunId ≠ some r.executionId) :
    Lineages (runs.put r') requests bindings where
  root y hy := by
    obtain ⟨x, hx, hxy, -⟩ := saved_back hr same hy
    obtain ⟨z, hz, hid⟩ := h.root x hx
    obtain ⟨z', hz', hzz, -⟩ := saved_forth hr same hz
    exact ⟨z', hz', by rw [hzz.id, hid, hxy.executionId]⟩
  task y hy y' hy' he := by
    obtain ⟨x, hx, hxy, -⟩ := saved_back hr same hy
    obtain ⟨x', hx', hxy', -⟩ := saved_back hr same hy'
    rw [hxy.taskId, hxy'.taskId]
    exact h.task x hx x' hx' (by rw [← hxy'.executionId, he, hxy.executionId])
  single y hy hyl y' hy' he hyl' := by
    obtain ⟨x, hx, hxy, hxl⟩ := saved_live hr same hlive hy hyl
    obtain ⟨x', hx', hxy', hxl'⟩ := saved_live hr same hlive hy' hyl'
    have hsame := h.single x hx hxl x' hx' (by rw [← hxy'.executionId, he, hxy.executionId]) hxl'
    exact eq_of_key hy' hy (by rw [key_run, key_run, hxy'.id, hxy.id, hsame])
  child q hq k hk := by
    obtain ⟨x, hx, hid, he, ht⟩ := h.child q hq k hk
    obtain ⟨y, hy, hxy, -⟩ := saved_forth hr same hx
    exact ⟨y, hy, by rw [hxy.id, hid], by rw [hxy.executionId, he], by rw [hxy.taskId, ht]⟩
  unique := h.unique
  bound := h.bound
  requested := h.requested
  workflow q hq k hk y hy he hw := by
    obtain ⟨x, hx, hxy, hcase⟩ := saved_back hr same hy
    rcases hcase with ⟨rfl, -⟩ | ⟨rfl, rfl⟩
    · exact h.workflow q hq k hk x hx he hw
    · exact hworkflow hw q hq (by rw [hk, ← he, hxy.executionId])

/-- A new attempt: the first of its execution, or after all others of it have ended. -/
theorem Lineages.fresh (hfresh : runs.get? n.id = none)
    (hqueued : n.status = .queued) (hroot : n.executionId = n.id ∨ ∃ x ∈ runs.rows, x.executionId = n.executionId)
    (hothers : ∀ x ∈ runs.rows, x.executionId = n.executionId →
      x.taskId = n.taskId ∧ x.status.isTerminal = true) :
    Lineages (runs.put n) requests bindings := by
  have hmem : ∀ {y : Run}, y ∈ (runs.put n).rows ↔ y = n ∨ y ∈ runs.rows := mem_put_fresh hfresh
  constructor
  · intro y hy
    rcases hmem.1 hy with rfl | hy
    · rcases hroot with he | ⟨x, hx, he⟩
      · exact ⟨y, hmem.2 (.inl rfl), he.symm⟩
      · obtain ⟨z, hz, hid⟩ := h.root x hx
        exact ⟨z, hmem.2 (.inr hz), by rw [hid, he]⟩
    · obtain ⟨z, hz, hid⟩ := h.root y hy
      exact ⟨z, hmem.2 (.inr hz), hid⟩
  · intro y hy y' hy' he
    rcases hmem.1 hy with rfl | hold <;> rcases hmem.1 hy' with rfl | hold'
    · rfl
    · exact (hothers y' hold' he).1
    · exact (hothers y hold he.symm).1.symm
    · exact h.task y hold y' hold' he
  · intro y hy hyl y' hy' he hyl'
    rcases hmem.1 hy with rfl | hold <;> rcases hmem.1 hy' with rfl | hold'
    · rfl
    · rw [(hothers y' hold' he).2] at hyl'
      cases hyl'
    · rw [(hothers y hold he.symm).2] at hyl
      cases hyl
    · exact h.single y hold hyl y' hold' he hyl'
  · intro q hq k hk
    obtain ⟨x, hx, hrest⟩ := h.child q hq k hk
    exact ⟨x, hmem.2 (.inr hx), hrest⟩
  · exact h.unique
  · exact h.bound
  · exact h.requested
  · refine fun q hq k hk => forall_put (fun _ hw => ?_) (h.workflow q hq k hk)
    rw [hqueued] at hw
    cases hw

/-- A first attempt opens an execution nobody else is of. -/
theorem Lineages.none_of_fresh (hfresh : runs.get? n.id = none)
    (hroot : n.executionId = n.id) : ∀ x ∈ runs.rows, x.executionId ≠ n.executionId := by
  intro x hx he
  obtain ⟨z, hz, hid⟩ := h.root x hx
  exact ne_of_fresh (get?_of_mem hz) hfresh (hid.trans (he.trans hroot))

theorem Lineages.create (hfresh : runs.get? n.id = none)
    (hqueued : n.status = .queued) (hroot : n.executionId = n.id) :
    Lineages (runs.put n) requests bindings :=
  h.fresh hfresh hqueued (.inl hroot) fun x hx he => absurd he (h.none_of_fresh hfresh hroot x hx)

/-- A new request; its child, if it has one, is the child of no other. -/
theorem Lineages.addRequest (hfresh : requests.get? q.id = none)
    (hchild : ∀ k, q.childRunId = some k → (∃ x ∈ runs.rows, x.id = k ∧ x.executionId = k ∧ q.childTaskId = some x.taskId) ∧
      (∀ y ∈ requests.rows, y.childRunId ≠ some k) ∧ ∀ r ∈ runs.rows, r.executionId = k → r.status ≠ .waitingForWorkflow)
    (hbound : ∀ t, q.childTaskId = some t → (bindings.get? t).isSome = true)
    (hrequested : q.status = .requested → q.childTaskId = none) :
    Lineages runs (requests.put q) bindings := by
  have hmem : ∀ {y : DelegationRequest}, y ∈ (requests.put q).rows ↔ y = q ∨ y ∈ requests.rows :=
    mem_put_fresh hfresh
  refine ⟨h.root, h.task, h.single, forall_put (fun k hk => (hchild k hk).1) h.child,
    fun y hy y' hy' k hk hk' => ?_, forall_put hbound h.bound, forall_put hrequested h.requested,
    forall_put (fun k hk => (hchild k hk).2.2) h.workflow⟩
  rcases hmem.1 hy with rfl | hold <;> rcases hmem.1 hy' with rfl | hold'
  · rfl
  · exact absurd hk' ((hchild k hk).2.1 y' hold')
  · exact absurd hk ((hchild k hk').2.1 y hold)
  · exact h.unique y hold y' hold' k hk hk'

/-- A request with its new child. -/
theorem Lineages.dispatch {child : Run}
    (hfresh : runs.get? child.id = none) (hqueued : child.status = .queued)
    (hroot : child.executionId = child.id) (hfreshRequest : requests.get? q.id = none)
    (hstatus : q.status = .dispatched) (hrun : q.childRunId = some child.id)
    (htask : q.childTaskId = some child.taskId)
    (hbound : (bindings.get? child.taskId).isSome = true) :
    Lineages (runs.put child) (requests.put q) bindings := by
  have hmem : ∀ {r : Run}, r ∈ (runs.put child).rows ↔ r = child ∨ r ∈ runs.rows :=
    mem_put_fresh hfresh
  refine (h.create hfresh hqueued hroot).addRequest hfreshRequest (fun k hk => ?_) (fun t ht => ?_)
    (by rw [hstatus]; nofun)
  · cases hrun.symm.trans hk
    refine ⟨⟨child, hmem.2 (.inl rfl), rfl, hroot, htask⟩, fun y hy hyk => ?_, fun r hr he => ?_⟩
    · -- no older request names the child, whose id is new
      obtain ⟨x, hx, hid, -⟩ := h.child y hy child.id hyk
      exact ne_of_fresh (get?_of_mem hx) hfresh hid
    · rcases hmem.1 hr with rfl | hr
      · rw [hqueued]; nofun
      · exact absurd (he.trans hroot.symm) (h.none_of_fresh hfresh hroot r hr)
  · cases htask.symm.trans ht
    exact hbound

/-- A request is settled. -/
theorem Lineages.settled {q' : DelegationRequest} (hq : q ∈ requests.rows)
    (hid : q'.id = q.id) (hrun : q'.childRunId = q.childRunId)
    (htask : q'.childTaskId = q.childTaskId) (hstatus : q'.status ≠ .requested) :
    Lineages runs (requests.put q') bindings := by
  have hback : ∀ y ∈ (requests.put q').rows, ∃ x ∈ requests.rows, x.id = y.id ∧
      y.childRunId = x.childRunId ∧ y.childTaskId = x.childTaskId ∧ (y = x ∨ y = q') := by
    intro y hy
    rcases mem_put.1 hy with rfl | ⟨hy, -⟩
    · exact ⟨q, hq, hid.symm, hrun, htask, .inr rfl⟩
    · exact ⟨y, hy, rfl, rfl, rfl, .inl rfl⟩
  refine ⟨h.root, h.task, h.single, fun y hy k hk => ?_, fun y hy y' hy' k hk hk' => ?_,
    fun y hy t ht => ?_, fun y hy hs => ?_, fun y hy k hk => ?_⟩
  · obtain ⟨x, hx, -, hxr, hxt, -⟩ := hback y hy
    rw [hxt]
    exact h.child x hx k (hxr ▸ hk)
  · obtain ⟨x, hx, hxid, hxr, -⟩ := hback y hy
    obtain ⟨x', hx', hxid', hxr', -⟩ := hback y' hy'
    have hsame := h.unique x hx x' hx' k (hxr ▸ hk) (hxr' ▸ hk')
    exact eq_of_key hy hy' (by rw [key_delegation, key_delegation, ← hxid, ← hxid', hsame])
  · obtain ⟨x, hx, -, -, hxt, -⟩ := hback y hy
    exact h.bound x hx t (hxt ▸ ht)
  · obtain ⟨x, hx, -, -, hxt, hcase⟩ := hback y hy
    rcases hcase with rfl | rfl
    · exact h.requested y hx hs
    · exact absurd hs hstatus
  · obtain ⟨x, hx, -, hxr, -⟩ := hback y hy
    exact h.workflow x hx k (hxr ▸ hk)

theorem Lineages.rebind {bindings' : TaskAgentBindings}
    (hkept : ∀ q ∈ requests.rows, ∀ t, q.childTaskId = some t → (bindings.get? t).isSome = true →
      (bindings'.get? t).isSome = true) : Lineages runs requests bindings' :=
  { h with bound := fun q hq t ht => hkept q hq t ht (h.bound q hq t ht) }

end

/-! ## Moves -/

variable {c' : Core} {g : Guard} {executionId : RunId} {now : Time}

section
variable {c : Core}

theorem lineages_wake (h : c.lineages) : (c.wake q now).lineages := by
  rcases c.wake_cases q now with ⟨hw, -⟩ | ⟨p, hp, -, hs, -, hw⟩
  · rw [hw]; exact h
  · rw [hw]
    have hlive : p.status.isTerminal = false := by rw [hs]; rfl
    have same : SameAttempt p { p with delegationRequestId := none, status := .running } := ⟨rfl, rfl, rfl, rfl⟩
    exact h.save (mem_of_get? hp) same (fun _ => hlive) nofun

variable {r : Run}

/-- A settled request is neither REQUESTED nor DISPATCHED. -/
theorem settlement_status {outcome : DelegationStatus × RunEventType × Option String}
    (h : settlement r = some outcome) : outcome.1 ≠ .requested ∧ outcome.1 ≠ .dispatched := by
  unfold settlement at h
  split at h
  · cases h; exact ⟨nofun, nofun⟩
  · cases h; exact ⟨nofun, nofun⟩
  · cases h; exact ⟨nofun, nofun⟩
  · cases h

theorem settlement_isSome (h : r.status.isTerminal = true) :
    ∃ outcome, settlement r = some outcome := by
  unfold settlement
  cases hs : r.status <;> rw [hs] at h <;> first | exact ⟨_, rfl⟩ | cases h

theorem lineages_settle (h : c.lineages) : (c.settle executionId now).lineages := by
  rcases c.settle_cases executionId now with ⟨hs, -⟩ | ⟨q, outcome, hq, -, ho, hs⟩
  · rw [hs]; exact h
  · rw [hs]
    obtain ⟨latest, -, hlatest⟩ := Option.bind_eq_some_iff.1 ho
    exact lineages_wake (h.settled (h.getForChildExecution.1 hq).1 rfl rfl rfl (settlement_status hlatest).1)

variable {bindings : TaskAgentBindings}

theorem isSome_replace {b : TaskAgentBinding} {t : TaskId}
    (h : (bindings.get? t).isSome = true) :
    ((bindings.replace b.taskId (some b)).get? t).isSome = true := by
  show ((Table.put _ _).get? t).isSome = true
  rw [get?_put, key_taskAgentBinding]
  split
  · rfl
  · next hne => rw [get?_erase, if_neg hne]; exact h

/-- The attempts of an execution besides a live one have ended. -/
theorem Lineages.others_ended {runs : RunTable} {requests : DelegationRequests}
    (h : Lineages runs requests bindings) (hr : r ∈ runs.rows) (hlive : r.status.isTerminal = false)
    (hx : x ∈ runs.rows) (he : x.executionId = r.executionId) (hne : x.id ≠ r.id) :
    x.status.isTerminal = true := by
  by_contra hl
  exact hne (congrArg Run.id (h.single r hr hlive x hx he (Bool.eq_false_of_not_eq_true hl)))

/-- When the live attempt of an execution has ended, all of them have. -/
theorem Lineages.all_ended {runs : RunTable} {requests : DelegationRequests}
    (h : Lineages runs requests bindings) {r' : Run} (hr : r ∈ runs.rows) (hlive : r.status.isTerminal = false)
    (same : SameAttempt r r') (ended : r'.status.isTerminal = true) (hx : x ∈ (runs.put r').rows)
    (he : x.executionId = r.executionId) : x.taskId = r.taskId ∧ x.status.isTerminal = true ∧
      ∃ y ∈ runs.rows, y.executionId = r.executionId ∧ x.createdAt = y.createdAt := by
  obtain ⟨y, hy, hyx, hcase⟩ := saved_back hr same hx
  have hye : y.executionId = r.executionId := hyx.executionId.symm.trans he
  refine ⟨hyx.taskId.trans (h.task r hr y hy hye), ?_, y, hy, hye, hyx.createdAt⟩
  rcases hcase with ⟨rfl, hne⟩ | ⟨rfl, rfl⟩
  · exact h.others_ended hr hlive hy hye hne
  · exact ended

theorem lineages_move (h : c.lineages) (hm : Move g c c') : c'.lineages := by
  cases hm with
  | create fresh queued root => exact h.create fresh queued root
  | @retry source n at₁ at₂ hsource ended notDelegated fresh queued task execution clock =>
    have hin := mem_of_get? hsource
    refine h.fresh fresh queued (.inr ⟨source, hin, execution.symm⟩) fun x hx he => ?_
    have hxe := he.trans execution
    have hxt := h.task source hin x hx hxe
    exact ⟨hxt.trans task.symm, ended x (get?_of_mem hx) hxt⟩
  | start hr queued same running =>
    exact h.save (mem_of_get? hr) same (fun _ => by rw [queued]; rfl) (by rw [running]; nofun)
  | queue | resolve | approval | endWorkflow => exact h
  | park hr running _ _ _ _ same waiting _ =>
    exact Lineages.save h (mem_of_get? hr) same (fun _ => by rw [running]; rfl) (by rw [waiting]; nofun)
  | resume _ _ _ _ _ hr _ waiting _ same running =>
    exact Lineages.save h (mem_of_get? hr) same (fun _ => by rw [waiting]; rfl) (by rw [running]; nofun)
  | request fresh _ noTask noRun =>
    exact h.addRequest fresh (by rw [noRun]; nofun) (by rw [noTask]; nofun) fun _ => noTask
  | bind => exact h.rebind fun _ _ _ _ => isSome_replace
  | @unbind t free =>
    refine h.rebind fun q hq t' ht' hsome => ?_
    have hne : t ≠ t' := by
      -- a child task cannot lose its agent
      rintro rfl
      obtain ⟨q', hq', hmem, ht⟩ := DelegationRequests.getForChildTask_isSome hq ht'
      rw [hq', Option.all_some, decide_eq_true_iff] at free
      rw [h.requested q' hmem free] at ht
      cases ht
    show ((c.taskAgentBindings.erase t).get? t').isSome = true
    rw [get?_erase, if_neg hne]
    exact hsome
  | dispatch hp running fresh queued root freshRequest dispatched _ childRun childTask bound same waiting _ =>
    have hdispatched := Lineages.dispatch h fresh queued root freshRequest dispatched childRun childTask bound
    exact hdispatched.save ((mem_put_fresh fresh).2 (.inr (mem_of_get? hp))) same
      (fun _ => by rw [running]; rfl) (by rw [waiting]; nofun)
  | @finish r r' now hr may same ended =>
    have hended : r'.status.isTerminal = true := isTerminal_of_ended ended
    have hsaved : ((c.withRun r').dropItem r.id).lineages :=
      h.save (mem_of_get? hr) same (fun hl => by rw [hended] at hl; cases hl)
        fun hw => by rw [hw] at hended; cases hended
    exact lineages_settle hsaved
  | @finishRetry r r' n at₁ at₂ hr may same ended fresh queued task execution clock =>
    have hin := mem_of_get? hr
    have hsaved : Lineages (c.runs.put r') c.delegationRequests c.taskAgentBindings :=
      h.save hin same (fun hl => by rw [ended] at hl; cases hl) (by rw [ended]; nofun)
    refine Lineages.fresh hsaved (fresh_put (same.id ▸ hr) fresh) queued
      (.inr ⟨r', mem_put.2 (.inl rfl), same.executionId.trans execution.symm⟩) fun x hx he => ?_
    obtain ⟨hxt, hxe, -⟩ := h.all_ended hin may.live same (by rw [ended]; rfl) hx (he.trans execution)
    exact ⟨hxt.trans task.symm, hxe⟩
  | @cancel r r' approvals now hr live allowed same cancelled resolved =>
    have hsaved : (({ c with approvals := approvals }.withRun r').dropItem r.id).lineages :=
      Lineages.save h (mem_of_get? hr) same (fun hl => by rw [cancelled] at hl; cases hl) (by rw [cancelled]; nofun)
    exact lineages_settle hsaved
  | viaTask hr live _ _ same cancelled =>
    exact h.save (mem_of_get? hr) same (fun _ => live) (by rw [cancelled]; nofun)
  | @startWorkflow r r' x hr running _ _ _ unbound same _ _ =>
    refine Lineages.save h (mem_of_get? hr) same (fun _ => by rw [running]; rfl) fun _ q hq hc => ?_
    obtain ⟨y, hy, -, hye, htask⟩ := Lineages.child h q hq r.executionId hc
    have hbound := Lineages.bound h q hq y.taskId htask
    rw [← Lineages.task h y hy r (mem_of_get? hr) hye.symm, unbound] at hbound
    cases hbound
  | finishWorkflow _ _ _ _ hr _ waiting _ same terminal =>
    exact Lineages.save h (mem_of_get? hr) same (fun hl => by rw [terminal] at hl; cases hl)
      fun hw => by rw [hw] at terminal; cases terminal

end

/-! ## The newest attempt is the one that lives -/

/-- Of the attempts of an execution none is later than one that lives. -/
def Newest (runs : RunTable) : Prop :=
  ∀ r ∈ runs.rows, r.status.isTerminal = false → ∀ x ∈ runs.rows, x.executionId = r.executionId →
    x.id ≠ r.id → x.createdAt < r.createdAt

section
variable {runs : RunTable} {c : Core}

variable {r r' : Run}

theorem Newest.save (h : Newest runs) (hr : r ∈ runs.rows) (same : SameAttempt r r')
    (hlive : r'.status.isTerminal = false → r.status.isTerminal = false) :
    Newest (runs.put r') := by
  intro y hy hyl y' hy' he hne
  obtain ⟨x, hx, hxy, hxl⟩ := saved_live hr same hlive hy hyl
  obtain ⟨x', hx', hxy', -⟩ := saved_back hr same hy'
  rw [hxy.createdAt, hxy'.createdAt]
  exact h x hx hxl x' hx' (by rw [← hxy'.executionId, he, hxy.executionId])
    (by rw [← hxy'.id, ← hxy.id]; exact hne)

/-- The attempts besides a live one are older, however it is saved. -/
theorem Newest.older (h : Newest runs) (hr : r ∈ runs.rows) (hlive : r.status.isTerminal = false)
    (same : SameAttempt r r') (hx : x ∈ (runs.put r').rows) (he : x.executionId = r.executionId)
    (hne : x.id ≠ r'.id) : x.createdAt < r'.createdAt := by
  obtain ⟨y, hy, hyx, -⟩ := saved_back hr same hx
  rw [hyx.createdAt, same.createdAt]
  exact h r hr hlive y hy (by rw [← hyx.executionId, he]) (by rw [← hyx.id, ← same.id]; exact hne)

theorem Newest.latest_saved (h : Newest runs) (hr : r ∈ runs.rows)
    (hlive : r.status.isTerminal = false) (same : SameAttempt r r') :
    RunTable.getLatestForExecution (runs.put r') r.executionId = some r' := by
  rw [← same.executionId]
  refine RunTable.getLatestForExecution_of_newest (mem_put.2 (.inl rfl)) fun x hx he hne => ?_
  exact h.older hr hlive same hx (he.trans same.executionId) hne

theorem Newest.fresh (h : Newest runs) (hfresh : runs.get? n.id = none)
    (hothers : ∀ x ∈ runs.rows, x.executionId = n.executionId → x.status.isTerminal = true ∧ x.createdAt < n.createdAt) :
    Newest (runs.put n) := by
  intro y hy hyl y' hy' he hne
  rcases (mem_put_fresh hfresh).1 hy with rfl | hold <;> rcases (mem_put_fresh hfresh).1 hy' with
    rfl | hold'
  · exact absurd rfl hne
  · exact (hothers y' hold' he).2
  · rw [(hothers y hold he.symm).1] at hyl
    cases hyl
  · exact h y hold hyl y' hold' he hne

theorem newest_settle (h : Newest c.runs) : Newest (c.settle executionId now).runs := by
  rcases c.settle_runs executionId now with hs | ⟨p, hp, hwaiting, hs⟩
  · rw [hs]; exact h
  · rw [hs]
    exact h.save (mem_of_get? hp) ⟨rfl, rfl, rfl, rfl⟩ fun _ => by rw [hwaiting]; rfl

theorem newest_move (strict : ∀ {c e now}, g.attempt c e now → laterThanAll c e now)
    (hl : c.lineages) (h : Newest c.runs) (hm : Move g c c') : Newest c'.runs := by
  cases hm with
  | create fresh _ root =>
    exact h.fresh fresh fun x hx he => absurd he (hl.none_of_fresh fresh root x hx)
  | @retry source n at₁ at₂ hsource ended _ fresh _ _ execution clock =>
    refine h.fresh fresh fun x hx he => ?_
    have hxe := he.trans execution
    have hxt := hl.task source (mem_of_get? hsource) x hx hxe
    exact ⟨ended x (get?_of_mem hx) hxt, strict clock x hx hxe⟩
  | start hr live same _ | park hr live _ _ _ _ same _ _ | startWorkflow hr live _ _ _ _ same _ _
  | resume _ _ _ _ _ hr _ live _ same _ | finishWorkflow _ _ _ _ hr _ live _ same _ =>
    exact h.save (mem_of_get? hr) same fun _ => by rw [live]; rfl
  | queue | resolve | approval | request | bind | unbind | endWorkflow => exact h
  | dispatch hp running fresh _ root _ _ _ _ _ _ same _ _ =>
    have hchild := h.fresh fresh fun x hx he => absurd he (hl.none_of_fresh fresh root x hx)
    exact hchild.save ((mem_put_fresh fresh).2 (.inr (mem_of_get? hp))) same fun _ => by rw [running]; rfl
  | @finish r r' now hr may same _ =>
    have hsaved : Newest ((c.withRun r').dropItem r.id).runs := h.save (mem_of_get? hr) same fun _ => may.live
    exact newest_settle hsaved
  | @finishRetry r r' n at₁ at₂ hr may same ended fresh _ _ execution clock =>
    have hin := mem_of_get? hr
    have hsaved : Newest (c.runs.put r') := h.save hin same fun _ => may.live
    refine hsaved.fresh (fresh_put (same.id ▸ hr) fresh) fun x hx he => ?_
    obtain ⟨-, hxe, y, hy, hye, hat⟩ := hl.all_ended hin may.live same (by rw [ended]; rfl) hx (he.trans execution)
    exact ⟨hxe, hat ▸ strict clock y hy hye⟩
  | @cancel r r' approvals now hr live _ same _ _ =>
    have hsaved : Newest (({ c with approvals := approvals }.withRun r').dropItem r.id).runs :=
      h.save (mem_of_get? hr) same fun _ => live
    exact newest_settle hsaved
  | viaTask hr live _ _ same _ => exact h.save (mem_of_get? hr) same fun _ => live

end

/-! ## A parent waits for a request of its own -/

/-- A run that waits for a delegation refers to a DISPATCHED request that it made. -/
def Parked (runs : RunTable) (requests : DelegationRequests) : Prop :=
  ∀ p ∈ runs.rows, p.status = .waitingForDelegation → ∃ q ∈ requests.rows,
    p.delegationRequestId = some q.id ∧ q.status = .dispatched ∧ q.parentRunId = p.id

abbrev Core.parked (c : Core) : Prop := Parked c.runs c.delegationRequests

section
variable {runs : RunTable} {requests : DelegationRequests} {c : Core}

theorem Parked.save (h : Parked runs requests) {r' : Run}
    (hwaits : r'.status ≠ .waitingForDelegation) : Parked (runs.put r') requests := by
  exact forall_put (fun hs => absurd hs hwaits) h

theorem Parked.request (h : Parked runs requests) (hfresh : requests.get? q.id = none) :
    Parked runs (requests.put q) := by
  intro p hp hw
  obtain ⟨x, hx, hrest⟩ := h p hp hw
  exact ⟨x, (mem_put_fresh hfresh).2 (.inr hx), hrest⟩

/-- The parent parks on a new request. -/
theorem Parked.dispatch (h : Parked runs requests) {p' child : Run}
    (hqueued : child.status = .queued) (hfresh : requests.get? q.id = none) (hstatus : q.status = .dispatched)
    (hparent : q.parentRunId = p'.id) (hmarker : p'.delegationRequestId = some q.id) :
    Parked ((runs.put child).put p') (requests.put q) := by
  exact forall_put (fun _ => ⟨q, (mem_put_fresh hfresh).2 (.inl rfl), hmarker, hstatus, hparent⟩)
    (Parked.request (Parked.save h (by rw [hqueued]; nofun)) hfresh)

/-- What a wake leaves waiting was waiting before, and not for this request. -/
theorem wake_waiting (c : Core) (q : DelegationRequest) (now : Time) :
    ∀ y ∈ (c.wake q now).runs.rows, y.status = .waitingForDelegation → y ∈ c.runs.rows ∧
      ¬(q.parentRunId = y.id ∧ y.delegationRequestId = some q.id) := by
  intro y hy hwait
  rcases c.wake_cases q now with ⟨hw, hnone⟩ | ⟨p, hp, hparent, hs, hmarker, hw⟩
  · rw [hw] at hy
    refine ⟨hy, fun ⟨hid, hmark⟩ => ?_⟩
    exact hnone y (by rw [hid]; exact get?_of_mem hy) ⟨hwait, hmark⟩
  · rw [hw] at hy
    rcases mem_put.1 hy with rfl | ⟨hy, hne⟩
    · cases hwait
    · exact ⟨hy, fun hmine => hne (hmine.1.symm.trans hparent)⟩

theorem wake_requests (c : Core) (q : DelegationRequest) (now : Time) :
    (c.wake q now).delegationRequests = c.delegationRequests := by
  rcases c.wake_cases q now with ⟨hw, -⟩ | ⟨p, -, -, -, -, hw⟩
  · rw [hw]
  · rw [hw]; rfl

theorem parked_settle (h : c.parked) : (c.settle executionId now).parked := by
  rcases c.settle_cases executionId now with ⟨hs, -⟩ | ⟨q, outcome, hq, -, -, hs⟩
  · rw [hs]; exact h
  · have hqin := mem_of_get? (DelegationRequests.getForChildExecution_some hq).1
    rw [hs]
    intro p hp hw
    -- whoever still waits waits for another request
    obtain ⟨hpc, hother⟩ := wake_waiting _ _ _ p hp hw
    obtain ⟨x, hx, hmark, hd, hparent⟩ := h p hpc hw
    have hne : x.id ≠ q.id := fun e => by
      have hxq := eq_of_key hx hqin e
      rw [hxq] at hmark hparent
      exact hother ⟨hparent, hmark⟩
    refine ⟨x, ?_, hmark, hd, hparent⟩
    rw [wake_requests]
    exact mem_put.2 (.inr ⟨hx, hne⟩)

theorem parked_move (h : c.parked) (hm : Move g c c') : c'.parked := by
  cases hm with
  | create _ queued _ | retry _ _ _ _ queued _ _ _ => exact h.save (by rw [queued]; nofun)
  | start _ _ _ running => exact h.save (by rw [running]; nofun)
  | queue | resolve | approval | bind | unbind | endWorkflow => exact h
  | park _ _ _ _ _ _ _ waiting _ | startWorkflow _ _ _ _ _ _ _ waiting _ =>
    exact Parked.save h (by rw [waiting]; nofun)
  | resume _ _ _ _ _ _ _ _ _ _ running => exact Parked.save h (by rw [running]; nofun)
  | request fresh _ _ _ => exact h.request fresh
  | dispatch _ _ _ queued _ freshRequest dispatched parent _ _ _ same _ marker =>
    exact Parked.dispatch h queued freshRequest dispatched (parent.trans same.id.symm) marker
  | @finish r r' now _ _ _ ended =>
    have hsaved : ((c.withRun r').dropItem r.id).parked :=
      h.save (by rcases ended with hs | hs <;> rw [hs] <;> nofun)
    exact parked_settle hsaved
  | finishRetry _ _ _ ended _ queued _ _ _ =>
    exact Parked.save (Parked.save h (by rw [ended]; nofun)) (by rw [queued]; nofun)
  | @cancel r r' approvals now _ _ _ _ cancelled _ =>
    have hsaved : (({ c with approvals := approvals }.withRun r').dropItem r.id).parked :=
      Parked.save h (by rw [cancelled]; nofun)
    exact parked_settle hsaved
  | viaTask _ _ _ _ _ cancelled => exact h.save (by rw [cancelled]; nofun)
  | finishWorkflow _ _ _ _ _ _ _ _ _ terminal =>
    exact Parked.save h fun hw => by rw [hw] at terminal; cases terminal

end

end Friday.Runs
