import FridayAssistant.Runs.WorkflowFrames
/-!
# Workflows over whole histories

The rows of executions and nodes rest on other rows: definitions, child tasks and their bindings,
first attempts. `Carries` says that these are kept, whatever is committed; with it the invariant
`WorkflowsOk` goes through every commit. A start creates rows that satisfy it (`Created`), each
scheduling step keeps it, and the end of an execution only adds the verdict.

`workflowSystem` runs all use cases, not only the two of workflows: children are claimed, retried,
cancelled and ended by the others, at any time.
-/
namespace Friday.Runs
open Tables Table Queue Relation Transition PyJson
open WorkflowNodeExecution (Same)

/-! ## What rows rest on -/

/-- What the rows of executions and nodes rest on is kept. -/
structure Carries (db db' : Db) : Prop where
  executions : ∀ k, (db.workflowExecutions.get? k).isSome = true →
    (db'.workflowExecutions.get? k).isSome = true
  tasks : ∀ k, (db.tasks.get? k).isSome = true → (db'.tasks.get? k).isSome = true
  attempts : KeepsAttempts db.toCore db'.toCore
  bindings : ∀ n ∈ db.workflowNodeExecutions.rows, ∀ t, n.childTaskId = some t →
    db'.taskAgentBindings.get? t = db.taskAgentBindings.get? t

variable {db db' : Db} {cfg : Config} {x : WorkflowExecution} {b : Blueprint} {s s' : Sched}
  {n : WorkflowNodeExecution} {now : Time} {a : RunAction} {as : List RunAction}

theorem Frozen.carries (h : Frozen db db') : Carries db db' :=
  ⟨fun k hk => by rw [h.executions]; exact hk, h.tasks, h.attempts, h.bindings⟩

theorem Created.carries (h : Created cfg db x b s) : Carries db s.2 := by
  refine ⟨fun k hk => ?_, fun k hk => by rw [h.tasks]; exact hk, ?_, fun _ _ _ _ => by rw [h.core]⟩
  · rw [h.executions, get?_put]
    split
    · rfl
    · exact hk
  · rw [h.core]
    exact .refl db.toCore

theorem Finished.carries {nodes : List WorkflowNodeExecution} (h : Finished x nodes db db') :
    Carries db db' := by
  obtain ⟨x', -, hexecutions, hsame⟩ := h
  refine ⟨fun k hk => ?_, fun k hk => by rw [hsame.frame]; exact hk, hsame.attempts,
    fun _ _ _ _ => by rw [hsame.bindings]⟩
  rw [hexecutions, get?_put]
  split
  · rfl
  · exact hk

/-! ## Rows of nodes -/

/-- A failed or blocked node says why. -/
def Explained (n : WorkflowNodeExecution) : Prop :=
  ∃ code message, n.failureCode = some code ∧ n.failureMessage = some message ∧
    PyText.isBlank code = false ∧ PyText.isBlank message = false

/-- The child of a node: its task, bound to the node's agent, and the first attempt. -/
structure ChildOk (db : Db) (n : WorkflowNodeExecution) (taskId : TaskId) (runId : RunId) :
    Prop where
  isTask : n.childTaskId = some taskId
  isRun : n.childRunId = some runId
  isExecution : n.childExecutionId = some runId
  task : (db.tasks.get? taskId).isSome = true
  binding : (db.taskAgentBindings.get? taskId).any (·.agentId = n.targetAgentId) = true
  run : ∃ r, db.runs.get? runId = some r ∧ r.executionId = runId ∧ r.taskId = taskId

structure RowOk (db : Db) (n : WorkflowNodeExecution) : Prop where
  owner : (db.workflowExecutions.get? n.workflowExecutionId).isSome = true
  child : NoChild n ∨ ∃ taskId runId, ChildOk db n taskId runId
  failure : n.status = .failed ∨ n.status = .blocked → Explained n

theorem RowOk.task (h : RowOk db n) {t : TaskId} (ht : n.childTaskId = some t) :
    (db.tasks.get? t).isSome = true := by
  rcases h.child with hno | ⟨taskId, runId, hchild⟩
  · rw [hno.task] at ht
    cases ht
  · rw [hchild.isTask] at ht
    cases ht
    exact hchild.task

theorem RowOk.carry (h : RowOk db n) (hn : n ∈ db.workflowNodeExecutions.rows)
    (hc : Carries db db') : RowOk db' n where
  owner := hc.executions _ h.owner
  child := h.child.imp id fun ⟨taskId, runId, hchild⟩ => by
    obtain ⟨r, hr, hexecution, htask⟩ := hchild.run
    obtain ⟨r', hr', hsame⟩ := hc.attempts _ _ hr
    exact ⟨taskId, runId, hchild.isTask, hchild.isRun, hchild.isExecution, hc.tasks _ hchild.task,
      by rw [hc.bindings n hn taskId hchild.isTask]; exact hchild.binding,
      r', hr', hsame.executionId.trans hexecution, hsame.taskId.trans htask⟩
  failure := h.failure

/-- Every row is sound, and no task is the child of two nodes. -/
structure RowsOk (db : Db) : Prop where
  row : ∀ n ∈ db.workflowNodeExecutions.rows, RowOk db n
  apart : ∀ m ∈ db.workflowNodeExecutions.rows, ∀ n ∈ db.workflowNodeExecutions.rows, ∀ t,
    m.childTaskId = some t → n.childTaskId = some t → m = n

/-- Nor is a run. -/
theorem RowsOk.apart_runs (h : RowsOk db) {m : WorkflowNodeExecution}
    (hm : m ∈ db.workflowNodeExecutions.rows) (hn : n ∈ db.workflowNodeExecutions.rows) {k : RunId}
    (hmk : m.childRunId = some k) (hnk : n.childRunId = some k) : m = n := by
  have hrun : ∀ {n : WorkflowNodeExecution}, n ∈ db.workflowNodeExecutions.rows → n.childRunId = some k →
      ∃ r, db.runs.get? k = some r ∧ n.childTaskId = some r.taskId := fun {n} hn hnk => by
    rcases (h.row n hn).child with hno | ⟨taskId, runId, hchild⟩
    · rw [hno.run] at hnk
      cases hnk
    · rw [hchild.isRun] at hnk
      cases hnk
      obtain ⟨r, hr, -, htask⟩ := hchild.run
      exact ⟨r, hr, by rw [htask]; exact hchild.isTask⟩
  obtain ⟨r, hr, htask⟩ := hrun hm hmk
  obtain ⟨r', hr', htask'⟩ := hrun hn hnk
  rw [hr] at hr'
  cases hr'
  exact h.apart m hm n hn _ htask htask'

theorem RowsOk.carry (h : RowsOk db)
    (hnodes : db'.workflowNodeExecutions = db.workflowNodeExecutions) (hc : Carries db db') :
    RowsOk db' where
  row n hn := by
    rw [hnodes] at hn
    exact (h.row n hn).carry hn hc
  apart m hm n hn := by
    rw [hnodes] at hm hn
    exact h.apart m hm n hn

theorem RowsOk.created (h : RowsOk db) (hc : Created cfg db x b s) : RowsOk s.2 where
  row n hn := by
    rw [hc.rows] at hn
    rcases List.mem_append.1 hn with hn | hn
    · exact (h.row n hn).carry hn hc.carries
    · obtain ⟨hpending, hchild, howner, -⟩ := hc.new n hn
      refine ⟨?_, .inl hchild, ?_⟩
      · rw [howner, hc.executions]
        exact congrArg Option.isSome (get?_put_self _ _)
      · rw [hpending]
        rintro (h | h) <;> cases h
  apart m hm n hn t hmt hnt := by
    have hold : ∀ {n : WorkflowNodeExecution}, n ∈ s.2.workflowNodeExecutions.rows →
        n.childTaskId = some t → n ∈ db.workflowNodeExecutions.rows := fun {n} hn hnt => by
      rw [hc.rows] at hn
      refine (List.mem_append.1 hn).resolve_right fun hnew => ?_
      rw [(hc.new n hnew).2.1.task] at hnt
      cases hnt
    exact h.apart m (hold hm hmt) n (hold hn hnt) t hmt hnt

section
variable {b : Blueprint} {e : WorkflowExecutionId} {now : Time} {reports : Reports}
  {s s' : Sched} {n n' : WorkflowNodeExecution}

theorem SchedStep.carries (h : SchedStep b now reports s s') (hrows : RowsOk s.2) :
    Carries s.2 s'.2 := by
  obtain ⟨m, m', hr⟩ := h.replaced
  have hadds := h.adds
  exact ⟨fun k hk => by rw [hr.frame.executions]; exact hk, hadds.tasks,
    fun k r hr => ⟨r, hadds.runs k r hr, .refl r⟩,
    fun n hn t ht => hadds.bindings t ((hrows.row n hn).task ht)⟩

/-- One row is written again: its child is the one it had, or that of no row before. -/
theorem Replaced.rowsOk (h : Replaced s s' n n') (ht : Tracks b e s) (hrows : RowsOk s.2)
    (hc : Carries s.2 s'.2) (hrow : RowOk s'.2 n') (hchild : ∀ t, n'.childTaskId = some t →
      n.childTaskId = some t ∨ ∀ m ∈ s.2.workflowNodeExecutions.rows, m.childTaskId ≠ some t) : RowsOk s'.2 := by
  have hn := mem_of_get? (ht.row h.mem).1
  have hcases : ∀ {m}, m ∈ s'.2.workflowNodeExecutions.rows →
      m = n' ∨ (m ∈ s.2.workflowNodeExecutions.rows ∧ m.id ≠ n.id) := fun {m} hm => by
    rw [h.rows] at hm
    rw [← h.same.id]
    exact mem_put.1 hm
  -- an old row does not share its child with the new one
  have hold : ∀ {m}, m ∈ s.2.workflowNodeExecutions.rows → m.id ≠ n.id →
      ∀ t, m.childTaskId = some t → n'.childTaskId ≠ some t := fun {m} hm hne t hmt hnt => by
    rcases hchild t hnt with hnt | hnone
    · exact hne (congrArg _ (hrows.apart m hm n hn t hmt hnt))
    · exact hnone m hm hmt
  refine ⟨fun m hm => ?_, fun m hm k hk t hmt hkt => ?_⟩
  · rcases hcases hm with rfl | ⟨hm, -⟩
    · exact hrow
    · exact (hrows.row m hm).carry hm hc
  · rcases hcases hm with rfl | ⟨hm, hmne⟩
    · rcases hcases hk with rfl | ⟨hk, hkne⟩
      · rfl
      · exact absurd hmt (hold hk hkne t hkt)
    · rcases hcases hk with rfl | ⟨hk, hkne⟩
      · exact absurd hkt (hold hm hmne t hmt)
      · exact hrows.apart m hm k hk t hmt hkt

theorem ChildReport.apply_explained {report : ChildReport} (h : report.apply n now = .ok n')
    (hs : n'.status = .failed ∨ n'.status = .blocked) : Explained n' := by
  cases report with
  | succeeded payload =>
    obtain ⟨-, -, rfl⟩ := WorkflowNodeExecution.succeed_eq_ok.1 h
    rcases hs with hs | hs <;> cases hs
  | failed code message =>
    obtain ⟨-, ⟨hcode, hmessage⟩, -, rfl⟩ := WorkflowNodeExecution.fail_eq_ok.1 h
    exact ⟨code, message, rfl, rfl, hcode, hmessage⟩
  | cancelled =>
    obtain ⟨-, -, rfl⟩ := WorkflowNodeExecution.cancel_eq_ok.1 h
    rcases hs with hs | hs <;> cases hs

theorem SchedStep.rowsOk (h : SchedStep b now reports s s') (ht : Tracks b e s)
    (hrows : RowsOk s.2) : RowsOk s'.2 := by
  have hc := h.carries hrows
  have hold : ∀ {n : WorkflowNodeExecution}, n ∈ s.1 → RowOk s'.2 n := fun {n} hn =>
    (hrows.row n (mem_of_get? (ht.row hn).1)).carry (mem_of_get? (ht.row hn).1) hc
  cases h with
  | @dispatch n n' taskId runId title description db mem ready fits child move =>
    have hr : Replaced s _ n n' := .dispatch mem child move
    obtain ⟨hfresh, htasks⟩ := startChild_tasks child
    obtain ⟨-, hcore⟩ := startChild_core child
    have hadds := recorded_adds (s.1, db) n' .workflowNodeDispatched now
    obtain ⟨-, -, -, rfl⟩ := WorkflowNodeExecution.dispatch_eq_ok.1 move
    have htask : (db.tasks.get? taskId).isSome = true := (htasks taskId).2 (.inl rfl)
    have hbinding : db.taskAgentBindings.get? taskId = some ⟨taskId, n.targetAgentId, now⟩ := by
      rw [congrArg Core.taskAgentBindings hcore]
      exact get?_put_self _ _
    have hrun : db.runs.get? runId = some (Run.new runId taskId now none) := by
      rw [congrArg Core.runs hcore]
      exact get?_put_self _ _
    refine hr.rowsOk ht hrows hc ⟨(hold mem).owner, .inr ⟨taskId, runId, rfl, rfl, rfl, hadds.tasks _ htask, ?_,
      _, hadds.runs _ _ hrun, rfl, rfl⟩, ?_⟩ fun t htt => .inr fun m hm hmt => ?_
    · rw [hadds.bindings _ htask, hbinding]
      simp
    · rintro (h | h) <;> cases h
    · obtain rfl : taskId = t := Option.some.inj htt
      have hsome := (hrows.row m hm).task hmt
      rw [hfresh] at hsome
      cases hsome
  | @block n n' code message mem why move =>
    have hr : Replaced s _ n n' := .block mem move
    obtain ⟨-, ⟨hcode, hmessage⟩, -, rfl⟩ := WorkflowNodeExecution.block_eq_ok.1 move
    have hn := hold mem
    refine hr.rowsOk ht hrows hc ⟨hn.owner, hn.child.imp (fun h => ⟨h.task, h.run, h.execution⟩) ?_, fun _ =>
      ⟨code, message, rfl, rfl, hcode, hmessage⟩⟩ fun t htt => .inl htt
    rintro ⟨taskId, runId, h⟩
    exact ⟨taskId, runId, h.isTask, h.isRun, h.isExecution, h.task, h.binding, h.run⟩
  | @report n n' report mem dispatched reported move =>
    have hr : Replaced s _ n n' := .report mem dispatched move
    obtain ⟨-, htask, hrun, hexecution⟩ := ChildReport.apply_eq move
    have hn := hold mem
    refine hr.rowsOk ht hrows hc ⟨by rw [hr.same.workflowExecutionId]; exact hn.owner, ?_,
      ChildReport.apply_explained move⟩ fun t htt => .inl (htask ▸ htt)
    rcases hn.child with h | ⟨taskId, runId, h⟩
    · exact .inl ⟨htask.trans h.task, hrun.trans h.run, hexecution.trans h.execution⟩
    · exact .inr ⟨taskId, runId, htask.trans h.isTask, hrun.trans h.isRun, hexecution.trans h.isExecution, h.task,
        by rw [hr.same.targetAgentId]; exact h.binding, h.run⟩

theorem SchedSteps.rowsOk (h : SchedSteps b now reports s s') (ht : Tracks b e s)
    (hrows : RowsOk s.2) : RowsOk s'.2 := by
  induction h with
  | refl => exact hrows
  | tail hs hstep ih => exact hstep.rowsOk (SchedSteps.tracks hs ht) ih

/-- Every node comes from one before. -/
theorem SchedSteps.origin (h : SchedSteps b now reports s s') (hresults : Results reports)
    (ht : Tracks b e s) (hok : NodesOk b s.1) (hn' : n' ∈ s'.1) : ∃ n ∈ s.1, Later n n' := by
  have ht' := SchedSteps.tracks h ht
  obtain ⟨n, hn, hid⟩ := ht.exists_node (ht'.perm.mem_iff.1 (List.mem_map_of_mem hn'))
  obtain ⟨m, hm, hlater⟩ := SchedSteps.forward h hresults ht hok n hn
  rw [ht'.eq_of_id hn' hm (hid.symm.trans hlater.same.workflowNodeId.symm)]
  exact ⟨n, hn, hlater⟩

end

/-! ## Executions -/

/-- An execution matches what its root has frozen, and the definitions still pass their checks. -/
structure Sealed (cfg : Config) (db : Db) (b : Blueprint) (x : WorkflowExecution) : Prop where
  resolution : resolutionMatches db x = true
  loads : ∃ w, loadFrozenRevision cfg db x.workflowId x.workflowRevisionId x.workflowContentSha256 =
    .ok (w, b.revision)

/-- Only the id and the revision of a workflow are looked at, and these do not change. -/
theorem Persists.loadFrozenRevision {workflowId : WorkflowId}
    {revisionId : WorkflowRevisionId} {digest : String} {w : Workflow} {r : WorkflowRevision} (h : Persists db db')
    (hload : loadFrozenRevision cfg db workflowId revisionId digest = .ok (w, r)) :
    ∃ w', loadFrozenRevision cfg db' workflowId revisionId digest = .ok (w', r) := by
  obtain ⟨hw, hr, -, -⟩ := loadFrozenRevision_eq_ok hload
  obtain ⟨w', hw', -⟩ := h.workflows _ _ hw
  have hid : w'.id = w.id :=
    (show w'.id = workflowId from key_of_get? hw').trans (key_of_get? hw).symm
  have hvalid : validateRevisionIntegrity cfg w' r = validateRevisionIntegrity cfg w r := by
    rw [validateRevisionIntegrity, validateRevisionIntegrity, hid]
  obtain ⟨w₀, hw₀, r₀, hr₀, hload⟩ := bind_ok₂ hload
  obtain ⟨digest', hdigest, _, hmatches, hload⟩ := bind_ok₂ hload
  cases hload
  exact ⟨w', bind_eq_ok.2 ⟨w', found_eq_ok.2 hw', bind_eq_ok.2 ⟨r, found_eq_ok.2 (h.revisions _ _ hr),
    bind_eq_ok.2 ⟨digest', hvalid.trans hdigest, bind_eq_ok.2 ⟨_, hmatches, rfl⟩⟩⟩⟩⟩

theorem Sealed.carry {x' : WorkflowExecution} (h : Sealed cfg db b x)
    (hp : Persists db db') (hsame : x.SameButEnd x') : Sealed cfg db' b x' where
  resolution := by
    obtain ⟨r, hr, hmatches⟩ := Option.any_eq_true _ _ |>.1 h.resolution
    rw [hsame]
    exact Option.any_eq_true _ _ |>.2 ⟨r, hp.resolutions _ _ hr, hmatches⟩
  loads := by
    obtain ⟨w, hw⟩ := h.loads
    rw [hsame]
    exact hp.loadFrozenRevision hw

theorem NodeFits.carry {x' : WorkflowExecution} {r : WorkflowRevision} {n' : WorkflowNodeExecution}
    (h : NodeFits db x r n) (hp : Persists db db') (hx : x.SameButEnd x') (hn : Same n n') :
    NodeFits db' x' r n' where
  revision := by
    rw [hn.workflowRevisionId, h.revision, hx]
  definition := by
    rw [hn.workflowNodeId, hn.nodeKey, hn.targetAgentId]
    exact h.definition
  agent := by
    obtain ⟨a, ha, hmatches⟩ := Option.any_eq_true _ _ |>.1 h.agent
    rw [hn.targetAgentId, hn.targetAgentRevisionId, hn.targetAgentRevisionSha256]
    exact Option.any_eq_true _ _ |>.2 ⟨a, hp.agentRevisions _ _ ha, hmatches⟩

/-- What scheduling may start from. -/
structure Prepared (cfg : Config) (db : Db) (b : Blueprint) (x : WorkflowExecution)
    (nodes : List WorkflowNodeExecution) : Prop where
  frozen : Sealed cfg db b x
  explained : NodesOk b nodes
  fits : ∀ n ∈ nodes, NodeFits db x b.revision n

/-- An execution between two commits. -/
structure ExecutionOk (cfg : Config) (db : Db) (b : Blueprint) (x : WorkflowExecution) : Prop
    extends Prepared cfg db b x (db.workflowNodeExecutions.listByExecution x.id) where
  tracks : Tracks b x.id (db.workflowNodeExecutions.listByExecution x.id, db)
  settled : Settled b (db.workflowNodeExecutions.listByExecution x.id)
  status : (x.status = .running ∧ ∃ n ∈ db.workflowNodeExecutions.listByExecution x.id, n.status.isTerminal = false) ∨
    ((∀ n ∈ db.workflowNodeExecutions.listByExecution x.id, n.status.isTerminal = true) ∧
      (x.status, x.failureCode) = verdict (db.workflowNodeExecutions.listByExecution x.id))

theorem ExecutionOk.carry
    (h : ExecutionOk cfg db b x) (hx : db.workflowExecutions.get? x.id = some x)
    (hx' : db'.workflowExecutions.get? x.id = some x) (hp : Persists db db')
    (hlist : db'.workflowNodeExecutions.listByExecution x.id = db.workflowNodeExecutions.listByExecution x.id) :
    ExecutionOk cfg db' b x where
  frozen := h.frozen.carry hp rfl
  explained := by rw [hlist]; exact h.explained
  fits n hn := by
    rw [hlist] at hn
    exact (h.fits n hn).carry hp rfl (.refl n)
  tracks := ⟨rfl, hp.blueprint hx hx' rfl h.tracks.blueprint, h.tracks.dag, by rw [hlist]; exact h.tracks.perm⟩
  settled := by rw [hlist]; exact h.settled
  status := by rw [hlist]; exact h.status

theorem Created.prepared
    (h : Created cfg db x b s) : Prepared cfg s.2 b x s.1 := by
  refine ⟨⟨h.resolution, h.loads⟩, fun n hn => ?_, fun n hn => (h.new n hn).2.2.2⟩
  obtain ⟨hpending, hchild, -⟩ := h.new n hn
  refine ⟨fun _ => hchild, fun hb => ?_, fun hp => absurd hpending hp, fun hs => ?_⟩
  · rw [hpending] at hb
    cases hb
  · rw [hpending] at hs
    cases hs

variable {reports : Reports}

theorem Advances.executionOk (h : Advances b now reports x s s' db') (hresults : Results reports)
    (hp : Prepared cfg s.2 b x s.1) :
    ∃ x', db'.workflowExecutions.get? x.id = some x' ∧ ExecutionOk cfg db' b x' := by
  obtain ⟨x', hconcludes, hrow, htracks, hlist⟩ := h.conclusion
  have hsame := hconcludes.sameButEnd
  rw [← hsame.id] at htracks hlist
  refine ⟨x', hrow, ⟨hp.frozen.carry h.persists hsame, ?_, fun n' hn' => ?_⟩, htracks, ?_, ?_⟩
  · rw [hlist]
    exact h.steps.nodesOk hresults h.tracks hp.explained
  · rw [hlist] at hn'
    obtain ⟨n, hn, hlater⟩ := h.steps.origin hresults h.tracks hp.explained hn'
    exact (hp.fits n hn).carry h.persists hsame hlater.same
  · rw [hlist]
    exact h.settled
  · rw [hlist]
    cases hconcludes with
    | «open» live => exact .inl ⟨h.running, live⟩
    | ended terminal _ status code => exact .inr ⟨terminal, Prod.ext status code⟩

/-! ## The invariant -/

structure WorkflowsOk (cfg : Config) (db : Db) : Prop where
  rows : RowsOk db
  executions : ∀ x, db.workflowExecutions.get? x.id = some x → ∃ b, ExecutionOk cfg db b x

/-- Where executions and nodes are as they were, so is the invariant. -/
theorem WorkflowsOk.frozen (h : WorkflowsOk cfg db) (hf : Frozen db db') :
    WorkflowsOk cfg db' where
  rows := h.rows.carry hf.nodes hf.carries
  executions x hx := by
    have hx₀ := hx
    rw [hf.executions] at hx₀
    obtain ⟨b, hb⟩ := h.executions x hx₀
    exact ⟨b, hb.carry hx₀ hx hf.persists (by rw [hf.nodes])⟩

/-- One execution is advanced, the others stay. -/
theorem WorkflowsOk.advance
    (hrows : RowsOk s.2) (hothers : ∀ y, y.id ≠ x.id → s.2.workflowExecutions.get? y.id = some y →
      ∃ b, ExecutionOk cfg s.2 b y)
    (h : Advances b now reports x s s' db') (hresults : Results reports)
    (hp : Prepared cfg s.2 b x s.1) :
    WorkflowsOk cfg db' where
  rows := by
    obtain ⟨x', -, -, hsame⟩ := h.finished
    exact (h.steps.rowsOk h.tracks hrows).carry (by rw [hsame.frame]) h.finished.carries
  executions y hy := by
    by_cases hid : y.id = x.id
    · obtain ⟨x', hx', hok⟩ := h.executionOk hresults hp
      rw [hid, hx'] at hy
      cases hy
      exact ⟨b, hok⟩
    · obtain ⟨hrow, hlist⟩ := h.others hid
      have hy₀ := hy
      rw [hrow] at hy₀
      obtain ⟨b', hb'⟩ := hothers y hid hy₀
      exact ⟨b', hb'.carry hy₀ hy h.persists hlist⟩

theorem results_reportsOf (db : Db) (nodes : List WorkflowNodeExecution) (now : Time) :
    Results (reportsOf db nodes now) := by
  intro _ _ h
  obtain ⟨child, -, h⟩ := Option.bind_eq_some_iff.1 (reportsOf_eq_some.1 h).2
  exact ChildReport.ofRun_succeeded h

theorem WorkflowsOk.start
    (h : WorkflowsOk cfg db) (hc : Created cfg db x b s)
    (ha : Advances b now (fun _ => none) x s s' db') : WorkflowsOk cfg db' := by
  refine .advance (h.rows.created hc) (fun y hid hy => ?_) ha (fun _ _ h => by cases h) hc.prepared
  have hy₀ := hy
  rw [hc.executions, get?_put_ne (Ne.symm hid)] at hy₀
  obtain ⟨b', hb'⟩ := h.executions y hy₀
  exact ⟨b', hb'.carry hy₀ hy hc.persists (hc.others _ hid)⟩

theorem WorkflowsOk.reconcile (h : WorkflowsOk cfg db) (ha : Advances b now
      (reportsOf db (db.workflowNodeExecutions.listByExecution x.id) now) x
      (db.workflowNodeExecutions.listByExecution x.id, db) s' db') : WorkflowsOk cfg db' := by
  refine .advance h.rows (fun y _ hy => h.executions y hy) ha (results_reportsOf db _ now) ?_
  obtain ⟨b', hok⟩ := h.executions x ha.row
  -- the blueprint of an execution is unique
  obtain rfl : b' = b := Option.some.inj (hok.tracks.blueprint.symm.trans ha.tracks.blueprint)
  exact hok.toPrepared

/-! ## The system -/

/-- All use cases, from a database without runs and nodes. -/
def workflowSystem (cfg : Config) : System Db RunAction :=
  .ofStep (fun db => db.toCore = .empty ∧ db.workflowNodeExecutions = .empty)
    (commit cfg) RespectsWorkflows

theorem workflowSystem_next (h : (workflowSystem cfg).next db a db') :
    act cfg db a = .ok db' ∧ RespectsWorkflows db a := ⟨runSystem_next ⟨h.1, trivial⟩, h.2⟩

theorem RunAction.isSpelledOut.respects (h : a.isSpelledOut = true) : RespectsWorkflows db a := by
  cases a with
  | elsewhere other => cases h
  | _ => exact trivial

section
variable {start : Db} (hown : ∀ a ∈ as, a.isSpelledOut = true)
include hown

theorem sample_workflow_steps (h : System.Legal (commit sampleConfig) (fun _ _ => True) start as) :
    (workflowSystem sampleConfig).Steps start (System.run (commit sampleConfig) start as) :=
  .run (h.mono fun a ha _ _ => RunAction.isSpelledOut.respects (hown a ha))

variable (hinit : (workflowSystem sampleConfig).init start)
include hinit

theorem sample_workflow_reachable
    (h : System.Legal (commit sampleConfig) (fun _ _ => True) start as) :
    (workflowSystem sampleConfig).Reachable (System.run (commit sampleConfig) start as) :=
  .steps (.of_init hinit) (sample_workflow_steps hown h)

theorem sample_workflow_reachable_restrict {cond : Db → RunAction → Prop}
    (h : System.Legal (commit sampleConfig) cond start as) :
    ((workflowSystem sampleConfig).restrict cond).Reachable (System.run (commit sampleConfig) start as) :=
  have hinit : ((workflowSystem sampleConfig).restrict cond).init start := hinit
  .steps (.of_init hinit)
    (.run_restrict (h.mono fun a ha _ hcond => ⟨RunAction.isSpelledOut.respects (hown a ha), hcond⟩))

end

/-- What a commit is to the workflows. -/
inductive WorkflowCommit (cfg : Config) (db : Db) : RunAction → Db → Prop where
  | other {a : RunAction} {db' : Db} (frozen : Frozen db db') : WorkflowCommit cfg db a db'
  | start {rootRunId : RunId} {workflowId : WorkflowId} {claim : ClaimTriple} {ids : WorkflowIds} {now : Time}
      {x : WorkflowExecution} {b : Blueprint} {s s' : Sched} {db' : Db}
      (created : Created cfg db x b s) (advances : Advances b now (fun _ => none) x s s' db') :
      WorkflowCommit cfg db (.startWorkflowExecution rootRunId workflowId claim ids now) db'
  | reconcile {ids : WorkflowIds} {now : Time} {x : WorkflowExecution} {b : Blueprint} {s' : Sched} {db' : Db}
      (advances : Advances b now (reportsOf db (db.workflowNodeExecutions.listByExecution x.id) now)
        x (db.workflowNodeExecutions.listByExecution x.id, db) s' db') :
      WorkflowCommit cfg db (.reconcileWorkflowExecution x.id ids now) db'

theorem Frozen.refl (db : Db) : Frozen db db :=
  ⟨rfl, rfl, .refl db, fun _ h => h, .refl _, fun _ _ _ _ => rfl⟩

theorem workflowCommit_of_act (hrows : RowsOk db)
    (hrespects : RespectsWorkflows db a) (h : act cfg db a = .ok db') :
    WorkflowCommit cfg db a db' := by
  by_cases hworkflow : a.isWorkflow = true
  · cases a with
    | startWorkflowExecution rootRunId workflowId claim ids now =>
      obtain ⟨_, hstart⟩ := map_snd_eq_ok.1 h
      rcases start_advances (fun n hn => (hrows.row n hn).owner) hstart with rfl | ⟨x, b, s, s', hcreated, hadvances⟩
      · exact .other (.refl db')
      · exact .start hcreated hadvances
    | reconcileWorkflowExecution e ids now =>
      obtain ⟨_, hreconcile⟩ := map_snd_eq_ok.1 h
      obtain ⟨x, hx, ⟨-, rfl⟩ | ⟨b, s', hadvances⟩⟩ := reconcile_advances hreconcile
      · exact .other (.refl db')
      · obtain rfl : x.id = e := key_of_get? hx
        exact .reconcile hadvances
    | _ => cases hworkflow
  · exact .other (act_frozen (fun n hn t ht => (hrows.row n hn).task ht)
      (Bool.eq_false_of_not_eq_true hworkflow) hrespects h)

theorem WorkflowsOk.commit (h : WorkflowsOk cfg db) (hc : WorkflowCommit cfg db a db') :
    WorkflowsOk cfg db' := by
  cases hc with
  | other frozen => exact h.frozen frozen
  | start created advances => exact h.start created advances
  | reconcile advances => exact h.reconcile advances

theorem WorkflowsOk.of_init (h : (workflowSystem cfg).init db) : WorkflowsOk cfg db := by
  obtain ⟨hcore, hnodes⟩ := h
  have hnone : ∀ n, n ∉ db.workflowNodeExecutions.rows := fun n hn => by rw [hnodes] at hn; cases hn
  refine ⟨⟨fun n hn => absurd hn (hnone n), fun m hm => absurd hm (hnone m)⟩, fun x hx => ?_⟩
  rw [hcore] at hx
  cases hx

theorem workflowsOk_of_reachable (h : (workflowSystem cfg).Reachable db) : WorkflowsOk cfg db := by
  refine h.invariant (WorkflowsOk cfg) (fun _ => .of_init) fun db a db' _ hok hnext => ?_
  obtain ⟨hact, hrespects⟩ := workflowSystem_next hnext
  exact hok.commit (workflowCommit_of_act hok.rows hrespects hact)

theorem WorkflowCommit.persists (h : WorkflowCommit cfg db a db') :
    Persists db db' := by
  cases h with
  | other frozen => exact frozen.persists
  | start created advances => exact created.persists.trans advances.persists
  | reconcile advances => exact advances.persists

/-- What executions have frozen stays over a whole history. -/
theorem persists_of_steps (hreach : (workflowSystem cfg).Reachable db)
    (h : (workflowSystem cfg).Steps db db') : Persists db db' := by
  induction h with
  | refl => exact .refl db
  | tail hsteps hstep ih =>
    obtain ⟨a, hnext⟩ := hstep
    obtain ⟨hact, hrespects⟩ := workflowSystem_next hnext
    have hrows := (workflowsOk_of_reachable (hreach.steps hsteps)).rows
    exact ih.trans (workflowCommit_of_act hrows hrespects hact).persists

end Friday.Runs
