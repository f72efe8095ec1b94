import FridayAssistant.Runs.NoStrandedWorkflow
/-!
# Scheduling safety

What the scheduler may do to a node, over whole histories: a child only after every predecessor
succeeded, one child at most, BLOCKED only for a reason, nothing after the end. The guards stand in
`SchedStep`; here it is added that they still hold in every later state, that a node keeps its child
and its end (`Later`), and that the tasks and runs a workflow commit creates are exactly the
children of nodes that had none (`Born`).
-/
namespace Friday.Runs
open Tables Table Queue Relation Transition

section
variable {b : Blueprint} {e : WorkflowExecutionId} {now : Time} {reports : Reports}
  {s s' : Sched} {n : WorkflowNodeExecution} {nodes : List WorkflowNodeExecution}

theorem NodeOk.child_cases (h : NodeOk b nodes n) : NoChild n ∨ HasChild n := by
  by_cases hp : n.status = .pending
  · exact .inl (h.waiting hp)
  · by_cases hb : n.status = .blocked
    · exact .inl (h.blocked hb).1
    · exact .inr (h.dispatched hp hb).1

/-- What is new is the child of a node that had none. -/
structure Born (s s' : Sched) : Prop where
  task : ∀ t, (s'.2.tasks.get? t).isSome = true → (s.2.tasks.get? t).isSome = true ∨
    ∃ n ∈ s.1, NoChild n ∧ ∃ n' ∈ s'.1, n'.id = n.id ∧ HasChild n' ∧ n'.childTaskId = some t
  run : ∀ k, (s'.2.runs.get? k).isSome = true → (s.2.runs.get? k).isSome = true ∨
    ∃ n ∈ s.1, NoChild n ∧ ∃ n' ∈ s'.1, n'.id = n.id ∧ HasChild n' ∧ n'.childRunId = some k

theorem SchedStep.born (h : SchedStep b now reports s s') : Born s s' := by
  cases h with
  | @dispatch n n' taskId runId title description db mem ready fits child move =>
    have hr : Replaced s _ n n' := .dispatch mem child move
    have hframe := recorded_frame (s.1, db) n' .workflowNodeDispatched now
    have hn' := hr.mem_iff.2 (.inl rfl)
    obtain ⟨-, ⟨htask, hrun, hexecution⟩, -, rfl⟩ := WorkflowNodeExecution.dispatch_eq_ok.1 move
    have hno : NoChild n := ⟨htask, hrun, hexecution⟩
    refine ⟨fun t ht => ?_, fun k hk => ?_⟩
    · rw [hframe.2] at ht
      rcases ((startChild_tasks child).2 t).1 ht with rfl | hold
      · exact .inr ⟨n, mem, hno, _, hn', rfl, ⟨_, _, rfl, rfl, rfl⟩, rfl⟩
      · exact .inl hold
    · rw [hframe.1, congrArg Core.runs (startChild_core child).2, Core.addItem, Core.get?_withRun] at hk
      split at hk
      · next hid => exact .inr ⟨n, mem, hno, _, hn', rfl, ⟨_, _, rfl, rfl, rfl⟩, congrArg some hid⟩
      · exact .inl hk
  | @block n n' code message mem why move =>
    have hframe := recorded_frame s n' .workflowNodeBlocked now
    exact ⟨fun t ht => .inl (hframe.2 ▸ ht), fun k hk => .inl (by rw [hframe.1] at hk; exact hk)⟩
  | @report n n' report mem dispatched reported move =>
    have hframe := recorded_frame s n' report.event now
    exact ⟨fun t ht => .inl (hframe.2 ▸ ht), fun k hk => .inl (by rw [hframe.1] at hk; exact hk)⟩

theorem SchedSteps.born (h : SchedSteps b now reports s s') (hresults : Results reports)
    (ht : Tracks b e s) (hok : NodesOk b s.1) : Born s s' := by
  induction h with
  | refl => exact ⟨fun _ h => .inl h, fun _ h => .inl h⟩
  | @tail mid s' hs hstep ih =>
    have htm := SchedSteps.tracks hs ht
    have hokm := SchedSteps.nodesOk hs hresults ht hok
    -- a child born earlier is kept, and one born now has an origin without child
    have hkept : ∀ {P : WorkflowNodeExecution → Prop}, (∀ m m', Later m m' → HasChild m → P m → P m') →
        (∃ n ∈ s.1, NoChild n ∧ ∃ m ∈ mid.1, m.id = n.id ∧ HasChild m ∧ P m) →
        ∃ n ∈ s.1, NoChild n ∧ ∃ n' ∈ s'.1, n'.id = n.id ∧ HasChild n' ∧ P n' := by
      rintro P hP ⟨n, hn, hno, m, hm, hid, hchild, hp⟩
      obtain ⟨m', hm', hlater⟩ := hstep.forward htm hokm m hm
      obtain ⟨t, r, htask, hrun, hexecution⟩ := hchild
      obtain ⟨htask', hrun', hexecution'⟩ := hlater.child ⟨t, r, htask, hrun, hexecution⟩
      exact ⟨n, hn, hno, m', hm', hlater.same.id.trans hid, ⟨t, r, htask'.trans htask, hrun'.trans hrun,
        hexecution'.trans hexecution⟩, hP m m' hlater ⟨t, r, htask, hrun, hexecution⟩ hp⟩
    have hnew : ∀ {P : WorkflowNodeExecution → Prop},
        (∃ m ∈ mid.1, NoChild m ∧ ∃ n' ∈ s'.1, n'.id = m.id ∧ HasChild n' ∧ P n') →
        ∃ n ∈ s.1, NoChild n ∧ ∃ n' ∈ s'.1, n'.id = n.id ∧ HasChild n' ∧ P n' := by
      rintro P ⟨m, hm, hno, n', hn', hid, hchild, hp⟩
      obtain ⟨n, hn, hlater⟩ := SchedSteps.origin hs hresults ht hok hm
      refine ⟨n, hn, (hok n hn).child_cases.resolve_right fun hhas => ?_, n', hn', hid.trans hlater.same.id, hchild, hp⟩
      have htask := (hlater.child hhas).1
      obtain ⟨t, -, hsome, -⟩ := hhas
      rw [hno.task, hsome] at htask
      cases htask
    have hborn := hstep.born
    refine ⟨fun t htask => ?_, fun k hrun => ?_⟩
    · rcases hborn.task t htask with hmid | hborn
      · exact (ih.task t hmid).imp id (hkept fun m m' hl hc hp => (hl.child hc).1.trans hp)
      · exact .inr (hnew hborn)
    · rcases hborn.run k hrun with hmid | hborn
      · exact (ih.run k hmid).imp id (hkept fun m m' hl hc hp => (hl.child hc).2.1.trans hp)
      · exact .inr (hnew hborn)

end

/-! ## One commit -/

section
variable {cfg : Config} {b : Blueprint} {now : Time} {reports : Reports}
  {x : WorkflowExecution} {s s' : Sched} {db db' : Db}

theorem mem_listByExecution_self {t : WorkflowNodeExecutions} {n : WorkflowNodeExecution} :
    n ∈ t.rows ↔ n ∈ t.listByExecution n.workflowExecutionId := by
  rw [WorkflowNodeExecutions.mem_listByExecution, and_iff_left rfl]
  exact mem_rows

section
variable (h : Advances b now reports x s s' db')
include h

theorem Advances.mem_rows {n : WorkflowNodeExecution} (hn : n ∈ s'.1) :
    n ∈ db'.workflowNodeExecutions.rows := by
  obtain ⟨-, -, -, ht, hlist⟩ := h.conclusion
  rw [← hlist] at hn
  exact mem_of_get? (ht.row hn).1

/-- Every node is later, those of other executions are the same. -/
theorem Advances.later (hresults : Results reports) (hok : NodesOk b s.1) :
    ∀ n ∈ s.2.workflowNodeExecutions.rows, ∃ n' ∈ db'.workflowNodeExecutions.rows, Later n n' := by
  intro n hn
  have hmem := mem_listByExecution_self.1 hn
  by_cases hid : n.workflowExecutionId = x.id
  · rw [hid, ← h.tracks.list] at hmem
    obtain ⟨n', hn', hlater⟩ := h.steps.forward hresults h.tracks hok n hmem
    exact ⟨n', h.mem_rows hn', hlater⟩
  · rw [← (h.others hid).2] at hmem
    exact ⟨n, mem_listByExecution_self.2 hmem, .refl n⟩

/-- One node has this child, and it had none before. -/
def BornFor (db db' : Db) (isChild : WorkflowNodeExecution → Prop) : Prop :=
  ∃ n' ∈ db'.workflowNodeExecutions.rows, isChild n' ∧
    (∀ m ∈ db'.workflowNodeExecutions.rows, isChild m → m = n') ∧
    ∀ n ∈ db.workflowNodeExecutions.rows, n.id = n'.id → NoChild n

/-- New tasks and runs are children. -/
theorem Advances.bornFor (hresults : Results reports) (hok : NodesOk b s.1)
    (hrows : RowsOk db') :
    (∀ t, s.2.tasks.get? t = none → (db'.tasks.get? t).isSome = true →
      BornFor s.2 db' (·.childTaskId = some t)) ∧ ∀ k, s.2.runs.get? k = none →
      (db'.runs.get? k).isSome = true → BornFor s.2 db' (·.childRunId = some k) := by
  have hborn := h.steps.born hresults h.tracks hok
  obtain ⟨-, -, -, hsame⟩ := h.finished
  have hold : ∀ {n n' : WorkflowNodeExecution}, n ∈ s.1 → NoChild n → n'.id = n.id →
      ∀ m ∈ s.2.workflowNodeExecutions.rows, m.id = n'.id → NoChild m := fun {n n'} hn hno hid m hm hmid => by
    rw [eq_of_key hm (mem_of_get? (h.tracks.row hn).1) (hmid.trans hid)]
    exact hno
  refine ⟨fun t hfresh hsome => ?_, fun k hfresh hsome => ?_⟩
  · rw [hsame.frame] at hsome
    rcases hborn.task t hsome with hs | ⟨n, hn, hno, n', hn', hid, -, htask⟩
    · rw [hfresh] at hs
      cases hs
    · have hmem := h.mem_rows hn'
      exact ⟨n', hmem, htask, fun m hm hmt => hrows.apart m hm n' hmem t hmt htask, hold hn hno hid⟩
  · rcases hborn.run k (hsame.noOthers k hsome) with hs | ⟨n, hn, hno, n', hn', hid, -, hrun⟩
    · rw [hfresh] at hs
      cases hs
    · have hmem := h.mem_rows hn'
      exact ⟨n', hmem, hrun, fun m hm hmk => hrows.apart_runs hm hmem hmk hrun, hold hn hno hid⟩

end

theorem WorkflowCommit.later {a : RunAction} (hok : WorkflowsOk cfg db) (h : WorkflowCommit cfg db a db') :
    ∀ n ∈ db.workflowNodeExecutions.rows, ∃ n' ∈ db'.workflowNodeExecutions.rows, Later n n' := by
  cases h with
  | other frozen =>
    intro n hn
    exact ⟨n, by rw [frozen.nodes]; exact hn, .refl n⟩
  | start created advances =>
    intro n hn
    refine advances.later (fun _ _ h => by cases h) created.prepared.explained n ?_
    rw [created.rows]
    exact List.mem_append_left _ hn
  | @reconcile ids now x b s' db' advances =>
    obtain ⟨b', hb⟩ := hok.executions x advances.row
    obtain rfl : b' = b := Option.some.inj (hb.tracks.blueprint.symm.trans advances.tracks.blueprint)
    exact advances.later (results_reportsOf db _ now) hb.explained

/-- A start or a reconciliation creates the children of its nodes, and nothing else. -/
theorem WorkflowCommit.bornFor {a : RunAction} (hok : WorkflowsOk cfg db) (ha : a.isWorkflow = true)
    (hact : act cfg db a = .ok db') (hrespects : RespectsWorkflows db a) :
    (∀ t, db.tasks.get? t = none → (db'.tasks.get? t).isSome = true →
      BornFor db db' (·.childTaskId = some t)) ∧ ∀ k, db.runs.get? k = none →
      (db'.runs.get? k).isSome = true → BornFor db db' (·.childRunId = some k) := by
  have hrows' := (hok.commit (workflowCommit_of_act hok.rows hrespects hact)).rows
  -- nothing is new in a commit that changes nothing
  have hsame : ∀ {k : Uuid} {α : Type} [Keyed α Uuid] {t : Table α} {P : Prop}, t.get? k = none →
      (t.get? k).isSome = true → P := fun hnone hsome => by
    rw [hnone] at hsome
    cases hsome
  cases a with
  | startWorkflowExecution rootRunId workflowId claim ids now =>
    obtain ⟨_, hstart⟩ := map_snd_eq_ok.1 hact
    rcases start_advances (fun n hn => (hok.rows.row n hn).owner) hstart with rfl | ⟨x, b, s, s', hcreated, hadvances⟩
    · exact ⟨fun _ => hsame, fun _ => hsame⟩
    · obtain ⟨htasks, hruns⟩ := hadvances.bornFor (fun _ _ h => by cases h) hcreated.prepared.explained hrows'
      have hold : ∀ {P}, BornFor s.2 db' P → BornFor db db' P := by
        rintro P ⟨n', hn', hp, hunique, hno⟩
        refine ⟨n', hn', hp, hunique, fun n hn => hno n ?_⟩
        rw [hcreated.rows]
        exact List.mem_append_left _ hn
      refine ⟨fun t hnone hsome => hold (htasks t ?_ hsome), fun k hnone hsome => hold (hruns k ?_ hsome)⟩
      · rw [hcreated.tasks]
        exact hnone
      · rw [hcreated.core]
        exact hnone
  | reconcileWorkflowExecution e ids now =>
    obtain ⟨_, hreconcile⟩ := map_snd_eq_ok.1 hact
    obtain ⟨x, hx, ⟨-, rfl⟩ | ⟨b, s', hadvances⟩⟩ := reconcile_advances hreconcile
    · exact ⟨fun _ => hsame, fun _ => hsame⟩
    · obtain rfl : x.id = e := key_of_get? hx
      obtain ⟨b', hb⟩ := hok.executions x hadvances.row
      obtain rfl : b' = b := Option.some.inj (hb.tracks.blueprint.symm.trans hadvances.tracks.blueprint)
      exact hadvances.bornFor (results_reportsOf db _ now) hb.explained hrows'
  | _ => cases ha

end

/-! ## Whole histories -/

/-- What the status of a node says about its predecessors. -/
structure Scheduled (b : Blueprint) (nodes : List WorkflowNodeExecution)
    (n : WorkflowNodeExecution) : Prop where
  /-- It was dispatched: all predecessors are SUCCEEDED. -/
  child : n.childTaskId ≠ none ∨ n.childRunId ≠ none ∨ n.status = .dispatched →
    b.Ready nodes n.workflowNodeId
  /-- It is BLOCKED: a predecessor is FAILED, CANCELLED or BLOCKED, or the context is too large. -/
  blocked : n.status = .blocked → NoChild n ∧
    (b.Lost nodes n.workflowNodeId ∨ ∃ message, b.TooLarge nodes n.workflowNodeId message)
  /-- It is PENDING: there is nothing to do for it yet. -/
  waiting : n.status = .pending → NoChild n ∧ ¬b.Ready nodes n.workflowNodeId ∧
    ¬b.Lost nodes n.workflowNodeId

theorem ExecutionOk.scheduled {cfg : Config} {db : Db} {b : Blueprint} {x : WorkflowExecution}
    (h : ExecutionOk cfg db b x) : ∀ n ∈ nodesOf db x, Scheduled b (nodesOf db x) n := by
  intro n hn
  have hok := h.explained n hn
  refine ⟨fun hchild => ?_, fun hb => ?_, fun hp => ⟨hok.waiting hp, h.settled n hn hp⟩⟩
  · have hdispatched : n.status ≠ .pending ∧ n.status ≠ .blocked := by
      have hno : NoChild n → n.status = .dispatched := fun hno => by
        rcases hchild with hne | hne | hs
        · exact absurd hno.task hne
        · exact absurd hno.run hne
        · exact hs
      refine ⟨fun hp => ?_, fun hb => ?_⟩
      · have := hno (hok.waiting hp)
        rw [hp] at this
        cases this
      · have := hno (hok.blocked hb).1
        rw [hb] at this
        cases this
    exact (hok.dispatched hdispatched.1 hdispatched.2).2.1
  · obtain ⟨hno, code, message, -, hblocks⟩ := hok.blocked hb
    refine ⟨hno, ?_⟩
    cases hblocks with
    | predecessor lost => exact .inl lost
    | context _ large => exact .inr ⟨message, large⟩

/-- **Scheduling safety.** In every reachable state the status of every node is accounted for by its
predecessors. Every commit is a chain of guarded steps (`WorkflowCommit`), leaves terminal nodes and
children as they are, and what a workflow commit creates is the child of one node that had none. -/
theorem scheduling_safety (cfg : Config) (db : Db) (h : (workflowSystem cfg).Reachable db) :
    (∀ x ∈ db.workflowExecutions.rows, ∃ b, Blueprint.of? db x.id = some b ∧
      ∀ n ∈ nodesOf db x, Scheduled b (nodesOf db x) n) ∧
    ∀ a db', (workflowSystem cfg).next db a db' → WorkflowCommit cfg db a db' ∧
      (∀ n ∈ db.workflowNodeExecutions.rows, ∃ n' ∈ db'.workflowNodeExecutions.rows, Later n n') ∧
      (a.isWorkflow = true →
        (∀ t, db.tasks.get? t = none → (db'.tasks.get? t).isSome = true → BornFor db db' (·.childTaskId = some t)) ∧
        ∀ k, db.runs.get? k = none → (db'.runs.get? k).isSome = true → BornFor db db' (·.childRunId = some k)) := by
  have hok := workflowsOk_of_reachable h
  refine ⟨fun x hx => ?_, fun a db' hnext => ?_⟩
  · obtain ⟨b, hb⟩ := hok.executions x (get?_of_mem hx)
    exact ⟨b, hb.tracks.blueprint, hb.scheduled⟩
  · obtain ⟨hact, hrespects⟩ := workflowSystem_next hnext
    have hcommit := workflowCommit_of_act hok.rows hrespects hact
    exact ⟨hcommit, hcommit.later hok, fun ha => WorkflowCommit.bornFor hok ha hact hrespects⟩

/-- The child of `a` has completed, so the reconciliation dispatches `b`. -/
theorem sample_dispatches :
    ((commit sampleConfig (System.run (commit sampleConfig) sampleDb childEndedRun)
      (reconcileSample 5)).any fun db' => (db'.runs.get? 63).isSome) = true := by decide +kernel

theorem scheduling_safety_sample :
    let db := System.run (commit sampleConfig) sampleDb childEndedRun
    ∃ db', commit sampleConfig db (reconcileSample 5) = some db' ∧
      (db'.runs.get? 63).isSome = true ∧ BornFor db db' (·.childRunId = some 63) := by
  intro db
  have hrun : System.Legal (commit sampleConfig) (fun _ _ => True) sampleDb childEndedRun ∧
      (∀ a ∈ childEndedRun, a.isSpelledOut = true) ∧ (db.runs.get? 63).isNone = true := by decide +kernel
  obtain ⟨hlegal, hown, hnone⟩ := hrun
  obtain ⟨-, hnext⟩ := scheduling_safety sampleConfig db (sample_workflow_reachable hown ⟨rfl,
    rfl⟩ hlegal)
  obtain ⟨db', hcommit, hsome⟩ := Option.any_eq_true _ _ |>.1 sample_dispatches
  obtain ⟨-, -, hborn⟩ := hnext (reconcileSample 5) db' ⟨hcommit, trivial⟩
  exact ⟨db', hcommit, hsome, (hborn rfl).2 63 (Option.isNone_iff_eq_none.1 hnone) hsome⟩

end Friday.Runs
