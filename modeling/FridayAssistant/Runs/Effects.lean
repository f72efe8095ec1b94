import FridayAssistant.Runs.Attempts
import FridayAssistant.Runs.Journal
/-!
# What every use case writes

One lemma for each use case, in the order of the files they are in: when it commits, the tables of
`Core` have made moves and the journal has got entries (`Writes`). The side conditions of the
guarded moves are hypotheses here; `Allowed` collects them. Parts of a transaction that write no
run, task, request or event leave the journal as it is, and the events of steps and tools are
silent.
-/
namespace Friday.Runs
open Tables Table PyJson Queue Relation Replay

/-! ## Parts of use cases -/

variable {db db' mid : Db} {runId k : RunId} {r r' run : Run} {now : Time} {specs : List EventSpec}
  {ids : RetryIds} {claim : ClaimTriple} {message : String} {taskId : TaskId}
  {q : DelegationRequest} {failure : Failure} {cfg : Config} {t : Task} {g : Guard}
  {R : RunId → Prop} {F A S : Prop}

/-- What only dispatching, rebinding and the workflow use cases write. -/
def Db.fixed (db : Db) :=
  (db.workflowExecutions, db.taskAgentBindings, db.workflowNodeExecutions,
    db.runWorkflowResolutions, db.workflows, db.workflowRevisions, db.agentRevisions)

theorem getRun_eq_ok (h : getRun db runId = .ok r) :
    db.runs.get? r.id = some r ∧ r.id = runId := row_of_get? (found_eq_ok.1 h)

theorem getTask_eq_ok (h : getTask db taskId = .ok t) : db.tasks.get? t.id = some t ∧
    t.id = taskId :=
  row_of_get? (found_eq_ok.1 h)

@[simp] theorem appendRunEvents_journal (db : Db) (runId : RunId) (now : Time)
    (specs : List EventSpec) :
    (appendRunEvents db runId now specs).journal = db.journal.append runId now specs := rfl

@[simp] theorem removeItem_journal (db : Db) (runId : RunId) :
    (removeItem db runId).journal = db.journal := rfl

theorem materializeSkillUsage_core
    (h : materializeSkillUsage db runId now = .ok db') : db'.toCore = db.toCore := by
  rw [materializeSkillUsage_frame h]

theorem SameButDescendants.journal (h : SameButDescendants db db') : db'.journal = db.journal := by
  rw [show db' = _ from h]; rfl

theorem SameButDescendants.fixed (h : SameButDescendants db db') : db'.fixed = db.fixed := by
  rw [show db' = _ from h]; rfl

theorem materializeSkillUsage_journal (h : materializeSkillUsage db runId now = .ok db') :
    db'.journal = db.journal := by
  rw [materializeSkillUsage_frame h]; rfl

theorem materializeSkillUsage_fixed (h : materializeSkillUsage db runId now = .ok db') :
    db'.fixed = db.fixed := by
  rw [materializeSkillUsage_frame h]; rfl

/-- The claim's item is there, and it goes. -/
theorem removeClaimed_eq_ok
    {items items' : WorkItems} (h : removeClaimed runId claim now message items = .ok items') :
    (items.get? runId).isSome = true ∧ items' = remove items runId := by
  unfold removeClaimed at h
  split at h
  · next hd =>
    cases h
    obtain ⟨⟨r, hr, -⟩, rfl⟩ := deleteIf_eq_true hd
    exact ⟨by rw [hr]; rfl, rfl⟩
  · cases h

/-! ## Events of steps and tools -/

theorem cancelTool_silent {v : ToolInvocation} (h : cancelTool db v now = .ok (specs, db')) :
    SameButDescendants db db' ∧ marks specs = [] := by
  unfold cancelTool at h
  split at h
  · cases h; exact ⟨rfl, rfl⟩
  · obtain ⟨_, h⟩ := bind_rest h
    cases h; exact ⟨rfl, rfl⟩

theorem cancelTools_silent : ∀ {tools : List ToolInvocation} {db db' : Db} {specs : List EventSpec},
    cancelTools now db tools = .ok (specs, db') → SameButDescendants db db' ∧ marks specs = []
  | [], _, _, _, h => by cases h; exact ⟨rfl, rfl⟩
  | v :: tools, db, _, _, h => by
    obtain ⟨⟨_, db₁⟩, h₁, h⟩ := bind_ok h
    obtain ⟨⟨_, db₂⟩, h₂, h⟩ := bind_ok h
    cases h
    obtain ⟨hframe₁, hm₁⟩ := cancelTool_silent h₁
    obtain ⟨hframe₂, hm₂⟩ := cancelTools_silent h₂
    exact ⟨hframe₁.trans hframe₂, by rw [marks_append, hm₁, hm₂]; rfl⟩

theorem cancelStep_silent {step : RunStep} (h : cancelStep db step now = .ok (specs, db')) :
    SameButDescendants db db' ∧ marks specs = [] := by
  unfold cancelStep at h
  split at h
  · cases h; exact ⟨rfl, rfl⟩
  · obtain ⟨cancelled, -, ⟨_, db₁⟩, h₁, h⟩ := bind_ok₂ h
    cases h
    obtain ⟨hframe, hm⟩ := cancelTools_silent h₁
    exact ⟨.trans (b := { db with steps := db.steps.put cancelled }) rfl hframe, by rw [marks_cons, hm]; rfl⟩

theorem cancelSteps_silent : ∀ {steps : List RunStep} {db db' : Db} {specs : List EventSpec},
    cancelSteps now db steps = .ok (specs, db') → SameButDescendants db db' ∧ marks specs = []
  | [], _, _, _, h => by cases h; exact ⟨rfl, rfl⟩
  | s :: steps, db, _, _, h => by
    obtain ⟨⟨_, db₁⟩, h₁, h⟩ := bind_ok h
    obtain ⟨⟨_, db₂⟩, h₂, h⟩ := bind_ok h
    cases h
    obtain ⟨hframe₁, hm₁⟩ := cancelStep_silent h₁
    obtain ⟨hframe₂, hm₂⟩ := cancelSteps_silent h₂
    exact ⟨hframe₁.trans hframe₂, by rw [marks_append, hm₁, hm₂]; rfl⟩

section
variable (h : cancelDescendants db runId now = .ok (specs, db'))
include h

theorem cancelDescendants_silent :
    SameButDescendants db db' ∧ marks specs = [] := by
  obtain ⟨⟨_, db₁⟩, h₁, h⟩ := bind_ok h
  obtain ⟨⟨_, db₂⟩, h₂, h⟩ := bind_ok h
  cases h
  obtain ⟨hframe₁, hm₁⟩ := cancelSteps_silent h₁
  obtain ⟨hframe₂, hm₂⟩ := cancelTools_silent h₂
  exact ⟨hframe₁.trans hframe₂, by rw [marks_append, hm₁, hm₂]; rfl⟩

theorem cancelDescendants_frame : SameButDescendants db db' :=
  (cancelDescendants_silent h).1

theorem cancelDescendants_core : db'.toCore = db.toCore := by
  rw [show db' = _ from cancelDescendants_frame h]

end

/-- Only a resumption could be one by a delegation. -/
theorem plain_of_marks (h : .runResumed ∉ marks specs) : specs.all isPlain = true := by
  refine List.all_eq_true.2 fun s hs => ?_
  by_cases ht : s.type = .runResumed
  · exact absurd (List.mem_filter.2 ⟨List.mem_map.2 ⟨s, hs, ht⟩, rfl⟩) h
  · simp [isPlain, ht]

/-! ## Starting a run -/

section
variable {task : Task} (h : startRunInUow db task runId now = .ok db')
include h

/-- A task that is PENDING is started with its first run. -/
theorem startRunInUow_eq_ok :
    db.runs.get? runId = none ∧ ∃ tasks, (task.status = .active ∧ tasks = db.tasks ∨
        task.status = .pending ∧ tasks = db.tasks.put { task with startedAt := some now, status := .active }) ∧
      db' = appendRunEvents (enqueueRun { db with tasks := tasks, runs := db.runs.put (Run.new runId task.id now none) }
        runId now now) runId now [⟨.runCreated, textPayload [("task_id", Uuid.text task.id)], none⟩] := by
  obtain ⟨db₁, hensure, runs, hruns, h⟩ := bind_ok₂ h
  obtain ⟨hfresh, rfl⟩ := insert_eq_ok.1 hruns
  cases h
  unfold ensureTaskCanOwnARun at hensure
  split at hensure
  · next hpending =>
    obtain ⟨started, hstart, hensure⟩ := bind_ok hensure
    obtain ⟨_, hstart⟩ := bind_rest hstart
    obtain rfl := pure_eq_ok.1 hstart
    cases hensure
    exact ⟨hfresh, _, .inr ⟨hpending, rfl⟩, rfl⟩
  · next hactive =>
    cases hensure
    exact ⟨hfresh, _, .inl ⟨hactive, rfl⟩, rfl⟩
  · cases hensure

theorem startRunInUow_core : db.runs.get? runId = none ∧
      db'.toCore = (db.toCore.withRun (Run.new runId task.id now none)).addItem runId now now := by
  obtain ⟨hfresh, tasks, -, rfl⟩ := startRunInUow_eq_ok h
  exact ⟨hfresh, rfl⟩

theorem startRunInUow_fixed : db'.fixed = db.fixed := by
  obtain ⟨-, tasks, -, rfl⟩ := startRunInUow_eq_ok h
  rfl

end

section
variable {title description : String} {agentId : AgentId}

/-- The task of a child is new. -/
theorem startChild_eq_ok (h : startChild db taskId runId title description agentId now = .ok db') :
    ∃ task : Task, task.id = taskId ∧ task.status = .pending ∧ db.tasks.get? taskId = none ∧
      startRunInUow { db with
        tasks := db.tasks.put task
        taskAgentBindings := db.taskAgentBindings.replace taskId (some ⟨taskId, agentId, now⟩) } task runId now = .ok db' := by
  obtain ⟨task, hnew, tasks, hadd, h⟩ := bind_ok₂ h
  obtain ⟨_, hnew⟩ := bind_rest hnew
  obtain rfl := pure_eq_ok.1 hnew
  obtain ⟨hfresh, rfl⟩ := insert_eq_ok.1 hadd
  exact ⟨_, rfl, rfl, hfresh, h⟩

theorem startChild_core (h : startChild db taskId runId title description agentId now = .ok db') :
    db.runs.get? runId = none ∧ db'.toCore = (({ db.toCore with
      taskAgentBindings := db.taskAgentBindings.replace taskId (some ⟨taskId, agentId, now⟩) }).withRun
        (Run.new runId taskId now none)).addItem runId now now := by
  obtain ⟨task, rfl, -, -, h⟩ := startChild_eq_ok h
  exact startRunInUow_core h

end

theorem startRunInUow_entries {task : Task} (htask : db.tasks.get? task.id = some task)
    (h : startRunInUow db task runId now = .ok db') : Entries R F A db.journal db'.journal := by
  obtain ⟨hfresh, tasks, htasks, rfl⟩ := startRunInUow_eq_ok h
  have hcreate : ∀ {t : Task}, tasks.get? task.id = some t → t.status = .active →
      Entries R F A (Db.journal { db with tasks := tasks })
        (((Db.journal { db with tasks := tasks }).withRun (Run.new runId task.id now none)).append runId now
          [⟨.runCreated, textPayload [("task_id", Uuid.text task.id)], none⟩]) := fun ht hactive =>
    .single (.create (r := Run.new runId task.id now none) hfresh rfl rfl ht hactive rfl)
  rcases htasks with ⟨hactive, rfl⟩ | ⟨hpending, rfl⟩
  · exact hcreate htask hactive
  · exact .head (.task (u := { task with startedAt := some now, status := .active }) htask rfl
      (by rw [hpending]; rfl) nofun) (hcreate (get?_put_self db.tasks _) rfl)

theorem startChild_entries {title description : String} {agentId : AgentId}
    (h : startChild db taskId runId title description agentId now = .ok db') :
    Entries R F A db.journal db'.journal := by
  obtain ⟨task, rfl, hpending, hfresh, h⟩ := startChild_eq_ok h
  exact .head (.newTask hfresh hpending) (startRunInUow_entries (get?_put_self db.tasks task) h)

/-! ## Settling a delegation -/

theorem wakeParent_core {spec : EventSpec} (h : wakeParent db q spec now = .ok db') :
    db'.toCore = db.toCore.wake q now := by
  unfold wakeParent at h
  unfold Core.wake
  cases hp : db.runs.get? q.parentRunId with
  | none =>
    simp only [hp] at h
    cases h
    rfl
  | some p =>
    simp only [hp] at h ⊢
    split at h
    · next hw =>
      obtain ⟨r, hr, h⟩ := bind_ok h
      obtain ⟨-, rfl⟩ := Run.resumeFromDelegation_eq_ok.1 hr
      cases h
      rw [if_pos hw]
      rfl
    · next hw =>
      cases h
      rw [if_neg hw]

variable {outcome : DelegationStatus × RunEventType × Option String}

/-- Either there is nothing to settle, or the request is settled and its parent woken. -/
theorem reconcile_cases (db : Db) (run : Run) (now : Time) :
    (reconcileChildTerminal db run now = .ok db ∧
      ∀ q l, db.delegationRequests.getForChildExecution db.runs run.executionId = some q → q.status = .dispatched →
        db.runs.getLatestForExecution run.executionId = some l → settlement l = none) ∨
    ∃ q l outcome spec, db.delegationRequests.getForChildExecution db.runs run.executionId = some q ∧
      q.status = .dispatched ∧ db.runs.getLatestForExecution run.executionId = some l ∧
      settlement l = some outcome ∧ spec.type = outcome.2.1 ∧
      reconcileChildTerminal db run now = settleRequest q outcome.1 now outcome.2.2 >>= fun _ =>
        wakeParent { db with delegationRequests := db.delegationRequests.put (Core.finalized q outcome now) } q spec now := by
  cases hq : db.delegationRequests.getForChildExecution db.runs run.executionId with
  | none => exact .inl ⟨by simp [reconcileChildTerminal, hq], by rintro _ _ ⟨⟩⟩
  | some q =>
    by_cases hs : q.status = .dispatched
    · cases hl : db.runs.getLatestForExecution run.executionId with
      | none => exact .inl ⟨by simp [reconcileChildTerminal, hq, hs, hl], by rintro _ _ - - ⟨⟩⟩
      | some l =>
        cases ho : settlement l with
        | none =>
          refine .inl ⟨by simp [reconcileChildTerminal, hq, hs, hl, ho], ?_⟩
          rintro _ _ - - ⟨⟩
          exact ho
        | some outcome =>
          have hlisted : (db.runs.listForExecution run.executionId).isEmpty = false := by
            rw [RunTable.getLatestForExecution] at hl
            exact List.isEmpty_eq_false_iff.2 fun hnil => by rw [hnil] at hl; cases hl
          have hfinal : db.delegationRequests.finalizeIfDispatched q.id outcome.1 now outcome.2.2 =
              (true, db.delegationRequests.put (Core.finalized q outcome now)) :=
            update_of_get? (DelegationRequests.getForChildExecution_some hq).1 (decide_eq_true hs)
          exact .inr ⟨q, l, outcome, _, rfl, hs, rfl, ho, rfl,
            by simp [reconcileChildTerminal, hlisted, hq, hs, hl, ho, settleDelegation, hfinal]; rfl⟩
    · refine .inl ⟨by simp [reconcileChildTerminal, hq, hs], ?_⟩
      rintro _ _ ⟨⟩ h
      exact absurd h hs

theorem reconcile_core (h : reconcileChildTerminal db run now = .ok db') :
    db'.toCore = db.toCore.settle run.executionId now := by
  rcases reconcile_cases db run now with ⟨heq, hnone⟩ | ⟨q, l, outcome, spec, hq, hs, hl,
    ho, -, heq⟩
  · cases h.symm.trans heq
    rcases db.toCore.settle_cases run.executionId now with ⟨hsettle, -⟩ | ⟨q, outcome, hq, hs, ho, -⟩
    · exact hsettle.symm
    · obtain ⟨l, hl, ho⟩ := Option.bind_eq_some_iff.1 ho
      cases ho.symm.trans (hnone q l hq hs hl)
  · rw [heq] at h
    obtain ⟨_, h⟩ := bind_rest h
    rw [wakeParent_core h]
    simp [Core.settle, hq, hs, hl, ho]

theorem wakeParent_entries {e : RunId} {l : Run} {spec : EventSpec}
    (hq : db.delegationRequests.getForChildExecution db.runs e = some q)
    (dispatched : q.status = .dispatched) (latest : db.runs.getLatestForExecution e = some l)
    (ended : settlement l = some outcome) (silent : spec.type.isLifecycle = false)
    (h : wakeParent { db with delegationRequests := db.delegationRequests.put (Core.finalized q outcome now) } q spec now =
      .ok db') : Entries R F A db.journal db'.journal := by
  unfold wakeParent at h
  split at h
  · cases h
    exact .single (.settle hq dispatched latest ended)
  · next p hp =>
    have hid : p.id = q.parentRunId := key_of_get? hp
    split at h
    · next hwaits =>
      obtain ⟨resumed, hresume, h⟩ := bind_ok h
      obtain ⟨hwaiting, rfl⟩ := Run.resumeFromDelegation_eq_ok.1 hresume
      cases h
      exact .single (.wake (p := p) hq dispatched latest ended (by rw [hid]; exact hp)
        hid.symm hwaiting ⟨rfl, rfl, rfl, rfl⟩ rfl silent)
    · cases h
      exact .single (.settle hq dispatched latest ended)

section
variable (h : reconcileChildTerminal db run now = .ok db')
include h

theorem reconcile_entries : Entries R F A db.journal db'.journal := by
  rcases reconcile_cases db run now with ⟨heq, -⟩ | ⟨q, l, outcome, spec, hq, hs, hl, ho,
    htype, heq⟩
  · cases h.symm.trans heq
    exact .refl
  · rw [heq] at h
    obtain ⟨_, h⟩ := bind_rest h
    have hsilent : outcome.2.1.isLifecycle = false := by
      unfold settlement at ho
      split at ho <;> first | (cases ho; rfl) | cases ho
    exact wakeParent_entries hq hs hl ho (htype ▸ hsilent) h

theorem reconcile_frame : db' = { db with toCore := db'.toCore, events := db'.events } := by
  rcases reconcile_cases db run now with ⟨heq, -⟩ | ⟨q, l, outcome, spec, -, -, -, -, -, heq⟩
  · cases h.symm.trans heq
    rfl
  · rw [heq] at h
    obtain ⟨_, h⟩ := bind_rest h
    unfold wakeParent at h
    split at h
    · cases h; rfl
    · split at h
      · obtain ⟨_, h⟩ := bind_rest h
        cases h; rfl
      · cases h; rfl

theorem reconcile_fixed : db'.fixed = db.fixed := by
  have hexecutions : db'.workflowExecutions = db.workflowExecutions := by
    rw [reconcile_core h, Core.settle_executions]
  have hbindings : db'.taskAgentBindings = db.taskAgentBindings := by
    rw [reconcile_core h]
    obtain ⟨_, hs | ⟨_, -, -, hs⟩⟩ := db.toCore.settle_shape run.executionId now
    · rw [hs]
    · rw [hs]; rfl
  rw [Db.fixed, hexecutions, hbindings, reconcile_frame h]
  rfl

end

/-- What follows the end of a run in the same transaction. -/
theorem afterwards_entries (hrec : reconcileChildTerminal db run now = .ok mid)
    (hskill : materializeSkillUsage mid runId now = .ok db') :
    Entries R F A db.journal db'.journal := by
  rw [materializeSkillUsage_journal hskill]
  exact reconcile_entries hrec

/-! ## Runs and tasks -/

/-- Every new attempt of an execution meets the guard. -/
def NewAttempts (g : Guard) (db db' : Db) : Prop :=
  ∀ n ∈ db'.runs.rows, db.runs.get? n.id = none → g.attempt db.toCore n.executionId n.createdAt

/-- What a committed use case writes: moves of the tables, the entries that tell them and, if it has
nothing to do with workflows and bindings (`S`), none of those. -/
structure Writes (g : Guard) (R : RunId → Prop) (F A S : Prop) (db db' : Db) : Prop where
  moves : Moves g db.toCore db'.toCore
  entries : Entries R F A db.journal db'.journal
  fixed : S → db'.fixed = db.fixed

theorem Writes.refl (db : Db) : Writes g R F A S db db := ⟨.refl, .refl, fun _ => rfl⟩

/-- The ledger is not among the records. -/
theorem Writes.ledger (h : Writes g R F A S db mid)
    (hskill : materializeSkillUsage mid runId now = .ok db') : Writes g R F A S db db' := by
  obtain ⟨hmoves, hentries, hfixed⟩ := h
  rw [← materializeSkillUsage_core hskill] at hmoves
  rw [← materializeSkillUsage_journal hskill] at hentries
  rw [← materializeSkillUsage_fixed hskill] at hfixed
  exact ⟨hmoves, hentries, hfixed⟩

theorem createTask_writes {id : TaskId} {title description : String}
    (h : createTask db id title description now = .ok (t, db')) : Writes g R F A S db db' := by
  obtain ⟨task, hnew, tasks, hadd, h⟩ := bind_ok₂ h
  cases h
  obtain ⟨_, hnew⟩ := bind_rest hnew
  cases hnew
  obtain ⟨hfresh, rfl⟩ := insert_eq_ok.1 hadd
  exact ⟨.refl, .single (.newTask hfresh rfl), fun _ => rfl⟩

theorem startRun_writes (h : startRun db taskId runId now = .ok db') : Writes g R F A S db db' := by
  obtain ⟨task, htask, h⟩ := bind_ok h
  obtain ⟨hfresh, hcore⟩ := startRunInUow_core h
  refine ⟨?_, startRunInUow_entries (getTask_eq_ok htask).1 h, fun _ => startRunInUow_fixed h⟩
  rw [hcore]
  exact .single (.create hfresh rfl rfl)

theorem save_entry {j : Journal} {type : RunEventType}
    (hr : j.runs.get? r.id = some r) (told : Told r type r') (hm : marks specs = [type])
    (hplain : type ≠ .runResumed) : Entry R F A j ((j.withRun r').append r.id now specs) := by
  have hquiet : .runResumed ∉ marks specs := by
    rw [hm, List.mem_singleton]
    exact Ne.symm hplain
  exact .save hr told.1 (by rw [hm, replay_singleton]; exact told.2) (plain_of_marks hquiet)
    (.inl hquiet)

theorem startQueuedRun_writes (h : startQueuedRun db runId now = .ok (r, db')) :
    Writes g R F A S db db' := by
  obtain ⟨run, hrun, h⟩ := bind_ok h
  split at h
  · cases h; exact .refl db
  · obtain ⟨_, _, _, h⟩ := bind_rest₃ h
    obtain ⟨started, hs, h⟩ := bind_ok h
    have htold := start_told hs
    obtain ⟨hq, rfl⟩ := Run.start_eq_ok.1 hs
    cases h
    have hget := (getRun_eq_ok hrun).1
    exact ⟨.single (.start hget hq htold.1 rfl), .single (save_entry hget htold rfl nofun), fun _ => rfl⟩

theorem succeedRunEventSpecs_writes (h : succeedRunEventSpecs db run now = .ok (r', specs, db')) :
    (run.status = .running ∨ run.status = .waitingForWorkflow) ∧ Told run .runSucceeded r' ∧
      r'.status = .succeeded ∧ db'.toCore = db.toCore.withRun r' ∧
      db'.journal = db.journal.withRun r' ∧ db'.fixed = db.fixed ∧
      marks specs = [.runSucceeded] := by
  obtain ⟨succeeded, hs, h⟩ := bind_ok h
  cases h
  have htold := succeed_told hs
  obtain ⟨hfrom, -, rfl⟩ := Run.succeed_eq_ok.1 hs
  exact ⟨hfrom, htold, rfl, rfl, rfl, rfl, rfl⟩

theorem failRunEventSpecs_writes (h : failRunEventSpecs db run now failure = .ok (r', specs, db')) :
    (run.status = .running ∨ run.status = .waitingForWorkflow) ∧ Told run .runFailed r' ∧
      r'.status = .failed ∧ db'.toCore = db.toCore.withRun r' ∧
      db'.journal = db.journal.withRun r' ∧ db'.fixed = db.fixed ∧ marks specs = [.runFailed] := by
  obtain ⟨failed, hf, ⟨_, db₁⟩, hd, h⟩ := bind_ok₂ h
  cases h
  have htold := fail_told hf
  obtain ⟨hfrom, -, rfl⟩ := Run.fail_eq_ok.1 hf
  obtain ⟨hdown, hm⟩ := cancelDescendants_silent hd
  exact ⟨hfrom, htold, rfl, cancelDescendants_core hd, hdown.journal,
    hdown.fixed, by rw [marks_append, hm]; rfl⟩

/-- A run ends for good, and what it was delegated for is settled. -/
theorem finish_writes {type : RunEventType} (hr : db.runs.get? run.id = some run)
    (may : MayEnd db.toCore run) (told : Told run type r) (hplain : type ≠ .runResumed)
    (ended : r.status = .succeeded ∨ r.status = .failed) (hm : marks specs = [type])
    (hcore : mid.toCore = (db.toCore.withRun r).dropItem run.id)
    (hj : mid.journal = (db.journal.withRun r).append run.id now specs)
    (hrec : reconcileChildTerminal mid r now = .ok db') (hfixed : mid.fixed = db.fixed) :
    Writes g R F A S db db' := by
  have hsettled := reconcile_core hrec
  have hafter := reconcile_entries (R := R) (F := F) (A := A) hrec
  rw [hcore, told.1.executionId] at hsettled
  rw [hj] at hafter
  refine ⟨?_, .head (save_entry hr told hm hplain) hafter,
    fun _ => (reconcile_fixed hrec).trans hfixed⟩
  rw [hsettled]
  exact .single (.finish hr may told.1 ended)

theorem completeRun_writes (h : completeRun db runId now = .ok (r, db')) :
    Writes g R F A S db db' := by
  obtain ⟨run, hrun, h⟩ := bind_ok h
  split at h
  · cases h; exact .refl db
  · obtain ⟨_, h⟩ := bind_rest h
    obtain ⟨_, hrunning, h⟩ := bind_ok h
    obtain ⟨_, _, _, h⟩ := bind_rest₃ h
    obtain ⟨⟨succeeded, specs, db₁⟩, hs, h⟩ := bind_ok h
    obtain ⟨db₂, hrec, db₃, hskill, h⟩ := bind_ok₂ h
    cases h
    obtain ⟨-, htold, hstatus, hcore, hj, hfixed, hm⟩ := succeedRunEventSpecs_writes hs
    have hmay : MayEnd db.toCore run := .inl (of_require hrunning)
    refine (finish_writes (getRun_eq_ok hrun).1 hmay htold nofun (.inl hstatus) hm ?_ ?_ hrec hfixed).ledger hskill
    · rw [appendRunEvents_toCore, removeItem_toCore, hcore]; rfl
    · rw [appendRunEvents_journal, removeItem_journal, hj]

theorem failRun_writes (h : failRun cfg db runId failure now = .ok (r, db')) :
    Writes g R F A S db db' := by
  obtain ⟨run, hrun, h⟩ := bind_ok h
  split at h
  · obtain ⟨_, h⟩ := bind_rest h
    cases h; exact .refl db
  · obtain ⟨_, h⟩ := bind_rest h
    obtain ⟨_, hrunning, ⟨failed, specs, db₁⟩, hf, h⟩ := bind_ok₂ h
    obtain ⟨db₂, hrec, db₃, hskill, h⟩ := bind_ok₂ h
    cases h
    obtain ⟨-, htold, hstatus, hcore, hj, hfixed, hm⟩ := failRunEventSpecs_writes hf
    have hmay : MayEnd db.toCore run := .inl (of_require hrunning)
    refine (finish_writes (getRun_eq_ok hrun).1 hmay htold nofun (.inr hstatus) hm ?_ ?_ hrec hfixed).ledger hskill
    · rw [removeItem_toCore, appendRunEvents_toCore, hcore]; rfl
    · rw [removeItem_journal, appendRunEvents_journal, hj]

/-- The next attempt with its item and its event. -/
theorem addRetry_writes {source : Run} {availableAt : Result Time}
    (h : addRetry db source ids availableAt now = .ok db') : db.runs.get? ids.runId = none ∧
      (∃ at₁, db'.toCore =
        (db.toCore.withRun (Run.new ids.runId source.taskId now (some source.executionId))).addItem ids.runId at₁ now) ∧
      (∃ specs, marks specs = [.runCreated] ∧ db'.journal = (db.journal.withRun
        (Run.new ids.runId source.taskId now (some source.executionId))).append ids.runId now specs) ∧
      db'.fixed = db.fixed := by
  obtain ⟨runs, h₁, h⟩ := bind_ok h
  obtain ⟨hfresh, rfl⟩ := insert_eq_ok.1 h₁
  obtain ⟨db₁, hin, at₁, -, h⟩ := bind_ok₂ h
  cases h
  have hframe := inheritFrozenResolutions_frame hin
  have hfixed : db₁.fixed = db.fixed := by rw [hframe]; rfl
  refine ⟨hfresh, ⟨at₁, ?_⟩, ⟨[⟨.runCreated, textPayload [("task_id", Uuid.text source.taskId),
    ("retry_of", Uuid.text source.id)], none⟩], rfl, ?_⟩, hfixed⟩
  · rw [appendRunEvents_toCore, enqueueRun_toCore, hframe]
    rfl
  · rw [appendRunEvents_journal, hframe]
    rfl

theorem retryFailedRun_eq_ok (h : retryFailedRun db runId ids now = .ok db') :
    ∃ source task, db.runs.get? source.id = some source ∧ source.id = runId ∧
      (∀ x, db.runs.get? x.id = some x → x.taskId = source.taskId → x.status.isTerminal = true) ∧
      db.delegationRequests.getForChildExecution db.runs source.executionId = none ∧
      db.tasks.get? source.taskId = some task ∧ task.status = .active ∧ addRetry db source ids (.ok now) now = .ok db' := by
  obtain ⟨source, hsource, h⟩ := bind_ok h
  obtain ⟨_, _, h⟩ := bind_rest₂ h
  obtain ⟨_, hnone, task, htask, h⟩ := bind_ok₂ h
  obtain ⟨_, h⟩ := bind_rest h
  obtain ⟨_, hended, _, hactive, h⟩ := bind_ok₂ h
  refine ⟨source, task, (getRun_eq_ok hsource).1, (getRun_eq_ok hsource).2, fun x hx hxt => ?_,
    Option.isNone_iff_eq_none.1 (require_eq_ok.1 hnone), found_eq_ok.1 htask, of_require hactive, h⟩
  have hlisted := RunTable.mem_listForTask.2 ⟨hx, hxt.trans (getTask_eq_ok htask).2.symm⟩
  exact List.all_eq_true.1 (require_eq_ok.1 hended) x hlisted

theorem retryFailedRun_writes (clock : NewAttempts g db db')
    (h : retryFailedRun db runId ids now = .ok db') : Writes g R F A S db db' := by
  obtain ⟨source, task, hsource, -, hended, hnone, htask, hactive, h⟩ := retryFailedRun_eq_ok h
  obtain ⟨hfresh, ⟨at₁, hcore⟩, ⟨specs, hm, hj⟩, hfixed⟩ := addRetry_writes h
  have hnew : Run.new ids.runId source.taskId now (some source.executionId) ∈ db'.runs.rows := by
    rw [hcore]
    exact mem_of_get? (get?_put_self _ _)
  refine ⟨?_, ?_, fun _ => hfixed⟩
  · rw [hcore]
    exact .single (.retry hsource hended hnone hfresh rfl rfl rfl (clock _ hnew hfresh))
  · rw [hj]
    exact .single (.retry (r := Run.new ids.runId source.taskId now (some source.executionId))
      hsource hfresh rfl rfl rfl hnone htask hactive hm)

/-! ## Cancellation -/

theorem mem_pendingForRun {approvals : Approvals} {a : ApprovalRequest} :
    a ∈ pendingForRun approvals runId ↔ approvals.get? a.id = some a ∧ a.runId = some runId ∧ a.status = .pending := by
  rw [pendingForRun, List.mem_insertionSort, mem_select, key_approval, Bool.and_eq_true,
    decide_eq_true_iff, decide_eq_true_iff]

theorem ownsRunningWorkflow_iff :
    ownsRunningWorkflow db runId = true ↔ db.toCore.OwnsRunningWorkflow runId := by
  rw [ownsRunningWorkflow, List.any_eq_true]
  unfold Core.OwnsRunningWorkflow
  constructor
  · rintro ⟨x, hx, hs⟩
    obtain ⟨hget, hroot⟩ := WorkflowExecutions.mem_listByRootRunId.1 hx
    exact ⟨x, hget, hroot, of_decide_eq_true hs⟩
  · rintro ⟨x, hget, hroot, hs⟩
    exact ⟨x, WorkflowExecutions.mem_listByRootRunId.2 ⟨hget, hroot⟩, decide_eq_true hs⟩

/-- The approvals of the list are cancelled, every other one is as it was. -/
theorem cancelApprovals_core : ∀ {approvals : List ApprovalRequest} {db db' : Db} {specs : List EventSpec},
    cancelApprovals now db approvals = .ok (specs, db') →
    db' = { db with approvals := db'.approvals } ∧ marks specs = [] ∧ ∀ k,
      ((∀ a ∈ approvals, a.id ≠ k) ∧ db'.approvals.get? k = db.approvals.get? k) ∨
      ∃ a ∈ approvals, a.id = k ∧ ∃ a', db'.approvals.get? k = some a' ∧ a'.runId = a.runId ∧ a'.status = .cancelled
  | [], _, _, _, h => by
    cases h
    exact ⟨rfl, rfl, fun k => .inl ⟨by simp, rfl⟩⟩
  | a :: rest, db, db', _, h => by
    obtain ⟨cancelled, hc, ⟨_, _⟩, hrest, h⟩ := bind_ok₂ h
    cases h
    obtain ⟨-, hid, howner, -, hstatus⟩ := ApprovalRequest.resolve_eq_ok hc
    obtain ⟨hframe, hm, hget⟩ := cancelApprovals_core hrest
    refine ⟨hframe, by rw [marks_cons, hm]; rfl, fun k => ?_⟩
    rcases hget k with ⟨hne, hk⟩ | ⟨b, hb, hbk, hget⟩
    · rw [get?_put, key_approval, hid] at hk
      by_cases hak : a.id = k
      · rw [if_pos hak] at hk
        exact .inr ⟨a, List.mem_cons_self, hak, cancelled, hk, howner, hstatus⟩
      · rw [if_neg hak] at hk
        refine .inl ⟨fun b hb => ?_, hk⟩
        rcases List.mem_cons.1 hb with rfl | hb
        · exact hak
        · exact hne b hb
    · exact .inr ⟨b, List.mem_cons_of_mem _ hb, hbk, hget⟩

theorem cancelApprovals_cancelled
    (h : cancelApprovals now db (pendingForRun db.approvals runId) = .ok (specs, db')) :
    ApprovalsCancelled db.approvals db'.approvals runId := by
  intro k
  rcases (cancelApprovals_core h).2.2 k with ⟨hne, hk⟩ | ⟨a, ha, hak, a', ha', howner, hstatus⟩
  · refine .inl ⟨hk, fun a hak hp => ?_⟩
    have hid : a.id = k := key_of_get? hak
    exact hne a (mem_pendingForRun.2 ⟨by rw [hid]; exact hak, hp⟩) hid
  · obtain ⟨hin, hrunId, hpending⟩ := mem_pendingForRun.1 ha
    exact .inr ⟨a, a', hak ▸ hin, hrunId, hpending, ha', howner, hstatus⟩

theorem cancel_effect (h : run.cancel now = .ok r') : Told run .runCancelled r' ∧
    r'.status = .cancelled := by
  have htold := cancel_told h
  obtain ⟨-, -, rfl⟩ := Run.cancel_eq_ok.1 h
  exact ⟨htold, rfl⟩

/-- The cancellation of a run; what follows its own event settles a delegation. -/
theorem runCancellation_told (h : runCancellation db run now = .ok (r, db')) :
    Told run .runCancelled r ∧ r.status = .cancelled ∧
      (∃ approvals, ApprovalsCancelled db.approvals approvals run.id ∧
        db'.toCore = ((({ db.toCore with approvals := approvals }).withRun r).dropItem
          run.id).settle run.executionId now) ∧
      ∃ specs, marks specs = [.runCancelled] ∧
        Entries R F A ((db.journal.withRun r).append run.id now specs) db'.journal ∧ db'.fixed = db.fixed := by
  obtain ⟨cancelled, hc, ⟨approvalSpecs, db₁⟩, ha, h⟩ := bind_ok₂ h
  obtain ⟨⟨specs, db₂⟩, hd, h⟩ := bind_ok h
  obtain ⟨db₃, hrec, db₄, hskill, h⟩ := bind_ok₂ h
  cases h
  obtain ⟨htold, hstatus⟩ := cancel_effect hc
  obtain ⟨hframe, hma, -⟩ := cancelApprovals_core ha
  have hresolved := cancelApprovals_cancelled ha
  obtain ⟨hdown, hmd⟩ := cancelDescendants_silent hd
  refine ⟨htold, hstatus, ⟨db₁.approvals, hresolved, ?_⟩,
    runCancelled run.id :: (approvalSpecs ++ specs), ?_, ?_, ?_⟩
  · rw [materializeSkillUsage_core hskill, reconcile_core hrec, htold.1.executionId,
      appendRunEvents_toCore, cancelDescendants_core hd, removeItem_toCore, hframe]
    rfl
  · rw [marks_cons, marks_append, hma, hmd]; rfl
  · have hafter := afterwards_entries (R := R) (F := F) (A := A) hrec hskill
    rw [appendRunEvents_journal, hdown.journal, removeItem_journal, hframe] at hafter
    exact hafter
  · have happrovals : db₁.fixed = db.fixed := by rw [hframe]; rfl
    exact (materializeSkillUsage_fixed hskill).trans ((reconcile_fixed hrec).trans (hdown.fixed.trans happrovals))

theorem runCancellation_writes (hrun : db.runs.get? run.id = some run)
    (allowed : ¬(run.status = .waitingForWorkflow ∧ db.toCore.OwnsRunningWorkflow run.id) ∨ g.latest db.toCore run)
    (h : runCancellation db run now = .ok (r, db')) : Writes g R F A S db db' := by
  obtain ⟨htold, hstatus, ⟨approvals, hresolved, hcore⟩, specs, hm, hafter, hfixed⟩ :=
    runCancellation_told (R := R) (F := F) (A := A) h
  refine ⟨?_, .head (save_entry hrun htold hm nofun) hafter, fun _ => hfixed⟩
  rw [hcore]
  exact .single (.cancel hrun htold.live allowed htold.1 hstatus hresolved)

theorem cancelRun_writes
    (latest : ∀ run x, db.runs.get? runId = some run → run.status.isTerminal = true →
      run.status ≠ .cancelled → db.runs.getLatestForExecution run.executionId = some x →
      x.status.isTerminal = false → g.latest db.toCore x)
    (h : cancelRun db runId now = .ok (r, db')) : Writes g R F A S db db' := by
  obtain ⟨run, hrun, h⟩ := bind_ok h
  split at h
  · cases h; exact .refl db
  · next hne =>
    split at h
    · next hterminal =>
      unfold cancelLatest at h
      split at h
      · cases h
      · next x hx =>
        split at h
        · cases h
        · next hlive =>
          have hallowed := latest run x (found_eq_ok.1 hrun) hterminal hne hx (by simpa using hlive)
          exact runCancellation_writes (RunTable.getLatestForExecution_mem hx).1 (.inr hallowed) h
    · obtain ⟨_, hguard, h⟩ := bind_ok h
      refine runCancellation_writes (getRun_eq_ok hrun).1 (.inl fun hw => ?_) h
      have howns := ownsRunningWorkflow_iff.2 hw.2
      simp [howns, hw.1] at hguard

theorem taskCancellation_told (h : taskCancellation db run now = .ok db') : ∃ r' specs, Told run .runCancelled r' ∧
    r'.status = .cancelled ∧ marks specs = [.runCancelled] ∧ db'.toCore = db.toCore.withRun r' ∧
      db'.journal = (db.journal.withRun r').append run.id now specs ∧ db'.fixed = db.fixed := by
  obtain ⟨cancelled, hc, ⟨specs, db₁⟩, hd, h⟩ := bind_ok₂ h
  obtain ⟨hdown, hm⟩ := cancelDescendants_silent hd
  obtain ⟨htold, hstatus⟩ := cancel_effect hc
  refine ⟨cancelled, runCancelled run.id :: specs, htold, hstatus, ?_, ?_, ?_,
    (materializeSkillUsage_fixed h).trans hdown.fixed⟩
  · rw [marks_cons, hm]; rfl
  · rw [materializeSkillUsage_core h, appendRunEvents_toCore, cancelDescendants_core hd]
    rfl
  · rw [materializeSkillUsage_journal h, appendRunEvents_journal, hdown.journal]
    rfl

/-- The loop of `CancelTask`, beside any tasks: its runs have ended, the others are as they were.
The runs still to come are untouched by the cancellations before them. -/
theorem cancelRuns_writes (tasks : Tasks) : ∀ {runs : List Run} {db db' : Db}, cancelRuns now db runs = .ok db' →
    (runs.map Run.id).Nodup → (∀ r ∈ runs, db.runs.get? r.id = some r ∧ (r.status.isTerminal = false →
      ¬db.toCore.OwnsRunningWorkflow r.id ∧ g.viaTask db.toCore r)) →
    Moves g db.toCore db'.toCore ∧ db'.tasks = db.tasks ∧ db'.fixed = db.fixed ∧
      Entries R F A { db.journal with tasks := tasks } { db'.journal with tasks := tasks } ∧
      (∀ k, (∀ x ∈ runs, x.id ≠ k) → db'.runs.get? k = db.runs.get? k) ∧
      ∀ x ∈ runs, ∃ x', db'.runs.get? x.id = some x' ∧ x'.status.isTerminal = true
  | [], _, _, h, _, _ => by cases h; exact ⟨.refl, rfl, rfl, .refl, fun _ _ => rfl, fun _ hx => absurd hx List.not_mem_nil⟩
  | x :: runs, db, db', h, hnodup, hruns => by
    obtain ⟨hnotin, hnodup⟩ := List.nodup_cons.1 hnodup
    have hne : ∀ y ∈ runs, y.id ≠ x.id := fun y hy e => hnotin (e ▸ List.mem_map_of_mem hy)
    obtain ⟨hx, hguard⟩ := hruns x List.mem_cons_self
    unfold cancelRuns at h
    split at h
    · next hended =>
      obtain ⟨hmoves, htasks, hfixed, hent, hothers, hall⟩ :=
        cancelRuns_writes tasks h hnodup fun y hy => hruns y (List.mem_cons_of_mem _ hy)
      refine ⟨hmoves, htasks, hfixed, hent, fun k hk => hothers k fun y hy => hk y (List.mem_cons_of_mem _ hy), fun y hy => ?_⟩
      rcases List.mem_cons.1 hy with rfl | hy
      · exact ⟨y, (hothers y.id hne).trans hx, hended⟩
      · exact hall y hy
    · obtain ⟨db₁, h₁, h⟩ := bind_ok h
      obtain ⟨c, specs, htold, hstatus, hm, hcore, hj, hfirst⟩ := taskCancellation_told h₁
      obtain ⟨hnone, hallowed⟩ := hguard htold.live
      have hkeep : ∀ k, k ≠ x.id → db₁.runs.get? k = db.runs.get? k := fun k hk => by
        rw [hcore]
        exact get?_put_ne (by rw [key_run, htold.1.id]; exact Ne.symm hk)
      obtain ⟨hmoves, htasks, hfixed, hent, hothers, hall⟩ := cancelRuns_writes tasks h hnodup fun y hy => by
        obtain ⟨hy', hguard'⟩ := hruns y (List.mem_cons_of_mem _ hy)
        refine ⟨(hkeep y.id (hne y hy)).trans hy', ?_⟩
        rw [hcore]
        exact fun hl => ⟨(hguard' hl).1, g.viaTask_stable hx htold.1 (hne y hy).symm (hguard' hl).2⟩
      refine ⟨.head ?_ hmoves, htasks.trans (congrArg Journal.tasks hj), hfixed.trans hfirst,
        .head ?_ hent, fun k hk => ?_, fun y hy => ?_⟩
      · rw [hcore]
        exact .viaTask hx htold.live hnone hallowed htold.1 hstatus
      · rw [hj]
        exact save_entry (j := { db.journal with tasks := tasks }) hx htold hm nofun
      · rw [hothers k fun y hy => hk y (List.mem_cons_of_mem _ hy)]
        exact hkeep k (hk x List.mem_cons_self).symm
      · rcases List.mem_cons.1 hy with rfl | hy
        · refine ⟨c, ?_, by rw [hstatus]; rfl⟩
          rw [hothers y.id hne, hcore, ← htold.1.id]
          exact get?_put_self db.runs c
        · exact hall y hy

/-- The runs are cancelled and then the task ends: in the journal the order does not show. -/
theorem cancelTask_writes
    (viaTask : (∀ task, db.tasks.get? taskId = some task → task.status ≠ .cancelled) →
      ∀ r, db.runs.get? r.id = some r → r.taskId = taskId → r.status.isTerminal = false → g.viaTask db.toCore r)
    (h : cancelTask db taskId now = .ok (t, db')) : Writes g R F A S db db' := by
  obtain ⟨task, htask, h⟩ := bind_ok h
  obtain ⟨hget, hid⟩ := getTask_eq_ok htask
  split at h
  · cases h; exact .refl db
  · next hne =>
    have hnot : ∀ x, db.tasks.get? taskId = some x → x.status ≠ .cancelled := by
      intro x hx
      rw [found_eq_ok.1 htask] at hx
      cases hx
      exact hne
    obtain ⟨_, hlive, _, hfree, h⟩ := bind_ok₂ h
    obtain ⟨cancelled, hc, db₁, hruns, h⟩ := bind_ok₂ h
    obtain ⟨-, rfl⟩ := Prod.mk.inj (Except.ok.inj h)
    have hcid : cancelled.id = task.id := by
      obtain ⟨_, hc⟩ := bind_rest hc
      obtain rfl := pure_eq_ok.1 hc
      rfl
    have hguard : ∀ r ∈ db.runs.listForTask task.id, db.runs.get? r.id = some r ∧ (r.status.isTerminal = false →
        ¬db.toCore.OwnsRunningWorkflow r.id ∧ g.viaTask db.toCore r) := by
      intro r hr
      obtain ⟨hin, hof⟩ := RunTable.mem_listForTask.1 hr
      refine ⟨hin, fun hlive => ⟨fun howns => ?_, viaTask hnot r hin (hof.trans hid) hlive⟩⟩
      have hall := List.all_eq_true.1 (require_eq_ok.1 hfree) r hr
      rw [hlive, ownsRunningWorkflow_iff.2 howns] at hall
      cases hall
    obtain ⟨hmoves, htasks, hfixed, hent, hothers, hall⟩ :=
      cancelRuns_writes (R := R) (F := F) (A := A) db.tasks hruns RunTable.nodup_listForTask hguard
    have hlast : db₁.journal = ({ db₁.journal with tasks := db.tasks } : Journal).withTask cancelled := by
      rw [Journal.withTask, Db.journal, htasks]
      rfl
    refine ⟨hmoves, ?_, fun _ => hfixed⟩
    rw [hlast]
    refine .tail hent (.task (t := task) hget hcid (by simpa using require_eq_ok.1 hlive) fun _ => .inr fun r hr hof => ?_)
    -- a run of the task was listed, and every listed run has ended
    have hrget : db₁.runs.get? r.id = some r := get?_of_mem hr
    by_cases hlisted : ∃ x ∈ db.runs.listForTask task.id, x.id = r.id
    · obtain ⟨x, hx, hxid⟩ := hlisted
      obtain ⟨x', hx', hended⟩ := hall x hx
      rw [hxid, hrget] at hx'
      cases hx'
      exact hended
    · have hsame := hothers r.id fun x hx e => hlisted ⟨x, hx, e⟩
      rw [hrget] at hsame
      exact absurd ⟨r, RunTable.mem_listForTask.2 ⟨hsame.symm, hof⟩, rfl⟩ hlisted

theorem completeTask_writes (h : completeTask db taskId now = .ok (t, db')) :
    Writes g R F A S db db' := by
  obtain ⟨task, htask, h⟩ := bind_ok h
  split at h
  · cases h; exact .refl db
  · obtain ⟨_, hlive, h⟩ := bind_ok h
    obtain ⟨_, h⟩ := bind_rest h
    obtain ⟨_, hended, h⟩ := bind_ok h
    obtain ⟨_, _, h⟩ := bind_rest₂ h
    obtain ⟨completed, hc, h⟩ := bind_ok h
    obtain ⟨-, rfl⟩ := Prod.mk.inj (Except.ok.inj h)
    obtain ⟨_, hc⟩ := bind_rest hc
    obtain rfl := pure_eq_ok.1 hc
    refine ⟨.refl, .single (.task (t := task) (getTask_eq_ok htask).1 rfl (by simpa using require_eq_ok.1 hlive)
      fun _ => .inr fun r hr hof => ?_), fun _ => rfl⟩
    exact List.all_eq_true.1 (require_eq_ok.1 hended) r (RunTable.mem_listForTask.2 ⟨get?_of_mem hr, hof⟩)

/-- `FailTask` does not ask for the runs. -/
theorem failTask_writes (hended : F ∨ ∀ r ∈ db.runs.rows, r.taskId = taskId → r.status.isTerminal = true)
    (h : failTask cfg db taskId failure now = .ok (t, db')) : Writes g R F A S db db' := by
  obtain ⟨task, htask, h⟩ := bind_ok h
  obtain ⟨hget, hid⟩ := getTask_eq_ok htask
  split at h
  · obtain ⟨_, h⟩ := bind_rest h
    cases h; exact .refl db
  · obtain ⟨_, hlive, failed, hf, h⟩ := bind_ok₂ h
    obtain ⟨-, rfl⟩ := Prod.mk.inj (Except.ok.inj h)
    obtain ⟨_, hf⟩ := bind_rest hf
    obtain rfl := pure_eq_ok.1 hf
    exact ⟨.refl, .single (.task (t := task) hget rfl (by simpa using require_eq_ok.1 hlive) fun _ => by
      rw [hid]; exact hended), fun _ => rfl⟩

end Friday.Runs
