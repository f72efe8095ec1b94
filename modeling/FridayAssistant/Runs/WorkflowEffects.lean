import FridayAssistant.Domain.WorkflowRows
import FridayAssistant.Runs.WorkerEffects
/-!
# What the workflow use cases write

Scheduling only binds child tasks and creates child runs (`Spawns`). A bootstrap schedules
between creating the execution and parking the root; both commute with what scheduling writes,
so it is the park first and the children after.

The root of a workflow is the one run whose transitions are not told by run events: the entries
are those of a database in which some execution names it. With `Effects` and `WorkerEffects` this
covers every action of the run system (`act_writes`).
-/
namespace Friday.Runs
open Tables Table PyJson Queue Relation Replay Transition

variable {g : Guard} {R : RunId → Prop} {F A S : Prop}

/-! ## Scheduling -/

/-- What scheduling does to `Core`. -/
inductive Spawn : Core → Core → Prop where
  | bind {c : Core} {b : TaskAgentBinding} :
      Spawn c { c with taskAgentBindings := c.taskAgentBindings.replace b.taskId (some b) }
  | create {c : Core} {r : Run} {at₁ at₂ : Time} (fresh : c.runs.get? r.id = none) (queued : r.status = .queued)
      (root : r.executionId = r.id) : Spawn c ((c.withRun r).addItem r.id at₁ at₂)

abbrev Spawns : Core → Core → Prop := ReflTransGen Spawn

variable {c c' : Core} {x e : WorkflowExecution} {now : Time} {db db' : Db}
  {remover : WorkItems → Result WorkItems} {cfg : Config} {nodes : List WorkflowNodeExecution}
  {ids : WorkflowIds} {root : Run} {claim : ClaimTriple} {workflowId : WorkflowId}
  {ended : WorkflowExecution}

theorem Spawn.move (h : Spawn c c') : Move g c c' := by
  cases h with
  | bind => exact .bind
  | create fresh queued root => exact .create fresh queued root

theorem Spawns.moves (h : Spawns c c') : Moves g c c' := by
  induction h with
  | refl => exact .refl
  | tail _ hstep ih => exact ih.tail hstep.move

theorem Spawns.executions (h : Spawns c c') : c'.workflowExecutions = c.workflowExecutions := by
  induction h with
  | refl => rfl
  | tail _ hstep ih =>
    rw [← ih]
    cases hstep with
    | bind => rfl
    | create => rfl

variable {r : Run} {k : RunId}

theorem Spawn.run (h : Spawn c c') (hr : c.runs.get? k = some r) :
    c'.runs.get? k = some r := by
  cases h with
  | bind => exact hr
  | create fresh _ _ => exact get?_put_fresh fresh hr

theorem Spawns.run (h : Spawns c c') (hr : c.runs.get? k = some r) :
    c'.runs.get? k = some r := by
  induction h with
  | refl => exact hr
  | tail _ hstep ih => exact hstep.run ih

variable {r' : Run}

/-- Parking a run that exists commutes with creating others. -/
theorem Spawn.park (h : Spawn c c') (hr : c.runs.get? r.id = some r) (hid : r'.id = r.id) :
    Spawn ((c.withRun r').dropItem r.id) ((c'.withRun r').dropItem r.id) := by
  cases h with
  | bind => exact .bind
  | @create n at₁ at₂ fresh queued root =>
    have hne : n.id ≠ r.id := (ne_of_fresh hr fresh).symm
    have hruns : (c.runs.put n).put r' = (c.runs.put r').put n :=
      (put_comm (by rw [key_run, key_run, hid]; exact hne.symm) (by rw [key_run, hid, hr]; rfl)).symm
    have hcommute : (((c.withRun n).addItem n.id at₁ at₂).withRun r').dropItem r.id =
        (((c.withRun r').dropItem r.id).withRun n).addItem n.id at₁ at₂ := by
      simp only [Core.withRun, Core.addItem, Core.dropItem, hruns, remove_enqueue hne]
    rw [hcommute]
    exact .create ((get?_put_ne (by rw [key_run, hid]; exact hne.symm)).trans fresh) queued root

theorem Spawns.park (h : Spawns c c') (hr : c.runs.get? r.id = some r)
    (hid : r'.id = r.id) : Spawns ((c.withRun r').dropItem r.id) ((c'.withRun r').dropItem r.id) := by
  induction h with
  | refl => exact .refl
  | tail hs hstep ih => exact ih.tail (hstep.park (Spawns.run hs hr) hid)

/-- The events a node's transitions emit. -/
def RunEventType.isNodeEvent : RunEventType → Bool
  | .workflowNodeDispatched | .workflowNodeSucceeded | .workflowNodeFailed | .workflowNodeCancelled
  | .workflowNodeBlocked => true
  | _ => false

/-- A relation between databases that holds across what recording a node writes. -/
structure Recording (T : Db → Db → Prop) : Prop where
  refl : ∀ db, T db db
  trans : ∀ {db₁ db₂ db₃}, T db₁ db₂ → T db₂ db₃ → T db₁ db₃
  record : ∀ {db : Db} {rows : WorkflowNodeExecutions} {node : WorkflowNodeExecution} {type : RunEventType} {now : Time},
    type.isNodeEvent = true →
    T db (emitNodeEvent { db with workflowNodeExecutions := rows } node type now)

/-- One that also holds across the creation of a child: then it holds across all of scheduling. -/
structure Spawning (T : Db → Db → Prop) : Prop extends Recording T where
  child : ∀ {db db' : Db} {taskId : TaskId} {runId : RunId} {title description : String} {agentId : AgentId}
    {now : Time}, startChild db taskId runId title description agentId now = .ok db' → T db db'

variable {type : RunEventType}

section
variable {T : Db → Db → Prop} {ids : WorkflowIds} {edges : List WorkflowEdge} {now : Time}
  {s s' : Sched} {node : WorkflowNodeExecution} {definition : WorkflowNode}

theorem Recording.recordNode (hT : Recording T) (htype : type.isNodeEvent = true)
    (h : Runs.recordNode s node type now = .ok s') : T s.2 s'.2 := by
  obtain ⟨rows, -, h⟩ := bind_ok h
  cases h
  exact hT.record htype

theorem Recording.blockNode (hT : Recording T) {code message : String}
    (h : Runs.blockNode s node code message now = .ok s') : T s.2 s'.2 := by
  obtain ⟨_, h⟩ := bind_rest h
  exact hT.recordNode rfl h

theorem Recording.reconcileChild (hT : Recording T) {child : Run}
    (h : Runs.reconcileChild s node child now = .ok s') : T s.2 s'.2 := by
  unfold Runs.reconcileChild at h
  split at h
  · obtain ⟨_, h⟩ := bind_rest h
    exact hT.recordNode rfl h
  · obtain ⟨_, h⟩ := bind_rest h
    exact hT.recordNode rfl h
  · obtain ⟨_, h⟩ := bind_rest h
    exact hT.recordNode rfl h
  · cases h; exact hT.refl _

theorem Recording.reconcileChildren (hT : Recording T) : ∀ {nodes : List WorkflowNodeExecution} {s s' : Sched},
    Runs.reconcileChildren now s nodes = .ok s' → T s.2 s'.2
  | [], _, _, h => by cases h; exact hT.refl _
  | _ :: _, _, _, h => by
    unfold Runs.reconcileChildren at h
    split at h
    · exact hT.reconcileChildren h
    · obtain ⟨executionId, -, h⟩ := bind_ok h
      dsimp only at h
      split at h
      · exact hT.reconcileChildren h
      · obtain ⟨s₁, h₁, h⟩ := bind_ok h
        exact hT.trans (hT.reconcileChild h₁) (hT.reconcileChildren h)

theorem Spawning.dispatchNode (hT : Spawning T)
    (h : Runs.dispatchNode ids s node definition now = .ok s') : T s.2 s'.2 := by
  unfold Runs.dispatchNode at h
  split at h
  · cases h; exact hT.refl _
  · split at h
    · cases h
    · exact hT.blockNode h
    · obtain ⟨db, hchild, h⟩ := bind_ok h
      obtain ⟨_, _, h⟩ := bind_rest₂ h
      exact hT.trans (hT.child hchild) (hT.recordNode (s := (s.1, db)) rfl h)

theorem Spawning.scheduleNode (hT : Spawning T) {changed : Bool}
    (h : Runs.scheduleNode ids edges now s definition = .ok (changed, s')) : T s.2 s'.2 := by
  unfold Runs.scheduleNode at h
  split at h
  · cases h; exact hT.refl _
  · split at h
    · cases h; exact hT.refl _
    · dsimp only at h
      split at h
      · obtain ⟨_, hb, h⟩ := bind_ok h
        cases h
        exact hT.blockNode hb
      · split at h
        · obtain ⟨_, hd, h⟩ := bind_ok h
          cases h
          exact hT.dispatchNode hd
        · cases h; exact hT.refl _

theorem Spawning.schedulePass (hT : Spawning T) :
    ∀ {definitions : List WorkflowNode} {before changed : Bool} {s s' : Sched},
      Runs.schedulePass ids edges now before s definitions = .ok (changed, s') → T s.2 s'.2
  | [], _, _, _, _, h => by cases h; exact hT.refl _
  | _ :: _, _, _, _, _, h => by
    obtain ⟨⟨_, _⟩, h₁, h⟩ := bind_ok h
    exact hT.trans (hT.scheduleNode h₁) (hT.schedulePass h)

theorem Spawning.scheduleLoop (hT : Spawning T) {revision : WorkflowRevision} :
    ∀ {fuel : Nat} {s s' : Sched}, Runs.scheduleLoop ids revision now fuel s = .ok s' → T s.2 s'.2
  | 0, _, _, h => by cases h; exact hT.refl _
  | _ + 1, _, _, h => by
    obtain ⟨⟨_, _⟩, h₁, h⟩ := bind_ok h
    have hpass := hT.schedulePass h₁
    dsimp only at h
    split at h
    · exact hT.trans hpass (hT.scheduleLoop h)
    · cases h; exact hpass

theorem Spawning.dispatchRoots (hT : Spawning T) : ∀ {definitions : List WorkflowNode} {s s' : Sched},
    Runs.dispatchRoots ids edges now s definitions = .ok s' → T s.2 s'.2
  | [], _, _, h => by cases h; exact hT.refl _
  | _ :: _, _, _, h => by
    unfold Runs.dispatchRoots at h
    split at h
    · obtain ⟨_, h₁, h⟩ := bind_ok h
      exact hT.trans (hT.dispatchNode h₁) (hT.dispatchRoots h)
    · exact hT.dispatchRoots h

end

/-- Recording nodes leaves `Core` as it is. -/
theorem recording_core : Recording fun db db' => db'.toCore = db.toCore where
  refl _ := rfl
  trans h h' := h'.trans h
  record {db rows node type now} _ := by
    obtain ⟨_, h⟩ := emitNodeEvent_frame { db with workflowNodeExecutions := rows } node type now
    rw [h]

theorem spawning_core : Spawning fun db db' => Spawns db.toCore db'.toCore where
  refl _ := .refl
  trans := .trans
  record htype := by rw [recording_core.record htype]
  child h := by
    obtain ⟨hfresh, hcore⟩ := startChild_core h
    rw [hcore]
    exact .tail (.single .bind) (.create hfresh rfl rfl)

theorem emitWorkflowEvent_entries (db : Db) (x : WorkflowExecution) (payload : JsonValue)
    (now : Time) (hsilent : type.isLifecycle = false) :
    Entries R F A db.journal (emitWorkflowEvent db x type payload now).journal := by
  unfold emitWorkflowEvent
  split
  · exact .refl
  · dsimp only
    split
    · exact .refl
    · exact .single (.note (by rw [marks_cons, if_neg (by rw [hsilent]; exact Bool.false_ne_true)]; rfl))

theorem spawning_entries : Spawning fun db db' => Entries R F A db.journal db'.journal where
  refl _ := .refl
  trans := .trans
  record {db rows node type now} htype := by
    have hsilent : type.isLifecycle = false := by cases type <;> first | rfl | cases htype
    unfold emitNodeEvent
    split
    · exact .refl
    · exact emitWorkflowEvent_entries { db with workflowNodeExecutions := rows } _ _ now hsilent
  child := startChild_entries

/-! ## The end of an execution -/

/-- An ended execution is the one that ran. -/
structure EndOf (x x' : WorkflowExecution) : Prop where
  id : x'.id = x.id
  owner : x'.rootRunId = x.rootRunId
  ended : x'.status ≠ .running

/-- How `_finish_if_terminal` can leave the tables when it ends the execution: with its waiting
root, or alone when the root does not wait. -/
def Ended (c c' : Core) (x : WorkflowExecution) (remover : WorkItems → Result WorkItems) : Prop :=
  ∃ x', EndOf x x' ∧
    (((∀ r, c.runs.get? x.rootRunId = some r → r.status ≠ .waitingForWorkflow) ∧
        c' = { c with workflowExecutions := c.workflowExecutions.put x' }) ∨
      ∃ r r' items, c.runs.get? x.rootRunId = some r ∧ r.status = .waitingForWorkflow ∧
        r.workflowExecutionId = some x.id ∧ SameAttempt r r' ∧ r'.status.isTerminal = true ∧
        remover c.workQueue = .ok items ∧
        c' = { c with workflowExecutions := c.workflowExecutions.put x', runs := c.runs.put r', workQueue := items })

/-- The status and failure code the nodes of an execution give it. -/
def verdict (nodes : List WorkflowNodeExecution) : WorkflowExecutionStatus × Option String :=
  if nodes.all (·.status = .succeeded) then (.succeeded, none)
  else match nodes.find? (·.status = .failed) with
    | some failed => (.failed, some (textOr failed.failureCode "workflow_node_failed"))
    | none =>
      if nodes.any (·.status = .cancelled) then (.cancelled, none) else (.failed, some (blockedReason nodes).1)

theorem verdict_ne_running (nodes : List WorkflowNodeExecution) : (verdict nodes).1 ≠ .running := by
  unfold verdict
  split
  · nofun
  · split
    · nofun
    · split <;> nofun

/-- The execution after `_finish_if_terminal`. -/
inductive Concludes (x : WorkflowExecution) (nodes : List WorkflowNodeExecution) :
    WorkflowExecution → Prop where
  | open (live : ∃ n ∈ nodes, n.status.isTerminal = false) : Concludes x nodes x
  | ended {x' : WorkflowExecution} (terminal : ∀ n ∈ nodes, n.status.isTerminal = true)
      (same : x.SameButEnd x') (status : x'.status = (verdict nodes).1) (code : x'.failureCode = (verdict nodes).2) : Concludes x nodes x'

/-- Only the core tables and the events differ. -/
def SameButCore (db db' : Db) : Prop := db' = { db with toCore := db'.toCore, events := db'.events }

theorem SameButCore.trans {a b c : Db} (h : SameButCore a b) (h' : SameButCore b c) :
    SameButCore a c := by
  unfold SameButCore at *
  rw [h', h]

/-- Attempts may have ended, but there are no others. -/
structure SameButRuns (db db' : Db) : Prop where
  frame : SameButCore db db'
  bindings : db'.taskAgentBindings = db.taskAgentBindings
  attempts : KeepsAttempts db.toCore db'.toCore
  noOthers : ∀ k, (db'.runs.get? k).isSome = true → (db.runs.get? k).isSome = true

theorem SameButRuns.refl (db : Db) : SameButRuns db db := ⟨rfl, rfl, .refl _, fun _ h => h⟩

theorem SameButRuns.trans {db'' : Db} (h : SameButRuns db db') (h' : SameButRuns db' db'') :
    SameButRuns db db'' :=
  ⟨h.frame.trans h'.frame, h'.bindings.trans h.bindings, h.attempts.trans h'.attempts,
    fun k hk => h.noOthers k (h'.noOthers k hk)⟩

/-- An attempt that is there is written again. -/
theorem SameButRuns.save {items : WorkItems} (hr : db.runs.get? r.id = some r)
    (same : SameAttempt r r') : SameButRuns db { saveRun db r' with workQueue := items } := by
  refine ⟨rfl, rfl, KeepsAttempts.save hr same, fun k hk => ?_⟩
  have hk' : ((db.runs.put r').get? k).isSome = true := hk
  rw [get?_put] at hk'
  split at hk'
  · next hid =>
    rw [← hid, show key r' = r.id from same.id, hr]
    rfl
  · exact hk'

/-- What `_finish_if_terminal` writes. -/
def Finished (x : WorkflowExecution) (nodes : List WorkflowNodeExecution) (db db' : Db) : Prop :=
  ∃ x', Concludes x nodes x' ∧ db'.workflowExecutions = db.workflowExecutions.put x' ∧
    SameButRuns db db'

/-- A way to end the execution as `verdict` says: the transition of its row, its event, and what its
root does. -/
structure Ends (x e : WorkflowExecution) (verdict : WorkflowExecutionStatus × Option String)
    (type : RunEventType) (finish : Run → Result Run) : Prop where
  same : x.SameButEnd e
  status : e.status = verdict.1
  code : e.failureCode = verdict.2
  silent : type.isLifecycle = false
  root : ∀ r r', finish r = .ok r' → SameAttempt r r' ∧ r'.status.isTerminal = true

theorem failExecution_eq_ok {root : Option Run} {code message : String}
    (h : failExecution db x root code message remover now = .ok (ended, db')) :
      ∃ e type payload finish, Ends x e (.failed, some code) type finish ∧
        endExecution db e type payload root finish remover now = .ok (ended, db') := by
  obtain ⟨e, he, h⟩ := bind_ok h
  obtain ⟨-, -, -, rfl⟩ := WorkflowExecution.fail_eq_ok.1 he
  refine ⟨_, _, _, _, ?_, h⟩
  refine ⟨rfl, rfl, rfl, rfl, fun r r' hr => ?_⟩
  obtain ⟨_, hr⟩ := bind_rest hr
  obtain ⟨-, hr⟩ := Run.failWorkflow_eq_ok.1 hr
  obtain ⟨-, -, rfl⟩ := Run.fail_eq_ok.1 hr
  exact ⟨⟨rfl, rfl, rfl, rfl⟩, rfl⟩

theorem finish_eq_ok {root : Option Run} (h : finish cfg db x root nodes remover now = .ok (ended, db')) :
    ∃ e type payload finish, Ends x e (verdict nodes) type finish ∧
      endExecution db e type payload root finish remover now = .ok (ended, db') := by
  unfold finish at h
  split at h
  · next hall =>
    obtain ⟨⟨_, _⟩, -, h⟩ := bind_ok h
    obtain ⟨e, he, h⟩ := bind_ok h
    obtain ⟨-, -, rfl⟩ := WorkflowExecution.succeed_eq_ok.1 he
    rw [verdict, if_pos hall]
    refine ⟨_, _, _, _, ?_, h⟩
    refine ⟨rfl, rfl, rfl, rfl, fun r r' hr => ?_⟩
    obtain ⟨-, hr⟩ := Run.succeedWorkflow_eq_ok.1 hr
    obtain ⟨-, -, rfl⟩ := Run.succeed_eq_ok.1 hr
    exact ⟨⟨rfl, rfl, rfl, rfl⟩, rfl⟩
  · next hall =>
    split at h
    · next failed hfind =>
      rw [verdict, if_neg hall, hfind]
      exact failExecution_eq_ok h
    · next hfind =>
      split at h
      · next hcancelled =>
        obtain ⟨e, he, h⟩ := bind_ok h
        obtain ⟨-, -, -, rfl⟩ := WorkflowExecution.cancel_eq_ok.1 he
        simp only [verdict, if_neg hall, hfind, if_pos hcancelled]
        refine ⟨_, _, _, _, ?_, h⟩
        refine ⟨rfl, rfl, rfl, rfl, fun r r' hr => ?_⟩
        obtain ⟨-, hr⟩ := Run.cancelWorkflow_eq_ok.1 hr
        obtain ⟨-, -, rfl⟩ := Run.cancel_eq_ok.1 hr
        exact ⟨⟨rfl, rfl, rfl, rfl⟩, rfl⟩
      · next hcancelled =>
        simp only [verdict, if_neg hall, hfind, if_neg hcancelled]
        exact failExecution_eq_ok h

/-- The root ends with its workflow; only the workflow's own event tells it. -/
theorem endExecution_ended {payload : JsonValue} {finish : Run → Result Run}
    (hx : db.workflowExecutions.get? x.id = some x) (hrunning : x.status = .running)
    (hends : Ends x e (verdict nodes) type finish)
    (hmarker : (db.runs.get? x.rootRunId).all (fun r => r.status ≠ .waitingForWorkflow || r.workflowExecutionId = some x.id))
    (h : endExecution db e type payload (db.runs.get? x.rootRunId) finish remover now = .ok (ended, db')) :
    (ended.status ≠ .running ∧ Ended db.toCore db'.toCore x remover ∧
      (R x.rootRunId → Entries R F A db.journal db'.journal)) ∧
      db'.workflowExecutions = db.workflowExecutions.put e ∧ SameButRuns db db' := by
  obtain ⟨rows, hrows, db₁, hroot, h⟩ := bind_ok₂ h
  cases h
  rw [WorkflowExecutions.updateStatus_eq hx hrunning hends.same] at hrows
  cases hrows
  have hemit : Entries R F A db.journal _ :=
    emitWorkflowEvent_entries { db with workflowExecutions := db.workflowExecutions.put e } e payload now hends.silent
  obtain ⟨events, hframe⟩ :=
    emitWorkflowEvent_frame { db with workflowExecutions := db.workflowExecutions.put e } e type payload now
  rw [hframe] at hemit hroot
  have hended : e.status ≠ .running := by rw [hends.status]; exact verdict_ne_running nodes
  have hend : EndOf x e := ⟨hends.same.id, by rw [hends.same], hended⟩
  have hkept : SameButRuns db { db with workflowExecutions := db.workflowExecutions.put e, events := events } :=
    ⟨rfl, rfl, .refl _, fun _ h => h⟩
  unfold endRoot at hroot
  split at hroot
  · next hnone =>
    cases hroot
    refine ⟨⟨hended, ⟨e, hend, .inl ⟨fun r hr => ?_, rfl⟩⟩, fun _ => hemit⟩, rfl, hkept⟩
    rw [hnone] at hr
    cases hr
  · next r hr =>
    split at hroot
    · next hw =>
      obtain ⟨r', hr', items, hitems, hroot⟩ := bind_ok₂ hroot
      cases hroot
      obtain ⟨hattempt, hterminal⟩ := hends.root r r' hr'
      have hmark : r.workflowExecutionId = some x.id := by simpa [hr, hw] using hmarker
      have hid : r.id = x.rootRunId := key_of_get? hr
      have hstored : db.runs.get? r.id = some r := by rw [hid]; exact hr
      refine ⟨⟨hended, ⟨e, hend, .inr ⟨r, r', items, hr, hw, hmark, hattempt, hterminal, hitems, rfl⟩⟩, fun howner =>
        hemit.tail ?_⟩, rfl, hkept.trans (.save hstored hattempt)⟩
      exact .root hstored hattempt (by rw [hid]; exact howner) (by rw [hw]; rfl)
    · next hw =>
      cases hroot
      refine ⟨⟨hended, ⟨e, hend, .inl ⟨fun y hy => ?_, rfl⟩⟩, fun _ => hemit⟩, rfl, hkept⟩
      rw [hr] at hy
      cases hy
      exact hw

/-- `_finish_if_terminal` concludes from the nodes and writes the conclusion. -/
theorem finishIfTerminal_ended (hx : db.workflowExecutions.get? x.id = some x) (hrunning : x.status = .running)
    (h : finishIfTerminal cfg db x nodes remover now = .ok (ended, db')) :
    ((ended = x ∧ db' = db) ∨ (ended.status ≠ .running ∧ Ended db.toCore db'.toCore x remover ∧
      (R x.rootRunId → Entries R F A db.journal db'.journal))) ∧ (nodes ≠ [] → Finished x nodes db db') := by
  unfold finishIfTerminal at h
  split at h
  · next hopen =>
    cases h
    refine ⟨.inl ⟨rfl, rfl⟩, fun hnodes => ?_⟩
    have hlive : ∃ n ∈ nodes, n.status.isTerminal = false := by
      have := hopen.resolve_left (by simpa using hnodes)
      simpa using this
    exact ⟨x, .open hlive, (put_of_mem (mem_of_get? hx)).symm, .refl db⟩
  · next hclosed =>
    have hterminal : ∀ n ∈ nodes, n.status.isTerminal = true := by
      simpa using (not_or.1 hclosed).2
    obtain ⟨_, hm, h⟩ := bind_ok h
    obtain ⟨e, type, payload, finish, hends, h⟩ := finish_eq_ok h
    obtain ⟨hwrites, hrows, hkept⟩ := endExecution_ended hx hrunning hends (require_eq_ok.1 hm) h
    exact ⟨.inr hwrites, fun _ => ⟨e, .ended hterminal hends.same hends.status hends.code, hrows, hkept⟩⟩

/-! ## The use cases -/

/-- A workflow execution names the run as its root. -/
def Core.Roots (c : Core) (k : RunId) : Prop := ∃ x ∈ c.workflowExecutions.rows, x.rootRunId = k

theorem Ended.moves
    (hx : c.workflowExecutions.get? x.id = some x)
    (hremover : ∀ items, remover c.workQueue = .ok items → items = remove c.workQueue x.rootRunId)
    (h : Ended c c' x remover) : Moves g c c' := by
  obtain ⟨x', hx', ⟨hidle, rfl⟩ | ⟨r, r', items, hr, hw, hmark, hsame, hterminal, hitems, rfl⟩⟩ := h
  · exact .single (.endWorkflow hx hx'.id hx'.owner hx'.ended hidle)
  · have hid : r.id = x.rootRunId := key_of_get? hr
    rw [hremover items hitems, ← hid]
    exact .single (.finishWorkflow hx hx'.id hx'.owner hx'.ended (by rw [hid]; exact hr) hid.symm hw
      hmark hsame hterminal)

/-- What every move keeps, every sequence of moves keeps. -/
theorem Moves.keep {P : Core → Prop} (hm : Moves g c c') (h : P c)
    (step : ∀ {x y}, P x → Move g x y → P y) : P c' := by
  induction hm with
  | refl => exact h
  | tail _ hstep ih => exact step ih hstep

theorem Move.roots (hk : c.Roots k) (h : Move g c c') : c'.Roots k := by
  -- an execution that ends keeps its id and its root
  have hput : ∀ {x x' : WorkflowExecution}, c.workflowExecutions.get? x.id = some x → x'.id = x.id →
      x'.rootRunId = x.rootRunId → ∃ y ∈ (c.workflowExecutions.put x').rows, y.rootRunId = k := by
    intro x x' hx hid hroot
    obtain ⟨y, hy, hyk⟩ := hk
    by_cases he : y.id = x'.id
    · have hyx : y = x := by
        have hget := get?_of_mem hy
        rw [show key y = x.id from he.trans hid, hx] at hget
        exact (Option.some.inj hget).symm
      exact ⟨x', mem_put.2 (.inl rfl), by rw [hroot, ← hyx]; exact hyk⟩
    · exact ⟨y, mem_put.2 (.inr ⟨hy, he⟩), hyk⟩
  cases h with
  | startWorkflow hr running fresh =>
    obtain ⟨y, hy, hyk⟩ := hk
    exact ⟨y, (mem_put_fresh fresh).2 (.inr hy), hyk⟩
  | endWorkflow hx hid howner | finishWorkflow hx hid howner => exact hput hx hid howner
  | finish | cancel =>
    rw [Core.Roots, Core.settle_executions]
    exact hk
  | _ => exact hk

theorem Moves.roots (hk : c.Roots k) (h : Moves g c c') : c'.Roots k :=
  h.keep hk fun hk hstep => hstep.roots hk

theorem advance_writes {revision : WorkflowRevision} {nodes' : List WorkflowNodeExecution}
    (hx : db.workflowExecutions.get? x.id = some x) (hrunning : x.status = .running)
    (h : advance cfg db x revision nodes ids now = .ok (nodes', db')) :
    Moves g db.toCore db'.toCore ∧ (R x.rootRunId → Entries R F A db.journal db'.journal) := by
  obtain ⟨s₁, h₁, s₂, h₂, h⟩ := bind_ok₂ h
  obtain ⟨⟨ended, db₃⟩, h₃, h⟩ := bind_ok h
  cases h
  have hspawns : Spawns s₁.2.toCore s₂.2.toCore := spawning_core.scheduleLoop h₂
  rw [recording_core.reconcileChildren h₁] at hspawns
  have hreports : Entries R F A db.journal s₁.2.journal := spawning_entries.reconcileChildren h₁
  have hscheduled : Entries R F A s₁.2.journal s₂.2.journal := spawning_entries.scheduleLoop h₂
  have hx₂ : s₂.2.workflowExecutions.get? x.id = some x := by
    rw [hspawns.executions]
    exact hx
  rcases (finishIfTerminal_ended (R := R) (F := F) (A := A) hx₂ hrunning h₃).1 with ⟨-, rfl⟩ | ⟨-,
    hended, hentries⟩
  · exact ⟨hspawns.moves, fun _ => hreports.trans hscheduled⟩
  · exact ⟨hspawns.moves.trans (hended.moves hx₂ fun items hitems => by cases hitems; rfl), fun howner =>
      (hreports.trans hscheduled).trans (hentries howner)⟩

theorem reconcileWorkflowExecution_writes {executionId : WorkflowExecutionId} (hS : ¬S)
    (h : reconcileWorkflowExecution cfg db executionId ids now = .ok (nodes, db')) :
    Writes g db'.Roots F A S db db' := by
  obtain ⟨x, hx, h⟩ := bind_ok h
  obtain ⟨_, h⟩ := bind_rest h
  obtain ⟨⟨_, revision⟩, -, h⟩ := bind_ok h
  obtain ⟨_, _, h⟩ := bind_rest₂ h
  split at h
  · next hrunning =>
    obtain ⟨hget, -⟩ := row_of_get? (found_eq_ok.1 hx)
    have hroot : db.Roots x.rootRunId := ⟨x, mem_of_get? hget, rfl⟩
    obtain ⟨hmoves, hentries⟩ := advance_writes hget hrunning h
    exact ⟨hmoves, hentries (Moves.roots hroot hmoves), fun hs => absurd hs hS⟩
  · cases h; exact .refl db

theorem createExecution_eq {resolution : RunWorkflowResolution} (h : createExecution db resolution x nodes now = .ok db') :
    db.workflowExecutions.get? x.id = none ∧ Entries R F A db.journal db'.journal ∧
      ∃ rows events, createNodes db.workflowNodeExecutions nodes = .ok rows ∧ db' = { db with
        workflowExecutions := db.workflowExecutions.put x, workflowNodeExecutions := rows, events :=
  events,
        runWorkflowResolutions :=
  (db.runWorkflowResolutions.insert? resolution).getD db.runWorkflowResolutions } := by
  obtain ⟨executions, hinsert, rows, hrows, h⟩ := bind_ok₂ h
  obtain ⟨hfresh, rfl⟩ := insert?_eq_some.1 (found_eq_ok.1 hinsert)
  cases h
  let mid : Db := { db with
    runWorkflowResolutions := (db.runWorkflowResolutions.insert? resolution).getD db.runWorkflowResolutions,
    workflowExecutions := db.workflowExecutions.put x }
  let payload := textPayload [("workflow_execution_id", Uuid.text x.id)]
  obtain ⟨events, hemit⟩ := emitWorkflowEvent_frame mid x .workflowExecutionStarted payload now
  have hentries : Entries R F A mid.journal (emitWorkflowEvent mid x .workflowExecutionStarted payload now).journal :=
    emitWorkflowEvent_entries mid x payload now rfl
  rw [hemit] at hrows hentries ⊢
  exact ⟨hfresh, hentries, rows, events, hrows, rfl⟩

/-- After the children: the root is parked, and ends again if nothing is left to do. -/
theorem parkRoot_writes {s : Sched} (hx : s.2.workflowExecutions.get? x.id = some x)
    (hrunning : x.status = .running) (howner : x.rootRunId = root.id) (hroot : s.2.runs.get? root.id = some root)
    (h : parkRoot cfg s root x claim now = .ok (ended, db')) :
    ∃ waiting, root.waitForWorkflow x.id = .ok waiting ∧
      Moves g ((s.2.toCore.withRun waiting).dropItem root.id) db'.toCore ∧
      (R root.id → Entries R F A s.2.journal db'.journal) ∧ (s.1 ≠ [] → Finished x s.1 s.2 db') := by
  obtain ⟨waiting, hwait, h⟩ := bind_ok h
  obtain ⟨⟨ended₁, db₁⟩, hfin, hrest⟩ := bind_ok h
  refine ⟨waiting, hwait, ?_⟩
  have hremover : ∀ items, removeRootClaim root.id claim now s.2.workQueue = .ok items →
      items = remove s.2.workQueue root.id := fun items hitems => (removeClaimed_eq_ok hitems).2
  have hx' : (saveRun s.2 waiting).workflowExecutions.get? x.id = some x := hx
  obtain ⟨hlive, -, -, hw⟩ := Run.waitForWorkflow_eq_ok.1 hwait
  have hsame : SameAttempt root waiting := by rw [hw]; exact ⟨rfl, rfl, rfl, rfl⟩
  have hstatus : waiting.status = .waitingForWorkflow := by rw [hw]
  have hpark : R root.id → Entry R F A s.2.journal (saveRun s.2 waiting).journal := fun hR =>
    .root hroot hsame hR (by rw [hlive]; rfl)
  obtain ⟨⟨rfl, rfl⟩ | ⟨hdone, hended, hentries⟩, hfinished⟩ :=
    finishIfTerminal_ended (R := R) (F := F) (A := A) hx' hrunning hfin
  · simp only [hrunning, if_true] at hrest
    obtain ⟨items, hitems, hrest⟩ := bind_ok hrest
    cases hrest
    rw [hremover items hitems]
    refine ⟨.refl, fun hR => .single (hpark hR), fun hnodes => ?_⟩
    obtain ⟨x', hconcludes, hrows, -⟩ := hfinished hnodes
    exact ⟨x', hconcludes, hrows, .save hroot hsame⟩
  · simp only [hdone, if_false] at hrest
    cases hrest
    refine ⟨?_, fun hR => .head (hpark hR) (hentries (by rw [howner]; exact hR)), fun hnodes => ?_⟩
    case refine_2 =>
      obtain ⟨x', hconcludes, hrows, hkept⟩ := hfinished hnodes
      exact ⟨x', hconcludes, hrows, SameButRuns.trans (.save hroot hsame) hkept⟩
    obtain ⟨x', hx', ⟨hidle, -⟩ | ⟨r, r', items, hr, hw, hmark, hsame', hterminal, hitems, hcore⟩⟩ := hended
    · -- the root was just saved as waiting
      refine absurd hstatus (hidle waiting ?_)
      rw [howner, ← hsame.id]
      exact get?_put_self _ _
    · have hqueue : remove (remove s.2.workQueue root.id) root.id = remove s.2.workQueue root.id :=
        erase_erase _ _
      have hparked : Ended ((s.2.toCore.withRun waiting).dropItem root.id) db'.toCore x
          fun items => .ok (remove items root.id) := by
        refine ⟨x', hx', .inr ⟨r, r', _, hr, hw, hmark, hsame', hterminal, rfl, ?_⟩⟩
        rw [hcore, hremover items hitems, ← hqueue]
        rfl
      exact hparked.moves hx fun items hitems => by cases hitems; rw [howner]

/-- The execution exists from the first move on. -/
theorem bootstrap_starts (hroot : db.runs.get? root.id = some root)
    (h : bootstrap cfg db root workflowId claim ids now = .ok (ended, db')) :
    (∃ c, Move g db.toCore c ∧ c.Roots root.id ∧ Moves g c db'.toCore) ∧
      (R root.id → Entries R F A db.journal db'.journal) := by
  obtain ⟨_, h⟩ := bind_rest h
  obtain ⟨_, hrunning, h⟩ := bind_ok h
  obtain ⟨_, h⟩ := bind_rest h
  obtain ⟨_, hfree, resolution, -, h⟩ := bind_ok₂ h
  obtain ⟨⟨_, revision⟩, -, h⟩ := bind_ok h
  obtain ⟨parts, -, db₁, hcreate, h⟩ := bind_ok₂ h
  obtain ⟨s₁, h₁, h⟩ := bind_ok h
  obtain ⟨s₂, h₂, hrest⟩ := bind_ok h
  obtain ⟨hfresh, hcreated, rows, events, -, rfl⟩ := createExecution_eq hcreate
  have hspawns : Spawns { db.toCore with
      workflowExecutions := db.workflowExecutions.put (newExecution ids resolution root.id now) } s₂.2.toCore :=
    (spawning_core.dispatchRoots h₁).trans (spawning_core.scheduleLoop h₂)
  have hx : s₂.2.workflowExecutions.get? ids.executionId = some (newExecution ids resolution root.id now) := by
    rw [hspawns.executions]
    exact get?_put_self _ _
  obtain ⟨waiting, hwait, hpark, hparked, -⟩ :=
    parkRoot_writes (g := g) (R := R) (F := F) (A := A) hx rfl rfl (hspawns.run hroot) hrest
  obtain ⟨-, -, -, hw⟩ := Run.waitForWorkflow_eq_ok.1 hwait
  have hsame : SameAttempt root waiting := by rw [hw]; exact ⟨rfl, rfl, rfl, rfl⟩
  have hstart : Move g db.toCore (({ db.toCore with
      workflowExecutions := db.workflowExecutions.put (newExecution ids resolution root.id now) }.withRun
        waiting).dropItem root.id) :=
    .startWorkflow hroot (of_require hrunning) hfresh rfl rfl
      (Option.isNone_iff_eq_none.1 (require_eq_ok.1 hfree)) hsame (by rw [hw]) (by rw [hw])
  refine ⟨⟨_, hstart, ⟨_, mem_of_get? (get?_put_self _ _), rfl⟩,
    (hspawns.park hroot hsame.id).moves.trans hpark⟩, fun hR => ?_⟩
  have hroots : Entries R F A _ s₁.2.journal := spawning_entries.dispatchRoots h₁
  have hloop : Entries R F A s₁.2.journal s₂.2.journal := spawning_entries.scheduleLoop h₂
  exact hcreated.trans (hroots.trans (hloop.trans (hparked hR)))

theorem startWorkflowExecution_writes {rootRunId : RunId} (hS : ¬S)
    (h : startWorkflowExecution cfg db rootRunId workflowId claim ids now = .ok (x, db')) :
    Writes g db'.Roots F A S db db' := by
  obtain ⟨root, hroot, h⟩ := bind_ok h
  split at h
  · obtain ⟨⟨c, hstart, hstarted, hrest⟩, hentries⟩ := bootstrap_starts (getRun_eq_ok hroot).1 h
    exact ⟨.head hstart hrest, hentries (Moves.roots hstarted hrest), fun hs => absurd hs hS⟩
  · obtain ⟨_, h⟩ := bind_rest h
    cases h; exact .refl db
  · cases h

/-! ## All use cases -/

/-- The side conditions of the guarded moves, as conditions on the state and the action. -/
def Allowed (g : Guard) (db : Db) : RunAction → Prop
  | .cancelRun runId _ => ∀ run x, db.runs.get? runId = some run → run.status.isTerminal = true →
    run.status ≠ .cancelled → db.runs.getLatestForExecution run.executionId = some x →
    x.status.isTerminal = false → g.latest db.toCore x
  | .cancelTask taskId _ => (∀ task, db.tasks.get? taskId = some task → task.status ≠ .cancelled) →
    ∀ r, db.runs.get? r.id = some r → r.taskId = taskId → r.status.isTerminal = false →
    g.viaTask db.toCore r
  | .createDelegationRequest .. | .dispatchDelegation .. => g.request
  | .subjectApproval approval => g.subject db.toCore approval
  | _ => True

/-- The use cases that create a further attempt of an execution. -/
def RunAction.retries : RunAction → Bool
  | .retryFailedRun .. | .applyFailedOutcome .. => true
  | _ => false

/-- What is not spelled out keeps the tasks and appends events about other things. -/
structure Elsewhere (db other : Db) : Prop where
  tasks : other.tasks = db.tasks
  events : ∃ batches : List (RunId × Time × List EventSpec), (∀ b ∈ batches, marks b.2.2 = []) ∧
    other.events = batches.foldl (fun events b => appendEvents events b.1 b.2.1 b.2.2) db.events

/-- The guard of the system in which the event streams are what the use cases write. -/
def tellsElsewhere (db : Db) : RunAction → Prop
  | .elsewhere other => Elsewhere db other
  | _ => True

theorem appendBatches_entries : ∀ {batches : List (RunId × Time × List EventSpec)} {j : Journal},
    (∀ b ∈ batches, marks b.2.2 = []) →
      Entries R F A j { j with events := batches.foldl (fun events b => appendEvents events b.1 b.2.1 b.2.2) j.events }
  | [], _, _ => .refl
  | b :: _, j, h => .head (.note (h b List.mem_cons_self))
      (appendBatches_entries (j := j.append b.1 b.2.1 b.2.2) fun x hx => h x (List.mem_cons_of_mem _ hx))

/-- The four resolutions of an approval. -/
def RunAction.resolves : RunAction → Bool
  | .approveRequest .. | .rejectRequest .. | .cancelApproval .. | .expireApproval .. => true
  | _ => false

/-- The use cases that write no workflow and no binding. -/
def RunAction.isCalm : RunAction → Bool
  | .dispatchDelegation .. | .replaceTaskAgent .. | .startWorkflowExecution .. | .reconcileWorkflowExecution ..
  | .elsewhere _ => false
  | _ => true

theorem allowed_free (db : Db) (a : RunAction) : Allowed .free db a := by
  unfold Allowed
  split <;> simp [Guard.free]

variable {a : RunAction}

/-- **Every committed use case is a sequence of moves and of entries.** -/
theorem act_writes (hallowed : Allowed g db a) (hclock : a.retries = true → NewAttempts g db db')
    (htells : tellsElsewhere db a)
    (hfail : ∀ taskId failure now, a = .failTask taskId failure now →
      F ∨ ∀ r ∈ db.runs.rows, r.taskId = taskId → r.status.isTerminal = true)
    (hresolves : a.resolves = true → A) (h : act cfg db a = .ok db') :
    Writes g db'.Roots F A (a.isCalm = true) db db' := by
  cases a with
  | createTask id title description now => exact of_map_snd h createTask_writes
  | startRun taskId runId now => exact startRun_writes h
  | startQueuedRun runId now => exact of_map_snd h startQueuedRun_writes
  | completeRun runId now => exact of_map_snd h completeRun_writes
  | failRun runId failure now => exact of_map_snd h failRun_writes
  | cancelRun runId now => exact of_map_snd h (cancelRun_writes hallowed)
  | retryFailedRun runId ids now => exact retryFailedRun_writes (hclock rfl) h
  | cancelTask taskId now => exact of_map_snd h (cancelTask_writes hallowed)
  | completeTask taskId now => exact of_map_snd h completeTask_writes
  | failTask taskId failure now => exact of_map_snd h (failTask_writes (hfail _ _ _ rfl))
  | requestApproval command id now =>
    exact of_map_snd h (parkForApproval_writes fun _ hitems => by cases hitems; rfl)
  | requestToolApproval command id claim now => exact of_map_snd h requestToolApproval_writes
  | approveRequest id resolver note now | rejectRequest id resolver note now | cancelApproval id note now =>
    obtain ⟨_, h⟩ := map_snd_eq_ok.1 h
    obtain ⟨_, ha, h⟩ := bind_ok h
    exact resolveApproval_writes (hresolves rfl) (getApproval_eq_ok ha) h
  | expireApproval id now =>
    obtain ⟨_, h⟩ := map_snd_eq_ok.1 h
    obtain ⟨_, ha, h⟩ := bind_ok h
    obtain ⟨_, h⟩ := bind_rest h
    exact resolveApproval_writes (hresolves rfl) (getApproval_eq_ok ha) h
  | createDelegationRequest intent target id now =>
    exact of_map_snd h (createDelegationRequest_writes hallowed)
  | dispatchDelegation intent targetKey ids claim now =>
    exact of_map_snd h (dispatchDelegation_writes Bool.false_ne_true hallowed)
  | replaceTaskAgent taskId agentId now =>
    exact of_map_snd h (replaceTaskAgent_writes Bool.false_ne_true)
  | claimNextRun request now => exact of_map_snd h claimFirst_writes
  | renewRunLease runId claim leaseDuration now
  | releaseRunClaim runId claim now
  | requeueClaimedRun runId claim availableAt now =>
    rw [(fenced_eq_ok h).2]
    exact ⟨.single (queue_update fun _ => rfl), .refl, fun _ => rfl⟩
  | recoverExpiredLeases batchSize now =>
    cases h
    exact ⟨recoverItems_moves _ db, .of_eq (recoverItems_journal _ db), fun _ => recoverItems_fixed _ db⟩
  | applyFailedOutcome runId claim failure ids now =>
    exact of_map_snd h fun h => applyFailedOutcome_writes h (hclock rfl)
  | applySucceededOutcome runId claim finalResponse now =>
    exact of_map_snd h applySucceededOutcome_writes
  | applyWaitingOutcome runId claim approvalId now => exact of_map_snd h applyWaitingOutcome_writes
  | applyWaitingForDelegationOutcome runId claim requestId now =>
    exact of_map_snd h applyWaitingForDelegationOutcome_writes
  | startWorkflowExecution rootRunId workflowId claim ids now =>
    exact of_map_snd h (startWorkflowExecution_writes Bool.false_ne_true)
  | reconcileWorkflowExecution executionId ids now =>
    exact of_map_snd h (reconcileWorkflowExecution_writes Bool.false_ne_true)
  | consumeApproval id now =>
    cases h
    exact consumeApproval_writes
  | subjectApproval approval => exact subjectApproval_writes hallowed h
  | elsewhere other =>
    cases h
    obtain ⟨htasks, batches, hsilent, hevents⟩ := htells
    have hj : ({ other with toCore := db.toCore } : Db).journal = { db.journal with
        events := batches.foldl (fun events b => appendEvents events b.1 b.2.1 b.2.2) db.events } := by
      unfold Db.journal
      rw [htasks, hevents]
    refine ⟨.refl, ?_, nofun⟩
    rw [hj]
    exact appendBatches_entries (j := db.journal) hsilent

theorem act_moves_of (hallowed : Allowed g db a)
    (hclock : a.retries = true → NewAttempts g db db') (h : act cfg db a = .ok db') :
    Moves g db.toCore db'.toCore := by
  by_cases htells : tellsElsewhere db a
  · exact (act_writes (F := True) (A := True) hallowed hclock htells (fun _ _ _ _ => .inl trivial) (fun _ => trivial) h).moves
  · cases a with
    | elsewhere other => cases h; exact .refl
    | _ => exact absurd trivial htells

theorem act_moves (hallowed : Allowed g db a)
    (hclock : NewAttempts g db db') (h : act cfg db a = .ok db') : Moves g db.toCore db'.toCore :=
  act_moves_of hallowed (fun _ => hclock) h

theorem act_entries (htells : tellsElsewhere db a)
    (hfail : ∀ taskId failure now, a = .failTask taskId failure now →
      F ∨ ∀ r ∈ db.runs.rows, r.taskId = taskId → r.status.isTerminal = true)
    (hresolves : a.resolves = true → A) (h : act cfg db a = .ok db') :
    Entries db'.Roots F A db.journal db'.journal :=
  (act_writes (allowed_free db a) (fun _ _ _ _ => trivial) htells hfail hresolves h).entries

/-- An invariant of the moves holds in every run that starts without runs and takes allowed
steps. -/
theorem reachable_keep (cfg : Config) {S : System Db RunAction} {P : Core → Prop}
    (hinit : ∀ db, S.init db → db.toCore = .empty)
    (hnext : ∀ db a db', S.next db a db' → Allowed g db a ∧ NewAttempts g db db' ∧ act cfg db a = .ok db')
    (empty : P .empty) (step : ∀ {x y}, P x → Move g x y → P y) (h : S.Reachable db) :
    P db.toCore := by
  refine System.Reachable.invariant (fun db => P db.toCore) (fun db h₀ => ?_)
    (fun db a db' _ hP hs => ?_) h
  · rw [hinit db h₀]
    exact empty
  · obtain ⟨hallowed, hclock, hact⟩ := hnext db a db' hs
    exact (act_moves hallowed hclock hact).keep hP step

end Friday.Runs
