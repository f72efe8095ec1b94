import FridayAssistant.Runs.NoOrphanedWorkflow
import FridayAssistant.Runs.WorkflowHistory
/-!
# A reconciliation that is due commits

`ReconcileWorkflowExecution` makes many checks and can raise at each of them. In a reachable state
none of them fails, as long as the clock has not gone back behind what the rows of the execution
record (`Timely`) and the ids drawn for the children are new (`Supplied`): the stored rows pass
their checks, every child's report is accepted, no context is invalid, and the root can end.
-/
namespace Friday.Runs
open Tables Table Queue Relation Transition PyJson
open WorkflowNodeExecution (Same)
open PyText (isBlank)

variable {db : Db} {nodes : List WorkflowNodeExecution}

theorem rootWaits_of_reachable {cfg : Config} (h : (workflowSystem cfg).Reachable db) :
    RootWaits True db.toCore := by
  refine h.invariant (fun db => RootWaits True db.toCore)
    (fun db hinit x hx => ?_) fun db a db' _ hok hnext => ?_
  · rw [hinit.1] at hx
    cases hx
  · have hmoves : Moves .free db.toCore db'.toCore := by
      refine act_moves ?_ (fun _ _ _ => trivial) (workflowSystem_next hnext).1
      cases a <;> simp [Allowed, Guard.free]
    exact hmoves.keep hok fun h => h.move fun _ _ _ _ => trivial

/-! ## Clock and ids -/

/-- The clock is not behind what the rows of the execution record. -/
structure Timely (db : Db) (x : WorkflowExecution) (now : Time) : Prop where
  execution : x.startedAt ≤ now
  created : ∀ n ∈ db.workflowNodeExecutions.listByExecution x.id, n.createdAt ≤ now
  started : ∀ n ∈ db.workflowNodeExecutions.listByExecution x.id, n.startedAt.getD n.createdAt ≤ now
  root : ∀ r, db.runs.get? x.rootRunId = some r → r.startedAt.getD r.createdAt ≤ now

/-- The ids drawn for the children of PENDING nodes are new and distinct. -/
structure Supplied (db : Db) (nodes : List WorkflowNodeExecution) (ids : WorkflowIds) : Prop where
  task : ∀ n ∈ nodes, n.status = .pending → db.tasks.get? (ids.childTask n.workflowNodeId) = none
  run : ∀ n ∈ nodes, n.status = .pending → db.runs.get? (ids.childRun n.workflowNodeId) = none
  tasks : ∀ m ∈ nodes, ∀ n ∈ nodes,
    ids.childTask m.workflowNodeId = ids.childTask n.workflowNodeId →
    m.workflowNodeId = n.workflowNodeId
  runs : ∀ m ∈ nodes, ∀ n ∈ nodes, ids.childRun m.workflowNodeId = ids.childRun n.workflowNodeId →
    m.workflowNodeId = n.workflowNodeId

/-- A node that moves uses up at most its own ids. -/
theorem Supplied.replaced {s s' : Sched} {n n' : WorkflowNodeExecution} {ids : WorkflowIds}
    (h : Supplied s.2 s.1 ids) (hr : Replaced s s' n n')
    (htasks : ∀ k, (s'.2.tasks.get? k).isSome = true → k = ids.childTask n.workflowNodeId ∨ (s.2.tasks.get? k).isSome = true)
    (hruns : ∀ k, (s'.2.runs.get? k).isSome = true → k = ids.childRun n.workflowNodeId ∨ (s.2.runs.get? k).isSome = true) :
    Supplied s'.2 s'.1 ids := by
  have hnode : ∀ m ∈ s'.1, ∃ m₀ ∈ s.1, m₀.workflowNodeId = m.workflowNodeId := fun m hm => by
    rcases hr.mem_iff.1 hm with rfl | ⟨hm, -⟩
    · exact ⟨n, hr.mem, hr.same.workflowNodeId.symm⟩
    · exact ⟨m, hm, rfl⟩
  have hpending : ∀ m ∈ s'.1, m.status = .pending → m ∈ s.1 ∧ m.workflowNodeId ≠ n.workflowNodeId := fun m hm hp =>
    (hr.mem_iff.1 hm).resolve_left fun hmn => hr.moved (hmn ▸ hp)
  refine ⟨fun m hm hp => ?_, fun m hm hp => ?_, fun m hm k hk heq => ?_, fun m hm k hk heq => ?_⟩
  · obtain ⟨hm, hne⟩ := hpending m hm hp
    by_contra hsome
    rcases htasks _ (Option.isSome_iff_ne_none.2 hsome) with heq | hold
    · exact hne (h.tasks m hm n hr.mem heq)
    · rw [h.task m hm hp] at hold
      cases hold
  · obtain ⟨hm, hne⟩ := hpending m hm hp
    by_contra hsome
    rcases hruns _ (Option.isSome_iff_ne_none.2 hsome) with heq | hold
    · exact hne (h.runs m hm n hr.mem heq)
    · rw [h.run m hm hp] at hold
      cases hold
  · obtain ⟨m₀, hm₀, hmid⟩ := hnode m hm
    obtain ⟨k₀, hk₀, hkid⟩ := hnode k hk
    rw [← hmid, ← hkid] at heq ⊢
    exact h.tasks m₀ hm₀ k₀ hk₀ heq
  · obtain ⟨m₀, hm₀, hmid⟩ := hnode m hm
    obtain ⟨k₀, hk₀, hkid⟩ := hnode k hk
    rw [← hmid, ← hkid] at heq ⊢
    exact h.runs m₀ hm₀ k₀ hk₀ heq

/-! ## Scheduling goes through -/

/-- What the scheduler needs, and keeps. -/
structure Goes (cfg : Config) (b : Blueprint) (x : WorkflowExecution) (ids : WorkflowIds)
    (now : Time) (s : Sched) : Prop extends Prepared cfg s.2 b x s.1 where
  row : s.2.workflowExecutions.get? x.id = some x
  tracks : Tracks b x.id s
  created : ∀ n ∈ s.1, n.createdAt ≤ now
  started : ∀ n ∈ s.1, n.startedAt.getD n.createdAt ≤ now
  supplied : Supplied s.2 s.1 ids

theorem predecessorLines_valid (revision : WorkflowRevision) :
    ∀ {ids : List WorkflowNodeId}, (∀ id ∈ ids, ∃ m, nodes.find? (·.workflowNodeId = id) = some m ∧
      m.status = .succeeded ∧ m.resultPayload ≠ .null) →
    ∀ message, predecessorLines revision nodes ids ≠ .error (.invalid message)
  | [], _, _ => nofun
  | id :: ids, h, message => by
    obtain ⟨⟨m, hfind, hstatus, hpayload⟩, hids⟩ := List.forall_mem_cons.1 h
    have hrest := predecessorLines_valid revision hids message
    unfold predecessorLines
    rw [hfind]
    dsimp only
    rw [if_neg (not_not.2 hstatus)]
    split
    · next hnull => exact absurd hnull hpayload
    · split
      · nofun
      · intro h
        cases hlines : predecessorLines revision nodes ids with
        | ok lines => rw [hlines] at h; cases h
        | error e =>
          rw [hlines] at h
          cases h
          exact hrest hlines

section
variable {cfg : Config} {b : Blueprint} {x : WorkflowExecution} {ids : WorkflowIds} {now : Time}
  {s s' : Sched} {n : WorkflowNodeExecution} {reports : Reports}

/-- The context of a ready node is built or too large. -/
theorem Goes.context_valid (h : Goes cfg b x ids now s) (hn : n ∈ s.1)
    (hready : b.Ready s.1 n.workflowNodeId) (message : String) :
    buildWorkflowNodeContext s.2 n ≠ .error (.invalid message) := by
  obtain ⟨w, hload⟩ := h.frozen.loads
  obtain ⟨hw, hr, howner, -⟩ := loadFrozenRevision_eq_ok hload
  obtain ⟨d, hd, hmatches⟩ := Option.any_eq_true _ _ |>.1 (h.fits n hn).definition
  have hexecution := (h.tracks.row hn).2
  have hkey : d.nodeKey = n.nodeKey := by
    simp only [Bool.and_eq_true, decide_eq_true_eq] at hmatches
    exact hmatches.1
  have hparts : contextParts s.2 n = .ok (x, w, b.revision, d) :=
    contextParts_eq_ok.2 ⟨by rw [hexecution]; exact h.row, hr, hw, howner, hd, hkey⟩
  have hbuild := (buildWorkflowNodeContext_eq (by rw [hexecution]; exact h.tracks.blueprint)
    hparts).2
  rw [hbuild, hexecution, ← h.tracks.list]
  have hid : d.id = n.workflowNodeId := by simpa using List.find?_some hd
  have hlines : ∀ p ∈ (b.predecessors d.id).insertionSort fun x y =>
      nodeKeyOf b.revision.nodes x ≤ nodeKeyOf b.revision.nodes y, ∃ m, s.1.find? (·.workflowNodeId = p) = some m ∧
      m.status = .succeeded ∧ m.resultPayload ≠ .null := fun p hp => by
    have hpred := (List.mem_insertionSort _).1 hp
    obtain ⟨m, hm, rfl⟩ := h.tracks.exists_predecessor hpred
    have hsucceeded := hready m hm (hid ▸ hpred)
    exact ⟨m, h.tracks.find? hm, hsucceeded, (h.explained m hm).result hsucceeded⟩
  have hsize : ∀ text : String, (if text.toList.length > maxWorkflowContextChars then
      .error (.tooLarge "the aggregate workflow context exceeds the durable bound") else .ok text) ≠
      (.error (.invalid message) : Except ContextError String) := fun text => by split <;> nofun
  unfold Blueprint.context
  dsimp only
  intro hcontext
  cases hl : predecessorLines b.revision s.1 ((b.predecessors d.id).insertionSort fun x y =>
      nodeKeyOf b.revision.nodes x ≤ nodeKeyOf b.revision.nodes y) with
  | error e =>
    rw [hl] at hcontext
    cases hcontext
    exact predecessorLines_valid b.revision hlines message hl
  | ok lines =>
    rw [hl] at hcontext
    exact hsize _ hcontext

theorem Goes.step (h : Goes cfg b x ids now s) (hstep : SchedStep b now reports s s')
    (hresults : Results reports) (hsupplied : Supplied s'.2 s'.1 ids) :
    Goes cfg b x ids now s' := by
  obtain ⟨m, m', hr⟩ := hstep.replaced
  have hpersists := hr.frame.persists
  have horigin : ∀ n' ∈ s'.1, ∃ n ∈ s.1, Later n n' := fun n' hn' =>
    SchedSteps.origin (.single hstep) hresults h.tracks h.explained hn'
  refine ⟨⟨h.frozen.carry hpersists rfl, hstep.nodesOk hresults h.tracks h.explained, fun n' hn' => ?_⟩,
    by rw [hr.frame.executions]; exact h.row, hr.tracks h.tracks, fun n' hn' => ?_, ?_, hsupplied⟩
  · obtain ⟨n, hn, hlater⟩ := horigin n' hn'
    exact (h.fits n hn).carry hpersists rfl hlater.same
  · obtain ⟨n, hn, hlater⟩ := horigin n' hn'
    rw [hlater.same.createdAt]
    exact h.created n hn
  · -- only a dispatch writes a start, and it is now
    have hmoved : ∀ {n n'}, Replaced s s' n n' → (n'.startedAt = some now ∨ n'.startedAt = n.startedAt) →
        ∀ k ∈ s'.1, k.startedAt.getD k.createdAt ≤ now := fun {n n'} hr hstart k hk => by
      rcases hr.mem_iff.1 hk with rfl | ⟨hk, -⟩
      · rcases hstart with hstart | hstart
        · rw [hstart]
          exact le_refl now
        · rw [hstart, hr.same.createdAt]
          exact h.started n hr.mem
      · exact h.started k hk
    cases hstep with
    | dispatch mem ready fits child move =>
      refine hmoved (.dispatch mem child move) (.inl ?_)
      obtain ⟨-, -, -, rfl⟩ := WorkflowNodeExecution.dispatch_eq_ok.1 move
      rfl
    | block mem why move =>
      refine hmoved (.block mem move) (.inr ?_)
      obtain ⟨-, -, -, rfl⟩ := WorkflowNodeExecution.block_eq_ok.1 move
      rfl
    | @report n n' report mem dispatched reported move =>
      refine hmoved (.report mem dispatched move) (.inr ?_)
      cases report with
      | succeeded payload =>
        obtain ⟨-, -, rfl⟩ := WorkflowNodeExecution.succeed_eq_ok.1 move
        rfl
      | failed code message =>
        obtain ⟨-, -, -, rfl⟩ := WorkflowNodeExecution.fail_eq_ok.1 move
        rfl
      | cancelled =>
        obtain ⟨-, -, rfl⟩ := WorkflowNodeExecution.cancel_eq_ok.1 move
        rfl

theorem Goes.block {code message : String} (h : Goes cfg b x ids now s) (hn : n ∈ s.1)
    (hpending : n.status = .pending) (hcode : isBlank code = false)
    (hmessage : isBlank message = false) (hwhy : b.Blocks s.1 n.workflowNodeId code message) :
    ∃ s', blockNode s n code message now = .ok s' ∧ Goes cfg b x ids now s' := by
  obtain ⟨n', hmove⟩ : ∃ n', n.block now code message = .ok n' :=
    ⟨_, WorkflowNodeExecution.block_eq_ok.2 ⟨hpending, ⟨hcode, hmessage⟩, h.created n hn, rfl⟩⟩
  obtain ⟨hsame, -, hblocked⟩ := WorkflowNodeExecution.block_moves hmove
  have hrecord := recordNode_eq .workflowNodeBlocked now (h.tracks.row hn).1 hsame
    (by rw [hpending, hblocked]; decide)
  refine ⟨_, bind_eq_ok.2 ⟨n', hmove, hrecord⟩, ?_⟩
  have hstep : SchedStep b now (fun _ => none) s (recorded s n' .workflowNodeBlocked now) :=
    .block hn hwhy hmove
  have hframe := recorded_frame s n' .workflowNodeBlocked now
  refine h.step hstep (fun _ _ h => by cases h)
    (h.supplied.replaced (.block hn hmove) (fun k hk => ?_) fun k hk => ?_)
  · rw [hframe.2] at hk
    exact .inr hk
  · rw [hframe.1] at hk
    exact .inr hk

theorem predecessorLines_tooLarge {revision : WorkflowRevision} {message : String} :
    ∀ {ids : List WorkflowNodeId},
      predecessorLines revision nodes ids = .error (.tooLarge message) → isBlank message = false
  | [], h => by cases h
  | id :: ids, h => by
    unfold predecessorLines at h
    split at h
    · cases h
    · split at h
      · cases h
      · split at h
        · cases h
        · dsimp only at h
          split at h
          · cases h
            rfl
          · cases hlines : predecessorLines revision nodes ids with
            | ok lines => rw [hlines] at h; cases h
            | error e =>
              rw [hlines] at h
              cases h
              exact predecessorLines_tooLarge hlines

/-- Whatever is too large, the message says so. -/
theorem Blueprint.TooLarge.message_nonblank {id : WorkflowNodeId} {message : String}
    (h : b.TooLarge nodes id message) : isBlank message = false := by
  obtain ⟨d, -, hcontext⟩ := h
  have hsize : ∀ text : String, (if text.toList.length > maxWorkflowContextChars then
      .error (.tooLarge "the aggregate workflow context exceeds the durable bound") else .ok text) =
      (.error (.tooLarge message) : Except ContextError String) → isBlank message = false := fun text htext => by
    split at htext
    · cases htext
      rfl
    · cases htext
  unfold Blueprint.context at hcontext
  dsimp only at hcontext
  cases hl : predecessorLines b.revision nodes ((b.predecessors d.id).insertionSort fun x y =>
      nodeKeyOf b.revision.nodes x ≤ nodeKeyOf b.revision.nodes y) with
  | error e =>
    rw [hl] at hcontext
    cases hcontext
    exact predecessorLines_tooLarge hl
  | ok lines =>
    rw [hl] at hcontext
    exact hsize _ hcontext

/-- A child with new ids can be started. -/
theorem exists_startChild {taskId : TaskId} {runId : RunId} {agentId : AgentId}
    (key description : String) (htask : db.tasks.get? taskId = none)
    (hrun : db.runs.get? runId = none) :
    ∃ db', startChild db taskId runId ("Workflow: " ++ key) description agentId now = .ok db' := by
  have htitle : isBlank (String.ofList (("Workflow: " ++ key).toList.take 4000)) = false := by
    rw [isBlank, String.toList_ofList, String.toList_append]
    rfl
  refine exists_bind_ok.2 ⟨_, bind_eq_ok.2 ⟨(), require_eq_ok.2 (by rw [htitle]; rfl), rfl⟩, ?_⟩
  refine exists_bind_ok.2 ⟨_, found_eq_ok.2 (insert?_eq_some.2 ⟨htask, rfl⟩), ?_⟩
  refine exists_bind_ok.2 ⟨_, bind_eq_ok.2 ⟨_, bind_eq_ok.2 ⟨(), rfl, rfl⟩, rfl⟩, ?_⟩
  exact exists_bind_ok.2 ⟨_, found_eq_ok.2 (insert?_eq_some.2 ⟨hrun, rfl⟩), _, rfl⟩

theorem Goes.dispatch {d : WorkflowNode} (h : Goes cfg b x ids now s) (hn : n ∈ s.1) (hpending : n.status = .pending)
    (hready : b.Ready s.1 n.workflowNodeId) (hd : d.id = n.workflowNodeId) :
    ∃ s', dispatchNode ids s n d now = .ok s' ∧ Goes cfg b x ids now s' := by
  obtain ⟨d', hd', hbuild⟩ := buildWorkflowNodeContext_of_blueprint
    (by rw [(h.tracks.row hn).2]; exact h.tracks.blueprint) (h.context_valid hn hready)
  rw [(h.tracks.row hn).2, ← h.tracks.list] at hbuild
  unfold dispatchNode
  rw [if_neg (not_not.2 hpending), hbuild]
  cases hcontext : b.context s.1 d' with
  | error e =>
    cases e with
    | invalid message => exact absurd (hbuild.trans hcontext) (h.context_valid hn hready message)
    | tooLarge message =>
      have hlarge : b.TooLarge s.1 n.workflowNodeId message := ⟨d', hd', hcontext⟩
      exact h.block hn hpending rfl hlarge.message_nonblank (.context hready hlarge)
  | ok text =>
    have htask := h.supplied.task n hn hpending
    have hrun := h.supplied.run n hn hpending
    rw [← hd] at htask hrun
    obtain ⟨db, hchild⟩ : ∃ db, startChild s.2 (ids.childTask d.id) (ids.childRun d.id) ("Workflow: " ++ d.nodeKey)
      d.objective n.targetAgentId now = .ok db := exists_startChild d.nodeKey d.objective htask hrun
    obtain ⟨-, hcore⟩ := startChild_core hchild
    have hnew : db.runs.get? (ids.childRun d.id) = some (Run.new (ids.childRun d.id) (ids.childTask d.id) now none) := by
      rw [hcore]
      exact get?_put_self _ _
    have hno := (h.explained n hn).waiting hpending
    obtain ⟨n', hmove⟩ : ∃ n', n.dispatch (ids.childTask d.id) (ids.childRun d.id) (ids.childRun d.id) now = .ok n' :=
      ⟨_, WorkflowNodeExecution.dispatch_eq_ok.2 ⟨hpending, ⟨hno.task, hno.run, hno.execution⟩, h.created n hn, rfl⟩⟩
    obtain ⟨hsame, -, hdispatched⟩ := WorkflowNodeExecution.dispatch_moves hmove
    have hrow : (s.1, db).2.workflowNodeExecutions.get? n.id = some n := by
      rw [(startChild_sameWorkflows hchild).2]
      exact (h.tracks.row hn).1
    have hrecord := recordNode_eq .workflowNodeDispatched now hrow hsame (by rw [hpending, hdispatched]; decide)
    refine ⟨_, bind_eq_ok.2 ⟨db, hchild, bind_eq_ok.2 ⟨_, found_eq_ok.2 hnew, bind_eq_ok.2 ⟨n', hmove, hrecord⟩⟩⟩, ?_⟩
    have hstep : SchedStep b now (fun _ => none) s (recorded (s.1, db) n' .workflowNodeDispatched now) :=
      .dispatch hn hready ⟨d', text, hd', hcontext⟩ hchild hmove
    have hframe := recorded_frame (s.1, db) n' .workflowNodeDispatched now
    refine h.step hstep (fun _ _ h => by cases h) (h.supplied.replaced (.dispatch hn hchild hmove)
      (fun k hk => ?_) fun k hk => ?_)
    · rw [hframe.2] at hk
      rw [← hd]
      exact ((startChild_tasks hchild).2 k).1 hk
    · rw [hframe.1, congrArg Core.runs hcore, Core.addItem, Core.get?_withRun] at hk
      rw [← hd]
      split at hk
      · next hid => exact .inl hid.symm
      · exact .inr hk

theorem Goes.scheduleNode {d : WorkflowNode} (h : Goes cfg b x ids now s) :
    ∃ r, scheduleNode ids b.revision.edges now s d = .ok r ∧ Goes cfg b x ids now r.2 := by
  unfold Runs.scheduleNode
  split
  · exact ⟨_, rfl, h⟩
  · next n hfind =>
    obtain ⟨hn, hid⟩ := of_find? hfind
    split
    · exact ⟨_, rfl, h⟩
    · next hstatus =>
      have hpending := not_not.1 hstatus
      dsimp only
      split
      · next hlost =>
        rw [← hid, h.tracks.any_lost] at hlost
        obtain ⟨s', hok, hgoes⟩ := h.block hn hpending rfl rfl (.predecessor hlost)
        exact ⟨_, bind_eq_ok.2 ⟨s', hok, rfl⟩, hgoes⟩
      · split
        · next hready =>
          rw [← hid, h.tracks.all_succeeded] at hready
          obtain ⟨s', hok, hgoes⟩ := h.dispatch hn hpending hready hid.symm
          exact ⟨_, bind_eq_ok.2 ⟨s', hok, rfl⟩, hgoes⟩
        · exact ⟨_, rfl, h⟩

theorem Goes.schedulePass : ∀ (definitions : List WorkflowNode) (changed : Bool) {s : Sched}, Goes cfg b x ids now s →
    ∃ r, schedulePass ids b.revision.edges now changed s definitions = .ok r ∧ Goes cfg b x ids now r.2
  | [], _, _, h => ⟨_, rfl, h⟩
  | d :: definitions, changed, s, h => by
    obtain ⟨⟨c, mid⟩, hnode, hmid⟩ := h.scheduleNode (d := d)
    obtain ⟨r, hpass, hr⟩ := Goes.schedulePass definitions (changed || c) hmid
    exact ⟨r, bind_eq_ok.2 ⟨_, hnode, hpass⟩, hr⟩

theorem Goes.scheduleLoop : ∀ (fuel : Nat) {s : Sched}, Goes cfg b x ids now s →
    ∃ s', scheduleLoop ids b.revision now fuel s = .ok s' ∧ Goes cfg b x ids now s'
  | 0, s, h => ⟨s, rfl, h⟩
  | fuel + 1, s, h => by
    obtain ⟨⟨changed, mid⟩, hpass, hmid⟩ := Goes.schedulePass (b.revision.nodes.insertionSort definitionOrder) false h
    cases changed with
    | true =>
      obtain ⟨s', hloop, hs'⟩ := Goes.scheduleLoop fuel hmid
      exact ⟨s', bind_eq_ok.2 ⟨_, hpass, hloop⟩, hs'⟩
    | false => exact ⟨mid, bind_eq_ok.2 ⟨_, hpass, rfl⟩, hmid⟩

/-! ## Reports are accepted -/

/-- The texts of a failed run are not blank. -/
theorem failureFromChild_nonblank (child : Run) : isBlank (failureFromChild child).1 = false ∧
    isBlank (failureFromChild child).2 = false := by
  unfold failureFromChild
  split
  · next failure _ => exact ⟨failure.code_nonblank, failure.message_nonblank⟩
  · exact ⟨rfl, rfl⟩

theorem ChildReport.exists_apply {child : Run} {report : ChildReport}
    (hreport : ChildReport.ofRun db child now = some report) (hs : n.status = .dispatched)
    (hstarted : n.startedAt.getD n.createdAt ≤ now) : ∃ n', report.apply n now = .ok n' := by
  unfold ChildReport.ofRun at hreport
  split at hreport
  · cases hreport
    exact ⟨_, WorkflowNodeExecution.succeed_eq_ok.2 ⟨hs, hstarted, rfl⟩⟩
  · cases hreport
    exact ⟨_, WorkflowNodeExecution.fail_eq_ok.2 ⟨hs, failureFromChild_nonblank child, hstarted, rfl⟩⟩
  · cases hreport
    exact ⟨_, WorkflowNodeExecution.cancel_eq_ok.2 ⟨.inr hs, hstarted, rfl⟩⟩
  · cases hreport

theorem Goes.report {child : Run} {report : ChildReport} (h : Goes cfg b x ids now s) (hn : n ∈ s.1)
    (hs : n.status = .dispatched) (hreport : ChildReport.ofRun s.2 child now = some report) :
    ∃ n', report.apply n now = .ok n' ∧ recordNode s n' report.event now = .ok (recorded s n' report.event now) ∧
      Same n n' ∧ Goes cfg b x ids now (recorded s n' report.event now) := by
  obtain ⟨n', hmove⟩ := ChildReport.exists_apply hreport hs (h.started n hn)
  obtain ⟨hsame, -, hexpected⟩ := ChildReport.apply_ended hs hmove
  have hstep : SchedStep b now (fun _ => some report) s (recorded s n' report.event now) :=
    .report hn hs rfl hmove
  have hresults : Results fun _ => some report := fun _ payload hpayload => by
    cases hpayload
    exact ChildReport.ofRun_succeeded hreport
  have hframe := recorded_frame s n' report.event now
  refine ⟨n', hmove, recordNode_eq _ _ (h.tracks.row hn).1 hsame hexpected, hsame, ?_⟩
  refine h.step hstep hresults (h.supplied.replaced (.report hn hs hmove)
    (fun k hk => ?_) fun k hk => ?_)
  · rw [hframe.2] at hk
    exact .inr hk
  · rw [hframe.1] at hk
    exact .inr hk

theorem Goes.reconcileChildren : ∀ {nodes : List WorkflowNodeExecution} {s : Sched},
    Goes cfg b x ids now s → (nodes.map (·.workflowNodeId)).Nodup → (∀ n ∈ nodes, n ∈ s.1) →
    ∃ s', reconcileChildren now s nodes = .ok s' ∧ Goes cfg b x ids now s'
  | [], s, h, _, _ => ⟨s, rfl, h⟩
  | n :: nodes, s, h, hids, hall => by
    obtain ⟨hfresh, hids⟩ := List.nodup_cons.1 hids
    obtain ⟨hn, hrest⟩ := List.forall_mem_cons.1 hall
    unfold Runs.reconcileChildren
    split
    · exact Goes.reconcileChildren h hids hrest
    · next hstatus =>
      have hdispatched := not_not.1 hstatus
      obtain ⟨⟨taskId, runId, -, -, hexecution⟩, -, -⟩ :=
        (h.explained n hn).dispatched (by rw [hdispatched]; decide) (by rw [hdispatched]; decide)
      rw [hexecution]
      cases hlatest : s.2.runs.getLatestForExecution runId with
      | none =>
        obtain ⟨s', hok, hs'⟩ := Goes.reconcileChildren h hids hrest
        exact ⟨s', bind_eq_ok.2 ⟨runId, rfl, by rw [hlatest]; exact bind_eq_ok.2 ⟨s, rfl, hok⟩⟩, hs'⟩
      | some child =>
        cases hreport : ChildReport.ofRun s.2 child now with
        | none =>
          obtain ⟨s', hok, hs'⟩ := Goes.reconcileChildren h hids hrest
          have hchild : reconcileChild s n child now = .ok s := by rw [reconcileChild_eq, hreport]
          exact ⟨s', bind_eq_ok.2 ⟨runId, rfl, by rw [hlatest]; exact bind_eq_ok.2 ⟨s, hchild, hok⟩⟩, hs'⟩
        | some report =>
          obtain ⟨n', hmove, hrecord, hsame, hmid⟩ := h.report hn hdispatched hreport
          have hchild : reconcileChild s n child now = .ok (recorded s n' report.event now) := by
            rw [reconcileChild_eq, hreport]
            exact bind_eq_ok.2 ⟨n', hmove, hrecord⟩
          obtain ⟨s', hok, hs'⟩ := Goes.reconcileChildren hmid hids fun m hm =>
            mem_replaceNode.2 (.inr ⟨hrest m hm, fun hid => hfresh
              (List.mem_map.2 ⟨m, hm, hid.trans hsame.workflowNodeId⟩)⟩)
          exact ⟨s', bind_eq_ok.2 ⟨runId, rfl, by rw [hlatest]; exact bind_eq_ok.2 ⟨_, hchild, hok⟩⟩, hs'⟩

end

/-! ## The end goes through -/

theorem textOr_nonblank {text : Option String} {default : String}
    (hdefault : isBlank default = false) (htext : ∀ t, text = some t → isBlank t = false) :
    isBlank (textOr text default) = false := by
  unfold textOr
  split
  · next t =>
    split
    · exact hdefault
    · exact htext t rfl
  · exact hdefault

section
variable {cfg : Config} {db : Db} {x : WorkflowExecution} {now : Time}
  {remover : WorkItems → Result WorkItems} (hx : db.workflowExecutions.get? x.id = some x)
  (hrunning : x.status = .running) (hremove : ∀ items, ∃ items', remover items = .ok items')
include hx hrunning hremove

/-- The end of an execution is written when its root, if it waits, can end. -/
theorem exists_endExecution {x' : WorkflowExecution} {type : RunEventType} {payload : JsonValue}
    {root : Option Run} {finish : Run → Result Run} (hsame : x.SameButEnd x')
    (hfinish : ∀ r, root = some r → r.status = .waitingForWorkflow → ∃ r', finish r = .ok r') :
    ∃ r, endExecution db x' type payload root finish remover now = .ok r := by
  refine exists_bind_ok.2 ⟨_, WorkflowExecutions.updateStatus_eq hx hrunning hsame, ?_⟩
  refine exists_bind_ok.2 ?_
  unfold endRoot
  split
  · exact ⟨_, rfl, _, rfl⟩
  · next run =>
    split
    · next hw =>
      obtain ⟨ended, hended⟩ := hfinish run rfl hw
      obtain ⟨items, hitems⟩ := hremove _
      exact ⟨_, bind_eq_ok.2 ⟨ended, hended, bind_eq_ok.2 ⟨items, hitems, rfl⟩⟩, _, rfl⟩
    · exact ⟨_, rfl, _, rfl⟩

theorem exists_failExecution {root : Option Run} {code message : String} (htime : x.startedAt ≤ now)
    (hroot : ∀ r, root = some r → r.startedAt.getD r.createdAt ≤ now) (hcode : isBlank code = false)
    (hmessage : isBlank message = false) :
    ∃ r, failExecution db x root code message remover now = .ok r := by
  refine exists_bind_ok.2 ⟨_, WorkflowExecution.fail_eq_ok.2 ⟨hrunning, ⟨hcode, hmessage⟩,
    htime, rfl⟩, ?_⟩
  refine exists_endExecution hx hrunning hremove rfl fun r hr hw => ?_
  refine exists_bind_ok.2 ⟨_, dif_neg (by rw [hcode]; nofun) |>.trans
    (dif_neg (by rw [hmessage]; nofun)), _,
    Run.failWorkflow_eq_ok.2 ⟨hw, Run.fail_eq_ok.2 ⟨.inr hw, hroot r hr, rfl⟩⟩⟩

/-- `_finish_if_terminal` raises nothing when the marker is right, failures say why and time has not
gone back. -/
theorem exists_finishIfTerminal
    (hloads : ∃ r, loadFrozenRevision cfg db x.workflowId x.workflowRevisionId x.workflowContentSha256 = .ok r)
    (hmarker : ∀ r, db.runs.get? x.rootRunId = some r → r.status = .waitingForWorkflow →
      r.workflowExecutionId = some x.id)
    (htime : x.startedAt ≤ now) (hroot : ∀ r, db.runs.get? x.rootRunId = some r → r.startedAt.getD r.createdAt ≤ now)
    (hwhy : ∀ n ∈ nodes, n.status = .failed ∨ n.status = .blocked → Explained n) :
    ∃ r, finishIfTerminal cfg db x nodes remover now = .ok r := by
  unfold finishIfTerminal
  split
  · exact ⟨_, rfl⟩
  · have hrequire : requireMarker (db.runs.get? x.rootRunId) x = .ok () := by
      refine require_eq_ok.2 ?_
      cases hr : db.runs.get? x.rootRunId with
      | none => rfl
      | some r =>
        have := hmarker r hr
        by_cases hw : r.status = .waitingForWorkflow
        · simp [hw, this hw]
        · simp [hw]
    refine exists_bind_ok.2 ⟨(), hrequire, ?_⟩
    have hfail : ∀ {code message : String}, isBlank code = false → isBlank message = false →
        ∃ r, failExecution db x (db.runs.get? x.rootRunId) code message remover now = .ok r :=
      exists_failExecution hx hrunning hremove htime hroot
    unfold finish
    split
    · obtain ⟨⟨w, r⟩, hload⟩ := hloads
      refine exists_bind_ok.2 ⟨_, hload, exists_bind_ok.2 ⟨_, WorkflowExecution.succeed_eq_ok.2 ⟨hrunning, htime, rfl⟩, ?_⟩⟩
      exact exists_endExecution hx hrunning hremove rfl fun r hr hw =>
        ⟨_, Run.succeedWorkflow_eq_ok.2 ⟨hw, Run.succeed_eq_ok.2 ⟨.inr hw, hroot r hr, rfl⟩⟩⟩
    · split
      · next failed hfind =>
        have hstatus : failed.status = .failed := by simpa using List.find?_some hfind
        obtain ⟨code, message, hcode, hmessage, hc, hm⟩ := hwhy failed (List.mem_of_find?_eq_some hfind) (.inl hstatus)
        refine hfail (textOr_nonblank rfl fun t ht => ?_) (textOr_nonblank rfl fun t ht => ?_)
        · rw [hcode] at ht
          cases ht
          exact hc
        · rw [hmessage] at ht
          cases ht
          exact hm
      · split
        · refine exists_bind_ok.2 ⟨_, WorkflowExecution.cancel_eq_ok.2 ⟨hrunning, htime, rfl, rfl⟩, ?_⟩
          exact exists_endExecution hx hrunning hremove rfl fun r hr hw =>
            ⟨_, Run.cancelWorkflow_eq_ok.2 ⟨hw, Run.cancel_eq_ok.2 ⟨by rw [hw]; rfl, hroot r hr, rfl⟩⟩⟩
        · have hreason : isBlank (blockedReason nodes).1 = false ∧ isBlank (blockedReason nodes).2 = false := by
            unfold blockedReason
            dsimp only
            split
            · exact ⟨rfl, rfl⟩
            · next blocked hfind =>
              have hstatus : blocked.status = .blocked := by simpa using List.find?_some hfind
              obtain ⟨code, message, hcode, hmessage, hc, hm⟩ :=
                hwhy blocked (List.mem_of_find?_eq_some hfind) (.inr hstatus)
              split
              · exact ⟨rfl, rfl⟩
              · refine ⟨textOr_nonblank rfl fun t ht => ?_, textOr_nonblank rfl fun t ht => ?_⟩
                · rw [hcode] at ht
                  cases ht
                  exact hc
                · rw [hmessage] at ht
                  cases ht
                  exact hm
          exact hfail hreason.1 hreason.2

end

/-! ## The whole reconciliation -/

variable {r : WorkflowRevision} {x : WorkflowExecution}

theorem verifyNode_eq_ok {n : WorkflowNodeExecution}
    (hfits : NodeFits db x r n) (hrow : RowOk db n) : verifyNode db x r n = .ok () := by
  refine bind_eq_ok.2 ⟨(), require_eq_ok.2 (decide_eq_true hfits.revision), bind_eq_ok.2 ⟨(), require_eq_ok.2 hfits.definition,
    bind_eq_ok.2 ⟨(), require_eq_ok.2 hfits.agent, bind_eq_ok.2 ⟨(), require_eq_ok.2 ?_, require_eq_ok.2 ?_⟩⟩⟩⟩
  · rcases hrow.child with hno | ⟨taskId, runId, hchild⟩
    · rw [hno.task]
      rfl
    · rw [hchild.isTask]
      exact hchild.binding
  · rcases hrow.child with hno | ⟨taskId, runId, hchild⟩
    · simp [childLineageOk, hno.task]
    · obtain ⟨run, hrun, hexecution, htask⟩ := hchild.run
      simp [childLineageOk, hchild.isTask, hchild.isRun, hchild.isExecution, hrun, hexecution, htask]

theorem verifyNodes_eq_ok : ∀ {nodes : List WorkflowNodeExecution},
    (∀ n ∈ nodes, NodeFits db x r n ∧ RowOk db n) → verifyNodes db x r nodes = .ok ()
  | [], _ => rfl
  | n :: nodes, h => by
    obtain ⟨⟨hfits, hrow⟩, hrest⟩ := List.forall_mem_cons.1 h
    exact bind_eq_ok.2 ⟨(), verifyNode_eq_ok hfits hrow, verifyNodes_eq_ok hrest⟩

theorem nodeSetMatches_of_perm
    (h : (nodes.map (·.workflowNodeId)).Perm (r.nodes.map (·.id))) :
    nodeSetMatches r nodes = true := by
  have hlength : nodes.length = r.nodes.length := by simpa using h.length_eq
  simp only [nodeSetMatches, Bool.and_eq_true, decide_eq_true_eq, List.all_eq_true,
    List.any_eq_true]
  refine ⟨⟨hlength, fun n hn => ?_⟩, fun d hd => ?_⟩
  · obtain ⟨d, hd, hid⟩ := List.mem_map.1 (h.mem_iff.1 (List.mem_map_of_mem hn))
    exact ⟨d, hd, hid⟩
  · obtain ⟨n, hn, hid⟩ := List.mem_map.1 (h.mem_iff.2 (List.mem_map_of_mem hd))
    exact ⟨n, hn, hid⟩

/-- **A reconciliation commits**: nothing in it raises. -/
theorem exists_reconcile {cfg : Config} {ids : WorkflowIds} {now : Time}
    (hok : WorkflowsOk cfg db) (hroots : RootWaits True db.toCore)
    (hx : db.workflowExecutions.get? x.id = some x) (htimely : Timely db x now)
    (hsupplied : Supplied db (db.workflowNodeExecutions.listByExecution x.id) ids) :
    ∃ r, reconcileWorkflowExecution cfg db x.id ids now = .ok r := by
  obtain ⟨b, hb⟩ := hok.executions x hx
  obtain ⟨w, hload⟩ := hb.frozen.loads
  have hverify : verifyNodes db x b.revision (db.workflowNodeExecutions.listByExecution x.id) = .ok () :=
    verifyNodes_eq_ok fun n hn => ⟨hb.fits n hn, hok.rows.row n (mem_of_get? (hb.tracks.row hn).1)⟩
  refine exists_bind_ok.2 ⟨x, found_eq_ok.2 hx, exists_bind_ok.2 ⟨(), require_eq_ok.2 hb.frozen.resolution,
    exists_bind_ok.2 ⟨_, hload, exists_bind_ok.2 ⟨(), require_eq_ok.2 (nodeSetMatches_of_perm hb.tracks.perm),
    exists_bind_ok.2 ⟨(), hverify, ?_⟩⟩⟩⟩⟩
  split
  · next hrunning =>
    have hgoes : Goes cfg b x ids now (db.workflowNodeExecutions.listByExecution x.id, db) :=
      ⟨hb.toPrepared, hx, hb.tracks, htimely.created, htimely.started, hsupplied⟩
    have hsorted := List.perm_insertionSort WorkflowNodeExecution.nodeOrder (db.workflowNodeExecutions.listByExecution x.id)
    have hids := (hsorted.map (·.workflowNodeId)).nodup_iff.2 hb.tracks.ids
    have hall : ∀ n ∈ (db.workflowNodeExecutions.listByExecution x.id).insertionSort WorkflowNodeExecution.nodeOrder,
      n ∈ db.workflowNodeExecutions.listByExecution x.id := fun n hn => hsorted.mem_iff.1 hn
    obtain ⟨s₁, hchildren, hgoes₁⟩ := hgoes.reconcileChildren hids hall
    obtain ⟨s₂, hschedule, hgoes₂⟩ := hgoes₁.scheduleLoop (b.revision.nodes.length + 1)
    have hsteps₁ : SchedSteps b now (ChildReport.of? db · now) _ s₁ :=
      (reconcileChildren_steps hb.tracks (fun _ _ => rfl) hids hall hchildren).1
    have hsteps := hsteps₁.trans (scheduleToFixedPoint_steps hgoes₁.tracks hschedule).1
    have hrows := SchedSteps.rowsOk hsteps hb.tracks hok.rows
    -- scheduling has not touched the root
    obtain ⟨root, hroot, hmarked⟩ := hroots x hx hrunning
    have hroot₂ : ∀ r, s₂.2.runs.get? x.rootRunId = some r → r = root := fun r hr =>
      Option.some.inj (hr.symm.trans ((SchedSteps.adds hsteps).runs _ _ hroot))
    obtain ⟨w₂, hload₂⟩ := hgoes₂.frozen.loads
    obtain ⟨r, hfinish⟩ := exists_finishIfTerminal hgoes₂.row hrunning
      (fun items => ⟨remove items x.rootRunId, rfl⟩) ⟨_, hload₂⟩
      (fun r hr hw => by
        obtain rfl := hroot₂ r hr
        refine (hmarked.resolve_left fun ⟨_, hended⟩ => ?_).2
        rw [hw] at hended
        cases hended)
      htimely.execution (fun r hr => by rw [hroot₂ r hr]; exact htimely.root root hroot)
      (fun n hn => (hrows.row n (mem_of_get? (hgoes₂.tracks.row hn).1)).failure)
    exact ⟨_, bind_eq_ok.2 ⟨s₁, hchildren, bind_eq_ok.2 ⟨s₂, hschedule, bind_eq_ok.2 ⟨r, hfinish, rfl⟩⟩⟩⟩
  · exact ⟨_, rfl⟩

end Friday.Runs
