import FridayAssistant.Domain.WorkflowDag
import FridayAssistant.Runs.WorkflowEffects
/-!
# Workflow scheduling as steps of nodes

`SchedStep` says once what scheduling and reconciling do to the nodes of an execution: a ready node
is dispatched, a node is blocked, a dispatched node takes over what its child ended with. What a
node may do depends on its predecessors' rows and on what the execution has frozen (`Blueprint`).

| source | here |
|---|---|
| `_dispatch_node` (:286) | `dispatchNode_step` |
| `_schedule_to_fixed_point` (:366) | `scheduleNode_step`, `schedulePass_steps`, `scheduleLoop_steps` |
| `_reconcile_dispatched_children` (:956) | `reconcileChildren_steps` |
-/
namespace Friday.Runs
open Tables Table Queue Relation PyJson
open WorkflowNodeExecution (Same dispatch_moves succeed_moves fail_moves cancel_moves block_moves)

/-! ## What an execution has frozen -/

structure Blueprint where
  workflowKey : String
  contentSha256 : String
  revision : WorkflowRevision

/-- The blueprint of a stored execution. -/
def Blueprint.of? (db : Db) (e : WorkflowExecutionId) : Option Blueprint := do
  let x ← db.workflowExecutions.get? e
  let workflow ← db.workflows.get? x.workflowId
  let revision ← db.workflowRevisions.get? x.workflowRevisionId
  return ⟨workflow.workflowKey, x.workflowContentSha256, revision⟩

namespace Blueprint
variable (b : Blueprint) (nodes : List WorkflowNodeExecution)

def predecessors (id : WorkflowNodeId) : List WorkflowNodeId := predecessorsOf b.revision.edges id

def lines (definition : WorkflowNode) : List String :=
  ["# WORKFLOW NODE", "workflow_key: " ++ b.workflowKey,
    "workflow_revision_version: " ++ toString b.revision.version,
    "workflow_revision_sha256: " ++ b.contentSha256, "node_key: " ++ definition.nodeKey,
    "objective: " ++ definition.objective, "input_payload: " ++ dumps definition.inputPayload,
    "expected_output_contract: " ++ definition.expectedOutputContract]

/-- `build_workflow_node_context` as a function of the blueprint and the nodes. -/
def context (definition : WorkflowNode) : Except ContextError String := do
  let predecessors := (b.predecessors definition.id).insertionSort fun x y =>
    nodeKeyOf b.revision.nodes x ≤ nodeKeyOf b.revision.nodes y
  let lines ← predecessorLines b.revision nodes predecessors
  let header := if predecessors.isEmpty then [] else ["# WORKFLOW PREDECESSORS"]
  let rendered := PyText.join "\n" (b.lines definition ++ header ++ lines)
  if rendered.toList.length > maxWorkflowContextChars then
    .error (.tooLarge "the aggregate workflow context exceeds the durable bound")
  else .ok rendered

/-- Every predecessor is SUCCEEDED. -/
def Ready (id : WorkflowNodeId) : Prop :=
  ∀ m ∈ nodes, m.workflowNodeId ∈ b.predecessors id → m.status = .succeeded

/-- Some predecessor is FAILED, CANCELLED or BLOCKED. -/
def Lost (id : WorkflowNodeId) : Prop := ∃ m ∈ nodes, m.workflowNodeId ∈ b.predecessors id ∧
    isLost m.status = true

def Fits (id : WorkflowNodeId) : Prop :=
  ∃ d text, b.revision.nodes.find? (·.id = id) = some d ∧ b.context nodes d = .ok text

def TooLarge (id : WorkflowNodeId) (message : String) : Prop :=
  ∃ d, b.revision.nodes.find? (·.id = id) = some d ∧ b.context nodes d = .error (.tooLarge message)

/-- Why a node is blocked, with the failure code that says so. -/
inductive Blocks (id : WorkflowNodeId) : String → String → Prop where
  | predecessor (lost : b.Lost nodes id) :
      Blocks id "blocked_by_predecessor" "A predecessor Workflow node did not succeed"
  | context {message : String} (ready : b.Ready nodes id) (large : b.TooLarge nodes id message) :
      Blocks id "workflow_context_too_large" message

end Blueprint

variable {db db' : Db} {n n' m : WorkflowNodeExecution} {taskId : TaskId} {runId : RunId}
  {title description : String} {agentId : AgentId}

theorem Blueprint.of?_eq_some {e : WorkflowExecutionId} :
    Blueprint.of? db e = some b ↔ ∃ x w, db.workflowExecutions.get? e = some x ∧
      db.workflows.get? x.workflowId = some w ∧ db.workflowRevisions.get? x.workflowRevisionId = some b.revision ∧
      w.workflowKey = b.workflowKey ∧ x.workflowContentSha256 = b.contentSha256 := by
  constructor
  · intro h
    obtain ⟨x, hx, h⟩ := Option.bind_eq_some_iff.1 h
    obtain ⟨w, hw, h⟩ := Option.bind_eq_some_iff.1 h
    obtain ⟨r, hr, h⟩ := Option.bind_eq_some_iff.1 h
    cases h
    exact ⟨x, w, hx, hw, hr, rfl, rfl⟩
  · rintro ⟨x, w, hx, hw, hr, hkey, hsha⟩
    refine Option.bind_eq_some_iff.2 ⟨x, hx, Option.bind_eq_some_iff.2 ⟨w, hw, Option.bind_eq_some_iff.2 ⟨_, hr, ?_⟩⟩⟩
    rw [hkey, hsha]
    rfl

variable {d : WorkflowNode}

theorem contextParts_eq_ok {x : WorkflowExecution} {w : Workflow}
    {r : WorkflowRevision} :
    contextParts db n = .ok (x, w, r, d) ↔ db.workflowExecutions.get? n.workflowExecutionId = some x ∧
      db.workflowRevisions.get? x.workflowRevisionId = some r ∧
      db.workflows.get? x.workflowId = some w ∧ r.workflowId = w.id ∧
      r.nodes.find? (·.id = n.workflowNodeId) = some d ∧ d.nodeKey = n.nodeKey := by
  constructor
  · intro h
    unfold contextParts at h
    split at h
    · cases h
    · next x' hx =>
      split at h
      · next r' w' hr hw =>
        split at h
        · cases h
        · next howner =>
          split at h
          · cases h
          · next d' hd =>
            split at h
            · cases h
            · next hkey =>
              cases h
              exact ⟨hx, hr, hw, not_not.1 howner, hd, not_not.1 hkey⟩
      · cases h
  · rintro ⟨hx, hr, hw, howner, hd, hkey⟩
    simp only [contextParts, hx, hr, hw, howner, hd, hkey, ne_eq, not_true_eq_false, if_false]

theorem contextParts_eq_error {e : ContextError}
    (h : contextParts db n = .error e) : ∃ message, e = .invalid message := by
  unfold contextParts at h
  split at h
  · cases h; exact ⟨_, rfl⟩
  · split at h
    · split at h
      · cases h; exact ⟨_, rfl⟩
      · split at h
        · cases h; exact ⟨_, rfl⟩
        · split at h
          · cases h; exact ⟨_, rfl⟩
          · cases h
    · cases h; exact ⟨_, rfl⟩

/-- Once the stored rows fit together, the context of a node is that of the blueprint. -/
theorem buildWorkflowNodeContext_eq
    {parts : WorkflowExecution × Workflow × WorkflowRevision × WorkflowNode}
    (hb : Blueprint.of? db n.workflowExecutionId = some b) (hp : contextParts db n = .ok parts) :
    b.revision.nodes.find? (·.id = n.workflowNodeId) = some parts.2.2.2 ∧ buildWorkflowNodeContext db n =
      b.context (db.workflowNodeExecutions.listByExecution n.workflowExecutionId) parts.2.2.2 := by
  obtain ⟨x, w, r, d⟩ := parts
  obtain ⟨hx, hr, hw, -, hd, -⟩ := contextParts_eq_ok.1 hp
  obtain ⟨x', w', hx', hw', hr', hkey, hsha⟩ := Blueprint.of?_eq_some.1 hb
  rw [hx] at hx'
  cases hx'
  rw [hw] at hw'
  cases hw'
  rw [hr] at hr'
  cases hr'
  have hid : x.id = n.workflowExecutionId := key_of_get? hx
  have hlines : nodeLines w b.revision x d = b.lines d := by
    rw [nodeLines, Blueprint.lines, hkey, hsha]
  refine ⟨hd, ?_⟩
  rw [buildWorkflowNodeContext, hp, Blueprint.context, ← hlines, ← hid]
  rfl

/-- A context that is built, or too large, is one of the blueprint. -/
theorem buildWorkflowNodeContext_of_blueprint
    (hb : Blueprint.of? db n.workflowExecutionId = some b)
    (hvalid : ∀ message, buildWorkflowNodeContext db n ≠ .error (.invalid message)) :
    ∃ d, b.revision.nodes.find? (·.id = n.workflowNodeId) = some d ∧ buildWorkflowNodeContext db n =
      b.context (db.workflowNodeExecutions.listByExecution n.workflowExecutionId) d := by
  cases hp : contextParts db n with
  | error e =>
    obtain ⟨message, rfl⟩ := contextParts_eq_error hp
    refine absurd ?_ (hvalid message)
    rw [buildWorkflowNodeContext, hp]
    rfl
  | ok parts => exact ⟨_, buildWorkflowNodeContext_eq hb hp⟩

/-! ## The nodes in hand and their rows -/

variable {id : WorkflowNodeId}

section
variable {nodes : List WorkflowNodeExecution} {x : WorkflowNodeExecution}

theorem mem_replaceNode : x ∈ replaceNode nodes n' ↔
    (x = n' ∧ ∃ y ∈ nodes, y.workflowNodeId = n'.workflowNodeId) ∨
      (x ∈ nodes ∧ x.workflowNodeId ≠ n'.workflowNodeId) := by
  rw [replaceNode, List.mem_map]
  constructor
  · rintro ⟨y, hy, rfl⟩
    by_cases hk : y.workflowNodeId = n'.workflowNodeId
    · exact .inl ⟨if_pos hk, y, hy, hk⟩
    · rw [if_neg hk]
      exact .inr ⟨hy, hk⟩
  · rintro (⟨rfl, y, hy, hk⟩ | ⟨hx, hk⟩)
    · exact ⟨y, hy, if_pos hk⟩
    · exact ⟨x, hx, if_neg hk⟩

theorem map_id_replaceNode :
    (replaceNode nodes n').map (·.workflowNodeId) = nodes.map (·.workflowNodeId) := by
  rw [replaceNode, List.map_map]
  refine List.map_congr_left fun x _ => ?_
  rw [Function.comp_apply]
  split
  · next hk => exact hk.symm
  · rfl

theorem find?_replaceNode_ne (hne : n'.workflowNodeId ≠ id) :
    (replaceNode nodes n').find? (·.workflowNodeId = id) = nodes.find? (·.workflowNodeId = id) := by
  induction nodes with
  | nil => rfl
  | cons y ys ih =>
    rw [replaceNode, List.map_cons, ← replaceNode, List.find?_cons, List.find?_cons, ih]
    by_cases hk : y.workflowNodeId = n'.workflowNodeId
    · rw [if_pos hk, hk, decide_eq_false hne]
    · rw [if_neg hk]

theorem of_find? (h : nodes.find? (·.workflowNodeId = id) = some n) :
    n ∈ nodes ∧ n.workflowNodeId = id :=
  ⟨List.mem_of_find?_eq_some h, by simpa using List.find?_some h⟩

/-- Replacing one node moves one node in or out of a count. -/
theorem countP_replaceNode (p : WorkflowNodeExecution → Bool) (hids : (nodes.map (·.workflowNodeId)).Nodup)
    (hn : n ∈ nodes) (hid : n'.workflowNodeId = n.workflowNodeId) :
    (replaceNode nodes n').countP p + (if p n then 1 else 0) = nodes.countP p + (if p n' then 1 else 0) := by
  induction nodes with
  | nil => cases hn
  | cons y ys ih =>
    obtain ⟨hy, hys⟩ := List.nodup_cons.1 hids
    rw [replaceNode, List.map_cons, ← replaceNode, List.countP_cons, List.countP_cons]
    rcases List.mem_cons.1 hn with rfl | hin
    · have hrest : replaceNode ys n' = ys := by
        refine (List.map_congr_left fun x hx => if_neg fun hk => hy ?_).trans (List.map_id ys)
        exact List.mem_map.2 ⟨x, hx, hk.trans hid⟩
      rw [hrest, if_pos hid.symm]
      omega
    · have hne : y.workflowNodeId ≠ n'.workflowNodeId := fun hk =>
        hy (List.mem_map.2 ⟨n, hin, (hk.trans hid).symm⟩)
      rw [if_neg hne]
      have := ih hys hin
      omega

end

/-- The nodes in hand are the rows of an execution with the given blueprint, one for each node of
it. -/
structure Tracks (b : Blueprint) (e : WorkflowExecutionId) (s : Sched) : Prop where
  list : s.1 = s.2.workflowNodeExecutions.listByExecution e
  blueprint : Blueprint.of? s.2 e = some b
  dag : ValidDag b.revision.nodes b.revision.edges
  perm : (s.1.map (·.workflowNodeId)).Perm (b.revision.nodes.map (·.id))

namespace Tracks
variable {b : Blueprint} {e : WorkflowExecutionId} {s : Sched}

theorem ids (h : Tracks b e s) : (s.1.map (·.workflowNodeId)).Nodup := h.perm.nodup_iff.2 h.dag.ids

theorem row (h : Tracks b e s) (hn : n ∈ s.1) :
    s.2.workflowNodeExecutions.get? n.id = some n ∧ n.workflowExecutionId = e :=
  WorkflowNodeExecutions.mem_listByExecution.1 (h.list ▸ hn)

theorem eq_of_id (h : Tracks b e s) (hm : m ∈ s.1) (hn : n ∈ s.1)
    (hid : m.workflowNodeId = n.workflowNodeId) : m = n := List.inj_on_of_nodup_map h.ids hm hn hid

theorem find? (h : Tracks b e s) (hn : n ∈ s.1) :
    s.1.find? (·.workflowNodeId = n.workflowNodeId) = some n := by
  cases hf : s.1.find? (·.workflowNodeId = n.workflowNodeId) with
  | none => exact absurd (List.find?_eq_none.1 hf n hn) (by simp)
  | some m =>
    obtain ⟨hm, hid⟩ := of_find? hf
    rw [h.eq_of_id hm hn hid]

/-- The node of a definition. -/
theorem exists_node (h : Tracks b e s) (hid : id ∈ b.revision.nodes.map (·.id)) :
    ∃ n ∈ s.1, n.workflowNodeId = id := List.mem_map.1 (h.perm.mem_iff.2 hid)

theorem exists_predecessor (h : Tracks b e s) {p : WorkflowNodeId} (hp : p ∈ b.predecessors id) :
    ∃ n ∈ s.1, n.workflowNodeId = p := by
  obtain ⟨edge, hedge, rfl⟩ := List.mem_map.1 hp
  exact h.exists_node (h.dag.ends edge (List.mem_filter.1 hedge).1).1

theorem length (h : Tracks b e s) : s.1.length = b.revision.nodes.length := by
  have := h.perm.length_eq
  rwa [List.length_map, List.length_map] at this

theorem nonempty (h : Tracks b e s) : s.1 ≠ [] := fun hnil => h.dag.nonempty <| by
  have hlength := h.length
  rw [hnil] at hlength
  exact List.length_eq_zero_iff.1 hlength.symm

/-- What the scheduler asks of the statuses it collects. -/
theorem all_succeeded (h : Tracks b e s) (id : WorkflowNodeId) :
    ((predecessorsOf b.revision.edges id).filterMap fun p =>
      (s.1.find? (·.workflowNodeId = p)).map (·.status)).all (· = .succeeded) = true ↔ b.Ready s.1 id := by
  simp only [List.all_eq_true, List.mem_filterMap, Option.map_eq_some_iff, decide_eq_true_eq]
  constructor
  · intro hall m hm hp
    exact hall m.status ⟨m.workflowNodeId, hp, m, h.find? hm, rfl⟩
  · rintro hready status ⟨p, hp, m, hm, rfl⟩
    obtain ⟨hmem, rfl⟩ := of_find? hm
    exact hready m hmem hp

theorem any_lost (h : Tracks b e s) (id : WorkflowNodeId) :
    ((predecessorsOf b.revision.edges id).filterMap fun p =>
      (s.1.find? (·.workflowNodeId = p)).map (·.status)).any isLost = true ↔ b.Lost s.1 id := by
  simp only [List.any_eq_true, List.mem_filterMap, Option.map_eq_some_iff]
  constructor
  · rintro ⟨status, ⟨p, hp, m, hm, rfl⟩, hlost⟩
    obtain ⟨hmem, rfl⟩ := of_find? hm
    exact ⟨m, hmem, hp, hlost⟩
  · rintro ⟨m, hm, hp, hlost⟩
    exact ⟨m.status, ⟨m.workflowNodeId, hp, m, h.find? hm, rfl⟩, hlost⟩

end Tracks

/-! ## What a child reports -/

inductive ChildReport where
  | succeeded (payload : JsonValue)
  | failed (code message : String)
  | cancelled

namespace ChildReport

/-- What the last attempt of a child ended with. -/
def ofRun (db : Db) (child : Run) (now : Time) : Option ChildReport :=
  match child.status with
  | .succeeded => some (.succeeded (boundedChildResult db child now))
  | .failed => some (.failed (failureFromChild child).1 (failureFromChild child).2)
  | .cancelled => some .cancelled
  | _ => none

/-- What the child of a node has to report. -/
def of? (db : Db) (n : WorkflowNodeExecution) (now : Time) : Option ChildReport :=
  (n.childExecutionId.bind db.runs.getLatestForExecution).bind fun child => ofRun db child now

def apply (report : ChildReport) (n : WorkflowNodeExecution) (now : Time) :
    Result WorkflowNodeExecution :=
  match report with
  | .succeeded payload => n.succeed now payload
  | .failed code message => n.fail now code message
  | .cancelled => n.cancel now

def event : ChildReport → RunEventType
  | .succeeded _ => .workflowNodeSucceeded
  | .failed .. => .workflowNodeFailed
  | .cancelled => .workflowNodeCancelled

end ChildReport

theorem reconcileChild_eq (s : Sched) (n : WorkflowNodeExecution) (child : Run) (now : Time) :
    reconcileChild s n child now = (match ChildReport.ofRun s.2 child now with
      | none => .ok s
      | some report => report.apply n now >>= fun ended => recordNode s ended report.event now) := by
  unfold reconcileChild ChildReport.ofRun
  cases child.status <;> rfl

/-! ## Steps -/

/-- The node in hand and its row are written, with the event. -/
def recorded (s : Sched) (n : WorkflowNodeExecution) (type : RunEventType) (now : Time) : Sched :=
  (replaceNode s.1 n,
    emitNodeEvent { s.2 with workflowNodeExecutions := s.2.workflowNodeExecutions.put n }
    n type now)

theorem recordNode_eq {s : Sched} (type : RunEventType) (now : Time)
    (hn : s.2.workflowNodeExecutions.get? n.id = some n) (same : Same n n')
    (expected : n.status ∈ WorkflowNodeExecutions.expectedStatuses n'.status) :
    recordNode s n' type now = .ok (recorded s n' type now) := by
  rw [recordNode, WorkflowNodeExecutions.updateStatus_eq hn same expected]
  rfl

/-- What the children have to report. -/
abbrev Reports := WorkflowNodeExecution → Option ChildReport

/-- One node moves on. -/
inductive SchedStep (b : Blueprint) (now : Time) (reports : Reports) (s : Sched) :
    Sched → Prop where
  | dispatch {n n' : WorkflowNodeExecution} {taskId : TaskId} {runId : RunId} {title description : String} {db : Db}
      (mem : n ∈ s.1) (ready : b.Ready s.1 n.workflowNodeId) (fits : b.Fits s.1 n.workflowNodeId)
      (child : startChild s.2 taskId runId title description n.targetAgentId now = .ok db)
      (move : n.dispatch taskId runId runId now = .ok n') :
      SchedStep b now reports s (recorded (s.1, db) n' .workflowNodeDispatched now)
  | block {n n' : WorkflowNodeExecution} {code message : String} (mem : n ∈ s.1)
      (why : b.Blocks s.1 n.workflowNodeId code message) (move : n.block now code message = .ok n') :
      SchedStep b now reports s (recorded s n' .workflowNodeBlocked now)
  | report {n n' : WorkflowNodeExecution} {report : ChildReport} (mem : n ∈ s.1) (dispatched : n.status = .dispatched)
      (reported : reports n = some report) (move : report.apply n now = .ok n') :
      SchedStep b now reports s (recorded s n' report.event now)

abbrev SchedSteps (b : Blueprint) (now : Time) (reports : Reports) : Sched → Sched → Prop :=
  ReflTransGen (SchedStep b now reports)

/-! ## What a step leaves alone -/

/-- Executions and definitions are as they were. -/
structure SameWorkflows (db db' : Db) : Prop where
  executions : db'.workflowExecutions = db.workflowExecutions
  workflows : db'.workflows = db.workflows
  revisions : db'.workflowRevisions = db.workflowRevisions
  resolutions : db'.runWorkflowResolutions = db.runWorkflowResolutions
  agentRevisions : db'.agentRevisions = db.agentRevisions

namespace SameWorkflows
variable {db db' db'' : Db}

theorem refl (db : Db) : SameWorkflows db db := ⟨rfl, rfl, rfl, rfl, rfl⟩

theorem trans (h : SameWorkflows db db') (h' : SameWorkflows db' db'') : SameWorkflows db db'' :=
  ⟨h'.executions.trans h.executions, h'.workflows.trans h.workflows, h'.revisions.trans h.revisions,
    h'.resolutions.trans h.resolutions, h'.agentRevisions.trans h.agentRevisions⟩

theorem blueprint (h : SameWorkflows db db') (e : WorkflowExecutionId) :
    Blueprint.of? db' e = Blueprint.of? db e := by
  rw [Blueprint.of?, Blueprint.of?, h.executions, h.workflows, h.revisions]

end SameWorkflows

theorem startChild_sameWorkflows
    (h : startChild db taskId runId title description agentId now = .ok db') :
    SameWorkflows db db' ∧ db'.workflowNodeExecutions = db.workflowNodeExecutions := by
  obtain ⟨task, -, -, -, h⟩ := startChild_eq_ok h
  obtain ⟨-, tasks, -, rfl⟩ := startRunInUow_eq_ok h
  exact ⟨⟨rfl, rfl, rfl, rfl, rfl⟩, rfl⟩

theorem TaskAgentBindings.get?_replace_ne {t : TaskAgentBindings} {k : TaskId}
    {binding : Option TaskAgentBinding} (hb : ∀ b, binding = some b → b.taskId = taskId)
    (hne : taskId ≠ k) : (t.replace taskId binding).get? k = t.get? k := by
  cases binding with
  | none => exact (get?_erase _ _ _).trans (if_neg hne)
  | some b =>
    have hkey : key b ≠ k := by rw [key_taskAgentBinding, hb b rfl]; exact hne
    show ((t.erase taskId).put b).get? k = t.get? k
    rw [get?_put_ne hkey, get?_erase, if_neg hne]

/-- Tasks and runs are only added, and the binding of a task that existed is as it was. -/
structure Adds (db db' : Db) : Prop where
  runs : ∀ k r, db.runs.get? k = some r → db'.runs.get? k = some r
  tasks : ∀ k, (db.tasks.get? k).isSome = true → (db'.tasks.get? k).isSome = true
  bindings : ∀ k, (db.tasks.get? k).isSome = true →
    db'.taskAgentBindings.get? k = db.taskAgentBindings.get? k

theorem Adds.refl (db : Db) : Adds db db := ⟨fun _ _ h => h, fun _ h => h, fun _ _ => rfl⟩

theorem Adds.trans {db'' : Db} (h : Adds db db') (h' : Adds db' db'') : Adds db db'' :=
  ⟨fun k r hr => h'.runs k r (h.runs k r hr), fun k hk => h'.tasks k (h.tasks k hk),
    fun k hk => (h'.bindings k (h.tasks k hk)).trans (h.bindings k hk)⟩

theorem startChild_tasks (h : startChild db taskId runId title description agentId now = .ok db') :
    db.tasks.get? taskId = none ∧
      ∀ k, (db'.tasks.get? k).isSome = true ↔ k = taskId ∨ (db.tasks.get? k).isSome = true := by
  obtain ⟨task, rfl, hpending, hfresh, h⟩ := startChild_eq_ok h
  obtain ⟨-, tasks, htasks, rfl⟩ := startRunInUow_eq_ok h
  -- the task is PENDING, so it is started and written once more
  obtain ⟨-, rfl⟩ := htasks.resolve_left fun hactive => by rw [hpending] at hactive; cases hactive.1
  refine ⟨hfresh, fun k => ?_⟩
  show (((db.tasks.put task).put _).get? k).isSome = true ↔ _
  rw [get?_put, get?_put]
  by_cases hk : task.id = k
  · simp [hk]
  · simp [hk, Ne.symm hk]

theorem startChild_adds (h : startChild db taskId runId title description agentId now = .ok db') :
    Adds db db' := by
  obtain ⟨hfresh, htasks⟩ := startChild_tasks h
  obtain ⟨hfreshRun, hcore⟩ := startChild_core h
  refine ⟨fun k r hr => ?_, fun k hk => (htasks k).2 (.inr hk), fun k hk => ?_⟩
  · rw [congrArg Core.runs hcore]
    exact get?_put_fresh hfreshRun hr
  · rw [congrArg Core.taskAgentBindings hcore]
    refine TaskAgentBindings.get?_replace_ne (fun b hb => by cases hb; rfl) fun e => ?_
    rw [← e, hfresh] at hk
    cases hk

theorem recorded_sameWorkflows (s : Sched) (n : WorkflowNodeExecution) (type : RunEventType)
    (now : Time) : SameWorkflows s.2 (recorded s n type now).2 ∧
      (recorded s n type now).2.workflowNodeExecutions = s.2.workflowNodeExecutions.put n := by
  obtain ⟨events, h⟩ := emitNodeEvent_frame { s.2 with workflowNodeExecutions := s.2.workflowNodeExecutions.put n } n type
    now
  rw [recorded, h]
  exact ⟨⟨rfl, rfl, rfl, rfl, rfl⟩, rfl⟩

/-- A report ends the node. -/
theorem ChildReport.apply_ended {report : ChildReport}
    (hd : n.status = .dispatched) (h : report.apply n now = .ok n') :
    Same n n' ∧ n'.status.isTerminal = true ∧ n.status ∈ WorkflowNodeExecutions.expectedStatuses n'.status := by
  rw [hd]
  cases report with
  | succeeded payload =>
    obtain ⟨hsame, -, hs⟩ := succeed_moves h
    exact ⟨hsame, by rw [hs]; rfl, by rw [hs]; decide⟩
  | failed code message =>
    obtain ⟨hsame, -, hs⟩ := fail_moves h
    exact ⟨hsame, by rw [hs]; rfl, by rw [hs]; decide⟩
  | cancelled =>
    obtain ⟨hsame, -, hs⟩ := cancel_moves h
    exact ⟨hsame, by rw [hs]; rfl, by rw [hs]; decide⟩

/-- A node that moves is replaced; it was not terminal and is not PENDING any more. -/
structure Replaced (s s' : Sched) (n n' : WorkflowNodeExecution) : Prop where
  mem : n ∈ s.1
  same : Same n n'
  live : n.status.isTerminal = false
  moved : n'.status ≠ .pending
  list : s'.1 = replaceNode s.1 n'
  rows : s'.2.workflowNodeExecutions = s.2.workflowNodeExecutions.put n'
  frame : SameWorkflows s.2 s'.2

variable {b : Blueprint} {e : WorkflowExecutionId} {now : Time} {reports : Reports}
  {s s' : Sched}

theorem Replaced.of_recorded {type : RunEventType} (mem : n ∈ s.1) (same : Same n n')
    (live : n.status.isTerminal = false) (moved : n'.status ≠ .pending) :
    Replaced s (recorded s n' type now) n n' :=
  ⟨mem, same, live, moved, rfl, (recorded_sameWorkflows s n' type now).2,
    (recorded_sameWorkflows s n' type now).1⟩

theorem Replaced.dispatch {executionId : RunId}
    (mem : n ∈ s.1) (child : startChild s.2 taskId runId title description n.targetAgentId now = .ok db)
    (move : n.dispatch taskId runId executionId now = .ok n') :
    Replaced s (recorded (s.1, db) n' .workflowNodeDispatched now) n n' := by
  obtain ⟨hsame, hpending, hmoved⟩ := dispatch_moves move
  obtain ⟨hframe, hrows⟩ := startChild_sameWorkflows child
  obtain ⟨hframe', hrows'⟩ := recorded_sameWorkflows (s.1, db) n' .workflowNodeDispatched now
  exact ⟨mem, hsame, by rw [hpending]; rfl, by rw [hmoved]; nofun, rfl, hrows'.trans (by rw [hrows]),
    hframe.trans hframe'⟩

theorem Replaced.block {code message : String} (mem : n ∈ s.1)
    (move : n.block now code message = .ok n') :
    Replaced s (recorded s n' .workflowNodeBlocked now) n n' := by
  obtain ⟨hsame, hpending, hmoved⟩ := block_moves move
  exact .of_recorded mem hsame (by rw [hpending]; rfl) (by rw [hmoved]; nofun)

theorem Replaced.report {report : ChildReport} (mem : n ∈ s.1) (dispatched : n.status = .dispatched)
    (move : report.apply n now = .ok n') : Replaced s (recorded s n' report.event now) n n' := by
  obtain ⟨hsame, hended, -⟩ := ChildReport.apply_ended dispatched move
  refine .of_recorded mem hsame (by rw [dispatched]; rfl) fun hp => ?_
  rw [hp] at hended
  cases hended

theorem SchedStep.replaced (h : SchedStep b now reports s s') : ∃ n n', Replaced s s' n n' := by
  cases h with
  | dispatch mem ready fits child move => exact ⟨_, _, .dispatch mem child move⟩
  | block mem why move => exact ⟨_, _, .block mem move⟩
  | report mem dispatched reported move => exact ⟨_, _, .report mem dispatched move⟩

theorem Replaced.tracks (h : Replaced s s' n n') (ht : Tracks b e s) : Tracks b e s' where
  list := by
    have hrow := (ht.row h.mem).1
    rw [h.list, h.rows, WorkflowNodeExecutions.listByExecution_put hrow h.same, ← ht.list, replaceNode]
    refine List.map_congr_left fun x hx => ?_
    -- among the rows of one execution the node and the row id say the same
    by_cases hk : x = n
    · subst hk
      rw [if_pos h.same.workflowNodeId.symm, if_pos rfl]
    · have hnode : x.workflowNodeId ≠ n'.workflowNodeId := fun hid =>
        hk (ht.eq_of_id hx h.mem (hid.trans h.same.workflowNodeId))
      have hid : n.id ≠ x.id := fun hid => hk <| by
        have hget := (ht.row hx).1
        rw [← hid, hrow] at hget
        exact (Option.some.inj hget).symm
      rw [if_neg hnode, if_neg hid]
  blueprint := (h.frame.blueprint e).trans ht.blueprint
  dag := ht.dag
  perm := by
    rw [h.list, map_id_replaceNode]
    exact ht.perm

theorem Replaced.mem_iff (h : Replaced s s' n n') :
    m ∈ s'.1 ↔ m = n' ∨ (m ∈ s.1 ∧ m.workflowNodeId ≠ n.workflowNodeId) := by
  rw [h.list, mem_replaceNode, h.same.workflowNodeId]
  exact or_congr_left (and_iff_left ⟨n, h.mem, rfl⟩)

theorem Replaced.terminal_mem (h : Replaced s s' n n') (ht : Tracks b e s) (hm : m ∈ s.1)
    (hterminal : m.status.isTerminal = true) : m ∈ s'.1 := by
  refine h.mem_iff.2 (.inr ⟨hm, fun hid => ?_⟩)
  rw [ht.eq_of_id hm h.mem hid, h.live] at hterminal
  cases hterminal

/-- The nodes of other executions are not touched. -/
theorem Replaced.others (h : Replaced s s' n n') (ht : Tracks b e s)
    {e' : WorkflowExecutionId} (hne : e' ≠ e) :
    s'.2.workflowNodeExecutions.listByExecution e' = s.2.workflowNodeExecutions.listByExecution e' := by
  obtain ⟨hrow, he⟩ := ht.row h.mem
  rw [h.rows]
  exact WorkflowNodeExecutions.listByExecution_put_ne hrow h.same (by rw [he]; exact hne.symm)

theorem recorded_frame (s : Sched) (n : WorkflowNodeExecution) (type : RunEventType) (now : Time) :
    (recorded s n type now).2.toCore = s.2.toCore ∧ (recorded s n type now).2.tasks = s.2.tasks := by
  obtain ⟨events, h⟩ := emitNodeEvent_frame { s.2 with workflowNodeExecutions := s.2.workflowNodeExecutions.put n } n type
    now
  rw [recorded, h]
  exact ⟨rfl, rfl⟩

theorem recorded_adds (s : Sched) (n : WorkflowNodeExecution) (type : RunEventType) (now : Time) :
    Adds s.2 (recorded s n type now).2 := by
  obtain ⟨hcore, htasks⟩ := recorded_frame s n type now
  exact ⟨fun _ _ h => by rw [hcore]; exact h, fun _ h => by rw [htasks]; exact h, fun _ _ => by rw [hcore]⟩

theorem SchedStep.adds (h : SchedStep b now reports s s') : Adds s.2 s'.2 := by
  cases h with
  | @dispatch n n' taskId runId title description db mem ready fits child move =>
    exact (startChild_adds child).trans (recorded_adds (s.1, db) n' .workflowNodeDispatched now)
  | block mem why move | report mem dispatched reported move => exact recorded_adds _ _ _ _

section
variable (h : SchedSteps b now reports s s')
include h

theorem SchedSteps.adds : Adds s.2 s'.2 := by
  induction h with
  | refl => exact .refl _
  | tail _ hstep ih => exact ih.trans hstep.adds

theorem SchedSteps.tracks (ht : Tracks b e s) : Tracks b e s' := by
  induction h with
  | refl => exact ht
  | tail _ hstep ih =>
    obtain ⟨n, n', hr⟩ := hstep.replaced
    exact hr.tracks ih

theorem SchedSteps.frame : SameWorkflows s.2 s'.2 := by
  induction h with
  | refl => exact .refl _
  | tail _ hstep ih =>
    obtain ⟨n, n', hr⟩ := hstep.replaced
    exact ih.trans hr.frame

theorem SchedSteps.others (ht : Tracks b e s) {e' : WorkflowExecutionId} (hne : e' ≠ e) :
    s'.2.workflowNodeExecutions.listByExecution e' = s.2.workflowNodeExecutions.listByExecution e' := by
  induction h with
  | refl => rfl
  | tail hs hstep ih =>
    obtain ⟨n, n', hr⟩ := hstep.replaced
    exact (hr.others (SchedSteps.tracks hs ht) hne).trans ih

end

/-! ## The scheduler -/

def pendingCount (nodes : List WorkflowNodeExecution) : Nat := nodes.countP (·.status = .pending)

/-- The scheduler has nothing to do for the node. -/
def Idle (b : Blueprint) (nodes : List WorkflowNodeExecution) (id : WorkflowNodeId) : Prop :=
  ∀ n ∈ nodes, n.workflowNodeId = id → n.status = .pending → ¬b.Ready nodes id ∧ ¬b.Lost nodes id

theorem Tracks.pendingCount_lt (ht : Tracks b e s) (hn : n ∈ s.1) (same : Same n n')
    (hpending : n.status = .pending) (hmoved : n'.status ≠ .pending) :
    pendingCount (replaceNode s.1 n') < pendingCount s.1 := by
  have hcount := countP_replaceNode (fun x => decide (x.status = .pending)) ht.ids hn
    same.workflowNodeId
  simp only [hmoved, hpending, decide_true, decide_false, if_true, Bool.false_eq_true,
    if_false] at hcount
  unfold pendingCount
  omega

theorem blockNode_step {code message : String} (ht : Tracks b e s) (hn : n ∈ s.1)
    (hwhy : b.Blocks s.1 n.workflowNodeId code message) (h : blockNode s n code message now = .ok s') :
    SchedStep b now reports s s' ∧ pendingCount s'.1 < pendingCount s.1 := by
  obtain ⟨n', hmove, h⟩ := bind_ok h
  obtain ⟨hsame, hpending, hblocked⟩ := block_moves hmove
  rw [recordNode_eq _ _ (ht.row hn).1 hsame (by rw [hpending, hblocked]; decide)] at h
  cases h
  exact ⟨.block hn hwhy hmove, ht.pendingCount_lt hn hsame hpending (by rw [hblocked]; nofun)⟩

variable {ids : WorkflowIds}

/-- A ready node is dispatched, or blocked because its context is too large. -/
theorem dispatchNode_step (ht : Tracks b e s)
    (hn : n ∈ s.1) (hpending : n.status = .pending) (hready : b.Ready s.1 n.workflowNodeId)
    (h : dispatchNode ids s n d now = .ok s') : SchedStep b now reports s s' ∧ pendingCount s'.1 < pendingCount s.1 := by
  obtain ⟨hrow, hexecution⟩ := ht.row hn
  -- a context that is built or too large is the blueprint's
  have hcontext : ∀ {result}, buildWorkflowNodeContext s.2 n = result → (∀ message, result ≠ .error (.invalid message)) →
      ∃ d, b.revision.nodes.find? (·.id = n.workflowNodeId) = some d ∧ b.context s.1 d = result := by
    rintro _ rfl hvalid
    obtain ⟨d, hd, hbuild⟩ := buildWorkflowNodeContext_of_blueprint (by rw [hexecution]; exact ht.blueprint) hvalid
    rw [hexecution, ← ht.list] at hbuild
    exact ⟨d, hd, hbuild.symm⟩
  unfold dispatchNode at h
  rw [if_neg (not_not.2 hpending)] at h
  split at h
  · cases h
  · next message hlarge =>
    obtain ⟨d, hd, hcontext⟩ := hcontext hlarge nofun
    exact blockNode_step ht hn (.context hready ⟨d, hd, hcontext⟩) h
  · next text hfits =>
    obtain ⟨d', hd, hcontext⟩ := hcontext hfits nofun
    obtain ⟨db, hchild, h⟩ := bind_ok h
    -- the child that is found is the one just created
    have hnew : db.runs.get? (ids.childRun d.id) = some (Run.new (ids.childRun d.id) (ids.childTask d.id) now none) := by
      rw [(startChild_core hchild).2]
      exact get?_put_self _ _
    obtain ⟨child, hfound, h⟩ := bind_ok h
    obtain rfl : child = Run.new (ids.childRun d.id) (ids.childTask d.id) now none :=
      (Option.some.inj (hnew.symm.trans (found_eq_ok.1 hfound))).symm
    obtain ⟨n', hmove, h⟩ := bind_ok h
    obtain ⟨hsame, -, hdispatched⟩ := dispatch_moves hmove
    have hrow' : (s.1, db).2.workflowNodeExecutions.get? n.id = some n := by
      rw [(startChild_sameWorkflows hchild).2]
      exact hrow
    rw [recordNode_eq _ _ hrow' hsame (by rw [hpending, hdispatched]; decide)] at h
    cases h
    exact ⟨.dispatch hn hready ⟨d', text, hd, hcontext⟩ hchild hmove,
      ht.pendingCount_lt hn hsame hpending (by rw [hdispatched]; nofun)⟩

theorem scheduleNode_step {changed : Bool} (ht : Tracks b e s)
    (h : scheduleNode ids b.revision.edges now s d = .ok (changed, s')) :
    (changed = false ∧ s' = s ∧ Idle b s.1 d.id) ∨
      (changed = true ∧ SchedStep b now reports s s' ∧ pendingCount s'.1 < pendingCount s.1) := by
  unfold scheduleNode at h
  split at h
  · next hnone =>
    cases h
    refine .inl ⟨rfl, rfl, fun n hn hid => ?_⟩
    exact absurd hid (by simpa using List.find?_eq_none.1 hnone n hn)
  · next n hfind =>
    obtain ⟨hn, hid⟩ := of_find? hfind
    split at h
    · next hstatus =>
      cases h
      refine .inl ⟨rfl, rfl, fun m hm hmid hpending => absurd hpending ?_⟩
      rw [ht.eq_of_id hm hn (hmid.trans hid.symm)]
      exact hstatus
    · next hstatus =>
      dsimp only at h
      split at h
      · next hlost =>
        obtain ⟨s₁, hblock, h⟩ := bind_ok h
        cases h
        rw [← hid, ht.any_lost] at hlost
        exact .inr ⟨rfl, blockNode_step ht hn (.predecessor hlost) hblock⟩
      · next hlost =>
        split at h
        · next hready =>
          obtain ⟨s₁, hdispatch, h⟩ := bind_ok h
          cases h
          rw [← hid, ht.all_succeeded] at hready
          exact .inr ⟨rfl, dispatchNode_step ht hn (not_not.1 hstatus) hready hdispatch⟩
        · next hready =>
          cases h
          refine .inl ⟨rfl, rfl, fun _ _ _ _ => ?_⟩
          rw [ht.any_lost] at hlost
          rw [ht.all_succeeded] at hready
          exact ⟨hready, hlost⟩

/-- A pass that reports no change has changed nothing and found every node idle; one that reports a
change has taken a node out of PENDING. -/
theorem schedulePass_steps : ∀ {definitions : List WorkflowNode} {before changed : Bool} {s s' : Sched},
    Tracks b e s → schedulePass ids b.revision.edges now before s definitions = .ok (changed, s') →
    SchedSteps b now reports s s' ∧ pendingCount s'.1 ≤ pendingCount s.1 ∧
      (changed = false → before = false ∧ s' = s ∧ ∀ d ∈ definitions, Idle b s.1 d.id) ∧
      (changed = true → before = true ∨ pendingCount s'.1 < pendingCount s.1)
  | [], before, _, s, _, _, h => by
    cases h
    exact ⟨.refl, le_rfl, fun h => ⟨h, rfl, nofun⟩, .inl⟩
  | d :: definitions, before, changed, s, s', ht, h => by
    obtain ⟨⟨c, mid⟩, hnode, hpass⟩ := bind_ok h
    rcases scheduleNode_step ht hnode with ⟨rfl, rfl, hidle⟩ | ⟨rfl, hstep, hless⟩
    · obtain ⟨hsteps, hle, hsame, hchanged⟩ := schedulePass_steps ht hpass
      rw [Bool.or_false] at hsame hchanged
      refine ⟨hsteps, hle, fun hc => ?_, hchanged⟩
      obtain ⟨hbefore, hs, hrest⟩ := hsame hc
      exact ⟨hbefore, hs, List.forall_mem_cons.2 ⟨hidle, hrest⟩⟩
    · obtain ⟨hsteps, hle, hsame, -⟩ := schedulePass_steps (SchedSteps.tracks (.single hstep) ht) hpass
      refine ⟨.head hstep hsteps, by omega, fun hc => ?_, fun _ => .inr (by omega)⟩
      have := (hsame hc).1
      rw [Bool.or_true] at this
      cases this

/-- With more passes than PENDING nodes the loop ends where every node is idle. -/
theorem scheduleLoop_steps : ∀ {fuel : Nat} {s s' : Sched}, Tracks b e s → pendingCount s.1 < fuel →
    scheduleLoop ids b.revision now fuel s = .ok s' →
    SchedSteps b now reports s s' ∧ ∀ d ∈ b.revision.nodes, Idle b s'.1 d.id
  | fuel + 1, s, s', ht, hfuel, h => by
    obtain ⟨⟨changed, mid⟩, hpass, h⟩ := bind_ok h
    obtain ⟨hsteps, hle, hsame, hless⟩ := schedulePass_steps ht hpass
    dsimp only at h
    split at h
    · next hc =>
      have hmid : pendingCount mid.1 < pendingCount s.1 := (hless hc).resolve_left nofun
      obtain ⟨hrest, hidle⟩ := scheduleLoop_steps (hsteps.tracks ht) (by omega) h
      exact ⟨hsteps.trans hrest, hidle⟩
    · next hc =>
      cases h
      obtain ⟨-, rfl, hidle⟩ := hsame (Bool.eq_false_of_not_eq_true hc)
      exact ⟨.refl, fun d hd => hidle d (List.mem_insertionSort _ |>.2 hd)⟩

/-- Nothing is left to schedule. -/
def Settled (b : Blueprint) (nodes : List WorkflowNodeExecution) : Prop :=
  ∀ n ∈ nodes, n.status = .pending → ¬b.Ready nodes n.workflowNodeId ∧
    ¬b.Lost nodes n.workflowNodeId

theorem scheduleToFixedPoint_steps (ht : Tracks b e s)
    (h : scheduleToFixedPoint ids b.revision now s = .ok s') : SchedSteps b now reports s s' ∧ Settled b s'.1 := by
  have hfuel : pendingCount s.1 < b.revision.nodes.length + 1 :=
    Nat.lt_succ_of_le (ht.length ▸ List.countP_le_length)
  obtain ⟨hsteps, hidle⟩ := scheduleLoop_steps ht hfuel h
  refine ⟨hsteps, fun n hn hpending => ?_⟩
  have hid : n.workflowNodeId ∈ b.revision.nodes.map (·.id) :=
    (hsteps.tracks ht).perm.mem_iff.1 (List.mem_map_of_mem hn)
  obtain ⟨d, hd, hdid⟩ := List.mem_map.1 hid
  exact hdid ▸ hidle d hd n hn hdid.symm hpending

/-- The nodes without predecessor are ready. -/
theorem dispatchRoots_steps : ∀ {definitions : List WorkflowNode} {s s' : Sched}, Tracks b e s →
    dispatchRoots ids b.revision.edges now s definitions = .ok s' → SchedSteps b now reports s s'
  | [], _, _, _, h => by cases h; exact .refl
  | d :: definitions, s, s', ht, h => by
    unfold dispatchRoots at h
    split at h
    · next n hfind hroot =>
      obtain ⟨mid, hnode, h⟩ := bind_ok h
      obtain ⟨hn, hid⟩ := of_find? hfind
      by_cases hpending : n.status = .pending
      · have hready : b.Ready s.1 n.workflowNodeId := fun m _ hp => by
          rw [hid, Blueprint.predecessors, hroot] at hp
          cases hp
        have hstep : SchedStep b now reports s mid := (dispatchNode_step ht hn hpending hready hnode).1
        exact .head hstep (dispatchRoots_steps (SchedSteps.tracks (.single hstep) ht) h)
      · unfold dispatchNode at hnode
        rw [if_pos hpending] at hnode
        cases hnode
        exact dispatchRoots_steps ht h
    · exact dispatchRoots_steps ht h

/-! ## Reconciliation -/

/-- The events a result is read from. -/
def finishedEvents (db : Db) : List RunEvent := db.events.filter (·.type = .agentFinished)

theorem ChildReport.of?_congr (hruns : db'.runs = db.runs)
    (hevents : finishedEvents db' = finishedEvents db) (n : WorkflowNodeExecution) (now : Time) :
    ChildReport.of? db' n now = ChildReport.of? db n now := by
  have hresult : ∀ child, boundedChildResult db' child now = boundedChildResult db child now := fun child => by
    have hfilter : ∀ db : Db, (db.events.filter fun e => e.runId = child.id && e.type = .agentFinished) =
        (finishedEvents db).filter (·.runId = child.id) := fun db => by rw [finishedEvents, List.filter_filter]
    rw [boundedChildResult, boundedChildResult, hfilter, hfilter, hevents]
  have hrun : ∀ child, ChildReport.ofRun db' child now = ChildReport.ofRun db child now := fun child => by
    rw [ChildReport.ofRun, ChildReport.ofRun, hresult]
  simp only [ChildReport.of?, hruns, hrun]

theorem emitNodeEvent_finished {type : RunEventType}
    (htype : type ≠ .agentFinished) :
    finishedEvents (emitNodeEvent db n type now) = finishedEvents db := by
  unfold emitNodeEvent
  split
  · rfl
  · unfold emitWorkflowEvent
    split
    · rfl
    · dsimp only
      split
      · rfl
      · simp [finishedEvents, appendRunEvents, numbered, htype]

/-- A terminal node stays. -/
theorem SchedSteps.terminal_mem (h : SchedSteps b now reports s s') (ht : Tracks b e s)
    (hm : m ∈ s.1) (hterminal : m.status.isTerminal = true) : m ∈ s'.1 := by
  induction h with
  | refl => exact hm
  | tail hs hstep ih =>
    obtain ⟨n, n', hr⟩ := hstep.replaced
    exact hr.terminal_mem (SchedSteps.tracks hs ht) ih hterminal

/-- Every DISPATCHED node of the list whose child has ended takes over what it ended with. -/
theorem reconcileChildren_steps : ∀ {nodes : List WorkflowNodeExecution} {s s' : Sched},
    Tracks b e s → (∀ n ∈ nodes, ChildReport.of? s.2 n now = reports n) →
    (nodes.map (·.workflowNodeId)).Nodup → (∀ n ∈ nodes, n ∈ s.1) →
      reconcileChildren now s nodes = .ok s' → SchedSteps b now reports s s' ∧ ∀ n ∈ nodes,
        n.status = .dispatched → (reports n).isSome = true → ∃ n' ∈ s'.1,
        n'.workflowNodeId = n.workflowNodeId ∧ n'.status.isTerminal = true
  | [], _, _, _, _, _, _, h => by cases h; exact ⟨.refl, fun _ hn => absurd hn List.not_mem_nil⟩
  | n :: nodes, s, s', ht, hreports, hids, hall, h => by
    obtain ⟨hfresh, hids⟩ := List.nodup_cons.1 hids
    obtain ⟨hn, hrest⟩ := List.forall_mem_cons.1 hall
    obtain ⟨hreported, hreports⟩ := List.forall_mem_cons.1 hreports
    -- a node that has nothing to report is passed over
    have hskip : ¬(n.status = .dispatched ∧ (reports n).isSome = true) →
        reconcileChildren now s nodes = .ok s' → SchedSteps b now reports s s' ∧ ∀ m ∈ n :: nodes,
          m.status = .dispatched → (reports m).isSome = true → ∃ n' ∈ s'.1,
          n'.workflowNodeId = m.workflowNodeId ∧ n'.status.isTerminal = true := fun hsilent h => by
      obtain ⟨hsteps, hheard⟩ := reconcileChildren_steps ht hreports hids hrest h
      exact ⟨hsteps, List.forall_mem_cons.2 ⟨fun hd hr => absurd ⟨hd, hr⟩ hsilent, hheard⟩⟩
    unfold reconcileChildren at h
    split at h
    · next hstatus => exact hskip (fun hn => hstatus hn.1) h
    · next hstatus =>
      have hdispatched := not_not.1 hstatus
      obtain ⟨executionId, hchild, h⟩ := bind_ok h
      have hreport : reports n = (s.2.runs.getLatestForExecution executionId).bind fun child =>
          ChildReport.ofRun s.2 child now := by
        rw [← hreported, ChildReport.of?, found_eq_ok.1 hchild, Option.bind_some]
      dsimp only at h
      split at h
      · next hlatest =>
        refine hskip (fun hn => ?_) h
        rw [hreport, hlatest] at hn
        cases hn.2
      · next child hlatest =>
        rw [hlatest, Option.bind_some] at hreport
        obtain ⟨mid, hnode, h⟩ := bind_ok h
        rw [reconcileChild_eq] at hnode
        split at hnode
        · next hnone =>
          cases hnode
          refine hskip (fun hn => ?_) h
          rw [hreport, hnone] at hn
          cases hn.2
        · next report hsome =>
          obtain ⟨n', hmove, hnode⟩ := bind_ok hnode
          obtain ⟨hsame, hended, hexpected⟩ := ChildReport.apply_ended hdispatched hmove
          rw [recordNode_eq _ _ (ht.row hn).1 hsame hexpected] at hnode
          cases hnode
          have hstep : SchedStep b now reports s (recorded s n' report.event now) :=
            .report hn hdispatched (hreport.trans hsome) hmove
          have htracks := SchedSteps.tracks (.single hstep) ht
          -- what a child has to report does not depend on the reports recorded before
          have htype : report.event ≠ .agentFinished := by cases report <;> nofun
          have hruns : (recorded s n' report.event now).2.runs = s.2.runs := by rw [(recorded_frame _ _ _ _).1]
          have hreports' := ChildReport.of?_congr hruns (emitNodeEvent_finished htype)
          obtain ⟨hsteps, hheard⟩ := reconcileChildren_steps htracks (fun m hm => (hreports' m now).trans (hreports m hm)) hids
            (fun m hm => mem_replaceNode.2 (.inr ⟨hrest m hm, fun hid => hfresh
              (List.mem_map.2 ⟨m, hm, hid.trans hsame.workflowNodeId⟩)⟩)) h
          have hn' : n' ∈ s'.1 := SchedSteps.terminal_mem hsteps htracks
            (mem_replaceNode.2 (.inl ⟨rfl, n, hn, hsame.workflowNodeId.symm⟩)) hended
          exact ⟨.head hstep hsteps, List.forall_mem_cons.2 ⟨fun _ _ => ⟨n', hn', hsame.workflowNodeId, hended⟩, hheard⟩⟩

end Friday.Runs
