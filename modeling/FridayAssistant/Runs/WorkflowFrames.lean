import FridayAssistant.Runs.WorkflowCommits
/-!
# What the other use cases leave alone

No use case but `StartWorkflowExecution` and `ReconcileWorkflowExecution` writes an execution, a
node of one, or what an execution has frozen; none takes away a task, an attempt, or the agent a
child task of a node is bound to (`Frozen`). `ReplaceTaskAgent` refuses the child tasks of nodes,
and every other binding is written for a task that is new.
-/
namespace Friday.Runs
open Tables Queue Relation PyJson

/-- Executions, nodes and what they rest on are as they were. -/
structure Frozen (db db' : Db) : Prop where
  executions : db'.workflowExecutions = db.workflowExecutions
  nodes : db'.workflowNodeExecutions = db.workflowNodeExecutions
  persists : Persists db db'
  tasks : ∀ k, (db.tasks.get? k).isSome = true → (db'.tasks.get? k).isSome = true
  attempts : KeepsAttempts db.toCore db'.toCore
  bindings : ∀ n ∈ db.workflowNodeExecutions.rows, ∀ t, n.childTaskId = some t →
    db'.taskAgentBindings.get? t = db.taskAgentBindings.get? t

/-- `StartWorkflowExecution` and `ReconcileWorkflowExecution`. -/
def RunAction.isWorkflow : RunAction → Bool
  | .startWorkflowExecution .. | .reconcileWorkflowExecution .. => true
  | _ => false

/-- What the use cases that are not spelled out do not do: definitions and resolutions are only
added to, a workflow keeps its key, no task is deleted, and nodes are left to the workflow use
cases. -/
def RespectsWorkflows (db : Db) : RunAction → Prop
  | .elsewhere other => other.workflowNodeExecutions = db.workflowNodeExecutions ∧
      Persists db { other with toCore := db.toCore } ∧
      ∀ k, (db.tasks.get? k).isSome = true → (other.tasks.get? k).isSome = true
  | _ => True

/-- Tasks are written, and never deleted. -/
theorem Entry.task_kept {R : RunId → Prop} {F A : Prop} {j j' : Journal} (h : Entry R F A j j')
    {k : TaskId} (hk : (j.tasks.get? k).isSome = true) : (j'.tasks.get? k).isSome = true := by
  have hput : ∀ t : Task, ((j.tasks.put t).get? k).isSome = true := by
    intro t
    rw [Table.get?_put]
    split
    · rfl
    · exact hk
  cases h with
  | newTask => exact hput _
  | task => exact hput _
  | _ => exact hk

theorem Entries.task_kept {R : RunId → Prop} {F A : Prop} {j j' : Journal} (h : Entries R F A j j')
    {k : TaskId} (hk : (j.tasks.get? k).isSome = true) : (j'.tasks.get? k).isSome = true := by
  induction h with
  | refl => exact hk
  | tail _ hstep ih => exact hstep.task_kept ih

theorem frozen_of_fixed {db db' : Db} (h : db'.fixed = db.fixed)
    (hattempts : KeepsAttempts db.toCore db'.toCore)
    (htasks : ∀ k, (db.tasks.get? k).isSome = true → (db'.tasks.get? k).isSome = true) :
    Frozen db db' := by
  simp only [Db.fixed, Prod.mk.injEq] at h
  obtain ⟨hexecutions, hbindings, hnodes, hresolutions, hworkflows, hrevisions, hagents⟩ := h
  refine ⟨hexecutions, hnodes, ⟨fun k r hr => ?_, fun k r hr => ?_, fun k r hr => ?_,
    fun k w hw => ⟨w, ?_, rfl⟩⟩, htasks, hattempts, fun _ _ t _ => by rw [hbindings]⟩
  · rw [hresolutions]; exact hr
  · rw [hrevisions]; exact hr
  · rw [hagents]; exact hr
  · rw [hworkflows]; exact hw

section
variable {cfg : Config} {db db' : Db} {now : Time}

/-- A child that is no node's child: its task is new, so it is not the child task of a node. -/
theorem materializeDelegation_frozen {parent : Run} {request q : DelegationRequest}
    {ids : DispatchIds} {claim : ClaimTriple} (hchildren : ∀ n ∈ db.workflowNodeExecutions.rows,
      ∀ t, n.childTaskId = some t → (db.tasks.get? t).isSome = true)
    (hattempts : KeepsAttempts db.toCore db'.toCore)
    (h : materializeDelegation db parent request ids claim now = .ok (q, db')) : Frozen db db' := by
  obtain ⟨db₁, hchild, dispatched, -, h⟩ := bind_ok₂ h
  obtain ⟨requests, -, waiting, -, h⟩ := bind_ok₂ h
  obtain ⟨items, -, h⟩ := bind_ok h
  cases h
  obtain ⟨hsame, hnodes⟩ := startChild_sameWorkflows hchild
  obtain ⟨hfresh, htasks⟩ := startChild_tasks hchild
  obtain ⟨-, hcore⟩ := startChild_core hchild
  have hbindings : db₁.taskAgentBindings = db.taskAgentBindings.replace ids.childTaskId
      (some ⟨ids.childTaskId, request.targetAgentId, now⟩) := by rw [hcore]; rfl
  have hpersists := hsame.persists
  refine ⟨hsame.executions, hnodes, ⟨hpersists.resolutions, hpersists.revisions,
    hpersists.agentRevisions, hpersists.workflows⟩, fun k hk => (htasks k).2 (.inr hk), hattempts,
    fun n hn t ht => ?_⟩
  show db₁.taskAgentBindings.get? t = db.taskAgentBindings.get? t
  rw [hbindings]
  refine TaskAgentBindings.get?_replace_ne (fun b hb => by cases hb; rfl) fun hk => ?_
  have hsome := hchildren n hn t ht
  rw [← hk, hfresh] at hsome
  cases hsome

/-- `ReplaceTaskAgent` refuses the child task of a node. -/
theorem replaceTaskAgent_frozen {taskId : TaskId} {agentId : Option AgentId}
    {binding : Option TaskAgentBinding} (hattempts : KeepsAttempts db.toCore db'.toCore)
    (h : replaceTaskAgent db taskId agentId now = .ok (binding, db')) : Frozen db db' := by
  obtain ⟨_, h⟩ := bind_rest h
  obtain ⟨_, hfree, h⟩ := bind_ok h
  obtain ⟨_, _, h⟩ := bind_rest₂ h
  obtain ⟨b, hnew, h⟩ := bind_ok h
  cases h
  have hbinding : ∀ b, binding = some b → b.taskId = taskId := by
    intro b hb
    unfold newBinding at hnew
    split at hnew
    · cases hnew; cases hb
    · obtain ⟨_, _, hnew⟩ := bind_rest₂ hnew
      cases hnew
      cases hb
      rfl
  refine ⟨rfl, rfl, ⟨fun _ _ h => h, fun _ _ h => h, fun _ _ h => h, fun _ w h => ⟨w, h, rfl⟩⟩, fun _ h => h, hattempts,
    fun n hn t ht => TaskAgentBindings.get?_replace_ne hbinding fun hk => ?_⟩
  have hnone := List.find?_eq_none.1 (Option.isNone_iff_eq_none.1 (require_eq_ok.1 hfree)) n hn
  rw [ht, hk] at hnone
  simp at hnone

end

/-- No other use case touches a workflow. -/
theorem act_frozen {cfg : Config} {db db' : Db} {a : RunAction}
    (hchildren : ∀ n ∈ db.workflowNodeExecutions.rows, ∀ t, n.childTaskId = some t → (db.tasks.get? t).isSome = true)
    (hworkflow : a.isWorkflow = false) (hrespects : RespectsWorkflows db a)
    (h : act cfg db a = .ok db') : Frozen db db' := by
  have hattempts : KeepsAttempts db.toCore db'.toCore :=
    .of_moves (act_moves (g := .free) (allowed_free db a) (fun _ _ _ => trivial) h)
  cases hcalm : a.isCalm with
  | true =>
    have htells : tellsElsewhere db a := by
      cases a with
      | elsewhere other => cases hcalm
      | _ => trivial
    obtain ⟨-, hentries, hfixed⟩ := act_writes (F := True) (A := True) (allowed_free db a)
      (fun _ _ _ _ => trivial) htells (fun _ _ _ _ => .inl trivial) (fun _ => trivial) h
    exact frozen_of_fixed (hfixed hcalm) hattempts fun k hk => hentries.task_kept hk
  | false =>
    cases a with
    | dispatchDelegation intent targetKey ids claim now =>
      obtain ⟨_, h⟩ := map_snd_eq_ok.1 h
      obtain ⟨_, _, _, h⟩ := bind_rest₃ h
      obtain ⟨⟨_, _⟩, -, h⟩ := bind_ok h
      obtain ⟨_, _, _, h⟩ := bind_rest₃ h
      obtain ⟨_, _, h⟩ := bind_rest₂ h
      exact materializeDelegation_frozen hchildren hattempts h
    | replaceTaskAgent taskId agentId now => exact of_map_snd h (replaceTaskAgent_frozen hattempts)
    | elsewhere other =>
      cases h
      obtain ⟨hnodes, hpersists, htasks⟩ := hrespects
      exact ⟨rfl, hnodes, hpersists, htasks, hattempts, fun _ _ _ _ => rfl⟩
    | startWorkflowExecution => cases hworkflow
    | reconcileWorkflowExecution => cases hworkflow
    | _ => cases hcalm

end Friday.Runs
