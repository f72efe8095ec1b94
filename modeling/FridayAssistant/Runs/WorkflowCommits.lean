import FridayAssistant.Runs.NodeInvariants
/-!
# What a workflow commit does to an execution

`StartWorkflowExecution` and `ReconcileWorkflowExecution` each work on one execution: its nodes take
steps until nothing is left to schedule, and the execution ends once all of them are terminal
(`Advances`). Every other execution and all definitions stay as they are (`Untouched`).
-/
namespace Friday.Runs
open Tables Table Queue Relation PyJson
open WorkflowNodeExecution (Same)

/-! ## Definitions that are loaded -/

variable {cfg : Config} {db db' : Db} {workflowId : WorkflowId} {x : WorkflowExecution}
  {nodes : List WorkflowNodeExecution} {now : Time} {ids : WorkflowIds} {claim : ClaimTriple}

theorem validateRevisionIntegrity_eq_ok {workflow : Workflow} {revision : WorkflowRevision}
    {digest : String} (h : validateRevisionIntegrity cfg workflow revision = .ok digest) :
    revision.workflowId = workflow.id ∧ ValidDag revision.nodes revision.edges := by
  obtain ⟨_, howner, _, hgraph, h⟩ := bind_ok₂ h
  refine ⟨of_require howner, ?_⟩
  have hok := require_eq_ok.1 hgraph
  cases howned : validateWorkflowRevisionOwnership revision.id revision.nodes revision.edges with
  | error e => rw [howned] at hok; cases hok
  | ok u =>
    cases hdag : validateWorkflowDag revision.nodes revision.edges with
    | error e => rw [howned, hdag] at hok; cases hok
    | ok u => exact validateWorkflowDag_eq_ok hdag

theorem loadFrozenRevision_eq_ok {revisionId : WorkflowRevisionId}
    {digest : String} {w : Workflow} {r : WorkflowRevision}
    (h : loadFrozenRevision cfg db workflowId revisionId digest = .ok (w, r)) :
    db.workflows.get? workflowId = some w ∧ db.workflowRevisions.get? revisionId = some r ∧
      r.workflowId = w.id ∧ ValidDag r.nodes r.edges := by
  obtain ⟨w', hw, r', hr, h⟩ := bind_ok₂ h
  obtain ⟨_, hvalid, h⟩ := bind_ok h
  obtain ⟨_, h⟩ := bind_rest h
  cases h
  exact ⟨found_eq_ok.1 hw, found_eq_ok.1 hr, validateRevisionIntegrity_eq_ok hvalid⟩

/-! ## One commit -/

/-- Resolutions and revisions stay, and a workflow keeps its key. -/
structure Persists (db db' : Db) : Prop where
  resolutions : ∀ k r, db.runWorkflowResolutions.get? k = some r →
    db'.runWorkflowResolutions.get? k = some r
  revisions : ∀ k r, db.workflowRevisions.get? k = some r → db'.workflowRevisions.get? k = some r
  agentRevisions : ∀ k r, db.agentRevisions.get? k = some r → db'.agentRevisions.get? k = some r
  workflows : ∀ k w, db.workflows.get? k = some w → ∃ w', db'.workflows.get? k = some w' ∧
    w'.workflowKey = w.workflowKey

theorem Persists.refl (db : Db) : Persists db db :=
  ⟨fun _ _ h => h, fun _ _ h => h, fun _ _ h => h, fun _ w h => ⟨w, h, rfl⟩⟩

theorem Persists.trans {db'' : Db} (h : Persists db db') (h' : Persists db' db'') :
    Persists db db'' where
  resolutions k r hr := h'.resolutions k r (h.resolutions k r hr)
  revisions k r hr := h'.revisions k r (h.revisions k r hr)
  agentRevisions k r hr := h'.agentRevisions k r (h.agentRevisions k r hr)
  workflows k w hw := by
    obtain ⟨w', hw', hkey⟩ := h.workflows k w hw
    obtain ⟨w'', hw'', hkey'⟩ := h'.workflows k w' hw'
    exact ⟨w'', hw'', hkey'.trans hkey⟩

theorem SameWorkflows.persists (h : SameWorkflows db db') : Persists db db' where
  resolutions k r hr := by rw [h.resolutions]; exact hr
  revisions k r hr := by rw [h.revisions]; exact hr
  agentRevisions k r hr := by rw [h.agentRevisions]; exact hr
  workflows k w hw := ⟨w, by rw [h.workflows]; exact hw, rfl⟩

theorem SameButCore.persists (h : SameButCore db db') : Persists db db' := by
  rw [h]
  exact ⟨fun _ _ h => h, fun _ _ h => h, fun _ _ h => h, fun _ w h => ⟨w, h, rfl⟩⟩

/-- What an execution has frozen stays frozen. -/
theorem Persists.blueprint {x' : WorkflowExecution} {b : Blueprint} (h : Persists db db')
    (hx : db.workflowExecutions.get? x.id = some x)
    (hx' : db'.workflowExecutions.get? x.id = some x') (hsame : x.SameButEnd x')
    (hb : Blueprint.of? db x.id = some b) : Blueprint.of? db' x.id = some b := by
  obtain ⟨y, w, hy, hw, hr, hkey, hsha⟩ := Blueprint.of?_eq_some.1 hb
  rw [hx] at hy
  cases hy
  obtain ⟨w', hw', hkey'⟩ := h.workflows _ _ hw
  refine Blueprint.of?_eq_some.2 ⟨x', w', hx', ?_, ?_, hkey'.trans hkey, ?_⟩
  · rw [hsame]; exact hw'
  · rw [hsame]; exact h.revisions _ _ hr
  · rw [hsame]; exact hsha

/-- One execution is advanced from `s`: its nodes take steps until nothing is left to schedule, and
the execution concludes from them. -/
structure Advances (b : Blueprint) (now : Time) (reports : Reports)
    (x : WorkflowExecution) (s s' : Sched) (db' : Db) : Prop where
  row : s.2.workflowExecutions.get? x.id = some x
  running : x.status = .running
  tracks : Tracks b x.id s
  steps : SchedSteps b now reports s s'
  heard : ∀ n ∈ s.1, n.status = .dispatched → (reports n).isSome = true →
    ∃ n' ∈ s'.1, n'.workflowNodeId = n.workflowNodeId ∧ n'.status.isTerminal = true
  settled : Settled b s'.1
  finished : Finished x s'.1 s'.2 db'

theorem Concludes.sameButEnd {x' : WorkflowExecution} (h : Concludes x nodes x') :
    x.SameButEnd x' := by
  cases h with
  | «open» => rfl
  | ended _ same => exact same

section
variable {b : Blueprint} {now : Time} {reports : Reports} {x : WorkflowExecution}
  {s s' : Sched} {db' : Db}

variable (h : Advances b now reports x s s' db')
include h

/-- The execution afterwards, with its nodes. -/
theorem Advances.conclusion : ∃ x', Concludes x s'.1 x' ∧
    db'.workflowExecutions.get? x.id = some x' ∧ Tracks b x.id (db'.workflowNodeExecutions.listByExecution x.id, db') ∧
    db'.workflowNodeExecutions.listByExecution x.id = s'.1 := by
  obtain ⟨x', hconcludes, hrows, hsame⟩ := h.finished
  have ht' := h.steps.tracks h.tracks
  have hid : x'.id = x.id := hconcludes.sameButEnd.id
  have hrow : db'.workflowExecutions.get? x.id = some x' := by
    rw [hrows, ← hid]
    exact get?_put_self _ _
  have hlist : db'.workflowNodeExecutions.listByExecution x.id = s'.1 := by
    rw [hsame.frame, ht'.list]
  have hx : s'.2.workflowExecutions.get? x.id = some x := by
    rw [h.steps.frame.executions]
    exact h.row
  have hblueprint := hsame.frame.persists.blueprint hx hrow hconcludes.sameButEnd ht'.blueprint
  exact ⟨x', hconcludes, hrow, ⟨rfl, hblueprint, ht'.dag, by rw [hlist]; exact ht'.perm⟩, hlist⟩

theorem Advances.persists : Persists s.2 db' := by
  obtain ⟨-, -, -, hsame⟩ := h.finished
  exact h.steps.frame.persists.trans hsame.frame.persists

/-- Other executions and their nodes are not touched. -/
theorem Advances.others {k : WorkflowExecutionId} (hk : k ≠ x.id) :
    db'.workflowExecutions.get? k = s.2.workflowExecutions.get? k ∧
      db'.workflowNodeExecutions.listByExecution k = s.2.workflowNodeExecutions.listByExecution k := by
  obtain ⟨x', hconcludes, hrows, hsame⟩ := h.finished
  have hid : x'.id = x.id := hconcludes.sameButEnd.id
  constructor
  · rw [hrows, get?_put_ne (by rw [key_workflowExecution, hid]; exact hk.symm), h.steps.frame.executions]
  · rw [hsame.frame]
    exact h.steps.others h.tracks hk

end

/-! ## `ReconcileWorkflowExecution` -/

theorem nodeSetMatches_perm {revision : WorkflowRevision}
    (hids : (revision.nodes.map (·.id)).Nodup) (h : nodeSetMatches revision nodes = true) :
    (nodes.map (·.workflowNodeId)).Perm (revision.nodes.map (·.id)) := by
  simp only [nodeSetMatches, Bool.and_eq_true, decide_eq_true_eq, List.all_eq_true,
    List.any_eq_true] at h
  obtain ⟨⟨hlength, -⟩, hall⟩ := h
  have hsub : revision.nodes.map (·.id) ⊆ nodes.map (·.workflowNodeId) := fun id hid => by
    obtain ⟨d, hd, rfl⟩ := List.mem_map.1 hid
    obtain ⟨n, hn, hnid⟩ := hall d hd
    exact List.mem_map.2 ⟨n, hn, hnid⟩
  refine ((hids.subperm hsub).perm_of_length_le ?_).symm
  rw [List.length_map, List.length_map, hlength]

open Classical in
/-- What the children of the given nodes have to report. -/
noncomputable def reportsOf (db : Db) (nodes : List WorkflowNodeExecution) (now : Time)
    (n : WorkflowNodeExecution) : Option ChildReport :=
  if n ∈ nodes then ChildReport.of? db n now else none

theorem reportsOf_of_mem {n : WorkflowNodeExecution}
    (hn : n ∈ nodes) : reportsOf db nodes now n = ChildReport.of? db n now := if_pos hn

theorem reportsOf_eq_some {n : WorkflowNodeExecution} {report : ChildReport} :
    reportsOf db nodes now n = some report ↔ n ∈ nodes ∧ ChildReport.of? db n now = some report := by
  unfold reportsOf
  split
  · next hn => rw [and_iff_right hn]
  · next hn => exact ⟨nofun, fun h => absurd h.1 hn⟩

theorem reconcile_advances {e : WorkflowExecutionId} (hcommit : reconcileWorkflowExecution cfg db e ids now = .ok (nodes, db')) :
    ∃ x, db.workflowExecutions.get? e = some x ∧ ((x.status ≠ .running ∧ db' = db) ∨
      ∃ b s', Advances b now (reportsOf db (db.workflowNodeExecutions.listByExecution e) now) x
        (db.workflowNodeExecutions.listByExecution e, db) s' db') := by
  obtain ⟨x, hfound, h⟩ := bind_ok hcommit
  obtain ⟨_, h⟩ := bind_rest h
  obtain ⟨⟨w, r⟩, hload, h⟩ := bind_ok h
  obtain ⟨_, hmatches, h⟩ := bind_ok h
  obtain ⟨_, h⟩ := bind_rest h
  have hx := found_eq_ok.1 hfound
  obtain rfl : x.id = e := key_of_get? hx
  refine ⟨x, hx, ?_⟩
  split at h
  · next hrunning =>
    right
    obtain ⟨hw, hr, -, hdag⟩ := loadFrozenRevision_eq_ok hload
    obtain ⟨s₁, hchildren, s₂, hschedule, h⟩ := bind_ok₂ h
    obtain ⟨⟨ended, db₃⟩, hfinish, h⟩ := bind_ok h
    obtain ⟨-, rfl⟩ := Prod.mk.inj (Except.ok.inj h)
    have ht : Tracks ⟨w.workflowKey, x.workflowContentSha256, r⟩ x.id
        (db.workflowNodeExecutions.listByExecution x.id, db) :=
      ⟨rfl, Blueprint.of?_eq_some.2 ⟨x, w, hx, hw, hr, rfl, rfl⟩, hdag,
        nodeSetMatches_perm hdag.ids (require_eq_ok.1 hmatches)⟩
    have hsorted := List.perm_insertionSort WorkflowNodeExecution.nodeOrder (db.workflowNodeExecutions.listByExecution x.id)
    obtain ⟨hsteps₁, hheard⟩ := reconcileChildren_steps ht (fun n hn => (reportsOf_of_mem (hsorted.mem_iff.1 hn)).symm)
      ((hsorted.map _).nodup_iff.2 ht.ids) (fun n hn => hsorted.mem_iff.1 hn) hchildren
    have ht₁ := SchedSteps.tracks hsteps₁ ht
    obtain ⟨hsteps₂, hsettled⟩ := scheduleToFixedPoint_steps ht₁ hschedule
    have hsteps := hsteps₁.trans hsteps₂
    have hx₂ : s₂.2.workflowExecutions.get? x.id = some x := by
      rw [(SchedSteps.frame hsteps).executions]
      exact hx
    have hne : s₂.1 ≠ [] := (SchedSteps.tracks hsteps ht).nonempty
    refine ⟨_, s₂, hx, hrunning, ht, hsteps, fun n hn hd hr => ?_, hsettled,
      (finishIfTerminal_ended (R := fun _ => False) (F := False) (A := False) hx₂ hrunning hfinish).2 hne⟩
    obtain ⟨n', hn', hid, hended⟩ := hheard n (hsorted.mem_iff.2 hn) hd hr
    exact ⟨n', SchedSteps.terminal_mem hsteps₂ ht₁ hn' hended, hid, hended⟩
  · next hended =>
    cases h
    exact .inl ⟨hended, rfl⟩

/-! ## `StartWorkflowExecution` -/

section
variable {α : Type} (nodeKey : α → String) (id : α → Uuid)

/-- `(node_key, str(id))` is a total order on nodes, defined or stored. -/
theorem nodeKey_total (a b : α) : (nodeKey a < nodeKey b ∨ nodeKey a = nodeKey b ∧ id a ≤ id b) ∨
    (nodeKey b < nodeKey a ∨ nodeKey b = nodeKey a ∧ id b ≤ id a) := by
  rcases Std.lt_trichotomy (nodeKey a) (nodeKey b) with h | h | h
  · exact .inl (.inl h)
  · exact (BitVec.le_total (id a) (id b)).imp (fun hid => .inr ⟨h, hid⟩) fun hid => .inr ⟨h.symm, hid⟩
  · exact .inr (.inl h)

theorem nodeKey_trans (a b c : α) : (nodeKey a < nodeKey b ∨ nodeKey a = nodeKey b ∧ id a ≤ id b) →
    (nodeKey b < nodeKey c ∨ nodeKey b = nodeKey c ∧ id b ≤ id c) →
    nodeKey a < nodeKey c ∨ nodeKey a = nodeKey c ∧ id a ≤ id c := by
  rintro (h | ⟨h, hid⟩) (h' | ⟨h', hid'⟩)
  · exact .inl (String.lt_trans h h')
  · exact .inl (h' ▸ h)
  · exact .inl (h ▸ h')
  · exact .inr ⟨h.trans h', BitVec.le_trans hid hid'⟩

end

instance : Std.Total definitionOrder := ⟨nodeKey_total WorkflowNode.nodeKey WorkflowNode.id⟩

instance : IsTrans WorkflowNode definitionOrder :=
  ⟨nodeKey_trans WorkflowNode.nodeKey WorkflowNode.id⟩

instance : Std.Total WorkflowNodeExecution.nodeOrder :=
  ⟨nodeKey_total WorkflowNodeExecution.nodeKey WorkflowNodeExecution.id⟩

instance : IsTrans WorkflowNodeExecution WorkflowNodeExecution.nodeOrder :=
  ⟨nodeKey_trans WorkflowNodeExecution.nodeKey WorkflowNodeExecution.id⟩

/-- The checks a stored node passes once and for all: it belongs to the frozen revision, matches its
definition and names a revision of its agent. -/
structure NodeFits (db : Db) (x : WorkflowExecution) (r : WorkflowRevision)
    (n : WorkflowNodeExecution) : Prop where
  revision : n.workflowRevisionId = x.workflowRevisionId
  definition : ((r.nodes.find? (·.id = n.workflowNodeId)).any fun d =>
    d.nodeKey = n.nodeKey && d.targetAgentId = n.targetAgentId) = true
  agent : ((db.agentRevisions.get? n.targetAgentRevisionId).any fun a =>
    a.agentId = n.targetAgentId && a.contentSha256 = n.targetAgentRevisionSha256) = true

theorem ensureAgentSnapshot_eq_ok {d : WorkflowNode} {a : AgentRevision}
    (h : ensureAgentSnapshot cfg db d = .ok a) : db.agentRevisions.get? a.id = some a ∧ a.agentId = d.targetAgentId := by
  obtain ⟨agent, hagent, h⟩ := bind_ok h
  obtain ⟨_, h⟩ := bind_rest h
  obtain ⟨revisionId, -, revision, hrevision, h⟩ := bind_ok₂ h
  obtain ⟨_, howner, h⟩ := bind_ok h
  obtain ⟨_, _, _, h⟩ := bind_rest₃ h
  cases h
  refine ⟨(row_of_get? (found_eq_ok.1 hrevision)).1, ?_⟩
  have hid : agent.id = d.targetAgentId := key_of_get? (found_eq_ok.1 hagent)
  exact (of_require howner).trans hid

theorem agentSnapshots_definitions : ∀ {nodes : List WorkflowNode}
    {parts : List (WorkflowNode × AgentRevision)}, agentSnapshots cfg db nodes = .ok parts → parts.map (·.1) = nodes ∧
      ∀ p ∈ parts, db.agentRevisions.get? p.2.id = some p.2 ∧ p.2.agentId = p.1.targetAgentId
  | [], _, h => by cases h; exact ⟨rfl, nofun⟩
  | node :: nodes, _, h => by
    obtain ⟨revision, hrevision, rest, hrest, h⟩ := bind_ok₂ h
    cases h
    obtain ⟨hmap, hparts⟩ := agentSnapshots_definitions hrest
    exact ⟨by rw [List.map_cons, hmap], List.forall_mem_cons.2 ⟨ensureAgentSnapshot_eq_ok hrevision, hparts⟩⟩

theorem createNodes_rows : ∀ {nodes : List WorkflowNodeExecution} {t t' : WorkflowNodeExecutions},
    createNodes t nodes = .ok t' → t'.rows = t.rows ++ nodes
  | [], _, _, h => by cases h; rw [List.append_nil]
  | n :: nodes, t, _, h => by
    obtain ⟨mid, hinsert, h⟩ := bind_ok h
    obtain ⟨hfresh, rfl⟩ := insert?_eq_some.1 (found_eq_ok.1 hinsert)
    rw [createNodes_rows h, rows_put_fresh hfresh, List.append_assoc]
    rfl

/-- The nodes of a new execution are in the order of `list_by_execution`. -/
theorem listByExecution_created {t t' : WorkflowNodeExecutions} {e : WorkflowExecutionId} (hrows : t'.rows = t.rows ++ nodes) (hown : ∀ n ∈ nodes, n.workflowExecutionId = e)
    (hkeys : nodes.Pairwise fun a b => a.nodeKey < b.nodeKey) :
    (t.select (·.workflowExecutionId = e) = [] → t'.listByExecution e = nodes) ∧
      ∀ k, k ≠ e → t'.listByExecution k = t.listByExecution k := by
  have hselect : ∀ k, t'.select (·.workflowExecutionId = k) =
      t.select (·.workflowExecutionId = k) ++ nodes.filter (·.workflowExecutionId = k) := fun k => by
    rw [Table.select, hrows, List.filter_append]
    rfl
  constructor
  · intro hstale
    have hall : nodes.filter (·.workflowExecutionId = e) = nodes :=
      List.filter_eq_self.2 fun n hn => decide_eq_true (hown n hn)
    rw [WorkflowNodeExecutions.listByExecution, hselect, hstale, hall, List.nil_append]
    exact (hkeys.imp fun h => Or.inl h).insertionSort_eq
  · intro k hk
    have hnone : nodes.filter (·.workflowExecutionId = k) = [] :=
      List.filter_eq_nil_iff.2 fun n hn => by simpa [hown n hn] using hk.symm
    rw [WorkflowNodeExecutions.listByExecution, hselect, hnone, List.append_nil]
    rfl

/-- The nodes of a new execution: one for each definition, PENDING and without child. -/
theorem newNodes_spec {r : WorkflowRevision} {parts : List (WorkflowNode × AgentRevision)}
    (ids : WorkflowIds) (x : WorkflowExecution) (now : Time) (hdag : ValidDag r.nodes r.edges)
    (h : agentSnapshots cfg db (r.nodes.insertionSort definitionOrder) = .ok parts) :
    let nodes := parts.map (newNode ids x now)
    (nodes.map (·.workflowNodeId)).Perm (r.nodes.map (·.id)) ∧
      (nodes.Pairwise fun a b => a.nodeKey < b.nodeKey) ∧ ∀ n ∈ nodes, n.status = .pending ∧
      NoChild n ∧ n.workflowExecutionId = x.id ∧ NodeFits db x r n := by
  intro nodes
  obtain ⟨hparts, hagents⟩ := agentSnapshots_definitions h
  have hperm := List.perm_insertionSort definitionOrder r.nodes
  refine ⟨?_, ?_, fun n hn => ?_⟩
  · have hids : nodes.map (·.workflowNodeId) = (r.nodes.insertionSort definitionOrder).map (·.id) := by
      rw [← hparts, List.map_map, List.map_map]
      rfl
    rw [hids]
    exact hperm.map _
  · -- sorted by key, and the keys are distinct
    have hsorted : (r.nodes.insertionSort definitionOrder).Pairwise definitionOrder := List.pairwise_insertionSort _ _
    have hnodup : ((r.nodes.insertionSort definitionOrder).map (·.nodeKey)).Nodup :=
      (hperm.map (·.nodeKey)).nodup_iff.2 hdag.keys
    have hdistinct : (r.nodes.insertionSort definitionOrder).Pairwise (·.nodeKey ≠ ·.nodeKey) :=
      List.pairwise_map.1 hnodup
    have hless : (r.nodes.insertionSort definitionOrder).Pairwise (·.nodeKey < ·.nodeKey) :=
      (hsorted.and hdistinct).imp fun ⟨hle, hne⟩ => hle.resolve_right fun heq => hne heq.1
    rw [← hparts, List.pairwise_map] at hless
    exact List.pairwise_map.2 hless
  · obtain ⟨part, hpart, rfl⟩ := List.mem_map.1 hn
    obtain ⟨hrevision, howner⟩ := hagents part hpart
    have hdefinition : part.1 ∈ r.nodes := by
      refine hperm.mem_iff.1 ?_
      rw [← hparts]
      exact List.mem_map_of_mem hpart
    refine ⟨rfl, ⟨rfl, rfl, rfl⟩, rfl, rfl, ?_, ?_⟩
    · show ((r.nodes.find? (·.id = part.1.id)).any _) = true
      cases hf : r.nodes.find? (·.id = part.1.id) with
      | none => exact absurd (List.find?_eq_none.1 hf _ hdefinition) (by simp)
      | some d =>
        have hid : d.id = part.1.id := by simpa using List.find?_some hf
        rw [List.inj_on_of_nodup_map hdag.ids (List.mem_of_find?_eq_some hf) hdefinition hid]
        simp [newNode]
    · show ((db.agentRevisions.get? part.2.id).any _) = true
      rw [hrevision]
      simp [newNode, howner]

/-- What `StartWorkflowExecution` has written before it schedules: the execution `x` and its
nodes. -/
structure Created (cfg : Config) (db : Db) (x : WorkflowExecution) (b : Blueprint) (s : Sched) :
    Prop where
  fresh : db.workflowExecutions.get? x.id = none
  executions : s.2.workflowExecutions = db.workflowExecutions.put x
  rows : s.2.workflowNodeExecutions.rows = db.workflowNodeExecutions.rows ++ s.1
  others : ∀ k, k ≠ x.id →
    s.2.workflowNodeExecutions.listByExecution k = db.workflowNodeExecutions.listByExecution k
  persists : Persists db s.2
  core : s.2.toCore = { db.toCore with workflowExecutions := db.workflowExecutions.put x }
  tasks : s.2.tasks = db.tasks
  new : ∀ n ∈ s.1, n.status = .pending ∧ NoChild n ∧ n.workflowExecutionId = x.id ∧
    NodeFits s.2 x b.revision n
  resolution : resolutionMatches s.2 x = true
  loads : ∃ w, loadFrozenRevision cfg s.2 x.workflowId x.workflowRevisionId
    x.workflowContentSha256 = .ok (w, b.revision)

section
variable {cfg : Config} {db db' : Db} {resolution : RunWorkflowResolution} {x : WorkflowExecution}
  {nodes : List WorkflowNodeExecution} {now : Time}

/-- A resolution is added for the root only when it had none. -/
theorem get?_resolutions {t : Table RunWorkflowResolution} {k : RunId} {r : RunWorkflowResolution}
    (hr : t.get? k = some r) : ((t.insert? resolution).getD t).get? k = some r := by
  cases hi : t.insert? resolution with
  | none => exact hr
  | some t' =>
    obtain ⟨hfree, rfl⟩ := insert?_eq_some.1 hi
    rw [Option.getD_some, get?_put_ne fun hk => by rw [hk, hr] at hfree; cases hfree]
    exact hr

theorem resolveRoot_eq_ok {root : Run} (h : resolveRoot cfg db root workflowId ids now = .ok resolution) :
    ((db.runWorkflowResolutions.insert? resolution).getD db.runWorkflowResolutions).get? root.id = some resolution := by
  unfold resolveRoot at h
  split at h
  · next r hr =>
    obtain ⟨_, h⟩ := bind_rest h
    cases h
    exact get?_resolutions hr
  · next hnone =>
    obtain ⟨_, h⟩ := bind_rest h
    obtain ⟨⟨w, r, digest⟩, -, h⟩ := bind_ok h
    cases h
    rw [insert?_eq_some.2 ⟨hnone, rfl⟩]
    exact get?_put_self _ _

end

/-- A bootstrap creates an execution whose nodes are PENDING, and advances it. -/
theorem bootstrap_advances {root : Run} {ended : WorkflowExecution}
    (hown : ∀ n ∈ db.workflowNodeExecutions.rows, (db.workflowExecutions.get? n.workflowExecutionId).isSome = true)
    (hroot : db.runs.get? root.id = some root)
    (h : bootstrap cfg db root workflowId claim ids now = .ok (ended, db')) :
    ∃ x b s s', Created cfg db x b s ∧ Advances b now (fun _ => none) x s s' db' := by
  obtain ⟨_, _, _, h⟩ := bind_rest₃ h
  obtain ⟨_, h⟩ := bind_rest h
  obtain ⟨resolution, hresolve, ⟨w, r⟩, hload, h⟩ := bind_ok₂ h
  obtain ⟨parts, hparts, db₁, hcreate, h⟩ := bind_ok₂ h
  obtain ⟨s₁, hroots, h⟩ := bind_ok h
  obtain ⟨s₂, hschedule, hpark⟩ := bind_ok h
  obtain ⟨hw, hr, -, hdag⟩ := loadFrozenRevision_eq_ok hload
  obtain ⟨x, hx⟩ : ∃ x, x = newExecution ids resolution root.id now := ⟨_, rfl⟩
  rw [← hx] at hcreate hroots hpark
  have hrunning : x.status = .running := by rw [hx]; rfl
  obtain ⟨hperm, hkeys, hnew⟩ := newNodes_spec ids x now hdag hparts
  obtain ⟨hfresh, -, rows, events, hrows, rfl⟩ :=
    createExecution_eq (R := fun _ => False) (F := False) (A := False) hcreate
  have hrows := createNodes_rows hrows
  have hstale : db.workflowNodeExecutions.select (·.workflowExecutionId = x.id) = [] := by
    refine List.filter_eq_nil_iff.2 fun n hn hid => ?_
    have hsome := hown n hn
    rw [of_decide_eq_true hid, hfresh] at hsome
    cases hsome
  obtain ⟨hlist, hothers⟩ := listByExecution_created hrows (fun n hn => (hnew n hn).2.2.1) hkeys
  have hrow : (db.workflowExecutions.put x).get? x.id = some x := get?_put_self _ _
  let s : Sched := (parts.map (newNode ids x now), { db with
    workflowExecutions := db.workflowExecutions.put x, workflowNodeExecutions := rows, events := events,
    runWorkflowResolutions := (db.runWorkflowResolutions.insert? resolution).getD db.runWorkflowResolutions })
  have ht : Tracks ⟨w.workflowKey, x.workflowContentSha256, r⟩ x.id s := by
    refine ⟨(hlist hstale).symm, Blueprint.of?_eq_some.2 ⟨x, w, hrow, ?_, ?_, rfl, rfl⟩, hdag, hperm⟩
    · rw [hx]
      exact hw
    · rw [hx]
      exact hr
  have hcreated : Created cfg db x ⟨w.workflowKey, x.workflowContentSha256, r⟩ s := by
    refine ⟨hfresh, rfl, hrows, hothers, ⟨fun k r hr => get?_resolutions hr, fun _ _ h => h,
      fun _ _ h => h, fun _ w h => ⟨w, h, rfl⟩⟩, rfl, rfl, fun n hn => ?_, ?_, w, ?_⟩
    · obtain ⟨hpending, hchild, howner, hfits⟩ := hnew n hn
      exact ⟨hpending, hchild, howner, hfits.revision, hfits.definition, hfits.agent⟩
    · have hresolution := resolveRoot_eq_ok hresolve
      rw [resolutionMatches, hx]
      simp [s, newExecution, hresolution]
    · rw [hx]
      exact hload
  have hsteps₁ : SchedSteps _ now (fun _ => none) s s₁ := dispatchRoots_steps ht hroots
  obtain ⟨hsteps₂, hsettled⟩ := scheduleToFixedPoint_steps (hsteps₁.tracks ht) hschedule
  have hsteps := hsteps₁.trans hsteps₂
  have hx₂ : s₂.2.workflowExecutions.get? x.id = some x := by
    rw [(SchedSteps.frame hsteps).executions]
    exact hrow
  have hne : s₂.1 ≠ [] := (SchedSteps.tracks hsteps ht).nonempty
  have hroot₂ : s₂.2.runs.get? root.id = some root := (SchedSteps.adds hsteps).runs _ _ hroot
  obtain ⟨-, -, -, -, hfinished⟩ := parkRoot_writes (g := .free) (R := fun _ => False) (F := False)
    (A := False) hx₂ hrunning (by rw [hx]; rfl) hroot₂ hpark
  exact ⟨x, _, s, s₂, hcreated, hrow, hrunning, ht, hsteps, fun _ _ _ h => (by cases h), hsettled,
    hfinished hne⟩

theorem start_advances {rootRunId : RunId} {ended : WorkflowExecution}
    (hown : ∀ n ∈ db.workflowNodeExecutions.rows, (db.workflowExecutions.get? n.workflowExecutionId).isSome = true)
    (h : startWorkflowExecution cfg db rootRunId workflowId claim ids now = .ok (ended, db')) :
    db' = db ∨ ∃ x b s s', Created cfg db x b s ∧ Advances b now (fun _ => none) x s s' db' := by
  obtain ⟨root, hget, h⟩ := bind_ok h
  obtain ⟨hroot, -⟩ := row_of_get? (found_eq_ok.1 hget)
  split at h
  · exact .inr (bootstrap_advances hown hroot h)
  · obtain ⟨_, h⟩ := bind_rest h
    cases h
    exact .inl rfl
  · cases h

end Friday.Runs
