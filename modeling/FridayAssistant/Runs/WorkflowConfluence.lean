import FridayAssistant.Runs.NoStrandedWorkflow
/-!
# Workflow confluence

How a workflow ends depends on what its children end with, not on the order in which they do or on
when reconciliations run. An ended list of nodes is explained by the reports alone (`NodesOk`,
`Follows`), so two of them agree by induction on the rank (`agree_of_explained`); the verdict of the
execution is a function of the statuses and codes in the order of the node keys (`verdict_eq`).

The payload of a child names its attempt and an instant, so it is not the same when children end in
another order. What the scheduler reads of a report is its `ChildOutcome`: the status, the failure
code, and the size of the payload, which decides whether a successor's context fits. `Reporting`
says that a history reports a given outcome for every node of one execution.
-/
namespace Friday.Runs
open Tables Table Queue Relation Transition

/-! ## What a history reports -/

/-- The execution that is reconciled, and when. -/
def RunAction.reconciles : RunAction → Option (WorkflowExecutionId × Time)
  | .reconcileWorkflowExecution e _ now => some (e, now)
  | _ => none

/-- Whenever the execution is reconciled, a child that has ended reports the outcome of its node. -/
def Reporting (outcome : WorkflowNodeId → ChildOutcome) (e : WorkflowExecutionId) (db : Db)
    (a : RunAction) : Prop :=
  ∀ p ∈ a.reconciles, p.1 = e → ∀ n ∈ db.workflowNodeExecutions.listByExecution e,
    n.status = .dispatched → ∀ report ∈ ChildReport.of? db n p.2,
    report.outcome = outcome n.workflowNodeId
  deriving Decidable

section
variable {b : Blueprint} {e : WorkflowExecutionId} {now : Time} {reports : Reports}
  {s s' : Sched} {outcome : WorkflowNodeId → ChildOutcome}

section
variable (hreports : ∀ n, n.status = .dispatched →
    ∀ report, reports n = some report → report.outcome = outcome n.workflowNodeId)
  (hfollows : ∀ n ∈ s.1, Follows outcome n)
include hreports hfollows

theorem SchedStep.follows (h : SchedStep b now reports s s') : ∀ n ∈ s'.1, Follows outcome n := by
  -- only the node that moves is new
  have hmoved : ∀ {n n'}, Replaced s s' n n' → Follows outcome n' → ∀ n ∈ s'.1, Follows outcome n :=
    fun {n n'} hr hn' m hm => by
      rcases hr.mem_iff.1 hm with rfl | ⟨hm, -⟩
      · exact hn'
      · exact hfollows m hm
  cases h with
  | dispatch mem ready fits child move =>
    refine hmoved (.dispatch mem child move) fun hterminal => ?_
    rw [(WorkflowNodeExecution.dispatch_moves move).2.2] at hterminal
    cases hterminal
  | block mem why move =>
    exact hmoved (.block mem move) fun _ hne => absurd (WorkflowNodeExecution.block_moves move).2.2 hne
  | @report n n' report mem dispatched reported move =>
    have hr : Replaced s _ n n' := .report mem dispatched move
    refine hmoved hr fun _ _ => ?_
    rw [hr.same.workflowNodeId, ← hreports n dispatched report reported]
    exact (ChildReport.apply_eq move).1

theorem SchedSteps.follows (h : SchedSteps b now reports s s') : ∀ n ∈ s'.1, Follows outcome n := by
  induction h with
  | refl => exact hfollows
  | tail _ hstep ih => exact hstep.follows hreports ih

end

/-- The nodes of one execution follow the outcome. -/
def Following (outcome : WorkflowNodeId → ChildOutcome) (e : WorkflowExecutionId) (db : Db) :
    Prop :=
  ∀ n ∈ db.workflowNodeExecutions.listByExecution e, Follows outcome n

theorem Advances.following {x : WorkflowExecution} {db' : Db}
    (h : Advances b now reports x s s' db') (hreports : x.id = e → ∀ n, n.status = .dispatched →
      ∀ report, reports n = some report → report.outcome = outcome n.workflowNodeId)
    (hfollows : x.id = e → ∀ n ∈ s.1, Follows outcome n)
    (hothers : x.id ≠ e → Following outcome e s.2) :
    Following outcome e db' := by
  by_cases hid : x.id = e
  · obtain ⟨-, -, -, -, hlist⟩ := h.conclusion
    rw [Following, ← hid, hlist]
    exact h.steps.follows (hreports hid) (hfollows hid)
  · rw [Following, (h.others (Ne.symm hid)).2]
    exact hothers hid

theorem WorkflowCommit.following {cfg : Config} {db db' : Db} {a : RunAction}
    (h : WorkflowCommit cfg db a db') (hreporting : Reporting outcome e db a)
    (hfollowing : Following outcome e db) : Following outcome e db' := by
  cases h with
  | other frozen =>
    rw [Following, frozen.nodes]
    exact hfollowing
  | start created advances =>
    refine advances.following (fun _ _ _ _ h => by cases h) (fun _ n hn hterminal => ?_) fun hne => ?_
    · rw [(created.new n hn).1] at hterminal
      cases hterminal
    · rw [Following, created.others _ (Ne.symm hne)]
      exact hfollowing
  | @reconcile ids now x b s' db' advances =>
    refine advances.following (fun hid n hdispatched report hreport => ?_) (fun hid => ?_) fun _ => hfollowing
    · obtain ⟨hn, hreport⟩ := reportsOf_eq_some.1 hreport
      exact hreporting _ rfl hid n (hid ▸ hn) hdispatched report hreport
    · subst hid
      exact hfollowing

end

variable {db : Db} {x : WorkflowExecution}

theorem following_of_reachable {cfg : Config} {outcome : WorkflowNodeId → ChildOutcome}
    {e : WorkflowExecutionId}
    (h : ((workflowSystem cfg).restrict (Reporting outcome e)).Reachable db) :
    Following outcome e db := by
  refine h.invariant (Following outcome e)
    (fun db hinit n hn => ?_) fun db a db' hreach hok hnext => ?_
  · have hmem := (WorkflowNodeExecutions.mem_listByExecution.1 hn).1
    rw [hinit.2] at hmem
    cases hmem
  · obtain ⟨hreporting, hnext⟩ := hnext
    obtain ⟨hact, hrespects⟩ := workflowSystem_next hnext
    have hrows := (workflowsOk_of_reachable hreach.of_restrict).rows
    exact (workflowCommit_of_act hrows hrespects hact).following hreporting hok

/-! ## The verdict -/

/-- What the verdict looks at. -/
def outcomeOf (n : WorkflowNodeExecution) : WorkflowNodeExecutionStatus × Option String :=
  (n.status, n.failureCode)

/-- `verdict` as a function of that. -/
def verdictOf (outcomes : List (WorkflowNodeExecutionStatus × Option String)) :
    WorkflowExecutionStatus × Option String :=
  if outcomes.all (·.1 = .succeeded) then (.succeeded, none)
  else match outcomes.find? (·.1 = .failed) with
    | some failed => (.failed, some (textOr failed.2 "workflow_node_failed"))
    | none =>
      if outcomes.any (·.1 = .cancelled) then (.cancelled, none)
      else (.failed, some (match outcomes.find? (·.1 = .blocked) with
        | none => "workflow_node_blocked"
        | some blocked =>
          if blocked.2 = some "blocked_by_predecessor" then "workflow_node_blocked"
          else textOr blocked.2 "workflow_node_blocked"))

theorem verdict_eq (nodes : List WorkflowNodeExecution) :
    verdict nodes = verdictOf (nodes.map outcomeOf) := by
  have hfind : ∀ status, (nodes.map outcomeOf).find? (·.1 = status) = (nodes.find? (·.status = status)).map outcomeOf :=
    fun _ => List.find?_map
  rw [verdict, verdictOf, blockedReason, hfind, hfind, List.all_map, List.any_map]
  cases nodes.find? (·.status = .failed) with
  | some n => rfl
  | none =>
    cases nodes.find? (·.status = .blocked) with
    | none => rfl
    | some n =>
      dsimp only [Option.map_some, Option.map_none]
      rw [apply_ite Prod.fst]
      rfl

/-! ## The order of the nodes -/

theorem NodeFits.nodeKey {r : WorkflowRevision} {n : WorkflowNodeExecution}
    (h : NodeFits db x r n) : n.nodeKey = nodeKeyOf r.nodes n.workflowNodeId := by
  obtain ⟨d, hd, hmatches⟩ := Option.any_eq_true _ _ |>.1 h.definition
  simp only [Bool.and_eq_true, decide_eq_true_eq] at hmatches
  rw [nodeKeyOf, hd]
  exact hmatches.1.symm

/-- The nodes of a revision have distinct keys. -/
theorem nodeKeyOf_inj {nodes : List WorkflowNode} {edges : List WorkflowEdge} (h : ValidDag nodes edges)
    {a c : WorkflowNodeId} (ha : a ∈ nodes.map (·.id)) (hc : c ∈ nodes.map (·.id))
    (hkey : nodeKeyOf nodes a = nodeKeyOf nodes c) : a = c := by
  have hfind : ∀ d ∈ nodes, nodeKeyOf nodes d.id = d.nodeKey := fun d hd => by
    unfold nodeKeyOf
    cases hf : nodes.find? (·.id = d.id) with
    | none => exact absurd (List.find?_eq_none.1 hf d hd) (by simp)
    | some d' =>
      have hid : d'.id = d.id := by simpa using List.find?_some hf
      rw [List.inj_on_of_nodup_map h.ids (List.mem_of_find?_eq_some hf) hd hid]
      rfl
  obtain ⟨d, hd, rfl⟩ := List.mem_map.1 ha
  obtain ⟨d', hd', rfl⟩ := List.mem_map.1 hc
  rw [hfind d hd, hfind d' hd'] at hkey
  rw [List.inj_on_of_nodup_map h.keys hd hd' hkey]

/-- The nodes stand in the order of their keys. -/
theorem ExecutionOk.ids_sorted {cfg : Config} {b : Blueprint}
    (h : ExecutionOk cfg db b x) : ((nodesOf db x).map (·.workflowNodeId)).Pairwise fun a c =>
      nodeKeyOf b.revision.nodes a < nodeKeyOf b.revision.nodes c := by
  have hsorted : (nodesOf db x).Pairwise WorkflowNodeExecution.nodeOrder :=
    List.pairwise_insertionSort _ _
  have hdistinct : (nodesOf db x).Pairwise (·.workflowNodeId ≠ ·.workflowNodeId) :=
    List.pairwise_map.1 h.tracks.ids
  refine List.pairwise_map.2 ((hsorted.and hdistinct).imp_of_mem fun {m n} hm hn ⟨hle, hne⟩ => ?_)
  have hmem : ∀ {n}, n ∈ nodesOf db x → n.workflowNodeId ∈ b.revision.nodes.map (·.id) := fun hn =>
    h.tracks.perm.mem_iff.1 (List.mem_map_of_mem hn)
  rw [← (h.fits m hm).nodeKey, ← (h.fits n hn).nodeKey]
  refine hle.resolve_right fun heq => hne (nodeKeyOf_inj h.tracks.dag (hmem hm) (hmem hn) ?_)
  rw [← (h.fits m hm).nodeKey, ← (h.fits n hn).nodeKey]
  exact heq.1

/-! ## Confluence -/

/-- **Workflow confluence.** Two histories, each with an execution of the same frozen revision that
has ended, in which every child reports the outcome of its node: the nodes end with the same status
and failure code, in the same order, and so do the executions. -/
theorem workflow_confluence (cfg : Config) (outcome : WorkflowNodeId → ChildOutcome) (db₁ db₂ : Db)
    (x₁ x₂ : WorkflowExecution)
    (h₁ : ((workflowSystem cfg).restrict (Reporting outcome x₁.id)).Reachable db₁)
    (h₂ : ((workflowSystem cfg).restrict (Reporting outcome x₂.id)).Reachable db₂)
    (hx₁ : x₁ ∈ db₁.workflowExecutions.rows) (hx₂ : x₂ ∈ db₂.workflowExecutions.rows)
    (hsame : Blueprint.of? db₁ x₁.id = Blueprint.of? db₂ x₂.id)
    (hended₁ : x₁.status ≠ .running) (hended₂ : x₂.status ≠ .running) :
    (nodesOf db₁ x₁).map (fun n => (n.workflowNodeId, n.status, n.failureCode)) =
      (nodesOf db₂ x₂).map (fun n => (n.workflowNodeId, n.status, n.failureCode)) ∧
    x₁.status = x₂.status ∧ x₁.failureCode = x₂.failureCode := by
  obtain ⟨b, hb₁⟩ := (workflowsOk_of_reachable h₁.of_restrict).executions x₁ (get?_of_mem hx₁)
  obtain ⟨b', hb₂⟩ := (workflowsOk_of_reachable h₂.of_restrict).executions x₂ (get?_of_mem hx₂)
  obtain rfl : b' = b :=
    Option.some.inj (hb₂.tracks.blueprint.symm.trans (hsame.symm.trans hb₁.tracks.blueprint))
  obtain ⟨hterminal₁, hverdict₁⟩ := hb₁.status.resolve_left fun h => hended₁ h.1
  obtain ⟨hterminal₂, hverdict₂⟩ := hb₂.status.resolve_left fun h => hended₂ h.1
  have hids : (nodesOf db₁ x₁).map (·.workflowNodeId) = (nodesOf db₂ x₂).map (·.workflowNodeId) :=
    List.Perm.eq_of_pairwise (fun _ _ _ _ h h' => absurd h' (String.lt_asymm h)) hb₁.ids_sorted
      hb₂.ids_sorted (hb₁.tracks.perm.trans hb₂.tracks.perm.symm)
  have hagree := agree_of_explained hb₁.tracks.dag hb₁.tracks.perm hb₂.tracks.perm hb₁.explained
    hb₂.explained (following_of_reachable h₁) (following_of_reachable h₂) hterminal₁ hterminal₂
  have hlength : (nodesOf db₁ x₁).length = (nodesOf db₂ x₂).length := by
    simpa using congrArg List.length hids
  -- at each place stands the same node
  have hplace : ∀ i (hi₁ : i < (nodesOf db₁ x₁).length) (hi₂ : i < (nodesOf db₂ x₂).length),
      (nodesOf db₂ x₂)[i].workflowNodeId = (nodesOf db₁ x₁)[i].workflowNodeId ∧
        Agree (nodesOf db₁ x₁)[i] (nodesOf db₂ x₂)[i] := fun i hi₁ hi₂ => by
    have hid := List.getElem_of_eq hids.symm (i := i) (by simpa using hi₂)
    rw [List.getElem_map, List.getElem_map] at hid
    exact ⟨hid, hagree _ (List.getElem_mem hi₁) _ (List.getElem_mem hi₂) hid⟩
  have hnodes : (nodesOf db₁ x₁).map (fun n => (n.workflowNodeId, n.status, n.failureCode)) =
      (nodesOf db₂ x₂).map (fun n => (n.workflowNodeId, n.status, n.failureCode)) := by
    refine List.ext_getElem (by simpa using hlength) fun i hi₁ hi₂ => ?_
    obtain ⟨hid, hagrees⟩ := hplace i (by simpa using hi₁) (by simpa using hi₂)
    rw [List.getElem_map, List.getElem_map, hid, hagrees.status, hagrees.code]
  have hverdict : verdict (nodesOf db₁ x₁) = verdict (nodesOf db₂ x₂) := by
    rw [verdict_eq, verdict_eq]
    have := congrArg (fun l => verdictOf (l.map Prod.snd)) hnodes
    rwa [List.map_map, List.map_map] at this
  have hexecutions := hverdict₁.trans (hverdict.trans hverdict₂.symm)
  exact ⟨hnodes, congrArg Prod.fst hexecutions, congrArg Prod.snd hexecutions⟩

/-- The sample workflow with its nodes side by side. -/
def parallelDb : Db :=
  { sampleDb with
    workflowRevisions := Table.empty.put ⟨31, 30, 1, sampleDigest, [sampleNode 32 "a", sampleNode 33 "b"], []⟩ }

/-- Two children of the workflow complete one after the other, each reported before the next
starts. -/
def inOrder (first second : RunId) : List RunAction :=
  rootRun ++ [startSample] ++ endChild first 4 ++ [reconcileSample 5] ++ endChild second 6 ++
    [reconcileSample 7]

def ranDb (as : List RunAction) : Db := System.run (commit sampleConfig) parallelDb as

/-- Run 62 is the child of `a`, run 63 that of `b`. -/
theorem sample_orders_end : ∀ as ∈ [inOrder 62 63, inOrder 63 62],
    System.Legal (commit sampleConfig)
    (Reporting (fun _ => .succeeded (some 178)) 40) parallelDb as ∧
    (∀ a ∈ as, a.isSpelledOut = true) ∧ ((ranDb as).workflowExecutions.rows.any fun x =>
      x.status = .succeeded && x.id = 40 && x.workflowId = 30 && x.workflowRevisionId = 31 &&
        x.workflowContentSha256 = sampleDigest) = true := by decide +kernel

/-- Both orders end an execution of the same blueprint. -/
theorem ranDb_ended (as : List RunAction) (h : as ∈ [inOrder 62 63, inOrder 63 62]) :
    ∃ x ∈ (ranDb as).workflowExecutions.rows, x.status = .succeeded ∧
      ((workflowSystem sampleConfig).restrict (Reporting (fun _ => .succeeded (some 178)) x.id)).Reachable (ranDb as) ∧
      Blueprint.of? (ranDb as) x.id = (parallelDb.workflowRevisions.get? 31).map fun r => ⟨"w", sampleDigest, r⟩ := by
  obtain ⟨hlegal, hown, hrow⟩ := sample_orders_end as h
  obtain ⟨x, hx, hrow⟩ := List.any_eq_true.1 hrow
  simp only [Bool.and_eq_true, decide_eq_true_eq, and_assoc] at hrow
  obtain ⟨hstatus, hid, hworkflow, hrevision, hsha⟩ := hrow
  have hinit : (workflowSystem sampleConfig).init parallelDb := ⟨rfl, rfl⟩
  have hpersists := persists_of_steps (.of_init hinit)
    (sample_workflow_steps hown (hlegal.mono fun _ _ _ _ => trivial))
  obtain ⟨w, hw, hkey⟩ := hpersists.workflows 30 _ rfl
  refine ⟨x, hx, hstatus, ?_, Blueprint.of?_eq_some.2
    ⟨x, w, get?_of_mem hx, hworkflow ▸ hw, hrevision ▸ hpersists.revisions 31 _ rfl, hkey, hsha⟩⟩
  rw [hid]
  exact sample_workflow_reachable_restrict hown hinit hlegal

theorem workflow_confluence_sample :
    ∃ x₁ ∈ (ranDb (inOrder 62 63)).workflowExecutions.rows,
      ∃ x₂ ∈ (ranDb (inOrder 63 62)).workflowExecutions.rows, x₁.status = .succeeded ∧
      (nodesOf (ranDb (inOrder 62 63)) x₁).map (fun n => (n.workflowNodeId, n.status, n.failureCode)) =
        (nodesOf (ranDb (inOrder 63 62)) x₂).map (fun n => (n.workflowNodeId, n.status, n.failureCode)) ∧
      x₁.status = x₂.status ∧ x₁.failureCode = x₂.failureCode := by
  obtain ⟨x₁, hx₁, hended₁, hreach₁, hof₁⟩ := ranDb_ended (inOrder 62 63) (List.mem_cons_self ..)
  obtain ⟨x₂, hx₂, hended₂, hreach₂, hof₂⟩ :=
    ranDb_ended (inOrder 63 62) (List.mem_cons_of_mem _ (List.mem_singleton_self _))
  exact ⟨x₁, hx₁, x₂, hx₂, hended₁, workflow_confluence sampleConfig (fun _ => .succeeded (some 178)) _ _ x₁ x₂
    hreach₁ hreach₂ hx₁ hx₂ (hof₁.trans hof₂.symm) (by simp [hended₁]) (by simp [hended₂])⟩

end Friday.Runs
