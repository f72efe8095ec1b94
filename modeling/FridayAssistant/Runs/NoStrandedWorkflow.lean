import FridayAssistant.Runs.WorkflowProgress
/-!
# No stranded workflow

After every commit an execution has ended or some child of it is at work: a PENDING node that is
neither ready nor lost waits for an unfinished predecessor, and following predecessors down an
acyclic graph ends at a DISPATCHED one (`exists_dispatched`). Once the children at work have all
ended, the next reconciliation commits and takes over at least one of their outcomes.
-/
namespace Friday.Runs
open Tables Queue Relation Transition

/-- The nodes of an execution. -/
abbrev nodesOf (db : Db) (x : WorkflowExecution) : List WorkflowNodeExecution :=
  db.workflowNodeExecutions.listByExecution x.id

/-- The last attempt of the node's child has ended. -/
def childEnded (db : Db) (n : WorkflowNodeExecution) : Bool :=
  (n.childExecutionId.bind db.runs.getLatestForExecution).any (·.status.isTerminal)

def terminalCount (nodes : List WorkflowNodeExecution) : Nat := nodes.countP (·.status.isTerminal)

/-- A child that has ended has something to report. -/
theorem ChildReport.isSome_of? {db : Db} {n : WorkflowNodeExecution} (h : childEnded db n = true)
    (now : Time) : (ChildReport.of? db n now).isSome = true := by
  obtain ⟨child, hchild, hended⟩ := Option.any_eq_true _ _ |>.1 h
  rw [ChildReport.of?, hchild, Option.bind_some, ChildReport.ofRun]
  cases hs : child.status <;> first | rfl | (rw [hs] at hended; cases hended)

/-- Terminal nodes stay, and one more has become terminal. -/
theorem terminalCount_lt {b : Blueprint} {e : WorkflowExecutionId} {now : Time}
    {reports : Reports} {s s' : Sched} {n n' : WorkflowNodeExecution}
    (ht : Tracks b e s) (hsteps : SchedSteps b now reports s s') (hn : n ∈ s.1)
    (hlive : n.status.isTerminal = false) (hn' : n' ∈ s'.1)
    (hid : n'.workflowNodeId = n.workflowNodeId) (hended : n'.status.isTerminal = true) :
    terminalCount s.1 < terminalCount s'.1 := by
  have hids : ∀ {s : Sched}, Tracks b e s → ((s.1.filter (·.status.isTerminal)).map (·.workflowNodeId)).Nodup :=
    fun ht => ht.ids.sublist (List.filter_sublist.map _)
  have hnew : n.workflowNodeId ∉ (s.1.filter (·.status.isTerminal)).map (·.workflowNodeId) := fun hmem => by
    obtain ⟨m, hm, hmid⟩ := List.mem_map.1 hmem
    obtain ⟨hm, hterminal⟩ := List.mem_filter.1 hm
    rw [ht.eq_of_id hm hn hmid, hlive] at hterminal
    cases hterminal
  have hsub : n.workflowNodeId :: (s.1.filter (·.status.isTerminal)).map (·.workflowNodeId) ⊆
      (s'.1.filter (·.status.isTerminal)).map (·.workflowNodeId) := by
    refine List.cons_subset.2 ⟨List.mem_map.2 ⟨n', List.mem_filter.2 ⟨hn', hended⟩, hid⟩, fun id hmem => ?_⟩
    obtain ⟨m, hm, rfl⟩ := List.mem_map.1 hmem
    obtain ⟨hm, hterminal⟩ := List.mem_filter.1 hm
    exact List.mem_map.2 ⟨m, List.mem_filter.2 ⟨hsteps.terminal_mem ht hm hterminal, hterminal⟩, rfl⟩
  have hlength := ((List.nodup_cons.2 ⟨hnew, hids ht⟩).subperm hsub).length_le
  rw [List.length_cons, List.length_map, List.length_map, ← List.countP_eq_length_filter,
    ← List.countP_eq_length_filter] at hlength
  exact hlength

/-- An execution has ended, or a child of it is at work. -/
theorem ExecutionOk.exists_dispatched {cfg : Config} {db : Db} {b : Blueprint}
    {x : WorkflowExecution} (h : ExecutionOk cfg db b x) (hrunning : x.status = .running) :
    ∃ n ∈ nodesOf db x, n.status = .dispatched := by
  rcases h.status with ⟨-, hlive⟩ | ⟨-, hverdict⟩
  · exact Runs.exists_dispatched h.tracks.dag h.settled hlive
  · refine absurd (congrArg Prod.fst hverdict) ?_
    rw [hrunning]
    exact (verdict_ne_running _).symm

/-- **No stranded workflow.** In every reachable state an execution has ended or one of its nodes is
DISPATCHED. If the children of all DISPATCHED nodes have ended, a reconciliation commits (the clock
has not gone back, the ids drawn are new), and every one that commits makes more nodes terminal. -/
theorem workflow_never_stranded (cfg : Config) (db : Db) (h : (workflowSystem cfg).Reachable db)
    (x : WorkflowExecution) (hx : x ∈ db.workflowExecutions.rows) :
    (x.status ≠ .running ∨ ∃ n ∈ nodesOf db x, n.status = .dispatched) ∧
    (x.status = .running → (∀ n ∈ nodesOf db x, n.status = .dispatched → childEnded db n = true) →
      ∀ ids now, (Timely db x now → Supplied db (nodesOf db x) ids →
        ∃ db', act cfg db (.reconcileWorkflowExecution x.id ids now) = .ok db') ∧
      ∀ db', act cfg db (.reconcileWorkflowExecution x.id ids now) = .ok db' →
        terminalCount (nodesOf db x) < terminalCount (nodesOf db' x)) := by
  have hok := workflowsOk_of_reachable h
  have hrow : db.workflowExecutions.get? x.id = some x := Table.get?_of_mem hx
  obtain ⟨b, hb⟩ := hok.executions x hrow
  refine ⟨or_iff_not_imp_left.2 fun hrunning => hb.exists_dispatched (not_not.1 hrunning), ?_⟩
  intro hrunning hchildren ids now
  refine ⟨fun htimely hsupplied => ?_, fun db' hact => ?_⟩
  · obtain ⟨⟨nodes, db'⟩, hcommit⟩ := exists_reconcile hok (rootWaits_of_reachable h) hrow htimely hsupplied
    exact ⟨db', map_snd_eq_ok.2 ⟨nodes, hcommit⟩⟩
  · obtain ⟨nodes, hcommit⟩ := map_snd_eq_ok.1 hact
    obtain ⟨y, hy, ⟨hended, -⟩ | ⟨b', s', hadvances⟩⟩ := reconcile_advances hcommit
    · rw [hrow] at hy
      cases hy
      exact absurd hrunning hended
    · rw [hrow] at hy
      cases hy
      -- some child is at work, has ended, and is heard
      obtain ⟨n, hn, hdispatched⟩ := hb.exists_dispatched hrunning
      obtain ⟨n', hn', hid, hended⟩ := hadvances.heard n hn hdispatched (by
        rw [reportsOf_of_mem hn]
        exact ChildReport.isSome_of? (hchildren n hn hdispatched) now)
      obtain ⟨-, -, -, -, hlist⟩ := hadvances.conclusion
      rw [nodesOf, nodesOf, hlist]
      exact terminalCount_lt hadvances.tracks hadvances.steps hn (by rw [hdispatched]; rfl) hn' hid hended

/-- A run that can start the workflow of its task. -/
def rootRun : List RunAction :=
  [.createTask 1 "title" "" 0, .startRun 1 2 1, .claimNextRun sampleClaim 2]

def startSample : RunAction := .startWorkflowExecution 2 30 ⟨"worker", "token", 1⟩ sampleIds 3

def reconcileSample (now : Time) : RunAction := .reconcileWorkflowExecution 40 sampleIds now

/-- A child starts and completes. -/
def endChild (run : RunId) (now : Time) : List RunAction :=
  [.startQueuedRun run now, .completeRun run now]

/-- The child of `a` has completed; `b` waits for the next reconciliation. -/
def childEndedRun : List RunAction := rootRun ++ [startSample] ++ endChild 62 4

theorem workflow_never_stranded_sample :
    let db := System.run (commit sampleConfig) sampleDb childEndedRun
    ∃ x ∈ db.workflowExecutions.rows, x.status = .running ∧
      (∃ n ∈ nodesOf db x, n.status = .dispatched) ∧ (∃ n ∈ nodesOf db x, n.status = .pending) ∧
      ∃ db', act sampleConfig db (.reconcileWorkflowExecution x.id sampleIds 5) = .ok db' ∧
        terminalCount (nodesOf db x) < terminalCount (nodesOf db' x) := by
  intro db
  have hrun : System.Legal (commit sampleConfig) (fun _ _ => True) sampleDb childEndedRun ∧
      (∀ a ∈ childEndedRun, a.isSpelledOut = true) ∧
      (db.workflowExecutions.rows.any fun x => x.status = .running && x.startedAt ≤ 5 &&
        ((nodesOf db x).all fun n => (n.status ≠ .dispatched || childEnded db n) && n.createdAt ≤ 5 &&
          n.startedAt.getD n.createdAt ≤ 5 && (db.tasks.get? (sampleIds.childTask n.workflowNodeId)).all
            (fun _ => n.status ≠ .pending) &&
          (db.runs.get? (sampleIds.childRun n.workflowNodeId)).all fun _ => n.status ≠ .pending) &&
        ((db.runs.get? x.rootRunId).all fun r => r.startedAt.getD r.createdAt ≤ 5) &&
        (nodesOf db x).any (·.status = .pending)) = true := by
    decide +kernel
  obtain ⟨hlegal, hown, hstate⟩ := hrun
  obtain ⟨x, hx, hstate⟩ := List.any_eq_true.1 hstate
  simp only [Bool.and_eq_true, decide_eq_true_eq, List.all_eq_true, List.any_eq_true] at hstate
  obtain ⟨⟨⟨⟨hrunning, htime⟩, hnodes⟩, hroot⟩, hpending⟩ := hstate
  obtain ⟨hdispatched, hprogress⟩ :=
    workflow_never_stranded sampleConfig db (sample_workflow_reachable hown ⟨rfl, rfl⟩ hlegal) x hx
  obtain ⟨hexists, hcount⟩ := hprogress hrunning (fun n hn hs => by
    have := (hnodes n hn).1.1.1.1
    rwa [hs] at this) sampleIds 5
  have htimely : Timely db x 5 :=
    ⟨htime, fun n hn => (hnodes n hn).1.1.1.2, fun n hn => (hnodes n hn).1.1.2, fun r hr => by
      rw [hr] at hroot
      simpa using hroot⟩
  have hfresh : ∀ {ρ : Type} {o : Option ρ} {n : WorkflowNodeExecution}, (o.all fun _ => n.status ≠ .pending) = true →
      n.status = .pending → o = none := fun {_ o n} hall hp => by
    cases o with
    | none => rfl
    | some r => simp [hp] at hall
  obtain ⟨db', hact⟩ := hexists htimely ⟨fun n hn => hfresh (hnodes n hn).1.2, fun n hn => hfresh (hnodes n hn).2,
    fun _ _ _ _ => (BitVec.add_left_inj 20).1, fun _ _ _ _ => (BitVec.add_left_inj 30).1⟩
  exact ⟨x, hx, hrunning, hdispatched.resolve_left (not_not.2 hrunning), hpending, db', hact,
    hcount db' hact⟩

end Friday.Runs
