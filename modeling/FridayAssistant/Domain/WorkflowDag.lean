import FridayAssistant.Lib.Kahn
import FridayAssistant.Domain.Workflow
/-!
# What `validate_workflow_dag` accepts

The loop of `validate_workflow_dag` is Kahn's algorithm (`Kahn.Inv`) with the queue sorted by id. A
revision it accepts has distinct nodes and keys, edges between its own nodes and a rank that grows
along every edge: the graph has no cycle.
-/
namespace Friday

/-- The ends of an edge. -/
def WorkflowEdge.pair (e : WorkflowEdge) : WorkflowNodeId × WorkflowNodeId :=
  (e.fromNodeId, e.toNodeId)

structure ValidDag (nodes : List WorkflowNode) (edges : List WorkflowEdge) : Prop where
  nonempty : nodes ≠ []
  ids : (nodes.map (·.id)).Nodup
  keys : (nodes.map (·.nodeKey)).Nodup
  ends : ∀ e ∈ edges, e.fromNodeId ∈ nodes.map (·.id) ∧ e.toNodeId ∈ nodes.map (·.id)
  rank : ∃ rank : WorkflowNodeId → Nat, ∀ e ∈ edges, rank e.fromNodeId < rank e.toNodeId

/-- The loop over the edges accepts new, distinct pairs of known nodes, all of the revision. -/
theorem checkEdges_eq_ok {revisionId : WorkflowRevisionId} {ids : List WorkflowNodeId}
    {edges : List WorkflowEdge} {done : Unit} (pairs : List (WorkflowNodeId × WorkflowNodeId)) :
    checkEdges revisionId ids pairs edges = .ok done ↔ (edges.map WorkflowEdge.pair).Nodup ∧
      ∀ e ∈ edges, e.revisionId = revisionId ∧ (e.fromNodeId ∈ ids ∧ e.toNodeId ∈ ids) ∧ e.pair ∉ pairs := by
  induction edges generalizing pairs with
  | nil => simp [checkEdges]
  | cons e edges ih =>
    simp only [checkEdges, bind_eq_ok, require_eq_ok, ih, exists_const, decide_eq_true_eq,
      Bool.and_eq_true, Bool.not_eq_true', List.contains_eq_mem, decide_eq_false_iff_not,
      List.map_cons, List.nodup_cons, List.mem_map, List.mem_cons, not_or]
    constructor
    · rintro ⟨hrevision, hends, hnew, hnodup, hrest⟩
      refine ⟨⟨?_, hnodup⟩, ?_⟩
      · rintro ⟨x, hx, heq⟩
        exact (hrest x hx).2.2.1 heq
      rintro x (rfl | hx)
      · exact ⟨hrevision, hends, hnew⟩
      · exact ⟨(hrest x hx).1, (hrest x hx).2.1, (hrest x hx).2.2.2⟩
    · rintro ⟨⟨hfirst, hnodup⟩, hall⟩
      obtain ⟨hrevision, hends, hnew⟩ := hall e (.inl rfl)
      refine ⟨hrevision, hends, hnew, hnodup, fun x hx => ?_⟩
      obtain ⟨hrevision, hends, hnew⟩ := hall x (.inr hx)
      exact ⟨hrevision, hends, fun heq => hfirst ⟨x, hx, heq⟩, hnew⟩

section
variable {edges : List WorkflowEdge}

theorem releaseTargets_eq (d : WorkflowNodeId → Nat) (q ts : List WorkflowNodeId) :
    releaseTargets d q ts = Kahn.release (·.insertionSort (· ≤ ·)) d q ts := by
  induction ts generalizing d q with
  | nil => rfl
  | cons t ts ih => exact ih _ _

/-- `while queue` is the loop of Kahn's algorithm, sorted by id. -/
theorem visitCount_eq (fuel : Nat) (d : WorkflowNodeId → Nat) (q : List WorkflowNodeId) :
    visitCount edges fuel d q = Kahn.visits (·.insertionSort (· ≤ ·)) (edges.map WorkflowEdge.pair) fuel d q := by
  induction fuel generalizing d q with
  | zero => rfl
  | succ fuel ih =>
    cases q with
    | nil => rfl
    | cons x q =>
      have hout : (edges.filter (·.fromNodeId = x)).map (·.toNodeId) = Kahn.targets (edges.map WorkflowEdge.pair) x := by
        rw [Kahn.targets, List.filter_map, List.map_map]
        rfl
      simp only [visitCount, Kahn.visits, hout, releaseTargets_eq, ih]

end

/-- What `validate_workflow_dag` asks of a graph within the size limits. -/
structure WellFormedGraph (nodes : List WorkflowNode) (edges : List WorkflowEdge) : Prop where
  nonempty : nodes ≠ []
  ids : (nodes.map (·.id)).Nodup
  keys : (nodes.map (·.nodeKey)).Nodup
  owned : ∃ revisionId, (∀ n ∈ nodes, n.revisionId = revisionId) ∧ ∀ e ∈ edges,
    e.revisionId = revisionId
  ends : ∀ e ∈ edges, e.fromNodeId ∈ nodes.map (·.id) ∧ e.toNodeId ∈ nodes.map (·.id)
  pairs : (edges.map WorkflowEdge.pair).Nodup
  acyclic : Kahn.Acyclic (edges.map WorkflowEdge.pair)

theorem WellFormedGraph.known {nodes : List WorkflowNode} {edges : List WorkflowEdge}
    (hends : ∀ e ∈ edges, e.fromNodeId ∈ nodes.map (·.id) ∧ e.toNodeId ∈ nodes.map (·.id)) :
    ∀ e ∈ edges.map WorkflowEdge.pair, e.1 ∈ nodes.map (·.id) ∧ e.2 ∈ nodes.map (·.id) := by
  simpa [WorkflowEdge.pair] using hends

variable {nodes : List WorkflowNode} {edges : List WorkflowEdge}

theorem validateWorkflowDag_iff : validateWorkflowDag nodes edges = .ok () ↔
    (nodes.length ≤ maxWorkflowNodes ∧ edges.length ≤ maxWorkflowEdges) ∧ WellFormedGraph nodes edges := by
  have hloop := fun (hids : (nodes.map (·.id)).Nodup) (hpairs : (edges.map WorkflowEdge.pair).Nodup) hends =>
    Kahn.visits_eq_iff (d := fun n => edges.countP (·.toNodeId = n)) (List.perm_insertionSort (· ≤ ·)) hpairs
      (WellFormedGraph.known hends) hids fun x => by rw [List.countP_map]; rfl
  simp only [List.length_map, ← visitCount_eq] at hloop
  simp only [validateWorkflowDag, bind_eq_ok, require_eq_ok, exists_const, checkEdges_eq_ok,
    decide_eq_true_eq, Bool.and_eq_true, Bool.not_eq_true', List.isEmpty_eq_false_iff,
    List.all_eq_true]
  constructor
  · rintro ⟨hne, hsize, hids, howner, hkeys, ⟨hpairs, hedges⟩, hcount⟩
    have hends : ∀ e ∈ edges, e.fromNodeId ∈ nodes.map (·.id) ∧ e.toNodeId ∈ nodes.map (·.id) :=
      fun e he => (hedges e he).2.1
    exact ⟨hsize, hne, hids, hkeys, ⟨_, howner, fun e he => (hedges e he).1⟩, hends, hpairs,
      (hloop hids hpairs hends).1 hcount⟩
  · rintro ⟨hsize, hne, hids, hkeys, ⟨r, hnodes, hedges⟩, hends, hpairs, hacyclic⟩
    -- the owner the code compares with is that of the first node
    have howner : (nodes.map (·.revisionId)).headD 0 = r := by
      cases nodes with
      | nil => exact absurd rfl hne
      | cons n _ => exact hnodes n List.mem_cons_self
    rw [howner]
    exact ⟨hne, hsize, hids, hnodes, hkeys, ⟨hpairs, fun e he => ⟨hedges e he, hends e he, List.not_mem_nil⟩⟩,
      (hloop hids hpairs hends).2 hacyclic⟩

theorem validateWorkflowDag_eq_ok (h : validateWorkflowDag nodes edges = .ok ()) :
    ValidDag nodes edges := by
  obtain ⟨-, hgraph⟩ := validateWorkflowDag_iff.1 h
  obtain ⟨rank, hrank⟩ :=
    Kahn.exists_rank hgraph.ids hgraph.pairs (WellFormedGraph.known hgraph.ends) hgraph.acyclic
  exact ⟨hgraph.nonempty, hgraph.ids, hgraph.keys, hgraph.ends, rank,
    fun e he => hrank _ (List.mem_map_of_mem he)⟩

/-- Within the size limits `validate_workflow_dag` accepts exactly the well-formed graphs. -/
theorem workflow_dag_validation_exact (hnodes : nodes.length ≤ maxWorkflowNodes)
    (hedges : edges.length ≤ maxWorkflowEdges) :
    validateWorkflowDag nodes edges = .ok () ↔ WellFormedGraph nodes edges := by
  rw [validateWorkflowDag_iff]
  exact and_iff_right ⟨hnodes, hedges⟩

/-- Two nodes joined by one edge. -/
theorem workflow_dag_validation_sample :
    WellFormedGraph [⟨1, 9, "a", 5, "o", .obj [], "c"⟩, ⟨2, 9, "b", 5, "o", .obj [], "c"⟩] [⟨9, 1, 2⟩] :=
  (workflow_dag_validation_exact (by decide) (by decide)).1 (by decide +kernel)

end Friday
