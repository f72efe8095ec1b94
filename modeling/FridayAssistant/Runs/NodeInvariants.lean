import FridayAssistant.Runs.NodeSteps
/-!
# What holds of the nodes of an execution

`NodeOk` explains the status of a node by its predecessors: a node has a child exactly when all of
them succeeded and its context fitted, and is BLOCKED for a reason that still stands. Every step
keeps it, because a step only touches a node that is not terminal and everything the explanation
looks at is.

Two consequences need no further look at the steps: where the scheduler has nothing left to do some
node is DISPATCHED or all are terminal (`exists_dispatched`), and nodes whose children report the
same thing end in the same way (`agree_of_explained`).
-/
namespace Friday.Runs
open Tables Queue Relation PyJson
open WorkflowNodeExecution (Same)

/-- The node has not been dispatched. -/
structure NoChild (n : WorkflowNodeExecution) : Prop where
  task : n.childTaskId = none
  run : n.childRunId = none
  execution : n.childExecutionId = none

/-- The node has been dispatched; its child's first attempt names the execution. -/
def HasChild (n : WorkflowNodeExecution) : Prop :=
  ∃ taskId runId, n.childTaskId = some taskId ∧ n.childRunId = some runId ∧
    n.childExecutionId = some runId

structure NodeOk (b : Blueprint) (nodes : List WorkflowNodeExecution) (n : WorkflowNodeExecution) :
    Prop where
  waiting : n.status = .pending → NoChild n
  blocked : n.status = .blocked → NoChild n ∧
    ∃ code message, n.failureCode = some code ∧ b.Blocks nodes n.workflowNodeId code message
  dispatched : n.status ≠ .pending → n.status ≠ .blocked →
    HasChild n ∧ b.Ready nodes n.workflowNodeId ∧ b.Fits nodes n.workflowNodeId
  result : n.status = .succeeded → n.resultPayload ≠ .null

def NodesOk (b : Blueprint) (nodes : List WorkflowNodeExecution) : Prop :=
  ∀ n ∈ nodes, NodeOk b nodes n

/-! ## Contexts look at the predecessors only -/

/-- How long a result is in a context, if there is one. -/
def resultSize : JsonValue → Option Nat
  | .null => none
  | payload => some (dumps payload).length

/-- What the size of a context depends on, of a predecessor. -/
def resultOf (nodes : List WorkflowNodeExecution) (id : WorkflowNodeId) :
    Option (WorkflowNodeExecutionStatus × Option Nat) :=
  (nodes.find? (·.workflowNodeId = id)).map fun n => (n.status, resultSize n.resultPayload)

variable {revision : WorkflowRevision} {nodes nodes' : List WorkflowNodeExecution}

/-- The line of one predecessor; whether it is there depends on the size of the result. -/
theorem predecessorLines_cons {id : WorkflowNodeId} {ids : List WorkflowNodeId}
    {m : WorkflowNodeExecution} (hm : nodes.find? (·.workflowNodeId = id) = some m)
    (hstatus : m.status = .succeeded) : predecessorLines revision nodes (id :: ids) =
      match resultSize m.resultPayload with
      | none => .error (.invalid "workflow_predecessor_context_unavailable")
      | some size =>
        if size > maxWorkflowPredecessorResultChars then
          .error (.tooLarge "a predecessor result exceeds the durable workflow context bound")
        else do
          let lines ← predecessorLines revision nodes ids
          return ("- " ++ nodeKeyOf revision.nodes id ++ ": " ++ dumps m.resultPayload) :: lines := by
  rw [predecessorLines, hm]
  dsimp only
  rw [if_neg (not_not.2 hstatus)]
  cases m.resultPayload <;> simp only [resultSize, String.length_toList]

/-- Where the predecessors have results of the same size, so have their lines. -/
theorem predecessorLines_congr : ∀ {ids : List WorkflowNodeId}, (∀ id ∈ ids, resultOf nodes' id = resultOf nodes id) →
    (predecessorLines revision nodes' ids).map (List.map String.length) =
      (predecessorLines revision nodes ids).map (List.map String.length)
  | [], _ => rfl
  | id :: ids, h => by
    obtain ⟨hid, hids⟩ := List.forall_mem_cons.1 h
    have hrest := predecessorLines_congr hids
    unfold resultOf at hid
    cases hf : nodes.find? (·.workflowNodeId = id) with
    | none =>
      rw [hf, Option.map_none, Option.map_eq_none_iff] at hid
      rw [predecessorLines, predecessorLines, hf, hid]
    | some m =>
      rw [hf] at hid
      obtain ⟨m', hf', heq⟩ := Option.map_eq_some_iff.1 hid
      obtain ⟨hstatus, hsize⟩ := Prod.mk.inj heq
      by_cases hs : m.status = .succeeded
      · rw [predecessorLines_cons hf hs, predecessorLines_cons hf' (hstatus.trans hs), hsize]
        cases hk : resultSize m.resultPayload with
        | none => rfl
        | some size =>
          have hlength : (dumps m'.resultPayload).length = (dumps m.resultPayload).length := by
            rw [hk] at hsize
            cases hp : m.resultPayload <;> cases hp' : m'.resultPayload <;> simp_all [resultSize]
          dsimp only
          split
          · rfl
          · rcases of_map_eq hrest with ⟨e, he, he'⟩ | ⟨lines, lines', hl, hl', hsizes⟩
            · rw [he, he']
              rfl
            · rw [hl, hl']
              simp [bind, Except.bind, pure, Except.pure, Except.map, hlength, hsizes]
      · rw [predecessorLines, predecessorLines, hf, hf']
        dsimp only
        rw [if_pos hs, if_pos (hstatus ▸ hs)]

theorem Blueprint.context_congr {b : Blueprint} {d : WorkflowNode}
    (h : ∀ p ∈ b.predecessors d.id, resultOf nodes' p = resultOf nodes p) :
    (b.context nodes' d).map String.length = (b.context nodes d).map String.length := by
  have hids : ∀ id ∈ (b.predecessors d.id).insertionSort fun x y =>
      nodeKeyOf b.revision.nodes x ≤ nodeKeyOf b.revision.nodes y, resultOf nodes' id = resultOf nodes id :=
    fun id hid => h id ((List.mem_insertionSort _).1 hid)
  unfold Blueprint.context
  dsimp only
  rcases of_map_eq (@predecessorLines_congr b.revision nodes nodes' _ hids) with
    ⟨e, he, he'⟩ | ⟨lines, lines', hl, hl', hsizes⟩
  · rw [he, he']
  · rw [hl, hl']
    have hcount : lines'.length = lines.length := by simpa using congrArg List.length hsizes
    have hrendered : ∀ {text text' : String}, text'.length = text.length →
        (if text'.toList.length > maxWorkflowContextChars then
            .error (.tooLarge "the aggregate workflow context exceeds the durable bound")
          else .ok text' : Except ContextError String).map String.length =
        (if text.toList.length > maxWorkflowContextChars then
            .error (.tooLarge "the aggregate workflow context exceeds the durable bound")
          else .ok text : Except ContextError String).map String.length := fun {text text'} hlength => by
      rw [String.length_toList, String.length_toList, hlength]
      split
      · rfl
      · exact congrArg Except.ok hlength
    refine hrendered ?_
    simp only [PyText.length_join, List.map_append, List.length_append, hsizes, hcount]

section
variable {b : Blueprint} {id : WorkflowNodeId} {message : String}

theorem Blueprint.Fits.congr (h : ∀ p ∈ b.predecessors id, resultOf nodes' p = resultOf nodes p)
    (hf : b.Fits nodes id) : b.Fits nodes' id := by
  obtain ⟨d, text, hd, hcontext⟩ := hf
  have hid : d.id = id := by simpa using List.find?_some hd
  rcases of_map_eq (Blueprint.context_congr (hid ▸ h)) with ⟨e, he, -⟩ | ⟨_, text', -, htext', -⟩
  · rw [hcontext] at he
    cases he
  · exact ⟨d, text', hd, htext'⟩

theorem Blueprint.TooLarge.congr (h : ∀ p ∈ b.predecessors id, resultOf nodes' p = resultOf nodes p)
    (hl : b.TooLarge nodes id message) : b.TooLarge nodes' id message := by
  obtain ⟨d, hd, hcontext⟩ := hl
  have hid : d.id = id := by simpa using List.find?_some hd
  rcases of_map_eq (Blueprint.context_congr (hid ▸ h)) with ⟨e, he, he'⟩ | ⟨text, _, htext, -⟩
  · rw [hcontext] at he
    exact ⟨d, hd, he'.trans he.symm⟩
  · rw [hcontext] at htext
    cases htext

/-- A context fits or is too large, not both. -/
theorem Blueprint.Fits.not_tooLarge (h : b.Fits nodes id) : ¬b.TooLarge nodes id message := by
  rintro ⟨d, hd, hlarge⟩
  obtain ⟨d', text, hd', hfits⟩ := h
  rw [hd] at hd'
  cases hd'
  rw [hlarge] at hfits
  cases hfits

end

/-! ## Steps keep the explanation -/

section
variable {b : Blueprint} {e : WorkflowExecutionId} {now : Time} {reports : Reports}
  {s s' : Sched} {n n' m : WorkflowNodeExecution} {id : WorkflowNodeId}

section
variable (h : Replaced s s' n n')
include h

/-- A node that has not ended is no predecessor of a ready node. -/
theorem Replaced.not_predecessor (hready : b.Ready s.1 id) :
    n.workflowNodeId ∉ b.predecessors id := fun hp => by
  have hlive := h.live
  rw [hready n h.mem hp] at hlive
  cases hlive

theorem Replaced.ready (hready : b.Ready s.1 id) : b.Ready s'.1 id := by
  intro m hm hp
  rcases h.mem_iff.1 hm with rfl | ⟨hm, -⟩
  · exact absurd (h.same.workflowNodeId ▸ hp) (h.not_predecessor hready)
  · exact hready m hm hp

theorem Replaced.resultOf (hready : b.Ready s.1 id) :
    ∀ p ∈ b.predecessors id, resultOf s'.1 p = resultOf s.1 p := by
  intro p hp
  have hne : n'.workflowNodeId ≠ p :=
    fun hid => h.not_predecessor hready (h.same.workflowNodeId ▸ hid ▸ hp)
  rw [Runs.resultOf, Runs.resultOf, h.list, find?_replaceNode_ne hne]

theorem Replaced.lost (ht : Tracks b e s) (hlost : b.Lost s.1 id) : b.Lost s'.1 id := by
  obtain ⟨m, hm, hp, hstatus⟩ := hlost
  have hended : m.status.isTerminal = true := by
    cases hs : m.status <;> rw [hs] at hstatus <;> first | rfl | cases hstatus
  exact ⟨m, h.terminal_mem ht hm hended, hp, hstatus⟩

theorem Replaced.blocks (ht : Tracks b e s) {code message : String}
    (hb : b.Blocks s.1 id code message) : b.Blocks s'.1 id code message := by
  cases hb with
  | predecessor lost => exact .predecessor (h.lost ht lost)
  | context ready large => exact .context (h.ready ready) (large.congr (h.resultOf ready))

theorem Replaced.nodeOk (ht : Tracks b e s) (hm : NodeOk b s.1 m) : NodeOk b s'.1 m where
  waiting := hm.waiting
  blocked hs := by
    obtain ⟨hchild, code, message, hcode, hblocks⟩ := hm.blocked hs
    exact ⟨hchild, code, message, hcode, h.blocks ht hblocks⟩
  dispatched hp hb := by
    obtain ⟨hchild, hready, hfits⟩ := hm.dispatched hp hb
    exact ⟨hchild, h.ready hready, hfits.congr (h.resultOf hready)⟩
  result := hm.result

end

/-- The result of a child is an object. -/
theorem boundedChildResult_ne_null (db : Db) (child : Run) (now : Time) :
    boundedChildResult db child now ≠ .null := by
  have hobj : ∀ (c : Prop) [Decidable c] (x y : List (String × JsonValue)), ite c (.obj x) (.obj y) ≠ JsonValue.null := by
    intro c _ x y
    split <;> simp
  unfold boundedChildResult
  dsimp only
  split
  · simp
  · simp
  · exact hobj _ _ _

theorem ChildReport.ofRun_succeeded {db : Db} {child : Run} {payload : JsonValue}
    (h : ChildReport.ofRun db child now = some (.succeeded payload)) : payload ≠ .null := by
  unfold ChildReport.ofRun at h
  split at h
  · cases h
    exact boundedChildResult_ne_null db child now
  · cases h
  · cases h
  · cases h

/-- What the scheduler reads of a report: the status, the failure code, and how long the result
is. -/
inductive ChildOutcome where
  | succeeded (size : Option Nat)
  | failed (code : String)
  | cancelled
  deriving DecidableEq

def ChildReport.outcome : ChildReport → ChildOutcome
  | .succeeded payload => .succeeded (resultSize payload)
  | .failed code _ => .failed code
  | .cancelled => .cancelled

/-- What the node of a child with this outcome ends as. -/
def ChildOutcome.Describes (outcome : ChildOutcome) (n : WorkflowNodeExecution) : Prop :=
  match outcome with
  | .succeeded size =>
    n.status = .succeeded ∧ resultSize n.resultPayload = size ∧ n.failureCode = none
  | .failed code => n.status = .failed ∧ n.failureCode = some code
  | .cancelled => n.status = .cancelled ∧ n.failureCode = none

theorem ChildReport.apply_eq {report : ChildReport} (h : report.apply n now = .ok n') :
    report.outcome.Describes n' ∧ n'.childTaskId = n.childTaskId ∧ n'.childRunId = n.childRunId ∧
      n'.childExecutionId = n.childExecutionId := by
  cases report with
  | succeeded payload =>
    obtain ⟨-, -, rfl⟩ := WorkflowNodeExecution.succeed_eq_ok.1 h
    exact ⟨⟨rfl, rfl, rfl⟩, rfl, rfl, rfl⟩
  | failed code message =>
    obtain ⟨-, -, -, rfl⟩ := WorkflowNodeExecution.fail_eq_ok.1 h
    exact ⟨⟨rfl, rfl⟩, rfl, rfl, rfl⟩
  | cancelled =>
    obtain ⟨-, -, rfl⟩ := WorkflowNodeExecution.cancel_eq_ok.1 h
    exact ⟨⟨rfl, rfl⟩, rfl, rfl, rfl⟩

theorem ChildReport.apply_succeeded {payload : JsonValue}
    (h : (ChildReport.succeeded payload).apply n now = .ok n') : n'.resultPayload = payload := by
  obtain ⟨-, -, rfl⟩ := WorkflowNodeExecution.succeed_eq_ok.1 h
  rfl

theorem ChildOutcome.Describes.not_blocked {outcome : ChildOutcome} (h : outcome.Describes n) :
    n.status ≠ .blocked := by
  cases outcome with
  | succeeded size | failed code | cancelled => rw [h.1]; nofun

/-- No result is missing from a report. -/
def Results (reports : Reports) : Prop :=
  ∀ n payload, reports n = some (.succeeded payload) → payload ≠ .null

theorem Replaced.nodesOk (h : Replaced s s' n n') (ht : Tracks b e s) (hok : NodesOk b s.1)
    (hnew : NodeOk b s'.1 n') : NodesOk b s'.1 := fun m hm => by
  rcases h.mem_iff.1 hm with rfl | ⟨hm, -⟩
  · exact hnew
  · exact h.nodeOk ht (hok m hm)

theorem SchedStep.nodesOk (h : SchedStep b now reports s s') (hresults : Results reports)
    (ht : Tracks b e s) (hok : NodesOk b s.1) : NodesOk b s'.1 := by
  cases h with
  | @dispatch n n' taskId runId title description db mem ready fits child move =>
    have hr : Replaced s _ n n' := .dispatch mem child move
    obtain ⟨-, -, -, rfl⟩ := WorkflowNodeExecution.dispatch_eq_ok.1 move
    refine hr.nodesOk ht hok ⟨nofun, nofun, fun _ _ => ⟨⟨taskId, runId, rfl, rfl, rfl⟩, ?_, ?_⟩, nofun⟩
    · exact hr.ready ready
    · exact fits.congr (hr.resultOf ready)
  | @block n n' code message mem why move =>
    have hr : Replaced s _ n n' := .block mem move
    obtain ⟨hpending, -, -, rfl⟩ := WorkflowNodeExecution.block_eq_ok.1 move
    have hchild : NoChild n := (hok n mem).waiting hpending
    exact hr.nodesOk ht hok ⟨nofun, fun _ => ⟨⟨hchild.task, hchild.run, hchild.execution⟩, code,
      message, rfl, hr.blocks ht why⟩, fun _ hb => absurd rfl hb, nofun⟩
  | @report n n' report mem dispatched reported move =>
    have hr : Replaced s _ n n' := .report mem dispatched move
    obtain ⟨⟨taskId, runId, htask, hrun, hexecution⟩, hready, hfits⟩ :=
      (hok n mem).dispatched (by rw [dispatched]; nofun) (by rw [dispatched]; nofun)
    obtain ⟨hshape, htask', hrun', hexecution'⟩ := ChildReport.apply_eq move
    have hid := hr.same.workflowNodeId
    refine hr.nodesOk ht hok ⟨fun hp => absurd hp hr.moved, fun hb => absurd hb hshape.not_blocked,
      fun _ _ => ⟨⟨taskId, runId, htask'.trans htask, hrun'.trans hrun,
        hexecution'.trans hexecution⟩, ?_, ?_⟩, fun hs => ?_⟩
    · rw [hid]
      exact hr.ready hready
    · rw [hid]
      exact hfits.congr (hr.resultOf hready)
    · cases report with
      | succeeded payload =>
        rw [ChildReport.apply_succeeded move]
        exact hresults n payload reported
      | failed code message | cancelled => rw [hshape.1] at hs; cases hs

theorem SchedSteps.nodesOk (h : SchedSteps b now reports s s') (hresults : Results reports)
    (ht : Tracks b e s) (hok : NodesOk b s.1) : NodesOk b s'.1 := by
  induction h with
  | refl => exact hok
  | tail hs hstep ih => exact hstep.nodesOk hresults (SchedSteps.tracks hs ht) ih

/-! ## What a node keeps -/

/-- The node later: a terminal one is the same, and a child is kept. -/
structure Later (n n' : WorkflowNodeExecution) : Prop where
  same : Same n n'
  terminal : n.status.isTerminal = true → n' = n
  child : HasChild n → n'.childTaskId = n.childTaskId ∧ n'.childRunId = n.childRunId ∧
    n'.childExecutionId = n.childExecutionId

theorem Later.refl (n : WorkflowNodeExecution) : Later n n :=
  ⟨.refl n, fun _ => rfl, fun _ => ⟨rfl, rfl, rfl⟩⟩

theorem Later.trans {n n' n'' : WorkflowNodeExecution} (h : Later n n') (h' : Later n' n'') :
    Later n n'' where
  same := h.same.trans h'.same
  terminal ht := by
    obtain rfl := h.terminal ht
    exact h'.terminal ht
  child hc := by
    obtain ⟨htask, hrun, hexecution⟩ := h.child hc
    obtain ⟨taskId, runId, h₁, h₂, h₃⟩ := hc
    obtain ⟨htask', hrun', hexecution'⟩ := h'.child ⟨taskId, runId, htask.trans h₁, hrun.trans h₂, hexecution.trans h₃⟩
    exact ⟨htask'.trans htask, hrun'.trans hrun, hexecution'.trans hexecution⟩

/-- Every node is still there, and later. -/
def Forward (nodes nodes' : List WorkflowNodeExecution) : Prop :=
  ∀ n ∈ nodes, ∃ n' ∈ nodes', Later n n'

theorem Forward.refl (nodes : List WorkflowNodeExecution) : Forward nodes nodes :=
  fun n hn => ⟨n, hn, .refl n⟩

theorem Forward.trans {nodes nodes' nodes'' : List WorkflowNodeExecution} (h : Forward nodes nodes')
    (h' : Forward nodes' nodes'') : Forward nodes nodes'' := fun n hn => by
  obtain ⟨n', hn', hl⟩ := h n hn
  obtain ⟨n'', hn'', hl'⟩ := h' n' hn'
  exact ⟨n'', hn'', hl.trans hl'⟩

theorem Replaced.forward (h : Replaced s s' n n') (ht : Tracks b e s) (hlater : Later n n') :
    Forward s.1 s'.1 := by
  intro m hm
  by_cases hid : m.workflowNodeId = n.workflowNodeId
  · rw [ht.eq_of_id hm h.mem hid]
    exact ⟨n', h.mem_iff.2 (.inl rfl), hlater⟩
  · exact ⟨m, h.mem_iff.2 (.inr ⟨hm, hid⟩), .refl m⟩

theorem SchedStep.forward (h : SchedStep b now reports s s') (ht : Tracks b e s)
    (hok : NodesOk b s.1) : Forward s.1 s'.1 := by
  have hpending : ∀ {n n' : WorkflowNodeExecution}, n ∈ s.1 → Replaced s s' n n' →
      n.status = .pending → Forward s.1 s'.1 := fun {n n'} hn hr hp => by
    refine hr.forward ht ⟨hr.same, fun hterminal => ?_, fun ⟨taskId, _, htask, _⟩ => ?_⟩
    · rw [hp] at hterminal
      cases hterminal
    · rw [((hok n hn).waiting hp).task] at htask
      cases htask
  cases h with
  | dispatch mem ready fits child move =>
    exact hpending mem (.dispatch mem child move) (WorkflowNodeExecution.dispatch_moves move).2.1
  | block mem why move =>
    exact hpending mem (.block mem move) (WorkflowNodeExecution.block_moves move).2.1
  | @report n n' report mem dispatched reported move =>
    have hr : Replaced s _ n n' := .report mem dispatched move
    refine hr.forward ht ⟨hr.same, fun hterminal => ?_, fun _ => ?_⟩
    · rw [dispatched] at hterminal
      cases hterminal
    · exact (ChildReport.apply_eq move).2

theorem SchedSteps.forward (h : SchedSteps b now reports s s') (hresults : Results reports)
    (ht : Tracks b e s) (hok : NodesOk b s.1) : Forward s.1 s'.1 := by
  induction h with
  | refl => exact .refl _
  | tail hs hstep ih =>
    exact ih.trans (hstep.forward (SchedSteps.tracks hs ht) (SchedSteps.nodesOk hs hresults ht hok))

end

/-! ## Nobody is stranded -/

/-- Where nothing is left to schedule, a node that is not terminal waits for a DISPATCHED one:
follow unfinished predecessors down the rank. -/
theorem exists_dispatched {b : Blueprint} {nodes : List WorkflowNodeExecution}
    (hdag : ValidDag b.revision.nodes b.revision.edges) (hsettled : Settled b nodes)
    (hlive : ∃ n ∈ nodes, n.status.isTerminal = false) : ∃ n ∈ nodes, n.status = .dispatched := by
  obtain ⟨rank, hrank⟩ := hdag.rank
  by_contra hnone
  have hpending : ∀ n ∈ nodes, n.status.isTerminal = false → n.status = .pending := fun n hn hl => by
    cases hs : n.status with
    | pending => rfl
    | dispatched => exact absurd ⟨n, hn, hs⟩ hnone
    | _ => rw [hs] at hl; cases hl
  have hdescend : ∀ (k : Nat) (n : WorkflowNodeExecution), n ∈ nodes → rank n.workflowNodeId = k → n.status ≠ .pending := by
    intro k
    induction k using Nat.strong_induction_on with
    | _ k ih =>
      rintro n hn rfl hp
      obtain ⟨hready, hlost⟩ := hsettled n hn hp
      simp only [Blueprint.Ready, not_forall] at hready
      obtain ⟨m, hm, hpred, hstatus⟩ := hready
      have hless : rank m.workflowNodeId < rank n.workflowNodeId := by
        obtain ⟨edge, hedge, hfrom⟩ := List.mem_map.1 hpred
        obtain ⟨hedge, hto⟩ := List.mem_filter.1 hedge
        rw [← hfrom, ← of_decide_eq_true hto]
        exact hrank edge hedge
      refine ih _ hless m hm rfl (hpending m hm ?_)
      cases hs : m.status with
      | succeeded => exact absurd hs hstatus
      | failed | cancelled | blocked => exact absurd ⟨m, hm, hpred, by rw [hs]; rfl⟩ hlost
      | pending => rfl
      | dispatched => rfl
  obtain ⟨n, hn, hl⟩ := hlive
  exact hdescend _ n hn rfl (hpending n hn hl)

/-! ## Reports decide everything -/

section
variable {b : Blueprint} {n n' : WorkflowNodeExecution} {id : WorkflowNodeId}

/-- A node that ended with its child ended as the outcome of that node says. -/
def Follows (outcome : WorkflowNodeId → ChildOutcome) (n : WorkflowNodeExecution) : Prop :=
  n.status.isTerminal = true → n.status ≠ .blocked → (outcome n.workflowNodeId).Describes n

/-- The same status and failure code, and results that take the same room. -/
structure Agree (n n' : WorkflowNodeExecution) : Prop where
  status : n'.status = n.status
  code : n'.failureCode = n.failureCode
  result : n.status = .succeeded → resultSize n'.resultPayload = resultSize n.resultPayload

theorem ChildOutcome.Describes.agree {outcome : ChildOutcome} (h : outcome.Describes n)
    (h' : outcome.Describes n') : Agree n n' := by
  cases outcome with
  | succeeded size =>
    exact ⟨h'.1.trans h.1.symm, h'.2.2.trans h.2.2.symm, fun _ => h'.2.1.trans h.2.1.symm⟩
  | failed code | cancelled =>
    refine ⟨h'.1.trans h.1.symm, h'.2.trans h.2.symm, fun hs => ?_⟩
    rw [h.1] at hs
    cases hs

theorem Blueprint.Ready.not_lost (h : b.Ready nodes id) : ¬b.Lost nodes id := by
  rintro ⟨m, hm, hp, hlost⟩
  rw [h m hm hp] at hlost
  cases hlost

/-- Why a node is blocked determines the code. -/
theorem Blueprint.Blocks.code_eq {code code' message message' : String}
    (h : b.Blocks nodes id code message) (h' : b.Blocks nodes id code' message') :
    code' = code := by
  cases h with
  | predecessor lost =>
    cases h' with
    | predecessor => rfl
    | context ready large => exact absurd lost ready.not_lost
  | context ready large =>
    cases h' with
    | predecessor lost => exact absurd lost ready.not_lost
    | context => rfl

theorem Blueprint.Blocks.not_fits {code message : String} (h : b.Blocks nodes id code message)
    (hready : b.Ready nodes id) : ¬b.Fits nodes id := by
  cases h with
  | predecessor lost => exact absurd lost hready.not_lost
  | context _ large => exact fun hfits => hfits.not_tooLarge large

/-- The predecessors of a node agree between two lists of the same nodes. -/
structure SamePredecessors (b : Blueprint) (id : WorkflowNodeId)
    (nodes nodes' : List WorkflowNodeExecution) : Prop where
  ids : (nodes.map (·.workflowNodeId)).Nodup
  perm : (nodes'.map (·.workflowNodeId)).Perm (nodes.map (·.workflowNodeId))
  known : ∀ p ∈ b.predecessors id, p ∈ nodes.map (·.workflowNodeId)
  agree : ∀ m ∈ nodes, ∀ m' ∈ nodes', m'.workflowNodeId = m.workflowNodeId →
    m.workflowNodeId ∈ b.predecessors id → Agree m m'

theorem Agree.symm (h : Agree n n') : Agree n' n :=
  ⟨h.status.symm, h.code.symm, fun hs => (h.result (h.status.symm.trans hs)).symm⟩

namespace SamePredecessors

variable (h : SamePredecessors b id nodes nodes')
include h

theorem symm : SamePredecessors b id nodes' nodes where
  ids := h.perm.nodup_iff.2 h.ids
  perm := h.perm.symm
  known p hp := h.perm.mem_iff.2 (h.known p hp)
  agree m hm m' hm' hid hp := (h.agree m' hm' m hm hid.symm (hid ▸ hp)).symm

/-- The counterpart of a node. -/
theorem exists_same {m' : WorkflowNodeExecution} (hm' : m' ∈ nodes') :
    ∃ m ∈ nodes, m'.workflowNodeId = m.workflowNodeId := by
  obtain ⟨m, hm, hid⟩ := List.mem_map.1 (h.perm.mem_iff.1 (List.mem_map_of_mem hm'))
  exact ⟨m, hm, hid.symm⟩

theorem ready (hready : b.Ready nodes id) : b.Ready nodes' id := by
  intro m' hm' hp
  obtain ⟨m, hm, hid⟩ := h.exists_same hm'
  rw [hid] at hp
  rw [(h.agree m hm m' hm' hid hp).status]
  exact hready m hm hp

theorem lost (hlost : b.Lost nodes id) : b.Lost nodes' id := by
  obtain ⟨m, hm, hp, hstatus⟩ := hlost
  obtain ⟨m', hm', hid⟩ := h.symm.exists_same hm
  rw [← (h.agree m hm m' hm' hid.symm hp).status] at hstatus
  exact ⟨m', hm', hid ▸ hp, hstatus⟩

/-- The contexts of a ready node read results of the same size. -/
theorem resultOf (hready : b.Ready nodes id) :
    ∀ p ∈ b.predecessors id, resultOf nodes' p = resultOf nodes p := by
  have hfind : ∀ {nodes : List WorkflowNodeExecution} {m : WorkflowNodeExecution},
      (nodes.map (·.workflowNodeId)).Nodup → m ∈ nodes →
      Runs.resultOf nodes m.workflowNodeId = some (m.status, resultSize m.resultPayload) := fun {nodes m} hids hm => by
    cases hf : nodes.find? (·.workflowNodeId = m.workflowNodeId) with
    | none => exact absurd (List.find?_eq_none.1 hf m hm) (by simp)
    | some x =>
      obtain ⟨hx, hid⟩ := of_find? hf
      rw [Runs.resultOf, hf, List.inj_on_of_nodup_map hids hx hm hid]
      rfl
  intro p hp
  obtain ⟨m, hm, rfl⟩ := List.mem_map.1 (h.known p hp)
  obtain ⟨m', hm', hid⟩ := h.symm.exists_same hm
  have hagree := h.agree m hm m' hm' hid.symm hp
  rw [hfind h.ids hm, hid, hfind h.symm.ids hm', hagree.status, hagree.result (hready m hm hp)]

theorem blocks {code message : String} (hb : b.Blocks nodes id code message) :
    b.Blocks nodes' id code message := by
  cases hb with
  | predecessor lost => exact .predecessor (h.lost lost)
  | context ready large => exact .context (h.ready ready) (large.congr (h.resultOf ready))

end SamePredecessors

/-- Two lists of explained, ended nodes whose children report the same agree, by induction on the
rank. -/
theorem agree_of_explained {outcome : WorkflowNodeId → ChildOutcome} (hdag : ValidDag b.revision.nodes b.revision.edges)
    (hperm : (nodes.map (·.workflowNodeId)).Perm (b.revision.nodes.map (·.id)))
    (hperm' : (nodes'.map (·.workflowNodeId)).Perm (b.revision.nodes.map (·.id)))
    (hok : NodesOk b nodes) (hok' : NodesOk b nodes')
    (hfollows : ∀ n ∈ nodes, Follows outcome n) (hfollows' : ∀ n ∈ nodes', Follows outcome n)
    (hended : ∀ n ∈ nodes, n.status.isTerminal = true) (hended' : ∀ n ∈ nodes', n.status.isTerminal = true) :
    ∀ n ∈ nodes, ∀ n' ∈ nodes', n'.workflowNodeId = n.workflowNodeId → Agree n n' := by
  obtain ⟨rank, hrank⟩ := hdag.rank
  have hinduction : ∀ (k : Nat), ∀ n ∈ nodes, ∀ n' ∈ nodes', n'.workflowNodeId = n.workflowNodeId →
      rank n.workflowNodeId = k → Agree n n' := by
    intro k
    induction k using Nat.strong_induction_on with
    | _ k ih =>
      rintro n hn n' hn' hid rfl
      have hsame : SamePredecessors b n.workflowNodeId nodes nodes' := by
        refine ⟨hperm.nodup_iff.2 hdag.ids, hperm'.trans hperm.symm, fun p hp => ?_, fun m hm m' hm' hmid hp => ?_⟩
        · obtain ⟨edge, hedge, rfl⟩ := List.mem_map.1 hp
          exact hperm.mem_iff.2 (hdag.ends edge (List.mem_filter.1 hedge).1).1
        · refine ih _ ?_ m hm m' hm' hmid rfl
          obtain ⟨edge, hedge, hfrom⟩ := List.mem_map.1 hp
          obtain ⟨hedge, hto⟩ := List.mem_filter.1 hedge
          rw [← hfrom, ← of_decide_eq_true hto]
          exact hrank edge hedge
      have hnp : n.status ≠ .pending := fun hp => by have := hended n hn; rw [hp] at this; cases this
      have hnp' : n'.status ≠ .pending := fun hp => by have := hended' n' hn'; rw [hp] at this; cases this
      by_cases hb : n.status = .blocked
      · obtain ⟨-, code, message, hcode, hblocks⟩ := (hok n hn).blocked hb
        have hblocks' := hsame.blocks hblocks
        by_cases hb' : n'.status = .blocked
        · obtain ⟨-, code', message', hcode', hwhy⟩ := (hok' n' hn').blocked hb'
          rw [hid] at hwhy
          refine ⟨hb'.trans hb.symm, ?_, fun hs => by rw [hb] at hs; cases hs⟩
          rw [hcode, hcode', hblocks'.code_eq hwhy]
        · obtain ⟨-, hready, hfits⟩ := (hok' n' hn').dispatched hnp' hb'
          rw [hid] at hready hfits
          exact absurd hfits (hblocks'.not_fits hready)
      · obtain ⟨-, hready, hfits⟩ := (hok n hn).dispatched hnp hb
        by_cases hb' : n'.status = .blocked
        · obtain ⟨-, code, message, -, hwhy⟩ := (hok' n' hn').blocked hb'
          rw [hid] at hwhy
          exact absurd (hfits.congr (hsame.resultOf hready)) (hwhy.not_fits (hsame.ready hready))
        · have hdescribes' := hfollows' n' hn' (hended' n' hn') hb'
          rw [hid] at hdescribes'
          exact (hfollows n hn (hended n hn) hb).agree hdescribes'
  exact fun n hn n' hn' hid => hinduction _ n hn n' hn' hid rfl

end

end Friday.Runs
