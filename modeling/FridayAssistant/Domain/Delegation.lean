import FridayAssistant.Domain.Run
import FridayAssistant.Domain.Approval
/-!
# `DelegationRequest` (domain/delegation.py)

The edge from a parent run to the child task and run another agent executes for it. A request is
REQUESTED, then DISPATCHED with its child, then settled once. Its fingerprint binds the intent
to the parent; rows are only written through `new` and the transitions below, so reading one
back checks nothing new.
-/
namespace Friday
open Tables Table PyJson

inductive DelegationStatus where
  | requested | dispatched | succeeded | failed | cancelled
  deriving DecidableEq

/-- `TERMINAL_DELEGATION_STATUSES`. -/
def DelegationStatus.isTerminal : DelegationStatus → Bool
  | .requested | .dispatched => false
  | .succeeded | .failed | .cancelled => true

def DelegationStatus.value : DelegationStatus → String
  | .requested => "requested"
  | .dispatched => "dispatched"
  | .succeeded => "succeeded"
  | .failed => "failed"
  | .cancelled => "cancelled"

structure DelegationRequest where
  id : DelegationRequestId
  parentRunId : RunId
  targetAgentId : AgentId
  objective : String
  inputPayload : JsonValue
  expectedOutputContract : String
  authorizationFingerprint : String
  status : DelegationStatus
  createdAt : Time
  parentRunStepId : Option RunStepId
  childTaskId : Option TaskId
  childRunId : Option RunId
  startedAt : Option Time
  completedAt : Option Time
  failureCode : Option String
  rootDelegationId : DelegationRequestId
  depth : Nat

instance : Keyed DelegationRequest DelegationRequestId := ⟨DelegationRequest.id⟩

@[simp] theorem key_delegation (q : DelegationRequest) : key q = q.id := rfl

namespace DelegationRequest

def maxObjectiveLength : Nat := 4000
def maxOutputContractLength : Nat := 4000
def maxFailureCodeLength : Nat := 128

/-- What `DelegationRequest.new` is called with. -/
structure Draft where
  id : DelegationRequestId
  parentRunId : RunId
  targetAgentId : AgentId
  objective : String
  inputPayload : JsonValue
  expectedOutputContract : String
  createdAt : Time
  parentRunStepId : Option RunStepId
  rootDelegationId : Option DelegationRequestId
  depth : Nat

/-- The text `compute_delegation_fingerprint` hashes. -/
def fingerprintMaterial (d : Draft) : String :=
  dumps (.obj [("version", .int 1), ("delegation_request_id", .str (Uuid.text d.id)),
    ("parent_run_id", .str (Uuid.text d.parentRunId)),
    ("parent_run_step_id", (d.parentRunStepId.map fun s => JsonValue.str (Uuid.text s)).getD .null),
    ("target_agent_id", .str (Uuid.text d.targetAgentId)), ("objective", .str d.objective),
    ("input_payload", d.inputPayload), ("expected_output_contract", .str d.expectedOutputContract)])

/-- `not text or len(text) > maximum`, after stripping. -/
def isBounded (maximum : Nat) (s : String) : Bool :=
  !PyText.isBlank s && (PyText.strip s).toList.length ≤ maximum

/-- `DelegationRequest.new` with `__post_init__`; a root names itself and has depth 1. -/
def new (sha256 : String → String) (d : Draft) : Result DelegationRequest := do
  let d := { d with objective := PyText.strip d.objective,
                    expectedOutputContract := PyText.strip d.expectedOutputContract }
  let fingerprint := sha256 (fingerprintMaterial d)
  let root := d.rootDelegationId.getD d.id
  require (isBounded maxObjectiveLength d.objective)
    (.domainValidation "DelegationRequest.objective must be non-empty and within the maximum length")
  require (isBounded maxOutputContractLength d.expectedOutputContract) (.domainValidation
    "DelegationRequest.expected_output_contract must be non-empty and within the maximum length")
  require (ApprovalRequest.isDigest fingerprint)
    (.domainValidation "DelegationRequest.authorization_fingerprint must be lowercase sha256")
  require (1 ≤ d.depth) (.domainValidation "DelegationRequest.depth must be at least 1")
  require (decide (d.depth = 1) == decide (root = d.id)) (.domainValidation
    ("a root delegation has depth 1 and is its own root; a nested delegation " ++
      "has depth > 1 and names another delegation as root"))
  return { id := d.id, parentRunId := d.parentRunId, targetAgentId := d.targetAgentId, objective := d.objective,
           inputPayload := d.inputPayload, expectedOutputContract := d.expectedOutputContract,
           authorizationFingerprint := fingerprint, status := .requested, createdAt := d.createdAt,
           parentRunStepId := d.parentRunStepId, childTaskId := none, childRunId := none, startedAt := none,
           completedAt := none, failureCode := none, rootDelegationId := root, depth := d.depth }

variable {q : DelegationRequest}

theorem new_eq_ok {sha256 : String → String} {d : Draft} (h : new sha256 d = .ok q) :
    q.id = d.id ∧ q.parentRunId = d.parentRunId ∧ q.status = .requested ∧ q.childTaskId = none ∧ q.childRunId = none := by
  simp only [new, bind_eq_ok, pure_eq_ok] at h
  obtain ⟨_, -, _, -, _, -, _, -, _, -, rfl⟩ := h
  exact ⟨rfl, rfl, rfl, rfl, rfl⟩

/-- Where the new request stands in its tree. -/
theorem new_edge {sha256 : String → String} {d : Draft} (h : new sha256 d = .ok q) :
    q.rootDelegationId = d.rootDelegationId.getD d.id ∧ q.depth = d.depth := by
  simp only [new, bind_eq_ok, pure_eq_ok] at h
  obtain ⟨_, -, _, -, _, -, _, -, _, -, rfl⟩ := h
  exact ⟨rfl, rfl⟩

def requireStatus (q : DelegationRequest) (allowed : List DelegationStatus) (target : String) :
    Result Unit :=
  require (allowed.contains q.status)
    (.invalidStateTransition "DelegationRequest" q.status.value target)

def dispatch (q : DelegationRequest) (childTaskId : TaskId) (childRunId : RunId) (now : Time) :
    Result DelegationRequest := do
  q.requireStatus [.requested] "dispatched"
  return { q with childTaskId := some childTaskId, childRunId := some childRunId, startedAt := some now,
                  status := .dispatched }

theorem dispatch_eq_ok {q' : DelegationRequest} {childTaskId : TaskId} {childRunId : RunId}
    {now : Time} (h : q.dispatch childTaskId childRunId now = .ok q') : q' = { q with
      childTaskId := some childTaskId, childRunId := some childRunId, startedAt :=
  some now, status := .dispatched } := by
  obtain ⟨_, h⟩ := bind_rest h
  exact pure_eq_ok.1 h

def succeed (q : DelegationRequest) (now : Time) : Result DelegationRequest := do
  q.requireStatus [.dispatched] "succeeded"
  return { q with completedAt := some now, status := .succeeded }

def fail (q : DelegationRequest) (now : Time) (failureCode : String) : Result DelegationRequest :=
  do
  q.requireStatus [.dispatched] "failed"
  require (isBounded maxFailureCodeLength failureCode)
    (.domainValidation "delegation failure code is empty or too long")
  return { q with failureCode := some (PyText.strip failureCode), completedAt := some now, status := .failed }

def cancel (q : DelegationRequest) (now : Time) : Result DelegationRequest := do
  q.requireStatus [.requested, .dispatched] "cancelled"
  return { q with completedAt := some now, status := .cancelled }

/-- `ORDER BY created_at, id`. -/
def creationOrder (a b : DelegationRequest) : Prop :=
  a.createdAt < b.createdAt ∨ a.createdAt = b.createdAt ∧ a.id ≤ b.id
  deriving Decidable

end DelegationRequest

/-! ## `RunRepository` and `DelegationRequestRepository` -/

/-- `ORDER BY created_at, id`. -/
def Run.creationOrder (a b : Run) : Prop := a.createdAt < b.createdAt ∨ a.createdAt = b.createdAt ∧
    a.id ≤ b.id
  deriving Decidable

instance : Std.Total Run.creationOrder where
  total a b := by
    unfold Run.creationOrder
    rcases lt_trichotomy a.createdAt b.createdAt with h | h | h
    · exact .inl (.inl h)
    · rcases BitVec.le_total a.id b.id with hid | hid
      · exact .inl (.inr ⟨h, hid⟩)
      · exact .inr (.inr ⟨h.symm, hid⟩)
    · exact .inr (.inl h)

instance : IsTrans Run Run.creationOrder where
  trans a b c hab hbc := by
    rcases hab with h | ⟨h, hid⟩ <;> rcases hbc with h' | ⟨h', hid'⟩
    · exact .inl (h.trans h')
    · exact .inl (h' ▸ h)
    · exact .inl (h ▸ h')
    · exact .inr ⟨h.trans h', BitVec.le_trans hid hid'⟩

abbrev RunTable := Table Run

variable {executionId : RunId} {taskId : TaskId}

namespace RunTable

def listForTask (t : RunTable) (taskId : TaskId) : List Run :=
  (t.select (·.taskId = taskId)).insertionSort Run.creationOrder

def listForExecution (t : RunTable) (executionId : RunId) : List Run :=
  (t.select (·.executionId = executionId)).insertionSort Run.creationOrder

/-- `get_latest_for_execution`: last in creation order. -/
def getLatestForExecution (t : RunTable) (executionId : RunId) : Option Run :=
  (t.listForExecution executionId).getLast?

/-- `ordinal_for_execution`: the run's place among the attempts, from 1; 0 when it is missing. -/
def ordinalForExecution (t : RunTable) (runId : RunId) : Nat :=
  match t.get? runId with
  | none => 0
  | some run => (((t.listForExecution run.executionId).findIdx? (·.id = runId)).map (· + 1)).getD 0

variable {r : Run} {t : RunTable}

theorem mem_listForTask :
    r ∈ t.listForTask taskId ↔ t.get? r.id = some r ∧ r.taskId = taskId := by
  rw [listForTask, List.mem_insertionSort, mem_select, key_run, decide_eq_true_iff]

theorem nodup_listForTask : ((t.listForTask taskId).map Run.id).Nodup := by
  have hperm := (List.perm_insertionSort Run.creationOrder (t.select (·.taskId = taskId))).map
    Run.id
  exact hperm.nodup_iff.2 (t.nodup.sublist (List.filter_sublist.map Run.id))

theorem mem_listForExecution :
    r ∈ t.listForExecution executionId ↔ t.get? r.id = some r ∧ r.executionId = executionId := by
  rw [listForExecution, List.mem_insertionSort, mem_select, key_run, decide_eq_true_iff]

theorem getLatestForExecution_mem
    (h : t.getLatestForExecution executionId = some r) : t.get? r.id = some r ∧ r.executionId = executionId :=
  mem_listForExecution.1 (List.mem_of_getLast? h)

/-- An attempt that was created after all others of its execution is the latest. -/
theorem getLatestForExecution_of_newest (hr : r ∈ t.rows)
    (hnewest : ∀ x ∈ t.rows, x.executionId = r.executionId → x.id ≠ r.id → x.createdAt < r.createdAt) :
    t.getLatestForExecution r.executionId = some r := by
  have hmem : r ∈ t.listForExecution r.executionId := mem_listForExecution.2 ⟨get?_of_mem hr, rfl⟩
  have hsorted : (t.listForExecution r.executionId).Pairwise Run.creationOrder :=
    List.pairwise_insertionSort _ _
  unfold getLatestForExecution
  obtain ⟨front, last, hl⟩ := (List.eq_nil_or_concat' _).resolve_left (List.ne_nil_of_mem hmem)
  rw [hl] at hmem hsorted ⊢
  rw [List.getLast?_concat]
  rcases List.mem_append.1 hmem with hfront | hlast
  · -- the last one is not created before `r`, so it is `r`
    have hle : r.creationOrder last := (List.pairwise_append.1 hsorted).2.2 r hfront last (List.mem_singleton_self _)
    have hlast : last ∈ t.listForExecution r.executionId := hl ▸ List.mem_append_right _ (List.mem_singleton_self _)
    obtain ⟨hget, hexec⟩ := mem_listForExecution.1 hlast
    have hin := mem_of_get? hget
    by_contra hne
    have hid : last.id ≠ r.id := fun e => hne (congrArg some (eq_of_key hin hr e))
    have hlt := hnewest last hin hexec hid
    rcases hle with h | ⟨h, -⟩
    · exact lt_asymm h hlt
    · exact absurd h hlt.ne'
  · rw [List.mem_singleton.1 hlast]

end RunTable

abbrev DelegationRequests := Table DelegationRequest

namespace DelegationRequests

/-- `INSERT` under the unique child task, child run and fingerprint. -/
def add (t : DelegationRequests) (q : DelegationRequest) : Result DelegationRequests := do
  require (t.rows.all fun x =>
      !(x.childTaskId.isSome && x.childTaskId = q.childTaskId) &&
        !(x.childRunId.isSome && x.childRunId = q.childRunId) &&
        x.authorizationFingerprint ≠ q.authorizationFingerprint) .integrity
  found (t.insert? q) .integrity

variable {t : DelegationRequests} {q : DelegationRequest}

theorem add_eq_ok {t' : DelegationRequests} (h : t.add q = .ok t') :
    t.get? q.id = none ∧ t' = t.put q := by
  obtain ⟨_, h⟩ := bind_rest h
  exact insert?_eq_some.1 (found_eq_ok.1 h)

def countMaterializedForRun (t : DelegationRequests) (runId : RunId) : Nat :=
  (t.select fun q => q.parentRunId = runId && q.childRunId.isSome).length

def countMaterializedForTree (t : DelegationRequests) (root : DelegationRequestId) : Nat :=
  (t.select fun q => q.rootDelegationId = root && q.childRunId.isSome).length

def hasDispatchedForRun (t : DelegationRequests) (runId : RunId) : Bool :=
  t.rows.any fun q => q.parentRunId = runId && q.status = .dispatched

/-- `get_for_child_execution`: the first request whose child run belongs to the execution. -/
def getForChildExecution (t : DelegationRequests) (runs : RunTable) (executionId : RunId) :
    Option DelegationRequest :=
  ((t.select fun q => q.childRunId.any fun c => (runs.get? c).any (·.executionId = executionId)).insertionSort
    DelegationRequest.creationOrder).head?

variable {runs : RunTable}

theorem getForChildExecution_some (h : t.getForChildExecution runs executionId = some q) :
    t.get? q.id = some q ∧ ∃ child, q.childRunId = some child.id ∧ runs.get? child.id = some child ∧
      child.executionId = executionId := by
  have hmem := List.mem_of_mem_head? (Option.mem_def.2 h)
  rw [List.mem_insertionSort, mem_select] at hmem
  refine ⟨hmem.1, ?_⟩
  obtain ⟨c, hc, hrun⟩ := (Option.any_eq_true _ _).1 hmem.2
  obtain ⟨child, hchild, he⟩ := (Option.any_eq_true _ _).1 hrun
  obtain rfl : child.id = c := key_of_get? hchild
  exact ⟨child, hc, hchild, of_decide_eq_true he⟩

theorem getForChildExecution_isSome {child : Run} (hq : q ∈ t.rows)
    (hc : q.childRunId = some child.id) (hr : child ∈ runs.rows)
    (he : child.executionId = executionId) :
    ∃ q', t.getForChildExecution runs executionId = some q' := by
  have hmem : q ∈ (t.select fun q => q.childRunId.any fun c =>
      (runs.get? c).any (·.executionId = executionId)).insertionSort DelegationRequest.creationOrder := by
    rw [List.mem_insertionSort, mem_select]
    refine ⟨get?_of_mem hq, ?_⟩
    rw [hc, Option.any_some, show runs.get? child.id = some child from get?_of_mem hr, Option.any_some]
    exact decide_eq_true he
  exact ⟨_, List.head?_eq_some_head (List.ne_nil_of_mem hmem)⟩

/-- Where children are first attempts and each is the child of one request,
`get_for_child_execution` finds the request that names the execution's first attempt. -/
theorem getForChildExecution_iff {e : RunId}
    (child : ∀ q ∈ t.rows, ∀ k, q.childRunId = some k → ∃ x, runs.get? k = some x ∧ x.executionId = k)
    (unique : ∀ q ∈ t.rows, ∀ q' ∈ t.rows, ∀ k, q.childRunId = some k → q'.childRunId = some k → q = q') :
    t.getForChildExecution runs e = some q ↔ q ∈ t.rows ∧ q.childRunId = some e := by
  have found : ∀ q, t.getForChildExecution runs e = some q → q ∈ t.rows ∧ q.childRunId = some e := by
    intro q hq
    obtain ⟨hmem, first, hc, hfirst, he⟩ := getForChildExecution_some hq
    obtain ⟨x, hx, hxe⟩ := child q (mem_of_get? hmem) first.id hc
    rw [hfirst] at hx
    cases hx
    exact ⟨mem_of_get? hmem, by rw [← he, hxe]; exact hc⟩
  refine ⟨found q, fun ⟨hq, hc⟩ => ?_⟩
  obtain ⟨x, hx, hxe⟩ := child q hq e hc
  have hid : x.id = e := key_of_get? hx
  obtain ⟨q', hq'⟩ := getForChildExecution_isSome hq (hid ▸ hc) (mem_of_get? hx) hxe
  obtain ⟨hmem', hc'⟩ := found q' hq'
  rw [hq', unique q hq q' hmem' e hc hc']

/-- Saving an attempt again changes no child's execution. -/
theorem getForChildExecution_put {r r' : Run} (executionId : RunId)
    (hr : runs.get? r.id = some r) (hid : r'.id = r.id) (he : r'.executionId = r.executionId) :
    t.getForChildExecution (runs.put r') executionId = t.getForChildExecution runs executionId := by
  have hany : ∀ c, ((runs.put r').get? c).any (·.executionId = executionId) =
      (runs.get? c).any (·.executionId = executionId) := by
    intro c
    rw [get?_put, key_run, hid]
    split
    · next h => rw [← h, hr, Option.any_some, Option.any_some, he]
    · rfl
  simp only [getForChildExecution, hany]

def getForChildTask (t : DelegationRequests) (taskId : TaskId) : Option DelegationRequest :=
  ((t.select (·.childTaskId = some taskId)).insertionSort DelegationRequest.creationOrder).head?

theorem getForChildTask_isSome (hq : q ∈ t.rows) (ht : q.childTaskId = some taskId) :
    ∃ q', t.getForChildTask taskId = some q' ∧ q' ∈ t.rows ∧ q'.childTaskId = some taskId := by
  have hmem : ∀ {x : DelegationRequest}, x ∈ (t.select (·.childTaskId = some taskId)).insertionSort
      DelegationRequest.creationOrder ↔ x ∈ t.rows ∧ x.childTaskId = some taskId := by
    intro x
    rw [List.mem_insertionSort, mem_select, ← mem_rows, decide_eq_true_iff]
  have hsome := List.head?_eq_some_head (List.ne_nil_of_mem (hmem.2 ⟨hq, ht⟩))
  exact ⟨_, hsome, hmem.1 (List.head_mem _)⟩

/-- `finalize_if_dispatched`: the conditional `UPDATE`, with the failure code as it is given. -/
def finalizeIfDispatched (t : DelegationRequests) (id : DelegationRequestId)
    (status : DelegationStatus) (completedAt : Time) (failureCode : Option String) :
    Bool × DelegationRequests :=
  t.update id (·.status = .dispatched) fun q =>
    { q with status := status, completedAt := some completedAt, failureCode := failureCode }

end DelegationRequests
end Friday
