import FridayAssistant.Runs.Flush
import FridayAssistant.Runs.Lineage
/-!
# `DispatchDelegation` between other transactions (delegation.py)

SQLite takes no lock for a `SELECT`: what a worker reads before its first write may be older than
the state it commits to. `DispatchDelegation` checks its claim, loads the parent and looks up
the request the parent is a child of, each at an instant of its own; then the no-op `UPDATE` of
`lock_tree_for_dispatch` or `lock_for_delegation_dispatch` takes the write lock, and from there
to the commit nothing else commits. The four parts are four steps here, and any number of
workers may stand between two of them while every other use case goes on.
-/
namespace Friday.Runs
open Tables PyJson Queue Transition

/-- The arguments of `DispatchDelegation.execute`, with the ids and the instant it draws. -/
structure DispatchCommand where
  intent : DelegationIntent
  targetAgentKey : String
  ids : DispatchIds
  claim : ClaimTriple
  now : Time

namespace DispatchCommand

/-- `_require_claim`. -/
def requireClaim (db : Db) (c : DispatchCommand) : Result Unit :=
  require (isClaimActive db.workQueue c.intent.parentRunId c.claim c.now)
    (.claimLost ("delegation dispatch requires an exact active claim for run " ++ Uuid.text c.intent.parentRunId))

/-- The parent as it is read. -/
def load (db : Db) (c : DispatchCommand) : Result Run := do
  let parent ← getRun db c.intent.parentRunId
  require (parent.status = .running) (.entityConflict "delegation parent must be running")
  return parent

/-- The root and depth of the new request. -/
def place (cfg : Config) (db : Db) (parent : Run) : Result (Option DelegationRequestId × Nat) :=
  lineage cfg (db.delegationRequests.getForChildExecution db.runs parent.executionId)

/-- From the write fence to the commit, with the parent, root and depth that were read before it. -/
def materialize (cfg : Config) (db : Db) (c : DispatchCommand) (parent : Run)
    (root : Option DelegationRequestId) (depth : Nat) : Result (DelegationRequest × Db) := do
  require (root.all fun r => (db.delegationRequests.get? r).isSome)
    (.entityConflict "delegation_lineage_invalid")
  let current ← getRun db parent.id
  requireBudget cfg db parent.id root
  require ((dumpsUnicode c.intent.inputPayload).utf8ByteSize ≤ maxDispatchInputBytes)
    (.entityConflict "delegation_input_too_large")
  requireParentStep db parent.id c.intent.parentRunStepId
  let agent ← delegationTarget cfg db c.targetAgentKey
  let request ← DelegationRequest.new cfg.sha256
    (c.intent.draft c.ids.requestId agent.id root depth c.now)
  let db ← startChild db c.ids.childTaskId c.ids.childRunId ("Delegated: " ++ request.objective)
    request.objective request.targetAgentId c.now
  let dispatched ← request.dispatch c.ids.childTaskId c.ids.childRunId c.now
  let requests ← db.delegationRequests.add dispatched
  let waiting ← parent.waitForDelegation dispatched.id
  let items ← removeClaimed parent.id c.claim c.now
    ("delegation dispatch lost claim for run " ++ Uuid.text parent.id) db.workQueue
  let db := { db with delegationRequests := requests, workQueue := items,
                      runs := db.runs.put (flushRun cfg.failureEq parent waiting current) }
  return (dispatched, appendRunEvents db parent.id c.now
    [⟨.delegationDispatched, dispatchedPayload dispatched c.ids, none⟩,
      ⟨.runWaitingForDelegation, textPayload [("run_id", Uuid.text parent.id),
        ("delegation_request_id", Uuid.text dispatched.id)], none⟩])

end DispatchCommand

theorem requireBudget_again (cfg : Config) (db : Db) (parentRunId : RunId) (root : Option DelegationRequestId) :
    (do require (root.all fun r => (db.delegationRequests.get? r).isSome) (.entityConflict "delegation_lineage_invalid")
        requireBudget cfg db parentRunId root) = requireBudget cfg db parentRunId root := by
  unfold requireBudget require
  split <;> rfl

/-- On the row it was loaded from, `materialize` is the rest of `DispatchDelegation`. -/
theorem materialize_loaded (cfg : Config) {db : Db} (c : DispatchCommand) {parent : Run}
    (root : Option DelegationRequestId) (depth : Nat) (hparent : getRun db parent.id = .ok parent) :
    c.materialize cfg db parent root depth = (do
      requireBudget cfg db parent.id root
      require ((dumpsUnicode c.intent.inputPayload).utf8ByteSize ≤ maxDispatchInputBytes)
        (.entityConflict "delegation_input_too_large")
      requireParentStep db parent.id c.intent.parentRunStepId
      let agent ← delegationTarget cfg db c.targetAgentKey
      let request ← DelegationRequest.new cfg.sha256 (c.intent.draft c.ids.requestId agent.id root depth c.now)
      materializeDelegation db parent request c.ids c.claim c.now) := by
  unfold DispatchCommand.materialize
  conv_rhs => rw [← requireBudget_again, bind_assoc]
  rw [hparent]
  refine bind_congr fun _ => ?_
  rw [ok_bind rfl]
  refine bind_congr fun _ => bind_congr fun _ => bind_congr fun _ => bind_congr fun agent => bind_congr fun request =>
    bind_congr fun db => bind_congr fun dispatched => bind_congr fun requests => ?_
  cases hwait : parent.waitForDelegation dispatched.id with
  | error e => rfl
  | ok waiting =>
    have hflush : flushRun cfg.failureEq parent waiting parent = waiting := by
      obtain ⟨-, -, rfl⟩ := Run.waitForDelegation_eq_ok.1 hwait
      exact flushRun_loaded _ rfl (.inr rfl)
    rw [ok_bind rfl, ok_bind rfl, hflush]

/-- With nothing in between, the four steps are `DispatchDelegation`. -/
theorem dispatchDelegation_eq (cfg : Config) (db : Db) (c : DispatchCommand) :
    dispatchDelegation cfg db c.intent c.targetAgentKey c.ids c.claim c.now = (do
      c.requireClaim db
      let parent ← c.load db
      let (root, depth) ← DispatchCommand.place cfg db parent
      c.materialize cfg db parent root depth) := by
  unfold dispatchDelegation DispatchCommand.load
  refine bind_congr fun _ => ?_
  cases hp : getRun db c.intent.parentRunId with
  | error e => rfl
  | ok parent =>
    obtain ⟨hget, -⟩ := getRun_eq_ok hp
    have hagain : getRun db parent.id = .ok parent := found_eq_ok.2 hget
    simp only [bind_assoc, pure_bind]
    rw [ok_bind rfl, ok_bind rfl]
    refine bind_congr fun _ => bind_congr fun (root, depth) => ?_
    exact (materialize_loaded cfg c root depth hagain).symm

/-! ## Workers at any point of it, between any other commits -/

/-- How far a worker is, with what it has read. -/
inductive DispatchPhase where
  | claimed
  | loaded (parent : Run)
  | placed (parent : Run) (root : Option DelegationRequestId) (depth : Nat)

/-- The committed state, and the calls that have not reached their fence. -/
structure DispatchState where
  db : Db
  workers : List (DispatchCommand × DispatchPhase)

inductive DispatchAction where
  /-- Any use case, in one transaction. -/
  | commit (action : RunAction)
  | begin (command : DispatchCommand)
  /-- The worker at this place reads on, or takes the fence and commits. -/
  | advance (worker : Nat)

def advanceDispatch (cfg : Config) (s : DispatchState) (i : Nat) : DispatchCommand × DispatchPhase →
    Result DispatchState
  | (c, .claimed) => do
    let parent ← c.load s.db
    return { s with workers := s.workers.set i (c, .loaded parent) }
  | (c, .loaded parent) => do
    let (root, depth) ← DispatchCommand.place cfg s.db parent
    return { s with workers := s.workers.set i (c, .placed parent root depth) }
  | (c, .placed parent root depth) => do
    let (_, db) ← c.materialize cfg s.db parent root depth
    return ⟨db, s.workers.eraseIdx i⟩

/-- A call that raises is rolled back; its worker may be advanced again later or never. -/
def dispatchStep (cfg : Config) (s : DispatchState) : DispatchAction → Option DispatchState
  | .commit a => (commit cfg s.db a).map fun db => { s with db := db }
  | .begin c =>
    ((c.requireClaim s.db).toOption).map fun _ => { s with workers := s.workers ++ [(c, .claimed)] }
  | .advance i => s.workers[i]?.bind fun w => (advanceDispatch cfg s i w).toOption

/-- Any number of workers that dispatch, interleaved with every other use case. -/
def dispatchSystem (cfg : Config) : System DispatchState DispatchAction :=
  .ofStep (fun s => s.db.toCore = .empty ∧ s.workers = []) (dispatchStep cfg) fun _ _ => True

end Friday.Runs
