import FridayAssistant.Runs.Flush
import FridayAssistant.Skills.Domain
/-!
# Skill-improvement work and the workers on it (worker_maintenance.py, skill_improvement_work.py)

Any number of workers run `EvaluateDueSkillImprovementPolicies`; a step is one statement of one of
them, with everything between a conditional `UPDATE` and its commit. What the policies, the
proposals, the generator and the evaluator answer is outside: it enters as the arguments of the
steps, and an exception can be raised before any of them (`raise`, `crash`).

`_fail_work` looks for the row by its skill. If nobody has claimed it, it is saved by
`Session.merge`: that reads the row again, since the session no longer holds it, or uses the one it
still holds, and the flush writes the columns that differ from what was read.
-/
namespace Friday.Skills
open Tables Transition

abbrev SkillImprovementWorkId := Uuid

inductive SkillImprovementWorkState where
  | evidenceSelection | candidateGeneration | baselineEvaluation | candidateEvaluation | comparison
  | readyForReview | failed | complete
  deriving DecidableEq

/-- The states of `uq_skill_improvement_work_active_skill`. -/
def SkillImprovementWorkState.isActive : SkillImprovementWorkState → Bool
  | .readyForReview | .complete => false
  | _ => true

structure SkillImprovementWork where
  id : SkillImprovementWorkId
  skillId : SkillId
  state : SkillImprovementWorkState
  proposalId : Option SkillImprovementProposalId
  attemptCount : Nat
  nextAttemptAt : Time
  claimedBy : Option String
  claimToken : Option String
  claimGeneration : Nat
  leaseExpiresAt : Option Time
  failureCode : Option String
  failureDetail : Option String
  createdAt : Time
  updatedAt : Time

instance : Keyed SkillImprovementWork SkillImprovementWorkId := ⟨SkillImprovementWork.id⟩

abbrev Works := Table SkillImprovementWork

/-! ## The repository -/

/-- `ORDER BY created_at, id`. -/
def workOrder (a b : SkillImprovementWork) : Prop := a.createdAt < b.createdAt ∨
    a.createdAt = b.createdAt ∧ a.id ≤ b.id
  deriving Decidable

def getActiveForSkill (t : Works) (skillId : SkillId) : Option SkillImprovementWork :=
  ((t.select fun w => w.skillId = skillId && w.state.isActive).insertionSort workOrder).head?

/-- `uq_skill_improvement_work_active_skill` allows the row. -/
def oneActive (t : Works) (w : SkillImprovementWork) : Bool :=
  !w.state.isActive || t.rows.all fun q => q.id = w.id || q.skillId ≠ w.skillId || !q.state.isActive

/-- `add_if_active_absent`. -/
def addIfActiveAbsent (t : Works) (w : SkillImprovementWork) : Works :=
  if (t.get? w.id).isNone && oneActive t w then t.put w else t

/-- The row is to be had: it is due, and nobody's or its lease has run out. -/
def isClaimable (skillId : SkillId) (now : Time) (w : SkillImprovementWork) : Bool :=
  w.skillId = skillId && w.state.isActive && w.nextAttemptAt ≤ now &&
    (w.claimedBy.isNone || w.leaseExpiresAt.any (· ≤ now))

def claimed (workerId claimToken : String) (now leaseExpiresAt : Time) (w : SkillImprovementWork) :
    SkillImprovementWork :=
  { w with
    claimedBy := some workerId, claimToken := some claimToken, claimGeneration := w.claimGeneration + 1,
    leaseExpiresAt := some leaseExpiresAt, updatedAt := now }

/-- `claim_for_skill`. -/
def claimForSkill (t : Works) (skillId : SkillId) (workerId claimToken : String)
    (now leaseExpiresAt : Time) : Option SkillImprovementWork × Works :=
  match t.updateWhere (isClaimable skillId now) (claimed workerId claimToken now leaseExpiresAt) (fun _ => rfl) with
  | (0, _) => (none, t)
  | (_ + 1, t) => (getActiveForSkill t skillId, t)

/-- The fence of `save_if_claimed`. -/
def isClaimedBy (workerId claimToken : String) (claimGeneration : Nat) (now : Time)
    (w : SkillImprovementWork) : Bool :=
  w.claimedBy = some workerId && w.claimToken = some claimToken &&
    w.claimGeneration = claimGeneration && w.leaseExpiresAt.any (now < ·)

/-- `save_if_claimed`: whether a row matched. -/
def saveIfClaimed (t : Works) (w : SkillImprovementWork) (workerId claimToken : String)
    (claimGeneration : Nat) (now : Time) : Result (Bool × Works) :=
  if (t.get? w.id).any (isClaimedBy workerId claimToken claimGeneration now) && !oneActive t w then
    .error .integrity
  else .ok (t.update w.id (isClaimedBy workerId claimToken claimGeneration now) fun _ => w)

/-- The flush of `save`: the columns of `saved` that differ from the row that was read. -/
def flushWork (base saved current : SkillImprovementWork) : SkillImprovementWork where
  id := current.id
  skillId := Runs.changed base.skillId saved.skillId current.skillId
  state := Runs.changed base.state saved.state current.state
  proposalId := Runs.changed base.proposalId saved.proposalId current.proposalId
  attemptCount := Runs.changed base.attemptCount saved.attemptCount current.attemptCount
  nextAttemptAt := Runs.changed base.nextAttemptAt saved.nextAttemptAt current.nextAttemptAt
  claimedBy := Runs.changed base.claimedBy saved.claimedBy current.claimedBy
  claimToken := Runs.changed base.claimToken saved.claimToken current.claimToken
  claimGeneration := Runs.changed base.claimGeneration saved.claimGeneration current.claimGeneration
  leaseExpiresAt := Runs.changed base.leaseExpiresAt saved.leaseExpiresAt current.leaseExpiresAt
  failureCode := Runs.changed base.failureCode saved.failureCode current.failureCode
  failureDetail := Runs.changed base.failureDetail saved.failureDetail current.failureDetail
  createdAt := Runs.changed base.createdAt saved.createdAt current.createdAt
  updatedAt := Runs.changed base.updatedAt saved.updatedAt current.updatedAt

/-! ## The use case -/

/-- What `RunSkillImprovementPolicyNow` finds outside the work table. -/
structure DueInput where
  enabled : Bool
  resumable : Option SkillImprovementProposalId
  coolingDown : Bool
  evidence : Bool

/-- A new work item. -/
def newWork (id : SkillImprovementWorkId) (skillId : SkillId) (state : SkillImprovementWorkState)
    (proposalId : Option SkillImprovementProposalId) (now : Time) : SkillImprovementWork :=
  ⟨id, skillId, state, proposalId, 0, now, none, none, 0, none, none, none, now, now⟩

/-- `RunSkillImprovementPolicyNow.execute`: whether the policy is due. -/
def runSkillImprovementPolicyNow (t : Works) (skillId : SkillId) (input : DueInput)
    (id : SkillImprovementWorkId) (now : Time) : Bool × Works :=
  if !input.enabled then (false, t)
  else if (getActiveForSkill t skillId).isSome then (true, t)
  else match input.resumable with
    | some proposalId => (true, addIfActiveAbsent t (newWork id skillId .candidateGeneration (some proposalId) now))
    | none =>
      if input.coolingDown || !input.evidence then (false, t)
      else (true, addIfActiveAbsent t (newWork id skillId .evidenceSelection none now))

/-- What the worker is about to report. -/
inductive Stage where
  | generation | baseline | candidate | comparison | completion
  deriving DecidableEq

def Stage.state : Stage → SkillImprovementWorkState
  | .generation => .candidateGeneration
  | .baseline => .baselineEvaluation
  | .candidate => .candidateEvaluation
  | .comparison => .comparison
  | .completion => .readyForReview

def Stage.next : Stage → Option Stage
  | .generation => some .baseline
  | .baseline => some .candidate
  | .candidate => some .comparison
  | .comparison => some .completion
  | .completion => none

/-- The row `_advance_work` and `_complete_work_and_trigger` write. -/
def advanced (current : SkillImprovementWork) (stage : Stage)
    (proposalId : Option SkillImprovementProposalId) (updatedAt : Time) : SkillImprovementWork :=
  let keep := stage ≠ .completion
  { current with
    state := stage.state, proposalId := proposalId.or current.proposalId, attemptCount := current.attemptCount + 1,
    claimedBy := if keep then current.claimedBy else none, claimToken := if keep then current.claimToken else none,
    leaseExpiresAt := if keep then current.leaseExpiresAt else none, updatedAt := updatedAt }

/-- The row `_fail_work` writes. -/
def failedWork (w : SkillImprovementWork) (now updatedAt : Time) : SkillImprovementWork :=
  { w with
    state := .failed, attemptCount := w.attemptCount + 1,
    nextAttemptAt := now + min 3600 (2 ^ min w.attemptCount 10) * 1000000,
    claimedBy := none, claimToken := none, leaseExpiresAt := none, failureCode := some "work_failed",
    failureDetail := some "improvement work did not complete", updatedAt := updatedAt }

/-! ## Workers -/

/-- Where a worker is. -/
inductive Phase where
  | idle
  | due (skillId : SkillId)
  | claiming (skillId : SkillId)
  | working (skillId : SkillId) (work : SkillImprovementWork) (stage : Stage)
  /-- `_advance_work` has read the row. -/
  | advancing (skillId : SkillId) (work : SkillImprovementWork) (stage : Stage)
      (proposalId : Option SkillImprovementProposalId) (current : SkillImprovementWork)
  /-- An exception was caught. -/
  | failing (skillId : SkillId)
  /-- `_fail_work` has read the row. -/
  | loaded (work : SkillImprovementWork)
  /-- `merge` has read it again. -/
  | merging (saved base : SkillImprovementWork)

/-- The skill of the `try` block the worker is in. -/
def Phase.inTry : Phase → Option SkillId
  | .due skillId | .claiming skillId | .working skillId _ _ | .advancing skillId _ _ _ _ =>
    some skillId
  | _ => none

structure WorkState where
  works : Works
  phase : String → Phase

inductive WorkOp where
  | start (skillId : SkillId)
  | due (input : DueInput) (id : SkillImprovementWorkId)
  | claim (claimToken : String)
  | read (proposalId : Option SkillImprovementProposalId)
  | write (updatedAt : Time)
  | raise
  | readActive
  | writeFailed (replacedAt updatedAt : Time)
  | merge (held : Bool) (replacedAt updatedAt : Time)
  | flush
  | crash

/-- One statement of one worker, at the time its clock reads. -/
structure WorkAction where
  worker : String
  now : Time
  op : WorkOp

def leaseDuration : Time := 300 * 1000000

/-- The worker's next phase and the table; `none` when it is elsewhere in the program. No row is
ever deleted, so `merge` and its flush find theirs. -/
def workOp (t : Works) (workerId : String) (now : Time) : Phase → WorkOp → Option (Phase × Works)
  | .idle, .start skillId => some (.due skillId, t)
  | .due skillId, .due input id =>
    match runSkillImprovementPolicyNow t skillId input id now with
    | (true, t) => some (.claiming skillId, t)
    | (false, t) => some (.idle, t)
  | .claiming skillId, .claim claimToken =>
    match claimForSkill t skillId workerId claimToken now (now + leaseDuration) with
    | (some work, t) => some (.working skillId work .generation, t)
    | (none, t) => some (.idle, t)
  | .working skillId work stage, .read proposalId =>
    match t.get? work.id with
    | some current => some (.advancing skillId work stage proposalId current, t)
    | none => some ((stage.next.map (.working skillId work)).getD (.failing skillId), t)
  | .advancing skillId work stage proposalId current, .write updatedAt =>
    match saveIfClaimed t (advanced current stage proposalId updatedAt) workerId
        (work.claimToken.getD "") work.claimGeneration now with
    | .ok (true, t) => some ((stage.next.map (.working skillId work)).getD .idle, t)
    | .ok (false, _) => some (.failing skillId, t)
    | .error _ => some (.idle, t)
  | .failing skillId, .readActive =>
    some (((getActiveForSkill t skillId).map .loaded).getD .idle, t)
  | .loaded work, .writeFailed replacedAt updatedAt =>
    if work.claimedBy.isSome then
      match saveIfClaimed t (failedWork work replacedAt updatedAt) workerId
          (work.claimToken.getD "") work.claimGeneration now with
      | .ok (_, t) => some (.idle, t)
      | .error _ => some (.idle, t)
    else none
  | .loaded work, .merge held replacedAt updatedAt =>
    if work.claimedBy.isSome then none
    else
      (t.get? work.id).map fun current =>
        (.merging (failedWork work replacedAt updatedAt) (if held then work else current), t)
  | .merging saved base, .flush =>
    (t.get? saved.id).map fun current =>
      let written := flushWork base saved current
      (.idle, if oneActive t written then t.put written else t)
  | phase, .raise => phase.inTry.map fun skillId => (.failing skillId, t)
  | _, .crash => some (.idle, t)
  | _, _ => none

def workStep (s : WorkState) (a : WorkAction) : Option WorkState :=
  (workOp s.works a.worker a.now (s.phase a.worker) a.op).map fun (phase, t) =>
    ⟨t, fun w => if w = a.worker then phase else s.phase w⟩

/-- Every worker starts idle, with no work. -/
def WorkState.initial : WorkState := ⟨.empty, fun _ => .idle⟩

def workSystem : System WorkState WorkAction := .ofStep (fun s => s = .initial) workStep fun _ _ =>
    True

end Friday.Skills
