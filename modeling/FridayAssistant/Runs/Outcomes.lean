import FridayAssistant.Runs.Ending
/-!
# When an outcome can be applied (worker_coordination.py)

The worker loop catches `ClaimLost` and nothing else. For each of its outcome appliers this file
gives the condition on the state before under which the applier returns or raises `ClaimLost`, and
proves that the condition is exact: in every other state the applier raises something the loop does
not catch.

    ApplySucceededOutcome               succeedApplies
    ApplyFailedOutcome                  failApplies
    ApplyWaitingOutcome                 approvalWaitApplies
    ApplyWaitingForDelegationOutcome    delegationWaitApplies
    RequeueClaimedRun                   always
-/
namespace Friday

namespace AppError

@[simp] def isClaimLost : AppError → Bool
  | .claimLost _ => true
  | _ => false

/-- What `except ClaimLost` catches. -/
@[simp] def caught (e : AppError) : Prop := e.isClaimLost = true

@[simp] def uncaught (e : AppError) : Prop := e.isClaimLost = false

theorem uncaught.not_caught {e : AppError} (h : e.uncaught) : ¬e.caught := by
  rw [caught, show e.isClaimLost = false from h]
  nofun

end AppError
open AppError (uncaught caught isClaimLost integrity)

section
variable {α β : Type} {f : α → Result β}

/-- What raises no `ClaimLost` must return, which it does when `c`, and the rest must go well when
`d`. -/
theorem caught_bind {x : Result α} {c d : Prop} (h : OnlyRaises uncaught x)
    (hx : (∃ a, x = .ok a) ↔ c) (hf : ∀ a, x = .ok a → (OnlyRaises caught (f a) ↔ d)) :
    OnlyRaises caught (x >>= f) ↔ c ∧ d := by
  rw [onlyRaises_bind_iff h fun _ => uncaught.not_caught, ← hx]
  exact ⟨fun ⟨a, ha, hrest⟩ => ⟨⟨a, ha⟩, (hf a ha).1 hrest⟩,
    fun ⟨⟨a, ha⟩, hd⟩ => ⟨a, ha, (hf a ha).2 hd⟩⟩

theorem caught_return {x : Result α} {c : Prop} {y : α → β} (h : OnlyRaises uncaught x)
    (hx : (∃ a, x = .ok a) ↔ c) : OnlyRaises caught (x >>= fun a => pure (y a)) ↔ c := by
  rw [caught_bind (d := True) h hx fun _ _ => iff_of_true (onlyRaises_pure _) trivial, and_true]

theorem caught_require {c : Bool} {e : AppError} {f : Unit → Result β} (he : e.isClaimLost = false) :
    OnlyRaises caught (require c e >>= f) ↔ c = true ∧ OnlyRaises caught (f ()) :=
  caught_bind (onlyRaises_require.2 (.inr he)) (by simp) fun _ _ => Iff.rfl

theorem caught_found {x : Option α} {e : AppError} (he : e.isClaimLost = false) :
    OnlyRaises caught (found x e >>= f) ↔ ∃ a, x = some a ∧ OnlyRaises caught (f a) := by
  have h : OnlyRaises uncaught (found x e) := onlyRaises_found.2 (.inr he)
  rw [onlyRaises_bind_iff h fun _ => uncaught.not_caught]
  simp

end

namespace Runs
open Tables Table Queue

/-! ## What ends a run knows no claims -/

section
variable {now : Time}

@[simp] theorem run_requireStatus_uncaught (r : Run) (allowed : List RunStatus)
    (target : RunStatus) : OnlyRaises uncaught (r.requireStatus allowed target) := by
  simp [Run.requireStatus]

@[simp] theorem validatedEnd_uncaught (r : Run) : OnlyRaises uncaught (r.validatedEnd now) := by
  simp [Run.validatedEnd]

@[simp] theorem succeed_uncaught (r : Run) : OnlyRaises uncaught (r.succeed now) := by
  simp [Run.succeed, onlyRaises_bind]

@[simp] theorem fail_uncaught (r : Run) (failure : Failure) :
    OnlyRaises uncaught (r.fail now failure) := by
  simp [Run.fail, onlyRaises_bind]

theorem cancelTool_uncaught (db : Db) (v : ToolInvocation) :
    OnlyRaises uncaught (cancelTool db v now) := by
  unfold cancelTool
  split
  · exact onlyRaises_ok _
  · simp [ToolInvocation.cancel, ToolInvocation.requireStatus, ToolInvocation.validatedEnd, onlyRaises_bind]

@[simp] theorem cancelTools_uncaught : ∀ (db : Db) (tools : List ToolInvocation),
    OnlyRaises uncaught (cancelTools now db tools)
  | _, [] => onlyRaises_ok _
  | db, v :: tools => by
    rw [cancelTools, onlyRaises_bind]
    refine ⟨cancelTool_uncaught db v, fun x _ => ?_⟩
    rw [onlyRaises_bind]
    exact ⟨cancelTools_uncaught _ tools, fun _ _ => onlyRaises_pure _⟩

theorem cancelStep_uncaught (db : Db) (s : RunStep) :
    OnlyRaises uncaught (cancelStep db s now) := by
  unfold cancelStep
  split
  · exact onlyRaises_ok _
  · simp [RunStep.cancel, RunStep.requireStatus, RunStep.validatedEnd, onlyRaises_bind]

@[simp] theorem cancelSteps_uncaught : ∀ (db : Db) (steps : List RunStep),
    OnlyRaises uncaught (cancelSteps now db steps)
  | _, [] => onlyRaises_ok _
  | db, s :: steps => by
    rw [cancelSteps, onlyRaises_bind]
    refine ⟨cancelStep_uncaught db s, fun x _ => ?_⟩
    rw [onlyRaises_bind]
    exact ⟨cancelSteps_uncaught _ steps, fun _ _ => onlyRaises_pure _⟩

@[simp] theorem cancelDescendants_uncaught (db : Db) (runId : RunId) :
    OnlyRaises uncaught (cancelDescendants db runId now) := by
  simp [cancelDescendants, onlyRaises_bind]

@[simp] theorem recordUsage_uncaught {r : Run} {resolution : RunSkillResolution} {attempt : Nat} :
    ∀ (db : Db) (bindings : List RunSkillBinding), OnlyRaises uncaught (recordUsage r resolution attempt now db bindings)
  | _, [] => onlyRaises_ok _
  | db, b :: bindings => by
    unfold recordUsage
    split
    · exact recordUsage_uncaught db bindings
    · simp [SkillUsageRecord.validate, SkillUsageRecords.add, onlyRaises_bind, integrity, recordUsage_uncaught _ bindings]

theorem materializeSkillUsage_uncaught (db : Db) (runId : RunId) :
    OnlyRaises uncaught (materializeSkillUsage db runId now) := by
  rw [materializeSkillUsage, onlyRaises_bind]
  refine ⟨by simp [getRun], fun r _ => ?_⟩
  rw [onlyRaises_bind]
  refine ⟨by simp, fun _ _ => ?_⟩
  split
  · exact onlyRaises_pure _
  · simp [onlyRaises_bind]

theorem wakeParent_uncaught (db : Db) (q : DelegationRequest) (spec : EventSpec) :
    OnlyRaises uncaught (wakeParent db q spec now) := by
  obtain ⟨x, hx⟩ := wakeParent_ok db q spec now
  rw [hx]
  exact onlyRaises_ok _

theorem settleRequest_uncaught (q : DelegationRequest) (status : DelegationStatus)
    (code : Option String) : OnlyRaises uncaught (settleRequest q status now code) := by
  unfold settleRequest
  split <;> simp [DelegationRequest.succeed, DelegationRequest.fail, DelegationRequest.cancel,
    DelegationRequest.requireStatus, onlyRaises_bind]

theorem reconcileChildTerminal_uncaught (db : Db) (r : Run) :
    OnlyRaises uncaught (reconcileChildTerminal db r now) := by
  unfold reconcileChildTerminal settleDelegation
  repeat' split
  all_goals first
    | exact onlyRaises_ok _
    | exact onlyRaises_bind.2 ⟨settleRequest_uncaught _ _ _, fun _ _ => wakeParent_uncaught _ _ _⟩

@[simp] theorem copyBindings_uncaught (retryId : RunId) : ∀ (t : RunSkillBindings) (bs : List RunSkillBinding),
    OnlyRaises uncaught (copyBindings retryId t bs)
  | _, [] => onlyRaises_ok _
  | t, b :: bs => by
    simp [copyBindings, onlyRaises_bind, integrity, copyBindings_uncaught retryId _ bs]

@[simp] theorem inheritFrozenResolutions_uncaught (db : Db) (source : RunId) (ids : RetryIds) :
    OnlyRaises uncaught (inheritFrozenResolutions db source ids) := by
  rw [inheritFrozenResolutions, onlyRaises_bind]
  refine ⟨?_, fun db₁ _ => ?_⟩
  · unfold inheritSkills
    split
    · exact onlyRaises_ok _
    · simp [onlyRaises_bind, integrity]
  · unfold inheritAgent
    split
    · exact onlyRaises_ok _
    · simp [integrity]

theorem retryOrReconcile_uncaught (cfg : Config) (db : Db) (failed : Run) (failure : Failure)
    (ids : RetryIds) : OnlyRaises uncaught (retryOrReconcile cfg db failed failure ids now) := by
  unfold retryOrReconcile
  dsimp only
  split
  · have hdelay : ∀ n, OnlyRaises uncaught ((cfg.retryPolicy.computeDelay n).map (now + ·)) := fun n => by
      rw [onlyRaises_map, RetryPolicy.computeDelay]
      split <;> simp
    simp [addRetry, onlyRaises_bind, integrity, hdelay]
  · exact reconcileChildTerminal_uncaught db failed

end

/-! ## The fence -/

section
variable {now : Time} {runId : RunId} {claim : ClaimTriple} {message : String} {items : WorkItems}

theorem removeClaimed_eq : removeClaimed runId claim now message items =
    if isClaimActive items runId claim now then .ok (remove items runId) else .error (.claimLost message) := by
  have hdelete : removeIfClaimed items runId claim now =
      if isClaimActive items runId claim now then (true, remove items runId) else (false, items) := rfl
  rw [removeClaimed, hdelete]
  cases isClaimActive items runId claim now <;> rfl

theorem removeClaimed_caught {β : Type} {f : WorkItems → Result β} :
    OnlyRaises caught (removeClaimed runId claim now message items >>= f) ↔
      (isClaimActive items runId claim now = true → OnlyRaises caught (f (remove items runId))) := by
  rw [removeClaimed_eq]
  cases isClaimActive items runId claim now with
  | false => simp [onlyRaises_bind]
  | true => simp [onlyRaises_bind]

theorem fenced_caught {db : Db} {result : Bool × WorkItems} :
    OnlyRaises caught (fenced db result message) := by
  unfold fenced
  split
  · exact onlyRaises_ok _
  · exact onlyRaises_error.2 rfl

end

end Runs

namespace Run

/-- A processor may end the run at `now`. -/
def endable (r : Run) (now : Time) : Bool :=
  (r.status = .running || r.status = .waitingForWorkflow) && r.startedAt.getD r.createdAt ≤ now

/-- What `succeed` makes of the run. -/
def succeededAt (r : Run) (now : Time) : Run := { r with endedAt := some now, status := .succeeded }

/-- What `fail` makes of the run. -/
def failedAt (r : Run) (now : Time) (failure : Failure) : Run :=
  { r with endedAt := some now, failure := some failure, status := .failed }

variable {r : Run} {now : Time}

theorem succeed_ok {r' : Run} : r.succeed now = .ok r' ↔ r.endable now = true ∧
    r' = r.succeededAt now := by
  rw [succeed_eq_ok, endable, Bool.and_eq_true, Bool.or_eq_true, decide_eq_true_iff,
    decide_eq_true_iff, decide_eq_true_iff, and_assoc]
  rfl

theorem fail_ok {r' : Run} {failure : Failure} :
    r.fail now failure = .ok r' ↔ r.endable now = true ∧ r' = r.failedAt now failure := by
  rw [fail_eq_ok, endable, Bool.and_eq_true, Bool.or_eq_true, decide_eq_true_iff,
    decide_eq_true_iff, decide_eq_true_iff, and_assoc]
  rfl

theorem endable_started (h : r.endable now = true) : r.startedAt.all (· ≤ now) = true := by
  have hle : r.startedAt.getD r.createdAt ≤ now := of_decide_eq_true (Bool.and_eq_true_iff.1 h).2
  cases hs : r.startedAt with
  | none => rfl
  | some started => simpa [hs] using hle

end Run

namespace Runs
open Tables Table Queue

/-! ## `ApplySucceededOutcome` -/

/-- Nothing stops the success of a run whose claim holds. -/
def canSucceed (db : Db) (r : Run) (now : Time) : Bool :=
  r.endable now && settles db r (r.succeededAt now) && ledgerOk db (r.succeededAt now)

def succeedApplies (db : Db) (runId : RunId) (claim : ClaimTriple) (now : Time) : Bool :=
  (db.runs.get? runId).any fun r =>
    (stepsTerminal db runId && toolsTerminal db runId && (pendingForRun db.approvals runId).isEmpty &&
      !db.delegationRequests.hasDispatchedForRun runId) &&
    (!isClaimActive db.workQueue runId claim now || canSucceed db r now)

section
variable {db : Db} {claim : ClaimTriple} {now : Time}

/-- Settling and the ledger, once the row of the ended run is written. -/
theorem settle_materialize_caught {db₁ : Db} {r r' : Run} {β : Type} {y : Db → β}
    (hr : db.runs.get? r.id = some r) (same : SameAttempt r r') (hended : EndedRun now r')
    (hruns : db₁.runs = db.runs.put r') (hrequests : db₁.delegationRequests = db.delegationRequests)
    (hledger : ledgerOk db₁ r' = ledgerOk db r') :
    OnlyRaises caught (reconcileChildTerminal db₁ r' now >>= fun db =>
      materializeSkillUsage db r.id now >>= fun db => pure (y db)) ↔
    settles db r r' = true ∧ ledgerOk db r' = true := by
  have hsettle : (∃ db', reconcileChildTerminal db₁ r' now = .ok db') ↔ settles db r r' = true := by
    rw [reconcileChildTerminal_ok, hruns, hrequests, same.executionId, settleable_put hr same]
  refine caught_bind (reconcileChildTerminal_uncaught _ _) hsettle fun db₂ h₂ => ?_
  refine caught_return (materializeSkillUsage_uncaught _ _) ?_
  have hrow : db₂.runs.get? r'.id = some r' := by
    rw [reconcile_core h₂]
    refine Core.get?_settle (by rw [hruns]; exact get?_put_self _ _) fun hw => ?_
    have hterminal := hended.terminal
    rw [hw] at hterminal
    cases hterminal
  rw [← same.id, materializeSkillUsage_ok hrow hended, ← hledger, reconcile_frame h₂]
  rfl

theorem applySucceededOutcome_caught (runId : RunId) (resp : Option (String × PyJson.JsonValue)) :
    OnlyRaises caught (applySucceededOutcome db runId claim resp now) ↔
      succeedApplies db runId claim now = true := by
  rw [applySucceededOutcome, getRun, caught_found rfl, succeedApplies]
  cases hr : db.runs.get? runId with
  | none => simp
  | some r =>
    obtain rfl : r.id = runId := key_of_get? hr
    simp only [Option.some.injEq, exists_eq_left', Option.any_some]
    rw [caught_require rfl, caught_require rfl, caught_require rfl, caught_require rfl,
      caught_require rfl, removeClaimed_caught, caught_bind (c := r.endable now = true)
        (d := settles db r (r.succeededAt now) = true ∧ ledgerOk db (r.succeededAt now) = true)]
    · simp only [canSucceed, Bool.and_eq_true, Bool.or_eq_true, Bool.not_eq_true']
      cases isClaimActive db.workQueue r.id claim now <;> simp <;> tauto
    · simp [succeedRunEventSpecs]
    · simp [succeedRunEventSpecs, exists_bind_ok, Run.succeed_ok, pure, Except.pure]
    · intro x hx
      obtain ⟨r', hr', hx⟩ := bind_ok hx
      obtain ⟨hendable, rfl⟩ := Run.succeed_ok.1 hr'
      cases hx
      have hstarted := Run.endable_started hendable
      exact settle_materialize_caught hr ⟨rfl, rfl, rfl, rfl⟩ ⟨rfl, hstarted⟩ rfl rfl rfl

end

/-! ## `ApplyFailedOutcome` -/

/-- The retry can take over what the run froze. -/
def inheritable (db : Db) (source : RunId) (ids : RetryIds) : Bool :=
  ((db.runSkillResolutions.get? source).isNone ||
    (db.runSkillResolutions.get? ids.runId).isNone &&
      (db.runSkillBindings.listForRun source).all fun b => (db.runSkillBindings.get? (ids.runId, b.skillId)).isNone) &&
  ((db.runAgentResolutions.get? source).isNone || (db.runAgentResolutions.get? ids.runId).isNone)

/-- The next attempt can be added: its id is unused, and the backoff does not overflow. -/
def canRetry (cfg : Config) (db : Db) (r : Run) (ids : RetryIds) : Bool :=
  (db.runs.get? ids.runId).isNone && inheritable db r.id ids &&
    (cfg.retryPolicy.backoff (((db.runs.ordinalForExecution r.id + 1 : Nat) : Int) - 2)).isSome

/-- Nothing stops the failure of a run whose claim holds. -/
def canFail (cfg : Config) (db : Db) (r : Run) (failure : Failure) (ids : RetryIds) (now : Time) :
    Bool :=
  r.endable now && descendantsTimely db r.id now && ledgerOk db (r.failedAt now failure) &&
    if cfg.retryPolicy.isRetryAllowed (db.runs.ordinalForExecution r.id) failure then
    canRetry cfg db r ids
    else settles db r (r.failedAt now failure)

def failApplies (cfg : Config) (db : Db) (runId : RunId) (claim : ClaimTriple) (failure : Failure)
    (ids : RetryIds) (now : Time) : Bool :=
  (db.runs.get? runId).any fun r =>
    !isClaimActive db.workQueue runId claim now || canFail cfg db r failure ids now

section
variable {cfg : Config} {db : Db} {claim : ClaimTriple} {failure : Failure} {ids : RetryIds}
  {now : Time}

theorem insert?_isSome {ρ κ : Type} [DecidableEq κ] [Keyed ρ κ] {t : Table ρ} {row : ρ} :
    (t.insert? row).isSome = (t.get? (Keyed.key row)).isNone := by
  unfold Table.insert?
  cases t.get? (Keyed.key row) <;> rfl

theorem copyBindings_ok (retryId : RunId) : ∀ (t : RunSkillBindings) (bs : List RunSkillBinding),
    (bs.map (·.skillId)).Nodup →
    ((∃ t', copyBindings retryId t bs = .ok t') ↔ bs.all (fun b => (t.get? (retryId, b.skillId)).isNone) = true)
  | _, [], _ => ⟨fun _ => rfl, fun _ => ⟨_, rfl⟩⟩
  | t, b :: bs, hnodup => by
    obtain ⟨hnotin, hnodup⟩ := List.nodup_cons.1 hnodup
    rw [copyBindings, exists_bind_ok, List.all_cons, Bool.and_eq_true]
    have hlater : bs.all (fun x =>
        ((t.put { b with runId := retryId }).get? (retryId, x.skillId)).isNone) =
        bs.all fun x => (t.get? (retryId, x.skillId)).isNone := by
      rw [Bool.eq_iff_iff, List.all_eq_true, List.all_eq_true]
      refine forall₂_congr fun x hx => ?_
      have hne : (retryId, b.skillId) ≠ (retryId, x.skillId) := fun e =>
        hnotin (List.mem_map.2 ⟨x, hx, (Prod.mk.inj e).2.symm⟩)
      rw [get?_put_ne hne]
    constructor
    · rintro ⟨t₁, h₁, hrest⟩
      obtain ⟨hnone, rfl⟩ := insert?_eq_some.1 (found_eq_ok.1 h₁)
      exact ⟨Option.isNone_iff_eq_none.2 hnone, hlater ▸ (copyBindings_ok retryId _ bs hnodup).1 hrest⟩
    · rintro ⟨hnone, hrest⟩
      have h₁ : t.insert? { b with runId := retryId } = some (t.put { b with runId := retryId }) :=
        insert?_eq_some.2 ⟨Option.isNone_iff_eq_none.1 hnone, rfl⟩
      exact ⟨_, found_eq_ok.2 h₁, (copyBindings_ok retryId _ bs hnodup).2 (hlater.trans hrest)⟩

theorem inheritSkills_ok (db : Db) (source : RunId) :
    (∃ db', inheritSkills db source ids = .ok db') ↔
      ((db.runSkillResolutions.get? source).isNone || (db.runSkillResolutions.get? ids.runId).isNone &&
        (db.runSkillBindings.listForRun source).all fun b =>
          (db.runSkillBindings.get? (ids.runId, b.skillId)).isNone) = true := by
  unfold inheritSkills
  cases db.runSkillResolutions.get? source with
  | none => exact ⟨fun _ => rfl, fun _ => ⟨db, rfl⟩⟩
  | some resolution =>
    rw [Option.isNone_some, Bool.false_or, Bool.and_eq_true]
    refine exists_bind_and ?_ fun t _ => ?_
    · rw [exists_found, insert?_isSome]
      rfl
    · rw [← copyBindings_ok ids.runId _ _ (nodup_skills _ _), exists_bind_ok]
      exact ⟨fun ⟨t', h, _⟩ => ⟨t', h⟩, fun ⟨t', h⟩ => ⟨t', h, _, rfl⟩⟩

theorem inheritAgent_ok (db : Db) (source : RunId) :
    (∃ db', inheritAgent db source ids = .ok db') ↔
      ((db.runAgentResolutions.get? source).isNone || (db.runAgentResolutions.get? ids.runId).isNone) = true := by
  unfold inheritAgent
  cases db.runAgentResolutions.get? source with
  | none => exact ⟨fun _ => rfl, fun _ => ⟨db, rfl⟩⟩
  | some resolution =>
    rw [Option.isNone_some, Bool.false_or, ← and_true (_ = true)]
    refine exists_bind_and ?_ fun t _ => iff_of_true ⟨_, rfl⟩ trivial
    rw [exists_found, insert?_isSome]
    rfl

theorem inheritFrozenResolutions_ok (db : Db) (source : RunId) :
    (∃ db', inheritFrozenResolutions db source ids = .ok db') ↔ inheritable db source ids = true := by
  rw [inheritable, Bool.and_eq_true, inheritFrozenResolutions]
  refine exists_bind_and (inheritSkills_ok db source) fun db₁ h₁ => ?_
  have hagents : db₁.runAgentResolutions = db.runAgentResolutions := by
    unfold inheritSkills at h₁
    split at h₁
    · cases h₁; rfl
    · obtain ⟨_, _, h₁⟩ := bind_rest₂ h₁
      cases h₁; rfl
  rw [inheritAgent_ok, hagents]

theorem addRetry_ok (db : Db) (r : Run) (delay : Result Time) :
    (∃ db', addRetry db r ids delay now = .ok db') ↔
      (db.runs.get? ids.runId).isNone = true ∧ inheritable db r.id ids = true ∧ ∃ d, delay = .ok d := by
  refine exists_bind_and ?_ fun runs _ => exists_bind_and ?_ fun db₁ _ => ?_
  · rw [exists_found, insert?_isSome]
    rfl
  · exact inheritFrozenResolutions_ok { db with runs := runs } r.id
  · rw [exists_bind_ok]
    exact ⟨fun ⟨d, h, _⟩ => ⟨d, h⟩, fun ⟨d, h⟩ => ⟨d, h, _, rfl⟩⟩

theorem computeDelay_ok (p : RetryPolicy) (n : Nat) :
    (∃ d, (p.computeDelay n).map (now + ·) = .ok d) ↔ (p.backoff ((n : Int) - 2)).isSome = true := by
  unfold RetryPolicy.computeDelay
  cases p.backoff ((n : Int) - 2) <;> simp [Except.map]

/-- The retry decision is made on the database with the failed row. -/
theorem retryOrReconcile_ok {db₁ : Db} {r : Run} (hr : db.runs.get? r.id = some r)
    (hcore : db₁.toCore = { db.toCore with workQueue := db₁.workQueue, runs := db.runs.put (r.failedAt now failure) })
    (hinherit : inheritable db₁ r.id ids = inheritable db r.id ids) :
    (∃ db', retryOrReconcile cfg db₁ (r.failedAt now failure) failure ids now = .ok db') ↔
      (if cfg.retryPolicy.isRetryAllowed (db.runs.ordinalForExecution r.id) failure then canRetry cfg db r ids
        else settles db r (r.failedAt now failure)) = true := by
  have same : SameAttempt r (r.failedAt now failure) := ⟨rfl, rfl, rfl, rfl⟩
  have hruns : db₁.runs = db.runs.put (r.failedAt now failure) := by rw [hcore]
  have hordinal : db₁.runs.ordinalForExecution (r.failedAt now failure).id = db.runs.ordinalForExecution r.id := by
    have hput := ordinalForExecution_put hr same
    rw [hruns]
    exact hput
  have hunused : (db₁.runs.get? ids.runId).isNone = (db.runs.get? ids.runId).isNone := by
    rw [hruns, get?_put]
    split
    · next hk => rw [← show r.id = ids.runId from hk, hr]; rfl
    · rfl
  unfold retryOrReconcile
  dsimp only
  rw [hordinal]
  cases cfg.retryPolicy.isRetryAllowed (db.runs.ordinalForExecution r.id) failure with
  | true =>
    rw [if_pos rfl, if_pos rfl, addRetry_ok, computeDelay_ok, hunused, canRetry, Bool.and_eq_true, Bool.and_eq_true, and_assoc]
    exact and_congr_right fun _ => and_congr_left fun _ => by rw [← hinherit]; rfl
  | false =>
    rw [if_neg Bool.false_ne_true, if_neg Bool.false_ne_true, reconcileChildTerminal_ok, hcore]
    rw [← settleable_put hr same]
    rfl

theorem failRunEventSpecs_ok (db : Db) (r : Run) :
    (∃ x, failRunEventSpecs db r now failure = .ok x) ↔ r.endable now = true ∧ descendantsTimely db r.id now = true := by
  refine exists_bind_and (by simp [Run.fail_ok]) fun failed _ => ?_
  have hcascade := @cancelDescendants_ok now (saveRun db failed) r.id
  rw [exists_bind_ok]
  exact ⟨fun ⟨x, h, _⟩ => hcascade.1 ⟨x, h⟩, fun h => (hcascade.2 h).imp fun _ hx => ⟨hx, _, rfl⟩⟩

theorem failRunEventSpecs_eq_ok {db' : Db} {r failed : Run} {specs : List EventSpec}
    (h : failRunEventSpecs db r now failure = .ok (failed, specs, db')) :
    r.endable now = true ∧ failed = r.failedAt now failure ∧ SameButDescendants (saveRun db failed) db' := by
  obtain ⟨failed', hfailed, ⟨_, _⟩, hd, h⟩ := bind_ok₂ h
  cases h
  obtain ⟨hendable, rfl⟩ := Run.fail_ok.1 hfailed
  exact ⟨hendable, rfl, cancelDescendants_frame hd⟩

theorem applyFailedOutcome_caught (runId : RunId) :
    OnlyRaises caught (applyFailedOutcome cfg db runId claim failure ids now) ↔
      failApplies cfg db runId claim failure ids now = true := by
  rw [applyFailedOutcome, getRun, caught_found rfl, failApplies]
  cases hr : db.runs.get? runId with
  | none => simp
  | some r =>
    obtain rfl : r.id = runId := key_of_get? hr
    have hlineage : (!(db.runs.listForExecution r.executionId).isEmpty) = true := by
      have hin := RunTable.mem_listForExecution.2 ⟨hr, rfl⟩
      cases hl : db.runs.listForExecution r.executionId with
      | nil => rw [hl] at hin; cases hin
      | cons x l => rfl
    -- the transaction from the end of the run on
    have hrest : ∀ items : WorkItems, OnlyRaises caught
        (failRunEventSpecs { db with workQueue := items } r now failure >>= fun x =>
          materializeSkillUsage (appendRunEvents x.2.2 r.id now x.2.1) r.id now >>= fun db =>
            retryOrReconcile cfg db x.1 failure ids now >>= fun db => pure (x.1, db)) ↔
        canFail cfg db r failure ids now = true := by
      intro items
      simp only [canFail, Bool.and_eq_true, and_assoc]
      rw [← and_assoc]
      refine caught_bind ?_ (failRunEventSpecs_ok _ r) fun ⟨failed, specs, db₁⟩ h₁ => ?_
      · simp [failRunEventSpecs, onlyRaises_bind]
      obtain ⟨hendable, rfl, hsame⟩ := failRunEventSpecs_eq_ok h₁
      have hstarted := Run.endable_started hendable
      have hended : EndedRun now (r.failedAt now failure) := ⟨rfl, hstarted⟩
      have hrow : (appendRunEvents db₁ r.id now specs).runs.get? (r.failedAt now failure).id =
          some (r.failedAt now failure) := by
        rw [hsame]
        exact get?_put_self _ _
      have hledger : ledgerOk (appendRunEvents db₁ r.id now specs) (r.failedAt now failure) =
          ledgerOk db (r.failedAt now failure) := hsame.ledgerOk _
      refine caught_bind (materializeSkillUsage_uncaught _ _) ?_ fun db₂ h₂ => ?_
      · rw [← hledger]
        exact materializeSkillUsage_ok hrow hended
      · refine caught_return (retryOrReconcile_uncaught _ _ _ _ _) (retryOrReconcile_ok hr ?_ ?_)
        · rw [materializeSkillUsage_core h₂, appendRunEvents_toCore, hsame]
          rfl
        · rw [materializeSkillUsage_frame h₂, hsame]
          rfl
    simp only [Option.some.injEq, exists_eq_left', Option.any_some]
    rw [caught_require rfl, removeClaimed_caught]
    refine (and_iff_right hlineage).trans ?_
    cases isClaimActive db.workQueue r.id claim now with
    | false => simp
    | true => simpa using hrest _

end

/-! ## The waiting outcomes -/

/-- The run and its item, when the run was resumed before the processor returned: the item must not
be the one of the claim any more. -/
def resumedApplies (db : Db) (runId : RunId) (claim : ClaimTriple) : Bool :=
  (db.workQueue.get? runId).all fun item => !item.carries claim

def approvalWaitApplies (db : Db) (runId : RunId) (claim : ClaimTriple)
    (approvalId : ApprovalRequestId) : Bool :=
  (db.runs.get? runId).any fun r => (db.approvals.get? approvalId).any fun a => a.runId = some runId &&
    if r.status = .running ∧ a.status ≠ .pending then resumedApplies db runId claim
    else r.status = .waitingForApproval && r.approvalRequestId = some approvalId

def delegationWaitApplies (db : Db) (runId : RunId) (claim : ClaimTriple)
    (requestId : DelegationRequestId) : Bool :=
  (db.runs.get? runId).any fun r => (db.delegationRequests.get? requestId).any fun q => q.parentRunId = runId &&
    if r.status = .running ∧ isSettled q.status = true then resumedApplies db runId claim
    else r.status = .waitingForDelegation && r.delegationRequestId = some requestId &&
    q.status = .dispatched

section
variable {db : Db} {claim : ClaimTriple} {now : Time}

theorem dropWaitingItem_caught (r : Run) (message : String) :
    OnlyRaises caught (dropWaitingItem db r claim now message) := by
  unfold dropWaitingItem
  split
  · exact onlyRaises_ok _
  · exact onlyRaises_bind.2 ⟨fenced_caught, fun _ _ => onlyRaises_pure _⟩

theorem alreadyResumed_caught (r : Run) (stale resolved : String) :
    OnlyRaises caught (alreadyResumed db r claim stale resolved) ↔ resumedApplies db r.id claim = true := by
  unfold alreadyResumed resumedApplies
  cases db.workQueue.get? r.id with
  | none => simp
  | some item =>
    dsimp only
    cases hc : item.carries claim <;> simp [hc]

theorem applyWaitingOutcome_caught (runId : RunId) (approvalId : ApprovalRequestId) :
    OnlyRaises caught (applyWaitingOutcome db runId claim approvalId now) ↔
      approvalWaitApplies db runId claim approvalId = true := by
  rw [applyWaitingOutcome, getRun, caught_found rfl, approvalWaitApplies, Option.any_eq_true]
  refine exists_congr fun r => and_congr_right fun hr => ?_
  rw [getApproval, caught_found rfl, Option.any_eq_true]
  refine exists_congr fun a => and_congr_right fun ha => ?_
  obtain rfl : r.id = runId := key_of_get? hr
  obtain rfl : a.id = approvalId := key_of_get? ha
  rw [caught_require rfl, Bool.and_eq_true]
  refine and_congr_right fun _ => ?_
  split
  · exact alreadyResumed_caught r _ _
  · rw [caught_require rfl, caught_require rfl, Bool.and_eq_true]
    exact and_congr_right fun _ => and_iff_left (dropWaitingItem_caught r _)

theorem applyWaitingForDelegationOutcome_caught (runId : RunId) (requestId : DelegationRequestId) :
    OnlyRaises caught (applyWaitingForDelegationOutcome db runId claim requestId now) ↔
      delegationWaitApplies db runId claim requestId = true := by
  rw [applyWaitingForDelegationOutcome, getRun, caught_found rfl, delegationWaitApplies,
    Option.any_eq_true]
  refine exists_congr fun r => and_congr_right fun hr => ?_
  rw [caught_found rfl, Option.any_eq_true]
  refine exists_congr fun q => and_congr_right fun hq => ?_
  obtain rfl : r.id = runId := key_of_get? hr
  obtain rfl : q.id = requestId := key_of_get? hq
  rw [caught_require rfl, Bool.and_eq_true]
  refine and_congr_right fun _ => ?_
  split
  · exact alreadyResumed_caught r _ _
  · rw [caught_require rfl, caught_require rfl, caught_require rfl, Bool.and_eq_true, Bool.and_eq_true, and_assoc]
    exact and_congr_right fun _ => and_congr_right fun _ => and_iff_left (dropWaitingItem_caught r _)

end

end Runs
end Friday
