import FridayAssistant.Skills.Improvement
/-!
# Promotion and rollback (skill_promotion.py)

`ExecuteSkillPromotion` and `ExecuteSkillRollback` of a stale request commit that it is stale and
raise afterwards, so their step has a database too; its request says which of the two happened.

The triggers of migration 0029 repeat these rules for raw SQL and are not modelled: the use cases
never write what they would refuse.
-/
namespace Friday.Skills
open Tables PyJson
open Uuid (text)

variable (env : Env)

/-! ## Fingerprints -/

/-- `_fingerprint`. -/
def fingerprint (payload : List (String × JsonValue)) : String := env.sha256 (dumps (.obj payload))

def optionalId (id : Option Uuid) : JsonValue := (id.map fun u => JsonValue.str (text u)).getD .null

/-- `_promotion_fingerprint`. -/
def promotionFingerprint (r : SkillPromotionRequest) : String :=
  fingerprint env [("version", .int 1), ("promotion_request_id", .str (text r.id)),
    ("approval_request_id", optionalId r.approvalRequestId),
    ("proposal_id", .str (text r.proposalId)), ("skill_id", .str (text r.skillId)),
    ("base_revision_id", .str (text r.baseRevisionId)),
    ("current_active_revision_id", .str (text r.expectedActiveRevisionId)),
    ("candidate_sha256", .str r.candidateSha256),
    ("candidate_evaluation_id", .str (text r.candidateEvaluationId)),
    ("comparison_report_sha256", .str r.comparisonReportSha256),
    ("target_revision_id", .str (text r.targetRevisionId)),
    ("target_version", .int r.targetVersion)]

/-- `_rollback_fingerprint`. -/
def rollbackFingerprint (r : SkillRollbackRequest) : String :=
  fingerprint env [("version", .int 1), ("rollback_request_id", .str (text r.id)),
    ("approval_request_id", optionalId r.approvalRequestId), ("skill_id", .str (text r.skillId)),
    ("current_revision_id", .str (text r.expectedCurrentRevisionId)),
    ("target_revision_id", .str (text r.targetRevisionId)), ("reason", .str r.reason)]

/-! ## Approvals -/

/-- `transition_approval_in_transaction`. -/
def transitionApproval (s : SkillDb) (approval : ApprovalRequest) (target : ApprovalStatus)
    (now : Time) (resolver note : Option String) : Result SkillDb :=
  if approval.status = target then .ok s
  else do
    require (approval.status = .pending) (.entityConflict "approval request is terminal")
    let resolved ← Runs.transitionApproval approval target now resolver note
    return { s with approvals := s.approvals.put resolved }

/-- The approval of a request, if it has one, follows it. -/
def followApproval (s : SkillDb) (approval : Option ApprovalRequest) (target : ApprovalStatus)
    (now : Time) (resolver : Option String) : Result SkillDb :=
  match approval with
  | none => .ok s
  | some approval => transitionApproval s approval target now resolver none

/-- `consume_if_unconsumed`: whether a row matched, and the table. -/
def consumeIfUnconsumed (approvals : Approvals) (id : ApprovalRequestId) (now : Time) :
    Bool × Approvals :=
  approvals.update id (fun a => a.status = .approved && !a.isConsumed) fun a =>
    { a with consumedAt := some now }

/-- The approval of a subject: it is there, and names the subject and its fingerprint. -/
def loadSubjectApproval (s : SkillDb) (kind : ApprovalSubjectKind) (subjectId : Uuid) (fingerprint : String)
    (missing foreign : String) : Option ApprovalRequestId → Result (Option ApprovalRequest)
  | none => .ok none
  | some id => do
    let approval ← found (s.approvals.get? id) (.entityConflict missing)
    require (approval.subjectKind = kind && approval.subjectId = some (text subjectId) &&
      approval.authorizationFingerprint = some fingerprint) (.entityConflict foreign)
    return some approval

/-- `_load_promotion_approval`. -/
def loadPromotionApproval (s : SkillDb) (r : SkillPromotionRequest) :
    Result (Option ApprovalRequest) :=
  loadSubjectApproval s .skillPromotion r.id r.authorizationFingerprint
    "promotion approval was not found" "promotion approval does not belong to request"
    r.approvalRequestId

/-- `_load_rollback_approval`. -/
def loadRollbackApproval (s : SkillDb) (r : SkillRollbackRequest) :
    Result (Option ApprovalRequest) :=
  loadSubjectApproval s .skillRollback r.id r.authorizationFingerprint
    "rollback approval was not found" "rollback approval does not belong to request"
    r.approvalRequestId

/-- `_load_promotion_proposal`. -/
def loadPromotionProposal (s : SkillDb) (r : SkillPromotionRequest) :
    Result SkillImprovementProposal := do
  let proposal ← found (s.skillImprovementProposals.get? r.proposalId)
    (.entityConflict "promotion proposal was not found")
  require (proposal.id = r.proposalId && proposal.skillId = r.skillId)
    (.entityConflict "promotion proposal does not belong to request")
  require (!proposal.status.isClosed) (.entityConflict "promotion proposal is already closed")
  return proposal

/-! ## Requests for promotion -/

/-- The ids `RequestSkillPromotion` draws. -/
structure PromotionIds where
  requestId : SkillPromotionRequestId
  targetRevisionId : SkillRevisionId
  approvalId : ApprovalRequestId

/-- What the operator sees of a promotion. -/
def promotionInput (r : SkillPromotionRequest) (approvalId : ApprovalRequestId)
    (proposal : SkillImprovementProposal) (comparison : SkillCandidateEvaluation) : JsonValue :=
  .obj [("promotion_request_id", .str (text r.id)), ("approval_request_id", .str (text approvalId)),
    ("proposal_id", .str (text r.proposalId)), ("skill_id", .str (text r.skillId)),
    ("base_revision_id", .str (text r.baseRevisionId)),
    ("current_active_revision_id", .str (text r.expectedActiveRevisionId)),
    ("target_revision_id", .str (text r.targetRevisionId)),
    ("candidate_instructions", .str proposal.proposedInstructions),
    ("candidate_sha256", .str r.candidateSha256),
    ("candidate_evaluation_id", .str (text r.candidateEvaluationId)),
    ("comparison_report_sha256", .str r.comparisonReportSha256),
    ("target_version", .int r.targetVersion),
    ("evidence_snapshot_id", .str (text proposal.evidenceSnapshotId)),
    ("evidence_snapshot_hash", .str proposal.evidenceSnapshotHash),
    ("comparison_report", comparison.comparisonReport),
    ("recommendation", .str comparison.recommendation.value),
    ("authorization_fingerprint", .str r.authorizationFingerprint)]

/-- `skill_promotion_requests.add`: proposal, target revision and approval are unique columns. -/
def addPromotion (s : SkillDb) (r : SkillPromotionRequest) : Result SkillDb := do
  require (s.skillPromotionRequests.rows.all fun q => q.proposalId ≠ r.proposalId &&
    q.targetRevisionId ≠ r.targetRevisionId && q.approvalRequestId ≠ r.approvalRequestId) .integrity
  let requests ← found (s.skillPromotionRequests.insert? r) .integrity
  return { s with skillPromotionRequests := requests }

def addApproval (s : SkillDb) (d : ApprovalRequest.Draft) : Result SkillDb := do
  let approval ← ApprovalRequest.new d
  let approvals ← found (s.approvals.insert? approval) .integrity
  return { s with approvals := approvals }

def requestSkillPromotion (s : SkillDb) (proposalId : SkillImprovementProposalId)
    (ids : PromotionIds) (now : Time) : Result (SkillPromotionRequest × SkillDb) := do
  let proposal ← found ((s.skillImprovementProposals.get? proposalId).filter
    (·.status = .readyForReview)) (.entityConflict "proposal is not ready for promotion review")
  let comparison ← found (comparisonForProposal s proposalId)
    (.entityConflict "proposal is not ready for promotion review")
  require (comparison.recommendation = .eligible)
    (.entityConflict "comparison is not eligible for ordinary promotion approval")
  let skill ← getSkill s proposal.skillId
  require (skill.status = .active) (.entityConflict "only an active skill can be promoted")
  require (skill.activeRevisionId = some proposal.baseRevisionId)
    (.entityConflict "proposal base is no longer active")
  let draft ← SkillPromotionRequest.checked
    { id := ids.requestId, proposalId := proposal.id, skillId := skill.id, baseRevisionId := proposal.baseRevisionId,
      expectedActiveRevisionId := proposal.baseRevisionId, candidateSha256 := proposal.proposedContentSha256,
      candidateEvaluationId := comparison.id, comparisonReportSha256 := comparison.reportSha256,
      targetRevisionId := ids.targetRevisionId, targetVersion := nextVersion s skill.id,
      authorizationFingerprint := String.ofList (List.replicate 64 '0'), status := .pending,
      createdAt := now, resolvedAt := none, resolver := none, promotedRevisionId := none,
      approvalRequestId := some ids.approvalId }
  let request ← SkillPromotionRequest.checked
    { draft with authorizationFingerprint := promotionFingerprint env draft }
  let s ← addPromotion s request
  let s ← addApproval s
    { id := ids.approvalId, runId := none, category := .other, summary := "Approve Skill promotion",
      reason := "A reviewed Skill candidate is ready to become active.", requestedAction := "skill.promote",
      requestedInput := promotionInput request ids.approvalId proposal comparison, requestedAt := now, stepId := none,
      expiresAt := none, authorizationFingerprint := some request.authorizationFingerprint,
      subjectKind := .skillPromotion, subjectId := some (text request.id) }
  return (request, s)

/-! ## Outcomes of a promotion -/

/-- `_stage_terminal_promotion`, after the transition of the approval. -/
def closePromotion (s : SkillDb) (r : SkillPromotionRequest) (proposal : SkillImprovementProposal)
    (status : PromotionRequestStatus) (proposalStatus : SkillProposalStatus) (now : Time)
    (resolver : Option String) : Result (SkillPromotionRequest × SkillDb) := do
  let terminal ← SkillPromotionRequest.checked
    { r with status := status, resolvedAt := some now, resolver := resolver }
  let s ← saveProposal env
    { s with skillPromotionRequests := s.skillPromotionRequests.put terminal }
    { proposal with status := proposalStatus }
  return (terminal, s)

/-- What has changed since the promotion was requested. -/
def isStale (s : SkillDb) (r : SkillPromotionRequest) (proposal : SkillImprovementProposal)
    (approval : ApprovalRequest) : Bool :=
  match comparisonForProposal s r.proposalId, s.skills.get? r.skillId with
  | some comparison, some skill =>
    proposal.status ≠ .readyForReview || proposal.baseRevisionId ≠ r.baseRevisionId ||
      proposal.proposedContentSha256 ≠ r.candidateSha256 || comparison.id ≠ r.candidateEvaluationId ||
      comparison.reportSha256 ≠ r.comparisonReportSha256 || comparison.recommendation ≠ .eligible ||
      skill.status ≠ .active || skill.activeRevisionId ≠ some r.expectedActiveRevisionId ||
      nextVersion s skill.id ≠ r.targetVersion ||
      promotionFingerprint env r ≠ r.authorizationFingerprint ||
      approval.authorizationFingerprint ≠ some r.authorizationFingerprint ||
      approval.subjectKind ≠ .skillPromotion || approval.subjectId ≠ some (text r.id)
  | _, _ => true

/-- Python's `resolver or approval.resolver`. -/
def orResolver (resolver : Option String) (approval : ApprovalRequest) : Option String :=
  if resolver.any (· ≠ "") then resolver else approval.resolver

/-- The successful branch: the revision, the closed request, the pointer, and the approval is
consumed. -/
def promote (s : SkillDb) (r : SkillPromotionRequest) (proposal : SkillImprovementProposal)
    (approval : ApprovalRequest) (resolver : Option String) (now : Time) :
    Result (SkillPromotionRequest × SkillDb) := do
  let skill ← getSkill s r.skillId
  let revision ← SkillRevision.new env r.targetRevisionId skill.id r.targetVersion
    proposal.proposedInstructions .generated now (some r.id)
  let s ← addRevision s revision
  let (completed, s) ← closePromotion env s { r with promotedRevisionId := some revision.id }
    proposal .promoted .promoted now resolver
  let skill ← skill.activate revision now
  match consumeIfUnconsumed s.approvals approval.id now with
  | (true, approvals) =>
    return (completed, { s with skills := s.skills.put skill, approvals := approvals })
  | (false, _) => .error (.entityConflict "promotion approval was already consumed")

def executeSkillPromotion (s : SkillDb) (id : SkillPromotionRequestId) (resolver : Option String)
    (now : Time) : Result (SkillPromotionRequest × SkillDb) := do
  let request ← found (s.skillPromotionRequests.get? id)
    (.entityConflict "promotion request was not found")
  require (request.status = .pending) (.entityConflict "promotion request is not pending")
  let proposal ← loadPromotionProposal s request
  let approval ← loadPromotionApproval s request
  let approval ← found approval (.entityConflict "promotion request has no canonical approval")
  require (approval.status = .approved && !approval.isConsumed)
    (.entityConflict "promotion requires one unconsumed approved request")
  if isStale env s request proposal approval then
    closePromotion env s request proposal .stale .superseded now (orResolver resolver approval)
  else promote env s request proposal approval (orResolver resolver approval) now

/-- The body of `RejectSkillPromotion` and `CancelSkillPromotion`: the approval follows the
request. -/
def withdrawPromotion (s : SkillDb) (id : SkillPromotionRequestId) (approvalStatus : ApprovalStatus)
    (status : PromotionRequestStatus) (proposalStatus : SkillProposalStatus)
    (resolver : Option String) (now : Time) : Result (SkillPromotionRequest × SkillDb) := do
  let request ← found ((s.skillPromotionRequests.get? id).filter (·.status = .pending))
    (.entityConflict "promotion request is not pending")
  let proposal ← loadPromotionProposal s request
  let approval ← loadPromotionApproval s request
  let s ← followApproval s approval approvalStatus now resolver
  closePromotion env s request proposal status proposalStatus now resolver

def rejectSkillPromotion (s : SkillDb) (id : SkillPromotionRequestId) (resolver : String)
    (now : Time) : Result (SkillPromotionRequest × SkillDb) :=
  withdrawPromotion env s id .rejected .rejected .rejected (some resolver) now

def cancelSkillPromotion (s : SkillDb) (id : SkillPromotionRequestId) (now : Time) :
    Result (SkillPromotionRequest × SkillDb) :=
  withdrawPromotion env s id .cancelled .cancelled .cancelled none now

/-! ## Rollbacks -/

/-- `skill_rollback_requests.add`. -/
def addRollback (s : SkillDb) (r : SkillRollbackRequest) : Result SkillDb := do
  require (s.skillRollbackRequests.rows.all fun q => q.approvalRequestId ≠ r.approvalRequestId)
    .integrity
  let requests ← found (s.skillRollbackRequests.insert? r) .integrity
  return { s with skillRollbackRequests := requests }

def rollbackInput (r : SkillRollbackRequest) : JsonValue :=
  .obj [("rollback_request_id", .str (text r.id)), ("skill_id", .str (text r.skillId)),
    ("target_revision_id", .str (text r.targetRevisionId)),
    ("authorization_fingerprint", .str r.authorizationFingerprint)]

def requestSkillRollback (s : SkillDb) (skillId : SkillId) (targetRevisionId : SkillRevisionId)
    (reason : String) (id : SkillRollbackRequestId) (approvalId : ApprovalRequestId) (now : Time) :
    Result (SkillRollbackRequest × SkillDb) := do
  let skill ← getSkill s skillId
  let current ← found (skill.activeRevisionId.filter fun _ => skill.status = .active)
    (.entityConflict "rollback target or current revision is invalid")
  require ((s.skillRevisions.get? targetRevisionId).any (·.skillId = skillId))
    (.entityConflict "rollback target or current revision is invalid")
  require (targetRevisionId ≠ current) (.entityConflict "rollback target is already active")
  let draft ← SkillRollbackRequest.checked
    { id := id, skillId := skillId, expectedCurrentRevisionId := current, targetRevisionId := targetRevisionId,
      reason := reason, authorizationFingerprint := String.ofList (List.replicate 64 '0'), status := .pending,
      createdAt := now, resolvedAt := none, resolver := none, approvalRequestId := some approvalId }
  let request ← SkillRollbackRequest.checked
    { draft with authorizationFingerprint := rollbackFingerprint env draft }
  let s ← addRollback s request
  let s ← addApproval s
    { id := approvalId, runId := none, category := .other, summary := "Approve Skill rollback", reason := request.reason,
      requestedAction := "skill.rollback", requestedInput := rollbackInput request, requestedAt := now, stepId := none,
      expiresAt := none, authorizationFingerprint := some request.authorizationFingerprint,
      subjectKind := .skillRollback, subjectId := some (text request.id) }
  return (request, s)

/-- What makes a rollback stale. -/
def isStaleRollback (s : SkillDb) (r : SkillRollbackRequest) (approval : ApprovalRequest) : Bool :=
  match s.skills.get? r.skillId, s.skillRevisions.get? r.targetRevisionId with
  | some skill, some target =>
    skill.status ≠ .active || target.skillId ≠ r.skillId ||
      skill.activeRevisionId = some target.id ||
      skill.activeRevisionId ≠ some r.expectedCurrentRevisionId ||
      rollbackFingerprint env r ≠ r.authorizationFingerprint ||
      approval.authorizationFingerprint ≠ some r.authorizationFingerprint ||
      approval.subjectKind ≠ .skillRollback || approval.subjectId ≠ some (text r.id)
  | _, _ => true

/-- `replace(request, status=…, resolved_at=…, resolver=…)`, saved. -/
def closeRollback (s : SkillDb) (r : SkillRollbackRequest) (status : RollbackRequestStatus)
    (now : Time) (resolver : Option String) : Result (SkillRollbackRequest × SkillDb) := do
  let terminal ← SkillRollbackRequest.checked
    { r with status := status, resolvedAt := some now, resolver := resolver }
  return (terminal, { s with skillRollbackRequests := s.skillRollbackRequests.put terminal })

/-- The successful branch. -/
def rollBack (s : SkillDb) (r : SkillRollbackRequest) (approval : ApprovalRequest)
    (resolver : Option String) (now : Time) : Result (SkillRollbackRequest × SkillDb) := do
  let skill ← getSkill s r.skillId
  let target ← getRevision s r.targetRevisionId
  let skill ← skill.activate target now
  let (completed, s) ← closeRollback { s with skills := s.skills.put skill } r .completed
    now resolver
  match consumeIfUnconsumed s.approvals approval.id now with
  | (true, approvals) => return (completed, { s with approvals := approvals })
  | (false, _) => .error (.entityConflict "rollback approval was already consumed")

def executeSkillRollback (s : SkillDb) (id : SkillRollbackRequestId) (resolver : Option String)
    (now : Time) : Result (SkillRollbackRequest × SkillDb) := do
  let request ← found (s.skillRollbackRequests.get? id)
    (.entityConflict "rollback request was not found")
  if request.status = .completed then return (request, s)
  else do
    require (request.status = .pending) (.entityConflict "rollback request is not pending")
    let approvalId ← found request.approvalRequestId (.entityConflict "rollback request has no canonical approval")
    let approval ← found (s.approvals.get? approvalId) (.entityConflict "rollback approval was not found")
    require (approval.status = .approved && !approval.isConsumed)
      (.entityConflict "rollback requires one unconsumed approved request")
    if isStaleRollback env s request approval then closeRollback s request .stale now (orResolver resolver approval)
    else rollBack s request approval (orResolver resolver approval) now

/-- The body of `RejectSkillRollback` and `CancelSkillRollback`. -/
def withdrawRollback (s : SkillDb) (id : SkillRollbackRequestId) (approvalStatus : ApprovalStatus)
    (status : RollbackRequestStatus) (resolver : Option String) (now : Time) :
    Result (SkillRollbackRequest × SkillDb) := do
  let request ← found ((s.skillRollbackRequests.get? id).filter (·.status = .pending))
    (.entityConflict "rollback request is not pending")
  let approval ← loadRollbackApproval s request
  let s ← followApproval s approval approvalStatus now resolver
  closeRollback s request status now resolver

def rejectSkillRollback (s : SkillDb) (id : SkillRollbackRequestId) (resolver : String)
    (now : Time) : Result (SkillRollbackRequest × SkillDb) :=
  withdrawRollback s id .rejected .rejected (some resolver) now

def cancelSkillRollback (s : SkillDb) (id : SkillRollbackRequestId) (now : Time) :
    Result (SkillRollbackRequest × SkillDb) :=
  withdrawRollback s id .cancelled .cancelled none now

/-! ## Resolving an approval directly -/

/-- `ApproveRequest`, `RejectRequest` and `CancelApproval` of an approval that belongs to no run. -/
def resolveApproval (s : SkillDb) (id : ApprovalRequestId) (target : ApprovalStatus)
    (resolver note : Option String) (now : Time) : Result SkillDb := do
  let approval ← found (s.approvals.get? id) (.notFound "Approval request" id)
  transitionApproval s approval target now resolver note

/-- `ExpireApproval` of such an approval. -/
def expireApproval (s : SkillDb) (id : ApprovalRequestId) (now : Time) : Result SkillDb := do
  let approval ← found (s.approvals.get? id) (.notFound "Approval request" id)
  Runs.expiryDue approval now
  transitionApproval s approval .expired now none none

end Friday.Skills
