import FridayAssistant.Domain.Approval
/-!
# Skills, candidates and their authorization (domain/skill*.py)

A skill points to one of its immutable revisions. What a model proposes is an inert
`SkillImprovementProposal`; it becomes a GENERATED revision only through a
`SkillPromotionRequest`, and an older revision becomes active again only through a
`SkillRollbackRequest`, each under an `ApprovalRequest` of its own.

A `__post_init__` is the function `checked` of its record: `replace` runs it again.
-/
namespace Friday.Skills
open Tables PyJson

abbrev SkillPromotionRequestId := Uuid
abbrev SkillRollbackRequestId := Uuid
abbrev SkillImprovementProposalId := Uuid
abbrev SkillEvidenceSnapshotId := Uuid
abbrev SkillEvaluationSuiteId := Uuid
abbrev SkillEvaluationRunId := Uuid
abbrev SkillEvaluationCaseId := Uuid
abbrev SkillCandidateEvaluationId := Uuid

/-- What the modelled functions take from the Python library and from the code-owned graders:
`sha256` is the hex digest of a text, `loads` is `json.loads` (`none` for a `JSONDecodeError`),
`canonicalEvidence` is `canonicalize_evidence` with the ids of the entries, `sameJson` is `==` on
JSON values and `floatDelta` the text of a difference of two floats. -/
structure Env where
  sha256 : String → String
  sha256_isDigest : ∀ text, ApprovalRequest.isDigest (sha256 text) = true
  loads : String → Option JsonValue
  canonicalEvidence : JsonValue → Result (JsonValue × List String)
  sameJson : JsonValue → JsonValue → Bool
  floatDelta : Rat → Rat → String

/-! ## Skills and revisions (skill.py) -/

inductive SkillStatus where
  | active | disabled | archived
  deriving DecidableEq

def SkillStatus.value : SkillStatus → String
  | .active => "active"
  | .disabled => "disabled"
  | .archived => "archived"

inductive SkillRevisionSourceKind where
  | operator | imported | generated
  deriving DecidableEq

/-- `_KEY`: segments of `[a-z0-9]`, separated by one dot or hyphen, the first one led by a
letter. -/
def isSkillKey (value : String) : Bool :=
  let cs := value.toList
  let lower (c : Char) := 'a' ≤ c && c ≤ 'z'
  cs.head?.any lower && (cs.splitOnP fun c => c = '.' || c = '-').all fun segment =>
    !segment.isEmpty && segment.all fun c => lower c || '0' ≤ c && c ≤ '9'

def validateSkillKey (value : String) : Result String := do
  require (value.toList.length ≤ 96 && isSkillKey value)
    (.domainValidation "Skill.key must be lowercase dot-or-hyphen separated machine identity")
  return value

/-- A control character other than line feed, carriage return and tab. -/
def isDisallowed (c : Char) : Bool :=
  (c.toNat < 32 && c ≠ '\n' && c ≠ '\r' && c ≠ '\t') || c.toNat = 127

def validateSkillInstructions (value : String) : Result String := do
  require (!value.toList.isEmpty && value.toList.length ≤ 32000)
    (.domainValidation "SkillRevision.instructions must be non-empty and within the maximum length")
  require (!value.toList.any isDisallowed)
    (.domainValidation "SkillRevision.instructions contains disallowed control content")
  return value

/-- Only a generated revision names a promotion request, and it names one. -/
structure SkillRevision where
  id : SkillRevisionId
  skillId : SkillId
  version : Nat
  instructions : String
  contentSha256 : String
  sourceKind : SkillRevisionSourceKind
  createdAt : Time
  promotionRequestId : Option SkillPromotionRequestId
  provenance : sourceKind = .generated ↔ promotionRequestId.isSome = true

instance : Keyed SkillRevision SkillRevisionId := ⟨SkillRevision.id⟩

structure Skill where
  id : SkillId
  key : String
  displayName : String
  description : String
  status : SkillStatus
  activeRevisionId : Option SkillRevisionId
  createdAt : Time
  updatedAt : Time

instance : Keyed Skill SkillId := ⟨Skill.id⟩

namespace SkillRevision

/-- `SkillRevision.new` and `__post_init__`. -/
def new (env : Env) (id : SkillRevisionId) (skillId : SkillId) (version : Nat)
    (instructions : String) (sourceKind : SkillRevisionSourceKind) (createdAt : Time)
    (promotionRequestId : Option SkillPromotionRequestId) : Result SkillRevision := do
  require (1 ≤ version) (.domainValidation "SkillRevision.version must be positive")
  if hp : sourceKind = .generated ↔ promotionRequestId.isSome = true then do
    let instructions ← validateSkillInstructions instructions
    let digest := env.sha256 instructions
    require (ApprovalRequest.isDigest digest)
      (.domainValidation "SkillRevision.content_sha256 must be lowercase sha256")
    return ⟨id, skillId, version, instructions, digest, sourceKind, createdAt, promotionRequestId, hp⟩
  else if sourceKind = .generated then
    .error (.domainValidation "generated SkillRevision requires an approved promotion request")
  else .error (.domainValidation "only generated SkillRevisions may carry promotion provenance")

end SkillRevision

namespace Skill

def new (id : SkillId) (key displayName description : String) (createdAt : Time) : Result Skill :=
  do
  require (!PyText.isBlank displayName) (.domainValidation "Skill.display_name must not be empty")
  let key ← validateSkillKey key
  return ⟨id, key, PyText.strip displayName, PyText.strip description, .active, none,
    createdAt, createdAt⟩

def activate (skill : Skill) (revision : SkillRevision) (now : Time) : Result Skill := do
  require (skill.status ≠ .archived) (.invalidStateTransition "Skill" skill.status.value "activate")
  require (revision.skillId = skill.id)
    (.domainValidation "Skill revision does not belong to skill")
  return { skill with activeRevisionId := some revision.id, updatedAt := now }

def disable (skill : Skill) (now : Time) : Result Skill := do
  require (skill.status ≠ .archived) (.invalidStateTransition "Skill" skill.status.value "disabled")
  return { skill with status := .disabled, updatedAt := now }

def archive (skill : Skill) (now : Time) : Skill :=
  if skill.status = .archived then skill else { skill with status := .archived, updatedAt := now }

end Skill

/-! ## Candidates (skill_evidence_snapshot.py, skill_improvement.py) -/

/-- The fields proposals are checked against. -/
structure SkillEvidenceSnapshot where
  id : SkillEvidenceSnapshotId
  skillId : SkillId
  baseRevisionId : SkillRevisionId
  evidence : JsonValue
  contentSha256 : String
  createdAt : Time

instance : Keyed SkillEvidenceSnapshot SkillEvidenceSnapshotId := ⟨SkillEvidenceSnapshot.id⟩

inductive SkillProposalStatus where
  | draft | readyForEvaluation | evaluating | readyForReview | approved
  | rejected | superseded | cancelled | expired | promoted
  deriving DecidableEq

/-- `_CLOSED_PROPOSAL_STATUSES` (skill_promotion.py). -/
def SkillProposalStatus.isClosed : SkillProposalStatus → Bool
  | .rejected | .superseded | .cancelled | .expired | .promoted => true
  | _ => false

structure SkillImprovementProposal where
  id : SkillImprovementProposalId
  skillId : SkillId
  baseRevisionId : SkillRevisionId
  status : SkillProposalStatus
  triggerKind : String
  evidenceSnapshotId : SkillEvidenceSnapshotId
  evidenceSnapshotHash : String
  proposedInstructions : String
  proposedContentSha256 : String
  rationale : String
  generatorVersion : String
  candidatePromptVersion : String
  candidatePromptSha256 : String
  createdAt : Time

instance : Keyed SkillImprovementProposal SkillImprovementProposalId :=
  ⟨SkillImprovementProposal.id⟩

/-- `SkillImprovementProposal.__post_init__`. -/
def SkillImprovementProposal.checked (env : Env) (p : SkillImprovementProposal) :
    Result SkillImprovementProposal := do
  let instructions ← validateSkillInstructions p.proposedInstructions
  require (p.triggerKind ≠ "" && p.generatorVersion ≠ "" && p.rationale.toList.length ≤ 8000)
    (.domainValidation "proposal metadata must be present and bounded")
  require (p.candidatePromptVersion ≠ "" && p.candidatePromptVersion.toList.length ≤ 128)
    (.domainValidation "proposal candidate prompt version must be bounded")
  require (p.evidenceSnapshotHash.toList.length = 64)
    (.domainValidation "proposal evidence snapshot must be sha256")
  require (ApprovalRequest.isDigest p.candidatePromptSha256)
    (.domainValidation "proposal candidate prompt must be sha256")
  require (p.proposedContentSha256 = env.sha256 instructions)
    (.domainValidation "proposal content hash does not match instructions")
  return p

/-! ## Evaluations (skill_evaluation.py) -/

/-- `aggregate_result` is represented by its numeric `score`, if it has one. -/
structure SkillEvaluationRun where
  id : SkillEvaluationRunId
  suiteId : SkillEvaluationSuiteId
  skillId : SkillId
  revisionId : Option SkillRevisionId
  proposalId : Option SkillImprovementProposalId
  evaluatorVersion : String
  aggregateScore : Option Rat
  suiteSnapshot : JsonValue
  runtimeFingerprint : String
  targetContentSha256 : String

instance : Keyed SkillEvaluationRun SkillEvaluationRunId := ⟨SkillEvaluationRun.id⟩

structure SkillEvaluationCaseResult where
  evaluationRunId : SkillEvaluationRunId
  caseId : SkillEvaluationCaseId
  score : Rat

instance : Keyed SkillEvaluationCaseResult (SkillEvaluationRunId × SkillEvaluationCaseId) :=
  ⟨fun r => (r.evaluationRunId, r.caseId)⟩

inductive CandidateComparisonResult where
  | better | worse | equivalent | mixed | inconclusive
  deriving DecidableEq

def CandidateComparisonResult.value : CandidateComparisonResult → String
  | .better => "better"
  | .worse => "worse"
  | .equivalent => "equivalent"
  | .mixed => "mixed"
  | .inconclusive => "inconclusive"

inductive CandidateRecommendation where
  | eligible | notEligible | requiresManualOverride
  deriving DecidableEq

def CandidateRecommendation.value : CandidateRecommendation → String
  | .eligible => "eligible"
  | .notEligible => "not_eligible"
  | .requiresManualOverride => "requires_manual_override"

structure SkillCandidateEvaluation where
  id : SkillCandidateEvaluationId
  proposalId : SkillImprovementProposalId
  baselineEvaluationRunId : SkillEvaluationRunId
  candidateEvaluationRunId : SkillEvaluationRunId
  comparisonPolicyVersion : String
  result : CandidateComparisonResult
  recommendation : CandidateRecommendation
  regressionCount : Nat
  improvementCount : Nat
  inconclusiveCount : Nat
  reportSha256 : String
  createdAt : Time
  comparisonReport : JsonValue

instance : Keyed SkillCandidateEvaluation SkillCandidateEvaluationId :=
  ⟨SkillCandidateEvaluation.id⟩

/-! ## Requests (skill_promotion.py) -/

inductive PromotionRequestStatus where
  | pending | approved | rejected | stale | cancelled | promoted
  deriving DecidableEq

inductive RollbackRequestStatus where
  | pending | approved | rejected | stale | cancelled | completed
  deriving DecidableEq

structure SkillPromotionRequest where
  id : SkillPromotionRequestId
  proposalId : SkillImprovementProposalId
  skillId : SkillId
  baseRevisionId : SkillRevisionId
  expectedActiveRevisionId : SkillRevisionId
  candidateSha256 : String
  candidateEvaluationId : SkillCandidateEvaluationId
  comparisonReportSha256 : String
  targetRevisionId : SkillRevisionId
  targetVersion : Nat
  authorizationFingerprint : String
  status : PromotionRequestStatus
  createdAt : Time
  resolvedAt : Option Time
  resolver : Option String
  promotedRevisionId : Option SkillRevisionId
  approvalRequestId : Option ApprovalRequestId

instance : Keyed SkillPromotionRequest SkillPromotionRequestId := ⟨SkillPromotionRequest.id⟩

/-- `SkillPromotionRequest.__post_init__`. -/
def SkillPromotionRequest.checked (r : SkillPromotionRequest) : Result SkillPromotionRequest := do
  require ([r.candidateSha256, r.comparisonReportSha256, r.authorizationFingerprint].all
    ApprovalRequest.isDigest) (.domainValidation "promotion fingerprints must be sha256 hex")
  require (1 ≤ r.targetVersion) (.domainValidation "promotion target version must be positive")
  require (r.status ≠ .promoted || r.promotedRevisionId = some r.targetRevisionId)
    (.domainValidation "promoted SkillPromotionRequest must identify its target revision")
  return r

structure SkillRollbackRequest where
  id : SkillRollbackRequestId
  skillId : SkillId
  expectedCurrentRevisionId : SkillRevisionId
  targetRevisionId : SkillRevisionId
  reason : String
  authorizationFingerprint : String
  status : RollbackRequestStatus
  createdAt : Time
  resolvedAt : Option Time
  resolver : Option String
  approvalRequestId : Option ApprovalRequestId

instance : Keyed SkillRollbackRequest SkillRollbackRequestId := ⟨SkillRollbackRequest.id⟩

/-- `SkillRollbackRequest.__post_init__`. -/
def SkillRollbackRequest.checked (r : SkillRollbackRequest) : Result SkillRollbackRequest := do
  require (!PyText.isBlank r.reason && r.reason.toList.length ≤ 4000)
    (.domainValidation "rollback reason must be present and bounded")
  require (ApprovalRequest.isDigest r.authorizationFingerprint)
    (.domainValidation "rollback authorization fingerprint must be sha256")
  return r

end Friday.Skills
