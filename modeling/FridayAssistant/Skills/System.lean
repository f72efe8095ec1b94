import FridayAssistant.Lib.Transition
import FridayAssistant.Skills.Promotion
/-!
# The system of all skill use cases

A state is the committed database, a step is one committed use case with any arguments. Approvals
of runs share the table with those of promotions and rollbacks: `runApproval` is any write of one.
-/
namespace Friday.Skills
open Tables PyJson Transition

inductive SkillAction where
  | createSkill (id : SkillId) (key displayName description : String) (now : Time)
  | createSkillRevision (skillId : SkillId) (id : SkillRevisionId) (instructions : String)
      (sourceKind : SkillRevisionSourceKind) (now : Time)
  | activateSkillRevision (skillId : SkillId) (revisionId : SkillRevisionId) (now : Time)
  | disableSkill (skillId : SkillId) (now : Time)
  | archiveSkill (skillId : SkillId) (now : Time)
  | createSkillEvidenceSnapshot (id : SkillEvidenceSnapshotId) (skillId : SkillId) (baseRevisionId : SkillRevisionId)
      (evidence : JsonValue) (now : Time)
  | createSkillImprovementProposal (id : SkillImprovementProposalId) (command : ProposalCommand) (now : Time)
  | cancelSkillImprovementProposal (id : SkillImprovementProposalId)
  | runSkillEvaluation (e : Evaluation)
  | compareSkillImprovementProposal (id : SkillCandidateEvaluationId) (proposalId : SkillImprovementProposalId)
      (baselineId : SkillEvaluationRunId) (source : CandidateSource) (policy : String) (now : Time)
  | requestSkillPromotion (proposalId : SkillImprovementProposalId) (ids : PromotionIds) (now : Time)
  | executeSkillPromotion (id : SkillPromotionRequestId) (resolver : Option String) (now : Time)
  | rejectSkillPromotion (id : SkillPromotionRequestId) (resolver : String) (now : Time)
  | cancelSkillPromotion (id : SkillPromotionRequestId) (now : Time)
  | requestSkillRollback (skillId : SkillId) (targetRevisionId : SkillRevisionId) (reason : String)
      (id : SkillRollbackRequestId) (approvalId : ApprovalRequestId) (now : Time)
  | executeSkillRollback (id : SkillRollbackRequestId) (resolver : Option String) (now : Time)
  | rejectSkillRollback (id : SkillRollbackRequestId) (resolver : String) (now : Time)
  | cancelSkillRollback (id : SkillRollbackRequestId) (now : Time)
  | approveRequest (id : ApprovalRequestId) (resolver : String) (note : Option String) (now : Time)
  | rejectRequest (id : ApprovalRequestId) (resolver : String) (note : Option String) (now : Time)
  | cancelApproval (id : ApprovalRequestId) (note : Option String) (now : Time)
  | expireApproval (id : ApprovalRequestId) (now : Time)
  | runApproval (approval : ApprovalRequest)

/-- An approval of a run, before and after. -/
def runApproval (s : SkillDb) (approval : ApprovalRequest) : Result SkillDb := do
  require (approval.subjectKind = .run && (s.approvals.get? approval.id).all (·.subjectKind = .run))
    (.domainValidation "run ApprovalRequest must use the run subject kind")
  return { s with approvals := s.approvals.put approval }

/-- The database a use case commits. -/
def act (env : Env) (s : SkillDb) : SkillAction → Result SkillDb
  | .createSkill id key displayName description now =>
    (createSkill s id key displayName description now).map (·.2)
  | .createSkillRevision skillId id instructions sourceKind now =>
    (createSkillRevision env s skillId id instructions sourceKind now).map (·.2)
  | .activateSkillRevision skillId revisionId now =>
    (activateSkillRevision s skillId revisionId now).map (·.2)
  | .disableSkill skillId now => (disableSkill s skillId now).map (·.2)
  | .archiveSkill skillId now => (archiveSkill s skillId now).map (·.2)
  | .createSkillEvidenceSnapshot id skillId baseRevisionId evidence now =>
    (createSkillEvidenceSnapshot env s id skillId baseRevisionId evidence now).map (·.2)
  | .createSkillImprovementProposal id command now =>
    (createSkillImprovementProposal env s id command now).map (·.2)
  | .cancelSkillImprovementProposal id => (cancelSkillImprovementProposal env s id).map (·.2)
  | .runSkillEvaluation e => (runSkillEvaluation env s e).map (·.2)
  | .compareSkillImprovementProposal id proposalId baselineId source policy now =>
    (compareSkillImprovementProposal env s id proposalId baselineId source policy now).map (·.2)
  | .requestSkillPromotion proposalId ids now =>
    (requestSkillPromotion env s proposalId ids now).map (·.2)
  | .executeSkillPromotion id resolver now =>
    (executeSkillPromotion env s id resolver now).map (·.2)
  | .rejectSkillPromotion id resolver now => (rejectSkillPromotion env s id resolver now).map (·.2)
  | .cancelSkillPromotion id now => (cancelSkillPromotion env s id now).map (·.2)
  | .requestSkillRollback skillId targetRevisionId reason id approvalId now =>
    (requestSkillRollback env s skillId targetRevisionId reason id approvalId now).map (·.2)
  | .executeSkillRollback id resolver now => (executeSkillRollback env s id resolver now).map (·.2)
  | .rejectSkillRollback id resolver now => (rejectSkillRollback s id resolver now).map (·.2)
  | .cancelSkillRollback id now => (cancelSkillRollback s id now).map (·.2)
  | .approveRequest id resolver note now => resolveApproval s id .approved (some resolver) note now
  | .rejectRequest id resolver note now => resolveApproval s id .rejected (some resolver) note now
  | .cancelApproval id note now => resolveApproval s id .cancelled none note now
  | .expireApproval id now => expireApproval s id now
  | .runApproval approval => runApproval s approval

def commit (env : Env) (s : SkillDb) (a : SkillAction) : Option SkillDb := (act env s a).toOption

def SkillCore.empty : SkillCore := ⟨.empty, .empty, .empty, .empty, .empty, .empty, .empty⟩

/-- Every committed use case, in any order. -/
def skillSystem (env : Env) : System SkillDb SkillAction :=
  .ofStep (fun s => s.toSkillCore = .empty) (commit env) fun _ _ => True

theorem skillSystem_next {env : Env} {s s' : SkillDb} {a : SkillAction}
    (h : (skillSystem env).next s a s') : act env s a = .ok s' :=
  toOption_eq_some.1 h.1

/-! ## A sample run -/

def sampleDigest (c : Char) : String := String.ofList (List.replicate 64 c)

/-- What the generator answers. -/
def sampleCandidate : JsonValue :=
  .obj [("version", .int 1), ("proposed_instructions", .str "new"), ("rationale", .str ""),
    ("addressed_evidence_ids", .arr [])]

/-- No observations, as they are collected. -/
def sampleEvidence : JsonValue := .obj [("usage", .arr []), ("feedback", .arr [])]

/-- The same in the canonical shape. -/
def canonicalSample : JsonValue := .obj [("version", .int 1), ("entries", .arr [])]

/-- The functions on the texts of the sample; the digest tells its two instructions apart. -/
def sampleEnv : Env where
  sha256 text := if text = "new" then sampleDigest 'b' else sampleDigest 'a'
  sha256_isDigest text := by split <;> decide +kernel
  loads text := if text = dumps sampleCandidate then some sampleCandidate else none
  canonicalEvidence evidence :=
    if [sampleEvidence, canonicalSample].any (dumps · = dumps evidence) then .ok (canonicalSample, [])
    else .error (.domainValidation "evidence snapshot does not match the canonical schema")
  sameJson a b := dumps a = dumps b
  floatDelta _ _ := "1.0"

def sampleProposal (baseRevisionId : SkillRevisionId) (snapshotId : SkillEvidenceSnapshotId) :
    ProposalCommand :=
  ⟨1, baseRevisionId, "manual", snapshotId, sampleDigest 'a', generatorConfigFingerprint, "v",
    sampleDigest 'a', dumps sampleCandidate⟩

def emptyDb : SkillDb := ⟨.empty, .empty, .empty, .empty⟩

/-- A skill with an active revision, a proposal for it and an evaluation of the revision. -/
def proposedActions : List SkillAction :=
  [.createSkill 1 "skill" "Skill" "" 0, .createSkillRevision 1 1 "old" .operator 1,
    .activateSkillRevision 1 1 2, .createSkillEvidenceSnapshot 1 1 1 sampleEvidence 3,
    .createSkillImprovementProposal 1 (sampleProposal 1 1) 4,
      .runSkillEvaluation ⟨1, 1, 1, some 1, none, "v",
        .obj [("cases", .arr [.obj [("id", .str (Uuid.text 1))]])], "r", [(1, 0)]⟩]

/-- The candidate does better. -/
def compareBetter : SkillAction :=
  .compareSkillImprovementProposal 1 1 1 (.outputs ⟨2, 1, 1, none, none, "", .null, "", [(1, 1)]⟩)
    "comparison-v1" 5

theorem skillSystem_run {env : Env} {actions : List SkillAction}
    (h : System.Legal (commit env) (fun _ _ => True) emptyDb actions) :
    (skillSystem env).Reachable (System.run (commit env) emptyDb actions) := by
  have hinit : (skillSystem env).init emptyDb := rfl
  exact .steps (.of_init hinit) (.run h)

end Friday.Skills
