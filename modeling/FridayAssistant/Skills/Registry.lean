import FridayAssistant.Skills.Domain
import FridayAssistant.Runs.Approvals
/-!
# The skill tables and the registry (skill_registry.py, skill_improvement.py)

A use case is one transaction. `integrity` stands for the constraints of the tables: an insert is
refused when its key or one of its unique columns is taken.
-/
namespace Friday.Skills
open Tables PyJson

/-- The tables that say what a skill is and why. -/
structure SkillCore where
  skills : Table Skill
  skillRevisions : Table SkillRevision
  skillImprovementProposals : Table SkillImprovementProposal
  skillCandidateEvaluations : Table SkillCandidateEvaluation
  skillPromotionRequests : Table SkillPromotionRequest
  skillRollbackRequests : Table SkillRollbackRequest
  approvals : Approvals

structure SkillDb extends SkillCore where
  skillEvidenceSnapshots : Table SkillEvidenceSnapshot
  skillEvaluationRuns : Table SkillEvaluationRun
  skillEvaluationCaseResults : Table SkillEvaluationCaseResult

variable (env : Env)

/-! ## Skills and revisions -/

def getSkill (s : SkillDb) (id : SkillId) : Result Skill :=
  found (s.skills.get? id) (.notFound "Skill" id)

def getRevision (s : SkillDb) (id : SkillRevisionId) : Result SkillRevision :=
  found (s.skillRevisions.get? id) (.notFound "Skill revision" id)

/-- `next_version`: one more than the greatest version of the skill. -/
def nextVersion (s : SkillDb) (skillId : SkillId) : Nat :=
  ((s.skillRevisions.select (·.skillId = skillId)).map (·.version)).foldr max 0 + 1

/-- `skill_revisions.add`, with `uq_skill_revisions_skill_version` and
`uq_skill_revisions_promotion_request`. -/
def addRevision (s : SkillDb) (revision : SkillRevision) : Result SkillDb := do
  require (s.skillRevisions.rows.all fun r =>
    (r.skillId, r.version) ≠ (revision.skillId, revision.version) &&
    (r.promotionRequestId.isNone || r.promotionRequestId ≠ revision.promotionRequestId)) .integrity
  let revisions ← found (s.skillRevisions.insert? revision) .integrity
  return { s with skillRevisions := revisions }

def createSkill (s : SkillDb) (id : SkillId) (key displayName description : String) (now : Time) :
    Result (Skill × SkillDb) := do
  let skill ← Skill.new id key displayName description now
  require (s.skills.rows.all (·.key ≠ skill.key)) .integrity
  let skills ← found (s.skills.insert? skill) .integrity
  return (skill, { s with skills := skills })

def createSkillRevision (s : SkillDb) (skillId : SkillId) (id : SkillRevisionId)
    (instructions : String) (sourceKind : SkillRevisionSourceKind) (now : Time) :
    Result (SkillRevision × SkillDb) := do
  let skill ← getSkill s skillId
  require (skill.status ≠ .archived) (.entityConflict "archived skill cannot receive revisions")
  require (sourceKind ≠ .generated)
    (.entityConflict "generated revisions can only be created by promotion")
  let revision ← SkillRevision.new env id skillId (nextVersion s skillId) instructions
    sourceKind now none
  let s ← addRevision s revision
  return (revision, s)

def activateSkillRevision (s : SkillDb) (skillId : SkillId) (revisionId : SkillRevisionId)
    (now : Time) : Result (Skill × SkillDb) := do
  let skill ← getSkill s skillId
  let revision ← getRevision s revisionId
  -- for a revision of another skill this call raises
  if revision.skillId ≠ skillId then let _ ← skill.activate revision now
  require (revision.sourceKind ≠ .generated)
    (.entityConflict "generated revisions require approved promotion")
  require ((skill.activeRevisionId.bind s.skillRevisions.get?).all (·.version < revision.version))
    (.entityConflict "historical revisions require approved rollback")
  let skill ← skill.activate revision now
  return (skill, { s with skills := s.skills.put skill })

def disableSkill (s : SkillDb) (skillId : SkillId) (now : Time) : Result (Skill × SkillDb) := do
  let skill ← getSkill s skillId
  let skill ← skill.disable now
  return (skill, { s with skills := s.skills.put skill })

def archiveSkill (s : SkillDb) (skillId : SkillId) (now : Time) : Result (Skill × SkillDb) := do
  let skill ← getSkill s skillId
  return (skill.archive now, { s with skills := s.skills.put (skill.archive now) })

end Friday.Skills
