import FridayAssistant.Skills.Registry
/-!
# Proposals, evaluations and comparisons (skill_improvement.py, skill_evaluation.py)

The brain that writes candidates and the graders are outside: `createSkillImprovementProposal` gets
the raw text, `runSkillEvaluation` the graded cases. `CompareSkillImprovementProposal` runs three
transactions; here they are one step, with nothing in between.
-/
namespace Friday.Skills
open Tables PyJson

variable (env : Env)

/-! ## Proposals -/

def generatorConfigFingerprint : String := "brain-candidate-generator-v2"

def createSkillEvidenceSnapshot (s : SkillDb) (id : SkillEvidenceSnapshotId) (skillId : SkillId)
    (baseRevisionId : SkillRevisionId) (evidence : JsonValue) (now : Time) :
    Result (SkillEvidenceSnapshot × SkillDb) := do
  let _ ← getSkill s skillId
  let base ← getRevision s baseRevisionId
  require (base.skillId = skillId)
    (.entityConflict "evidence snapshot base revision does not belong to skill")
  let (normalized, _) ← env.canonicalEvidence evidence
  require ((dumps normalized).toList.length ≤ 64000)
    (.domainValidation "evidence snapshot exceeds the bounded package size")
  let snapshot : SkillEvidenceSnapshot :=
    ⟨id, skillId, baseRevisionId, normalized, env.sha256 (dumps normalized), now⟩
  let snapshots ← found (s.skillEvidenceSnapshots.insert? snapshot) .integrity
  return (snapshot, { s with skillEvidenceSnapshots := snapshots })

/-- `value == 1` for a JSON value. -/
def isOne : JsonValue → Bool
  | .int n => n = 1
  | .bool b => b
  | .float repr => repr = "1.0"
  | _ => false

/-- The object has exactly these keys. -/
def hasKeys (members : List (String × JsonValue)) (keys : List String) : Bool :=
  members.length = keys.length && keys.all fun k => members.any (·.1 = k)

structure CandidateOutput where
  proposedInstructions : String
  rationale : String
  contentSha256 : String

/-- `parse_candidate_output`. -/
def parseCandidateOutput (raw : String) (allowed : List String) : Result CandidateOutput := do
  let value ← found (env.loads raw) (.domainValidation "candidate output must be strict JSON")
  match value with
  | .obj members =>
    require (hasKeys members ["version", "proposed_instructions", "rationale", "addressed_evidence_ids"])
      (.domainValidation "candidate output fields must match the strict contract")
    match value.get? "version", value.get? "proposed_instructions", value.get? "rationale" with
    | some version, some (.str instructions), some (.str rationale) => do
      require (isOne version) (.domainValidation "candidate output has invalid scalar fields")
      match value.get? "addressed_evidence_ids" with
      | some (.arr ids) => do
        require (ids.all fun id => match id with
            | .str id => allowed.contains id
            | _ => false)
          (.domainValidation "candidate output references evidence outside the frozen snapshot")
        require (!instructions.toList.isEmpty && instructions.toList.length ≤ 32000 && rationale.toList.length ≤ 8000)
          (.domainValidation "candidate output exceeds bounded fields")
        return ⟨instructions, rationale, env.sha256 instructions⟩
      | _ => .error (.domainValidation "candidate output references evidence outside the frozen snapshot")
    | _, _, _ => .error (.domainValidation "candidate output has invalid scalar fields")
  | _ => .error (.domainValidation "candidate output fields must match the strict contract")

/-- `uq_skill_improvement_proposals_one_open`: an open proposal is the only open one of its
skill. -/
def oneOpen (s : SkillDb) (p : SkillImprovementProposal) : Bool :=
  p.status.isClosed || s.skillImprovementProposals.rows.all fun q =>
    q.id = p.id || q.skillId ≠ p.skillId || q.status.isClosed

/-- `skill_improvement_proposals.save` of a stored proposal. -/
def saveProposal (s : SkillDb) (p : SkillImprovementProposal) : Result SkillDb := do
  let p ← p.checked env
  require (oneOpen s p) .integrity
  return { s with skillImprovementProposals := s.skillImprovementProposals.put p }

/-- What a proposal is created from. -/
structure ProposalCommand where
  skillId : SkillId
  baseRevisionId : SkillRevisionId
  triggerKind : String
  evidenceSnapshotId : SkillEvidenceSnapshotId
  evidenceSnapshotHash : String
  generatorVersion : String
  candidatePromptVersion : String
  candidatePromptSha256 : String
  rawCandidate : String

def createSkillImprovementProposal (s : SkillDb) (id : SkillImprovementProposalId)
    (c : ProposalCommand) (now : Time) : Result (SkillImprovementProposal × SkillDb) := do
  require (c.generatorVersion = generatorConfigFingerprint)
    (.entityConflict "candidate generator provenance is not code-owned")
  let _ ← getSkill s c.skillId
  let base ← getRevision s c.baseRevisionId
  require (base.skillId = c.skillId)
    (.entityConflict "proposal base revision does not belong to skill")
  let snapshot ← found (s.skillEvidenceSnapshots.get? c.evidenceSnapshotId)
    (.entityConflict "evidence snapshot not found")
  require (snapshot.skillId = c.skillId && snapshot.baseRevisionId = c.baseRevisionId)
    (.entityConflict "evidence snapshot does not match proposal base")
  require (snapshot.contentSha256 = c.evidenceSnapshotHash)
    (.entityConflict "evidence snapshot hash does not match frozen snapshot")
  let (_, frozenEvidenceIds) ← env.canonicalEvidence snapshot.evidence
  let candidate ← parseCandidateOutput env c.rawCandidate frozenEvidenceIds
  require (candidate.contentSha256 ≠ base.contentSha256)
    (.entityConflict "candidate must differ from base revision")
  let proposal ← SkillImprovementProposal.checked env
    { id := id, skillId := c.skillId, baseRevisionId := c.baseRevisionId, status := .readyForEvaluation,
      triggerKind := c.triggerKind, evidenceSnapshotId := c.evidenceSnapshotId,
      evidenceSnapshotHash := c.evidenceSnapshotHash, proposedInstructions := candidate.proposedInstructions,
      proposedContentSha256 := candidate.contentSha256, rationale := candidate.rationale,
      generatorVersion := c.generatorVersion, candidatePromptVersion := c.candidatePromptVersion,
      candidatePromptSha256 := c.candidatePromptSha256, createdAt := now }
  -- one open proposal for a skill, one proposal for an evidence snapshot
  require (oneOpen s proposal && s.skillImprovementProposals.rows.all fun q =>
    (q.skillId, q.baseRevisionId, q.evidenceSnapshotHash, q.generatorVersion) ≠
      (proposal.skillId, proposal.baseRevisionId, proposal.evidenceSnapshotHash, proposal.generatorVersion)) .integrity
  let proposals ← found (s.skillImprovementProposals.insert? proposal) .integrity
  return (proposal, { s with skillImprovementProposals := proposals })

/-- `CancelSkillImprovementProposal`: it looks for three of the five closed statuses. -/
def cancelSkillImprovementProposal (s : SkillDb) (id : SkillImprovementProposalId) :
    Result (SkillImprovementProposal × SkillDb) := do
  let proposal ← found (s.skillImprovementProposals.get? id)
    (.entityConflict "skill improvement proposal not found")
  require (proposal.status ≠ .promoted && proposal.status ≠ .cancelled &&
    proposal.status ≠ .rejected) (.entityConflict "proposal is already closed")
  let cancelled := { proposal with status := .cancelled }
  let s ← saveProposal env s cancelled
  return (cancelled, s)

/-! ## Evaluations -/

/-- A graded run of an evaluation suite, before it is stored. -/
structure Evaluation where
  id : SkillEvaluationRunId
  suiteId : SkillEvaluationSuiteId
  skillId : SkillId
  revisionId : Option SkillRevisionId
  proposalId : Option SkillImprovementProposalId
  evaluatorVersion : String
  suiteSnapshot : JsonValue
  runtimeFingerprint : String
  results : List (SkillEvaluationCaseId × Rat)

/-- The digest of the revision or proposal that is evaluated. -/
def evaluationTarget (s : SkillDb) (e : Evaluation) : Result String :=
  match e.revisionId, e.proposalId with
  | some revisionId, none => do
    let revision ← getRevision s revisionId
    require (revision.skillId = e.skillId) (.entityConflict "evaluation revision does not belong to suite skill")
    return revision.contentSha256
  | none, some proposalId => do
    let proposal ← found ((s.skillImprovementProposals.get? proposalId).filter (·.skillId = e.skillId))
      (.entityConflict "evaluation proposal does not belong to suite skill")
    require (env.sha256 proposal.proposedInstructions = proposal.proposedContentSha256)
      (.entityConflict "skill_integrity_failed")
    return proposal.proposedContentSha256
  | _, _ => .error (.entityConflict "evaluation must target exactly one revision or proposal")

/-- `skill_evaluation_case_results.add_all`. -/
def addResults (runId : SkillEvaluationRunId) : Table SkillEvaluationCaseResult →
    List (SkillEvaluationCaseId × Rat) → Result (Table SkillEvaluationCaseResult)
  | t, [] => .ok t
  | t, (caseId, score) :: rest => do
    let t ← found (t.insert? ⟨runId, caseId, score⟩) .integrity
    addResults runId t rest

/-- The mean of the scores. -/
def meanScore (results : List (SkillEvaluationCaseId × Rat)) : Rat :=
  if results.isEmpty then 0 else (results.map (·.2)).sum / results.length

/-- `RunSkillEvaluation`. -/
def runSkillEvaluation (s : SkillDb) (e : Evaluation) : Result (SkillEvaluationRun × SkillDb) := do
  let _ ← getSkill s e.skillId
  let digest ← evaluationTarget env s e
  let run : SkillEvaluationRun :=
    ⟨e.id, e.suiteId, e.skillId, e.revisionId, e.proposalId, e.evaluatorVersion,
      some (meanScore e.results), e.suiteSnapshot, e.runtimeFingerprint, digest⟩
  let runs ← found (s.skillEvaluationRuns.insert? run) .integrity
  let results ← addResults e.id s.skillEvaluationCaseResults e.results
  return (run, { s with skillEvaluationRuns := runs, skillEvaluationCaseResults := results })

/-! ## Comparisons -/

/-- The ids of the frozen cases. -/
def snapshotIds (suiteSnapshot : JsonValue) : List String :=
  match suiteSnapshot.get? "cases" with
  | some (.arr cases) => (cases.filterMap fun item => match item.get? "id" with
      | some (.str id) => some id
      | _ => none).dedup
  | _ => []

/-- Every frozen case was graded once in both runs. -/
def isComplete (ids : List String) (baseline candidate : List SkillEvaluationCaseResult) : Bool :=
  let graded (results : List SkillEvaluationCaseResult) := results.length = ids.length &&
    results.all (fun r => ids.contains (Uuid.text r.caseId)) && ids.all fun id => results.any (Uuid.text ·.caseId = id)
  !ids.isEmpty && graded baseline && graded candidate

structure Verdict where
  result : CandidateComparisonResult
  recommendation : CandidateRecommendation
  scoreDelta : String
  regressions : Nat
  improvements : Nat
  inconclusive : Nat

/-- The score of a case in the candidate run. -/
def scoreOf (results : List SkillEvaluationCaseResult) (caseId : SkillEvaluationCaseId) : Rat :=
  ((results.find? (·.caseId = caseId)).map (·.score)).getD 0

/-- The body of the comparison. -/
def verdict (baseline candidate : SkillEvaluationRun)
    (baselineResults candidateResults : List SkillEvaluationCaseResult) : Verdict :=
  let ids := snapshotIds baseline.suiteSnapshot
  if isComplete ids baselineResults candidateResults then
    let regressions := baselineResults.countP fun r => scoreOf candidateResults r.caseId < r.score
    let improvements := baselineResults.countP fun r => r.score < scoreOf candidateResults r.caseId
    let inconclusive := baselineResults.countP fun r => scoreOf candidateResults r.caseId = r.score
    match candidate.aggregateScore, baseline.aggregateScore with
    | some new, some old =>
      let delta := env.floatDelta new old
      if 0 < regressions then
        ⟨if 0 < improvements then .mixed else .worse, .notEligible, delta, regressions, improvements, inconclusive⟩
      else if 0 < improvements then ⟨.better, .eligible, delta, regressions, improvements, inconclusive⟩
      else ⟨.equivalent, .requiresManualOverride, delta, regressions, improvements, inconclusive⟩
    | _, _ => ⟨.inconclusive, .notEligible, "0.0", regressions, improvements, ids.length⟩
  else
    ⟨.inconclusive, .notEligible, "0.0", 0, 0,
      max 1 (ids.length - min baselineResults.length candidateResults.length)⟩

def comparisonReport (proposalId : SkillImprovementProposalId)
    (baseline candidate : SkillEvaluationRun) (v : Verdict) (policy : String) : JsonValue :=
  .obj [("proposal_id", .str (Uuid.text proposalId)),
    ("baseline_run_id", .str (Uuid.text baseline.id)),
    ("candidate_run_id", .str (Uuid.text candidate.id)),
    ("runtime_fingerprint", .str baseline.runtimeFingerprint), ("score_delta", .float v.scoreDelta),
    ("regression_count", .int v.regressions), ("improvement_count", .int v.improvements),
    ("inconclusive_count", .int v.inconclusive), ("result", .str v.result.value),
    ("recommendation", .str v.recommendation.value), ("comparison_policy_version", .str policy)]

/-- `get_for_proposal`. -/
def comparisonForProposal (s : SkillDb) (proposalId : SkillImprovementProposalId) :
    Option SkillCandidateEvaluation :=
  s.skillCandidateEvaluations.rows.find? (·.proposalId = proposalId)

/-- The outputs of the candidate, or a run that has been stored already. -/
inductive CandidateSource where
  | outputs (e : Evaluation)
  | stored (id : SkillEvaluationRunId)

/-- The evaluation run of the candidate; new outputs are graded as the baseline was. -/
def candidateRun (s : SkillDb) (proposalId : SkillImprovementProposalId)
    (baseline : SkillEvaluationRun) : CandidateSource → Result (SkillEvaluationRunId × SkillDb)
  | .outputs e => do
    let (run, s) ← runSkillEvaluation env s { e with
      suiteId := baseline.suiteId, revisionId := none, proposalId := some proposalId,
      evaluatorVersion := baseline.evaluatorVersion, suiteSnapshot := baseline.suiteSnapshot,
      runtimeFingerprint := baseline.runtimeFingerprint }
    return (run.id, s)
  | .stored id => do
    let _ ← found (s.skillEvaluationRuns.get? id) (.entityConflict "candidate evaluation run was not found")
    return (id, s)

/-- The transaction that stores the comparison; it asks nothing about the proposal's status. -/
def storeComparison (s : SkillDb) (id : SkillCandidateEvaluationId)
    (proposalId : SkillImprovementProposalId) (baselineId candidateId : SkillEvaluationRunId)
    (policy : String) (now : Time) : Result (SkillCandidateEvaluation × SkillDb) := do
  let proposal ← found (s.skillImprovementProposals.get? proposalId)
    (.entityConflict "comparison inputs disappeared")
  let baseline ← found (s.skillEvaluationRuns.get? baselineId)
    (.entityConflict "comparison inputs disappeared")
  let candidate ← found (s.skillEvaluationRuns.get? candidateId)
    (.entityConflict "comparison inputs disappeared")
  require (candidate.proposalId = some proposal.id && candidate.skillId = proposal.skillId &&
      baseline.runtimeFingerprint = candidate.runtimeFingerprint &&
      env.sameJson baseline.suiteSnapshot candidate.suiteSnapshot &&
      baseline.evaluatorVersion = candidate.evaluatorVersion &&
      baseline.targetContentSha256 ≠ candidate.targetContentSha256 &&
      candidate.targetContentSha256 = proposal.proposedContentSha256)
    (.entityConflict "comparison requires identical frozen evaluation configuration")
  let v := verdict env baseline candidate
    (s.skillEvaluationCaseResults.select (·.evaluationRunId = baseline.id))
    (s.skillEvaluationCaseResults.select (·.evaluationRunId = candidate.id))
  let report := comparisonReport proposal.id baseline candidate v policy
  let comparison : SkillCandidateEvaluation :=
    ⟨id, proposal.id, baseline.id, candidate.id, policy, v.result, v.recommendation, v.regressions,
      v.improvements, v.inconclusive, env.sha256 (dumps report), now, report⟩
  require (s.skillCandidateEvaluations.rows.all (·.proposalId ≠ proposal.id)) .integrity
  let comparisons ← found (s.skillCandidateEvaluations.insert? comparison) .integrity
  let s ← saveProposal env { s with skillCandidateEvaluations := comparisons }
    { proposal with status := .readyForReview }
  return (comparison, s)

/-- `CompareSkillImprovementProposal`. -/
def compareSkillImprovementProposal (s : SkillDb) (id : SkillCandidateEvaluationId)
    (proposalId : SkillImprovementProposalId) (baselineId : SkillEvaluationRunId)
    (source : CandidateSource) (policy : String) (now : Time) :
    Result (SkillCandidateEvaluation × SkillDb) := do
  require (policy = "comparison-v1") (.entityConflict "comparison policy is not code-owned")
  let proposal ← found (s.skillImprovementProposals.get? proposalId)
    (.entityConflict "proposal or baseline evaluation was not found")
  let baseline ← found (s.skillEvaluationRuns.get? baselineId)
    (.entityConflict "proposal or baseline evaluation was not found")
  require (baseline.skillId = proposal.skillId &&
    baseline.revisionId = some proposal.baseRevisionId)
    (.entityConflict "baseline evaluation does not match proposal base revision")
  require ((s.skillRevisions.get? proposal.baseRevisionId).any
    (·.contentSha256 = baseline.targetContentSha256)) (.entityConflict "baseline evaluation target integrity failed")
  require (comparisonForProposal s proposalId).isNone
    (.entityConflict "proposal already has an immutable comparison")
  let (candidateId, s) ← candidateRun env s proposalId baseline source
  storeComparison env s id proposalId baselineId candidateId policy now

end Friday.Skills
