import FridayAssistant.Skills.System
/-!
# What a committed skill use case does

Every use case is one move of the tables that say what a skill is and why (`act_move`). A move
carries what its use case has checked, so that an invariant is shown once for each move and never
looks at the code again. A `Guard` adds conditions on the steps of a run.
-/
namespace Friday.Skills
open Tables Table PyJson Transition

/-- Conditions on a step: on the proposal that is cancelled or compared, on the id that is drawn
for a revision, and on what is activated or executed. -/
structure Guard where
  cancel : SkillCore → SkillImprovementProposal → Prop := fun _ _ => True
  compare : SkillCore → SkillImprovementProposal → Prop := fun _ _ => True
  revisionId : SkillCore → SkillRevisionId → Prop := fun _ _ => True
  activate : SkillId → SkillRevisionId → Prop := fun _ _ => True
  promote : SkillPromotionRequestId → Prop := fun _ => True
  rollBack : SkillRollbackRequestId → Prop := fun _ => True

/-- A pending approval is resolved. -/
structure Resolves (a a' : ApprovalRequest) : Prop where
  pending : a.status = .pending
  same : a' = { a with status := a'.status, resolvedAt := a'.resolvedAt, resolutionNote := a'.resolutionNote,
                       resolver := a'.resolver }
  resolved : a'.status ≠ .pending
  deadline : a'.status = .expired → a.expiresAt.isSome = true

/-- At most one approval of the table is resolved. -/
def Resolved (t t' : Approvals) : Prop :=
  t' = t ∨ ∃ a a', t.get? a.id = some a ∧ Resolves a a' ∧ t' = t.put a'

/-- A promotion's approval as it was requested. -/
structure RequestedFor (kind : ApprovalSubjectKind) (subjectId : Uuid) (fingerprint : String)
    (a : ApprovalRequest) : Prop where
  kind : a.subjectKind = kind
  subject : a.subjectId = some (Uuid.text subjectId)
  fingerprint : a.authorizationFingerprint = some fingerprint
  noDeadline : a.expiresAt = none

/-- One change of `SkillCore`. -/
inductive Move (env : Env) (g : Guard) (c : SkillCore) : SkillCore → Prop where
  | createSkill {skill : Skill} (fresh : c.skills.get? skill.id = none) (inactive : skill.activeRevisionId = none) :
      Move env g c { c with skills := c.skills.put skill }
  /-- A skill is disabled or archived. -/
  | restate {skill skill' : Skill} (hs : c.skills.get? skill.id = some skill) (id : skill'.id = skill.id)
      (pointer : skill'.activeRevisionId = skill.activeRevisionId) :
      Move env g c { c with skills := c.skills.put skill' }
  | revise {r : SkillRevision} (fresh : c.skillRevisions.get? r.id = none) (written : r.sourceKind ≠ .generated)
      (allowed : g.revisionId c r.id) : Move env g c { c with skillRevisions := c.skillRevisions.put r }
  | activate {skill skill' : Skill} {r : SkillRevision} (hs : c.skills.get? skill.id = some skill)
      (hr : c.skillRevisions.get? r.id = some r) (written : r.sourceKind ≠ .generated)
      (id : skill'.id = skill.id) (pointer : skill'.activeRevisionId = some r.id)
      (allowed : g.activate skill.id r.id) : Move env g c { c with skills := c.skills.put skill' }
  | propose {p : SkillImprovementProposal} (fresh : c.skillImprovementProposals.get? p.id = none)
      (status : p.status = .readyForEvaluation) (valid : p.checked env = .ok p) :
      Move env g c { c with skillImprovementProposals := c.skillImprovementProposals.put p }
  | cancelProposal {p : SkillImprovementProposal} (hp : c.skillImprovementProposals.get? p.id = some p)
      (status : p.status ≠ .promoted ∧ p.status ≠ .cancelled ∧ p.status ≠ .rejected)
      (allowed : g.cancel c p) : Move env g c { c with
        skillImprovementProposals := c.skillImprovementProposals.put { p with status := .cancelled } }
  | compare {p : SkillImprovementProposal} {x : SkillCandidateEvaluation}
      (hp : c.skillImprovementProposals.get? p.id = some p)
      (fresh : c.skillCandidateEvaluations.get? x.id = none) (ofProposal : x.proposalId = p.id)
      (first : ∀ y ∈ c.skillCandidateEvaluations.rows, y.proposalId ≠ p.id)
      (allowed : g.compare c p) : Move env g c { c with
        skillCandidateEvaluations := c.skillCandidateEvaluations.put x
        skillImprovementProposals := c.skillImprovementProposals.put { p with status := .readyForReview } }
  | requestPromotion {r : SkillPromotionRequest} {p : SkillImprovementProposal} {x : SkillCandidateEvaluation}
      {a : ApprovalRequest} (hp : c.skillImprovementProposals.get? r.proposalId = some p)
      (ready : p.status = .readyForReview) (skill : p.skillId = r.skillId)
      (candidate : r.candidateSha256 = p.proposedContentSha256)
      (hx : c.skillCandidateEvaluations.get? r.candidateEvaluationId = some x) (ofProposal : x.proposalId = r.proposalId)
      (eligible : x.recommendation = .eligible) (fresh : c.skillPromotionRequests.get? r.id = none)
      (unique : ∀ q ∈ c.skillPromotionRequests.rows, q.proposalId ≠ r.proposalId ∧
        q.targetRevisionId ≠ r.targetRevisionId ∧ q.approvalRequestId ≠ r.approvalRequestId)
      (pending : r.status = .pending) (valid : r.checked = .ok r) (freshApproval : c.approvals.get? a.id = none)
      (open_ : a.status = .pending) (unconsumed : a.consumedAt = none) (approval : r.approvalRequestId = some a.id)
      (requested : RequestedFor .skillPromotion r.id r.authorizationFingerprint a)
      (allowed : g.revisionId c r.targetRevisionId) :
      Move env g c { c with
        skillPromotionRequests := c.skillPromotionRequests.put r
        approvals := c.approvals.put a }
  /-- A promotion ends without a revision. -/
  | closePromotion {r : SkillPromotionRequest} {p : SkillImprovementProposal} {approvals : Approvals}
      {status : PromotionRequestStatus} {proposalStatus : SkillProposalStatus}
      {resolvedAt : Option Time} {resolver : Option String}
      (hr : c.skillPromotionRequests.get? r.id = some r) (pending : r.status = .pending)
      (hp : c.skillImprovementProposals.get? r.proposalId = some p)
      (notClosed : p.status.isClosed = false) (ended : status ≠ .pending ∧ status ≠ .promoted)
      (closed : proposalStatus.isClosed = true) (resolved : Resolved c.approvals approvals) :
      Move env g c { c with
        skillPromotionRequests := c.skillPromotionRequests.put
          { r with status := status, resolvedAt := resolvedAt, resolver := resolver }
        skillImprovementProposals := c.skillImprovementProposals.put { p with status := proposalStatus }
        approvals := approvals }
  | promote {r : SkillPromotionRequest} {p : SkillImprovementProposal} {x : SkillCandidateEvaluation}
      {a : ApprovalRequest} {skill skill' : Skill} {rev : SkillRevision} {resolvedAt : Option Time}
      {resolver : Option String} {now : Time} (hr : c.skillPromotionRequests.get? r.id = some r)
      (pending : r.status = .pending) (hp : c.skillImprovementProposals.get? r.proposalId = some p)
      (notClosed : p.status.isClosed = false) (ha : c.approvals.get? a.id = some a)
      (approval : r.approvalRequestId = some a.id) (approved : a.status = .approved)
      (unconsumed : a.consumedAt = none)
      (hx : c.skillCandidateEvaluations.get? r.candidateEvaluationId = some x)
      (eligible : x.recommendation = .eligible) (hs : c.skills.get? skill.id = some skill)
      (own : skill.id = r.skillId) (id : skill'.id = skill.id)
      (pointer : skill'.activeRevisionId = some rev.id) (generated : rev.sourceKind = .generated)
      (source : rev.promotionRequestId = some r.id) (fresh : c.skillRevisions.get? rev.id = none)
      (target : rev.id = r.targetRevisionId) (digest : rev.contentSha256 = r.candidateSha256)
      (allowed : g.promote r.id) : Move env g c { c with
        skills := c.skills.put skill'
        skillRevisions := c.skillRevisions.put rev
        skillPromotionRequests := c.skillPromotionRequests.put
          { r with promotedRevisionId := some rev.id, status := .promoted, resolvedAt := resolvedAt, resolver := resolver }
        skillImprovementProposals := c.skillImprovementProposals.put { p with status := .promoted }
        approvals := c.approvals.put { a with consumedAt := some now } }
  | requestRollback {r : SkillRollbackRequest} {a : ApprovalRequest}
      (fresh : c.skillRollbackRequests.get? r.id = none)
      (unique : ∀ q ∈ c.skillRollbackRequests.rows, q.approvalRequestId ≠ r.approvalRequestId)
      (pending : r.status = .pending) (freshApproval : c.approvals.get? a.id = none) (open_ : a.status = .pending)
      (unconsumed : a.consumedAt = none) (approval : r.approvalRequestId = some a.id)
      (requested : RequestedFor .skillRollback r.id r.authorizationFingerprint a) :
      Move env g c { c with
        skillRollbackRequests := c.skillRollbackRequests.put r
        approvals := c.approvals.put a }
  | closeRollback {r : SkillRollbackRequest} {approvals : Approvals} {status : RollbackRequestStatus}
      {resolvedAt : Option Time} {resolver : Option String}
      (hr : c.skillRollbackRequests.get? r.id = some r) (pending : r.status = .pending)
      (ended : status ≠ .pending ∧ status ≠ .completed)
      (resolved : Resolved c.approvals approvals) : Move env g c { c with
        skillRollbackRequests := c.skillRollbackRequests.put
          { r with status := status, resolvedAt := resolvedAt, resolver := resolver }
        approvals := approvals }
  | rollBack {r : SkillRollbackRequest} {a : ApprovalRequest} {skill skill' : Skill} {rev : SkillRevision}
      {resolvedAt : Option Time} {resolver : Option String} {now : Time}
      (hr : c.skillRollbackRequests.get? r.id = some r) (pending : r.status = .pending)
      (ha : c.approvals.get? a.id = some a) (approval : r.approvalRequestId = some a.id)
      (approved : a.status = .approved) (unconsumed : a.consumedAt = none)
      (hs : c.skills.get? skill.id = some skill) (own : skill.id = r.skillId)
      (hrev : c.skillRevisions.get? rev.id = some rev) (target : rev.id = r.targetRevisionId)
      (id : skill'.id = skill.id) (pointer : skill'.activeRevisionId = some rev.id)
      (allowed : g.rollBack r.id) : Move env g c { c with
        skills := c.skills.put skill'
        skillRollbackRequests := c.skillRollbackRequests.put
          { r with status := .completed, resolvedAt := resolvedAt, resolver := resolver }
        approvals := c.approvals.put { a with consumedAt := some now } }
  | resolve {approvals : Approvals} (resolved : Resolved c.approvals approvals) :
      Move env g c { c with approvals := approvals }
  /-- An approval of a run. -/
  | runApproval {a : ApprovalRequest} (kind : a.subjectKind = .run)
      (stored : ∀ b, c.approvals.get? a.id = some b → b.subjectKind = .run) :
      Move env g c { c with approvals := c.approvals.put a }
  | other : Move env g c c

/-! ## Use cases -/

abbrev Moved (env : Env) (g : Guard) (s s' : SkillDb) : Prop :=
  Move env g s.toSkillCore s'.toSkillCore

section
variable {env : Env} {g : Guard} {s s' : SkillDb} {now : Time}

variable {skill : Skill} {id : SkillRevisionId} {r t : SkillPromotionRequest} {skillId : SkillId}
  {p q : SkillImprovementProposal} {proposalId : SkillImprovementProposalId}
  {source : CandidateSource} {baselineId : SkillEvaluationRunId} {policy : String}
  {x : SkillCandidateEvaluation} {a : ApprovalRequest} {target : ApprovalStatus}
  {resolver note : Option String} {status : PromotionRequestStatus}
  {proposalStatus : SkillProposalStatus}

theorem getSkill_eq_ok {id : SkillId} (h : getSkill s id = .ok skill) :
    s.skills.get? skill.id = some skill ∧ skill.id = id := row_of_get? (found_eq_ok.1 h)

theorem getRevision_eq_ok {r : SkillRevision} (h : getRevision s id = .ok r) :
    s.skillRevisions.get? r.id = some r ∧ r.id = id := row_of_get? (found_eq_ok.1 h)

theorem SkillRevision.new_eq_ok {version : Nat} {instructions : String}
    {sourceKind : SkillRevisionSourceKind} {promotionRequestId : Option SkillPromotionRequestId}
    {r : SkillRevision} (h : SkillRevision.new env id skillId version instructions sourceKind now
      promotionRequestId = .ok r) :
    r.id = id ∧ r.sourceKind = sourceKind ∧ r.promotionRequestId = promotionRequestId ∧
      r.contentSha256 = env.sha256 instructions := by
  obtain ⟨_, h⟩ := bind_rest h
  split at h
  · obtain ⟨valid, hv, h⟩ := bind_ok h
    obtain ⟨_, _, hv⟩ := bind_rest₂ hv
    cases hv
    obtain ⟨_, h⟩ := bind_rest h
    cases h
    exact ⟨rfl, rfl, rfl, rfl⟩
  · split at h <;> cases h

theorem Skill.activate_eq_ok {skill' : Skill} {r : SkillRevision} (h : skill.activate r now = .ok skill') :
    skill'.id = skill.id ∧ skill'.activeRevisionId = some r.id := by
  obtain ⟨_, _, h⟩ := bind_rest₂ h
  cases h
  exact ⟨rfl, rfl⟩

theorem addRevision_eq_ok {r : SkillRevision} (h : addRevision s r = .ok s') :
    s.skillRevisions.get? r.id = none ∧ s' = { s with skillRevisions := s.skillRevisions.put r } := by
  obtain ⟨_, h⟩ := bind_rest h
  obtain ⟨revisions, hi, h⟩ := bind_ok h
  obtain ⟨hfresh, rfl⟩ := Runs.insert_eq_ok.1 hi
  cases h
  exact ⟨hfresh, rfl⟩

theorem createSkill_move {id : SkillId} {key displayName description : String}
    (h : createSkill s id key displayName description now = .ok (skill, s')) :
    Moved env g s s' := by
  obtain ⟨made, hnew, h⟩ := bind_ok h
  obtain ⟨_, h⟩ := bind_rest h
  obtain ⟨skills, hi, h⟩ := bind_ok h
  obtain ⟨hfresh, rfl⟩ := Runs.insert_eq_ok.1 hi
  cases h
  have hinactive : skill.activeRevisionId = none := by
    obtain ⟨_, _, hnew⟩ := bind_rest₂ hnew
    cases hnew
    rfl
  exact .createSkill hfresh hinactive

theorem createSkillRevision_move {instructions : String}
    {sourceKind : SkillRevisionSourceKind} {r : SkillRevision} (hid : g.revisionId s.toSkillCore id)
    (h : createSkillRevision env s skillId id instructions sourceKind now = .ok (r, s')) :
    Moved env g s s' := by
  obtain ⟨skill, -, h⟩ := bind_ok h
  obtain ⟨_, h⟩ := bind_rest h
  obtain ⟨_, hkind, revision, hnew, h⟩ := bind_ok₂ h
  obtain ⟨s₁, hadd, h⟩ := bind_ok h
  cases h
  obtain ⟨hrid, hsource, -⟩ := SkillRevision.new_eq_ok hnew
  obtain ⟨hfresh, rfl⟩ := addRevision_eq_ok hadd
  refine .revise hfresh ?_ (hrid ▸ hid)
  rw [hsource]
  exact of_require hkind

theorem activateSkillRevision_move {revisionId : SkillRevisionId}
    (hallowed : g.activate skillId revisionId)
    (h : activateSkillRevision s skillId revisionId now = .ok (skill, s')) : Moved env g s s' := by
  obtain ⟨old, hold, revision, hr, h⟩ := bind_ok₂ h
  have hrest : ∃ _ : Unit, (do
      require (revision.sourceKind ≠ .generated) (.entityConflict "generated revisions require approved promotion")
      require ((old.activeRevisionId.bind s.skillRevisions.get?).all (·.version < revision.version))
        (.entityConflict "historical revisions require approved rollback")
      let skill ← old.activate revision now
      return (skill, { s with skills := s.skills.put skill })) = Except.ok (skill, s') := by
    split at h
    · obtain ⟨_, h⟩ := bind_rest h
      exact ⟨(), h⟩
    · exact ⟨(), h⟩
  obtain ⟨-, h⟩ := hrest
  obtain ⟨_, hkind, h⟩ := bind_ok h
  obtain ⟨_, h⟩ := bind_rest h
  obtain ⟨_, hactivate, h⟩ := bind_ok h
  cases h
  obtain ⟨hid, hpointer⟩ := Skill.activate_eq_ok hactivate
  have hskillId := (getSkill_eq_ok hold).2
  have hrevisionId := (getRevision_eq_ok hr).2
  exact .activate (getSkill_eq_ok hold).1 (getRevision_eq_ok hr).1 (of_require hkind) hid hpointer
    (by rw [hskillId, hrevisionId]; exact hallowed)

theorem disableSkill_move (h : disableSkill s skillId now = .ok (skill, s')) :
    Moved env g s s' := by
  obtain ⟨old, hold, disabled, hd, h⟩ := bind_ok₂ h
  obtain ⟨_, hd⟩ := bind_rest hd
  cases hd
  cases h
  exact .restate (getSkill_eq_ok hold).1 rfl rfl

theorem archiveSkill_move (h : archiveSkill s skillId now = .ok (skill, s')) :
    Moved env g s s' := by
  obtain ⟨old, hold, h⟩ := bind_ok h
  cases h
  refine .restate (getSkill_eq_ok hold).1 ?_ ?_ <;> unfold Skill.archive <;> split <;> rfl

theorem createSkillEvidenceSnapshot_core {id : SkillEvidenceSnapshotId} {base : SkillRevisionId}
    {evidence : JsonValue} {x : SkillEvidenceSnapshot}
    (h : createSkillEvidenceSnapshot env s id skillId base evidence now = .ok (x, s')) :
    s'.toSkillCore = s.toSkillCore := by
  obtain ⟨_, _, _, h⟩ := bind_rest₃ h
  obtain ⟨⟨_, _⟩, -, h⟩ := bind_ok h
  obtain ⟨_, _, h⟩ := bind_rest₂ h
  cases h
  rfl

theorem SkillImprovementProposal.checked_eq_ok (h : p.checked env = .ok q) :
    q = p ∧ p.proposedContentSha256 = env.sha256 p.proposedInstructions := by
  obtain ⟨instructions, hi, h⟩ := bind_ok h
  obtain ⟨_, _, _, h⟩ := bind_rest₃ h
  obtain ⟨_, h⟩ := bind_rest h
  obtain ⟨_, hdigest, hp⟩ := bind_ok h
  obtain ⟨_, _, hi⟩ := bind_rest₂ hi
  cases hi
  exact ⟨pure_eq_ok.1 hp, of_require hdigest⟩

theorem saveProposal_eq_ok (h : saveProposal env s p = .ok s') :
    s' = { s with skillImprovementProposals := s.skillImprovementProposals.put p } := by
  obtain ⟨q, hc, h⟩ := bind_ok h
  obtain ⟨_, h⟩ := bind_rest h
  cases h
  rw [(SkillImprovementProposal.checked_eq_ok hc).1]

theorem createSkillImprovementProposal_move {id : SkillImprovementProposalId}
    {command : ProposalCommand}
    (h : createSkillImprovementProposal env s id command now = .ok (p, s')) : Moved env g s s' := by
  obtain ⟨_, _, _, h⟩ := bind_rest₃ h
  obtain ⟨_, _, _, h⟩ := bind_rest₃ h
  obtain ⟨_, h⟩ := bind_rest h
  obtain ⟨⟨_, _⟩, -, h⟩ := bind_ok h
  obtain ⟨candidate, -, h⟩ := bind_ok h
  obtain ⟨_, h⟩ := bind_rest h
  obtain ⟨proposal, hc, h⟩ := bind_ok h
  obtain ⟨_, h⟩ := bind_rest h
  obtain ⟨proposals, hi, h⟩ := bind_ok h
  obtain ⟨hfresh, rfl⟩ := Runs.insert_eq_ok.1 hi
  cases h
  have hp := (SkillImprovementProposal.checked_eq_ok hc).1
  exact .propose hfresh (by rw [hp]) (by rw [← hp] at hc; exact hc)

theorem cancelSkillImprovementProposal_eq_ok {id : SkillImprovementProposalId}
    (h : cancelSkillImprovementProposal env s id = .ok (q, s')) :
    ∃ p, s.skillImprovementProposals.get? id = some p ∧
      (p.status ≠ .promoted ∧ p.status ≠ .cancelled ∧ p.status ≠ .rejected) ∧
      s' = { s with
        skillImprovementProposals :=
  s.skillImprovementProposals.put { p with status := .cancelled } } := by
  obtain ⟨p, hp, _, hopen, h⟩ := bind_ok₂ h
  obtain ⟨s₁, hsave, h⟩ := bind_ok h
  cases h
  have hstatus := require_eq_ok.1 hopen
  simp only [Bool.and_eq_true, decide_eq_true_eq] at hstatus
  exact ⟨p, found_eq_ok.1 hp, ⟨hstatus.1.1, hstatus.1.2, hstatus.2⟩, saveProposal_eq_ok hsave⟩

theorem runSkillEvaluation_core {e : Evaluation} {r : SkillEvaluationRun}
    (h : runSkillEvaluation env s e = .ok (r, s')) : s'.toSkillCore = s.toSkillCore := by
  obtain ⟨_, _, _, h⟩ := bind_rest₃ h
  obtain ⟨_, h⟩ := bind_rest h
  cases h
  rfl

theorem candidateRun_core {baseline : SkillEvaluationRun} {id : SkillEvaluationRunId}
    (h : candidateRun env s proposalId baseline source = .ok (id, s')) :
    s'.toSkillCore = s.toSkillCore := by
  cases source with
  | outputs e =>
    obtain ⟨⟨_, s₁⟩, hrun, h⟩ := bind_ok h
    cases h
    exact runSkillEvaluation_core hrun
  | stored id =>
    obtain ⟨_, h⟩ := bind_rest h
    cases h
    rfl

theorem compareSkillImprovementProposal_eq_ok {id : SkillCandidateEvaluationId}
    (h : compareSkillImprovementProposal env s id proposalId baselineId source policy now = .ok (x, s')) :
    ∃ p, s.skillImprovementProposals.get? proposalId = some p ∧ s.skillCandidateEvaluations.get? x.id = none ∧
      x.proposalId = p.id ∧ (∀ y ∈ s.skillCandidateEvaluations.rows, y.proposalId ≠ p.id) ∧
      s'.toSkillCore = { s.toSkillCore with
        skillCandidateEvaluations := s.skillCandidateEvaluations.put x
        skillImprovementProposals :=
  s.skillImprovementProposals.put { p with status := .readyForReview } } := by
  obtain ⟨_, _, _, h⟩ := bind_rest₃ h
  obtain ⟨_, _, _, h⟩ := bind_rest₃ h
  obtain ⟨⟨candidateId, s₁⟩, hrun, h⟩ := bind_ok h
  rw [← candidateRun_core hrun]
  obtain ⟨p, hp, baseline, -, h⟩ := bind_ok₂ h
  obtain ⟨candidate, -, h⟩ := bind_ok h
  obtain ⟨_, h⟩ := bind_rest h
  obtain ⟨_, hfirst, comparisons, hi, h⟩ := bind_ok₂ h
  obtain ⟨hfresh, rfl⟩ := Runs.insert_eq_ok.1 hi
  obtain ⟨s₂, hsave, h⟩ := bind_ok h
  cases h
  obtain rfl := saveProposal_eq_ok hsave
  refine ⟨p, found_eq_ok.1 hp, hfresh, rfl, fun y hy => ?_, rfl⟩
  exact of_decide_eq_true (List.all_eq_true.1 (require_eq_ok.1 hfirst) y hy)

/-! ## Promotions and rollbacks -/

theorem addApproval_eq_ok {d : ApprovalRequest.Draft} (h : addApproval s d = .ok s') :
    ∃ a, s.approvals.get? a.id = none ∧ a.id = d.id ∧ a.status = .pending ∧ a.consumedAt = none ∧
      a.subjectKind = d.subjectKind ∧ a.subjectId = d.subjectId ∧
      a.authorizationFingerprint = d.authorizationFingerprint ∧ a.expiresAt = d.expiresAt ∧
      s' = { s with approvals := s.approvals.put a } := by
  obtain ⟨a, hnew, approvals, hi, h⟩ := bind_ok₂ h
  obtain ⟨hfresh, rfl⟩ := Runs.insert_eq_ok.1 hi
  cases h
  simp only [ApprovalRequest.new, bind_eq_ok, pure_eq_ok] at hnew
  obtain ⟨_, -, _, -, _, -, _, -, _, -, _, -, rfl⟩ := hnew
  exact ⟨_, hfresh, rfl, rfl, rfl, rfl, rfl, rfl, rfl, rfl⟩

theorem SkillPromotionRequest.checked_eq_ok {q : SkillPromotionRequest} (h : r.checked = .ok q) :
    q = r := by
  obtain ⟨_, _, _, h⟩ := bind_rest₃ h
  exact pure_eq_ok.1 h

theorem SkillRollbackRequest.checked_eq_ok {r q : SkillRollbackRequest} (h : r.checked = .ok q) :
    q = r := by
  obtain ⟨_, _, h⟩ := bind_rest₂ h
  exact pure_eq_ok.1 h

theorem comparisonForProposal_eq_some
    (h : comparisonForProposal s proposalId = some x) :
    s.skillCandidateEvaluations.get? x.id = some x ∧ x.proposalId = proposalId := by
  have hx := List.find?_some h
  exact ⟨get?_of_mem (List.mem_of_find?_eq_some h), of_decide_eq_true hx⟩

theorem requestSkillPromotion_move {ids : PromotionIds}
    (hid : g.revisionId s.toSkillCore ids.targetRevisionId)
    (h : requestSkillPromotion env s proposalId ids now = .ok (r, s')) : Moved env g s s' := by
  obtain ⟨p, hp, x, hx, h⟩ := bind_ok₂ h
  obtain ⟨_, heligible, skill, hskill, h⟩ := bind_ok₂ h
  obtain ⟨_, _, h⟩ := bind_rest₂ h
  obtain ⟨draft, hdraft, request, hrequest, h⟩ := bind_ok₂ h
  obtain ⟨s₁, hadd, s₂, happroval, h⟩ := bind_ok₂ h
  cases h
  obtain ⟨hp, hready⟩ := Option.filter_eq_some_iff.1 (found_eq_ok.1 hp)
  obtain rfl : p.id = proposalId := key_of_get? hp
  obtain ⟨hx, hxp⟩ := comparisonForProposal_eq_some (found_eq_ok.1 hx)
  have hskillId : skill.id = p.skillId := (getSkill_eq_ok hskill).2
  obtain rfl := SkillPromotionRequest.checked_eq_ok hdraft
  obtain rfl := SkillPromotionRequest.checked_eq_ok hrequest
  obtain ⟨_, hunique, requests, hi, hadd⟩ := bind_ok₂ hadd
  obtain ⟨hfresh, rfl⟩ := Runs.insert_eq_ok.1 hi
  cases hadd
  obtain ⟨a, ha, haid, hopen, hunconsumed, hkind, hsubject, hfingerprint, hdeadline, rfl⟩ :=
    addApproval_eq_ok happroval
  refine .requestPromotion (p := p) (x := x) (a := a) hp (of_decide_eq_true hready) hskillId.symm rfl
    hx hxp (of_require heligible) hfresh (fun q hq => ?_) rfl hrequest ha hopen
    hunconsumed (congrArg some haid.symm) ⟨hkind, hsubject, hfingerprint, hdeadline⟩ hid
  have hq := List.all_eq_true.1 (require_eq_ok.1 hunique) q hq
  simp only [Bool.and_eq_true, decide_eq_true_eq] at hq
  exact ⟨hq.1.1, hq.1.2, hq.2⟩

theorem resolves_of_transition {a' : ApprovalRequest} (htarget : target = .expired → a.expiresAt.isSome = true)
    (h : Runs.transitionApproval a target now resolver note = .ok a') : Resolves a a' := by
  have hresolve : ∀ {resolver note}, a.resolve target now resolver note = .ok a' → target ≠ .pending → Resolves a a' := by
    intro resolver note h hne
    obtain ⟨_, hp, h⟩ := bind_ok h
    obtain ⟨_, h⟩ := bind_rest h
    cases h
    exact ⟨of_require hp, rfl, hne, htarget⟩
  cases target with
  | approved | rejected =>
    obtain ⟨_, h⟩ := bind_rest h
    exact hresolve h nofun
  | cancelled | expired => exact hresolve h nofun
  | pending => cases h

theorem transitionApproval_eq_ok
    (ha : s.approvals.get? a.id = some a) (htarget : target = .expired → a.status = .pending → a.expiresAt.isSome = true)
    (h : transitionApproval s a target now resolver note = .ok s') :
    ∃ approvals, Resolved s.approvals approvals ∧ s' = { s with approvals := approvals } := by
  unfold transitionApproval at h
  split at h
  · cases h
    exact ⟨s.approvals, .inl rfl, rfl⟩
  · obtain ⟨_, hp, a', ht, h⟩ := bind_ok₂ h
    cases h
    have hpending := of_require hp
    exact ⟨_, .inr ⟨a, a', ha, resolves_of_transition (fun he => htarget he hpending) ht, rfl⟩, rfl⟩

theorem resolveApproval_move {id : ApprovalRequestId}
    (htarget : target ≠ .expired) (h : resolveApproval s id target resolver note now = .ok s') :
    Moved env g s s' := by
  obtain ⟨a, ha, h⟩ := bind_ok h
  obtain ⟨hget, -⟩ := row_of_get? (found_eq_ok.1 ha)
  obtain ⟨approvals, hresolved, rfl⟩ :=
    transitionApproval_eq_ok hget (fun he => absurd he htarget) h
  exact .resolve hresolved

theorem expireApproval_move {id : ApprovalRequestId} (h : expireApproval s id now = .ok s') :
    Moved env g s s' := by
  obtain ⟨a, ha, _, hdue, h⟩ := bind_ok₂ h
  obtain ⟨hget, -⟩ := row_of_get? (found_eq_ok.1 ha)
  have hdeadline : a.status = .pending → a.expiresAt.isSome = true := by
    intro hp
    unfold Runs.expiryDue at hdue
    rw [if_pos hp] at hdue
    obtain ⟨deadline, hd, -⟩ := bind_ok hdue
    rw [found_eq_ok.1 hd]
    rfl
  obtain ⟨approvals, hresolved, rfl⟩ := transitionApproval_eq_ok hget (fun _ => hdeadline) h
  exact .resolve hresolved

theorem loadPromotionProposal_eq_ok
    (h : loadPromotionProposal s r = .ok p) :
      s.skillImprovementProposals.get? r.proposalId = some p ∧ p.status.isClosed = false := by
  obtain ⟨q, hq, h⟩ := bind_ok h
  obtain ⟨_, h⟩ := bind_rest h
  obtain ⟨_, hopen, h⟩ := bind_ok h
  cases h
  exact ⟨found_eq_ok.1 hq, by simpa using require_eq_ok.1 hopen⟩

theorem loadSubjectApproval_eq_ok {kind : ApprovalSubjectKind} {subjectId : Uuid}
    {fingerprint missing foreign : String} {id : Option ApprovalRequestId}
    (h : loadSubjectApproval s kind subjectId fingerprint missing foreign id = .ok (some a)) :
    s.approvals.get? a.id = some a ∧ id = some a.id := by
  cases id with
  | none => cases h
  | some id =>
    obtain ⟨_, hb, h⟩ := bind_ok h
    obtain ⟨_, h⟩ := bind_rest h
    cases h
    obtain ⟨hget, rfl⟩ := row_of_get? (found_eq_ok.1 hb)
    exact ⟨hget, rfl⟩

theorem followApproval_eq_ok {stored : Option ApprovalRequest}
    (hstored : ∀ a, stored = some a → s.approvals.get? a.id = some a) (htarget : target ≠ .expired)
    (h : followApproval s stored target now resolver = .ok s') :
    ∃ approvals, Resolved s.approvals approvals ∧ s' = { s with approvals := approvals } := by
  cases stored with
  | none => exact ⟨s.approvals, .inl rfl, (Except.ok.inj h).symm⟩
  | some a => exact transitionApproval_eq_ok (hstored a rfl) (fun he => absurd he htarget) h

theorem closePromotion_eq_ok
    (h : closePromotion env s r p status proposalStatus now resolver = .ok (t, s')) :
    s' = { s with
      skillPromotionRequests := s.skillPromotionRequests.put
        { r with status := status, resolvedAt := some now, resolver := resolver }
      skillImprovementProposals :=
  s.skillImprovementProposals.put { p with status := proposalStatus } } := by
  obtain ⟨terminal, hc, s₁, hsave, h⟩ := bind_ok₂ h
  cases h
  rw [saveProposal_eq_ok hsave, SkillPromotionRequest.checked_eq_ok hc]

theorem consumeIfUnconsumed_eq_true {t t' : Approvals} {id : ApprovalRequestId}
    (h : consumeIfUnconsumed t id now = (true, t')) :
    ∃ a, t.get? id = some a ∧ a.status = .approved ∧ a.consumedAt = none ∧ t' = t.put { a with consumedAt := some now } := by
  obtain ⟨a, ha, hp, ht⟩ := update_eq_true h
  simp only [Bool.and_eq_true, decide_eq_true_eq, Bool.not_eq_true', ApprovalRequest.isConsumed,
    Option.isSome_eq_false_iff, Option.isNone_iff_eq_none] at hp
  exact ⟨a, ha, hp.1, hp.2, ht⟩

theorem isStale_eq_false
    (h : isStale env s r p a = false) :
    ∃ x skill, s.skillCandidateEvaluations.get? r.candidateEvaluationId = some x ∧
      x.recommendation = .eligible ∧ p.proposedContentSha256 = r.candidateSha256 ∧
      s.skills.get? r.skillId = some skill ∧ skill.status = .active ∧
      nextVersion s skill.id = r.targetVersion := by
  unfold isStale at h
  split at h
  · next x skill hx hs =>
    simp only [Bool.or_eq_false_iff, decide_eq_false_iff_not, not_not] at h
    obtain ⟨⟨⟨⟨⟨⟨⟨⟨⟨⟨⟨⟨-, -⟩, hdigest⟩, hid⟩, -⟩, heligible⟩, hactive⟩, -⟩, hversion⟩, -⟩, -⟩, -⟩, -⟩ := h
    exact ⟨x, skill, by rw [← hid]; exact (comparisonForProposal_eq_some hx).1, heligible, hdigest, hs, hactive, hversion⟩
  · cases h

theorem promote_move (hr : s.skillPromotionRequests.get? r.id = some r)
    (hpending : r.status = .pending) (hp : s.skillImprovementProposals.get? r.proposalId = some p)
    (hopen : p.status.isClosed = false) (happroval : r.approvalRequestId = some a.id)
    (hfresh : isStale env s r p a = false) (hallowed : g.promote r.id)
    (h : promote env s r p a resolver now = .ok (t, s')) : Moved env g s s' := by
  obtain ⟨skill, hskill, rev, hrev, h⟩ := bind_ok₂ h
  obtain ⟨s₁, hadd, ⟨t', s₂⟩, hclose, h⟩ := bind_ok₂ h
  obtain ⟨skill', hactivate, h⟩ := bind_ok h
  obtain ⟨hrevId, hgenerated, hsource, hdigest⟩ := SkillRevision.new_eq_ok hrev
  obtain ⟨hnew, rfl⟩ := addRevision_eq_ok hadd
  -- the proposal is checked again when it is saved
  have hcontent : p.proposedContentSha256 = env.sha256 p.proposedInstructions := by
    obtain ⟨_, hclose⟩ := bind_rest hclose
    obtain ⟨_, hsave, -⟩ := bind_ok hclose
    obtain ⟨_, hc, -⟩ := bind_ok hsave
    have hdigest := (SkillImprovementProposal.checked_eq_ok hc).2
    exact hdigest
  obtain rfl := closePromotion_eq_ok hclose
  obtain ⟨hid, hpointer⟩ := Skill.activate_eq_ok hactivate
  obtain ⟨x, -, hx, heligible, hcandidate, -⟩ := isStale_eq_false hfresh
  dsimp only at h
  split at h
  · next approvals hconsume =>
    cases h
    obtain ⟨b, hb, happroved, hunconsumed, rfl⟩ := consumeIfUnconsumed_eq_true hconsume
    have hbid : b.id = a.id := key_of_get? hb
    exact .promote hr hpending hp hopen (by rw [hbid]; exact hb) (by rw [hbid]; exact happroval) happroved hunconsumed hx
      heligible (getSkill_eq_ok hskill).1 (getSkill_eq_ok hskill).2 hid hpointer hgenerated hsource hnew hrevId (by rw [hdigest, ← hcontent, hcandidate]) hallowed
  · cases h

theorem executeSkillPromotion_move {id : SkillPromotionRequestId}
    (hallowed : g.promote id) (h : executeSkillPromotion env s id resolver now = .ok (r, s')) :
    Moved env g s s' := by
  obtain ⟨request, hr, _, hpending, h⟩ := bind_ok₂ h
  obtain ⟨p, hp, stored, hstored, h⟩ := bind_ok₂ h
  obtain ⟨a, ha, h⟩ := bind_ok h
  obtain ⟨_, h⟩ := bind_rest h
  obtain ⟨hget, hid⟩ : _ ∧ request.id = id := row_of_get? (found_eq_ok.1 hr)
  have hpending := of_require hpending
  obtain ⟨hp, hopen⟩ := loadPromotionProposal_eq_ok hp
  rw [found_eq_ok.1 ha] at hstored
  split at h
  · obtain rfl := closePromotion_eq_ok h
    exact .closePromotion hget hpending hp hopen ⟨nofun, nofun⟩ rfl (.inl rfl)
  · next hstale =>
    exact promote_move hget hpending hp hopen (loadSubjectApproval_eq_ok hstored).2
      (by simpa using hstale) (hid ▸ hallowed) h

theorem withdrawPromotion_move {id : SkillPromotionRequestId} {approvalStatus : ApprovalStatus}
    (happroval : approvalStatus ≠ .expired) (hended : status ≠ .pending ∧ status ≠ .promoted)
    (hclosed : proposalStatus.isClosed = true)
    (h : withdrawPromotion env s id approvalStatus status proposalStatus resolver now =
      .ok (r, s')) : Moved env g s s' := by
  obtain ⟨request, hr, p, hp, h⟩ := bind_ok₂ h
  obtain ⟨stored, hstored, s₁, hs₁, h⟩ := bind_ok₂ h
  obtain ⟨hget, hpending⟩ := Option.filter_eq_some_iff.1 (found_eq_ok.1 hr)
  obtain ⟨hget, -⟩ := row_of_get? hget
  obtain ⟨hp, hopen⟩ := loadPromotionProposal_eq_ok hp
  obtain ⟨approvals, hresolved, rfl⟩ := followApproval_eq_ok
    (fun a ha => (loadSubjectApproval_eq_ok (by rw [← ha]; exact hstored)).1) happroval hs₁
  obtain rfl := closePromotion_eq_ok h
  exact .closePromotion hget (of_decide_eq_true hpending) hp hopen hended hclosed hresolved

variable {id : SkillRollbackRequestId} {r : SkillRollbackRequest}

theorem requestSkillRollback_move {target : SkillRevisionId} {reason : String}
    {approvalId : ApprovalRequestId}
    (h : requestSkillRollback env s skillId target reason id approvalId now = .ok (r, s')) :
    Moved env g s s' := by
  obtain ⟨skill, -, current, -, h⟩ := bind_ok₂ h
  obtain ⟨_, _, h⟩ := bind_rest₂ h
  obtain ⟨draft, hdraft, request, hrequest, h⟩ := bind_ok₂ h
  obtain ⟨s₁, hadd, s₂, happroval, h⟩ := bind_ok₂ h
  cases h
  obtain rfl := SkillRollbackRequest.checked_eq_ok hdraft
  obtain rfl := SkillRollbackRequest.checked_eq_ok hrequest
  obtain ⟨_, hunique, requests, hi, hadd⟩ := bind_ok₂ hadd
  obtain ⟨hfresh, rfl⟩ := Runs.insert_eq_ok.1 hi
  cases hadd
  obtain ⟨a, ha, haid, hopen, hunconsumed, hkind, hsubject, hfingerprint, hdeadline, rfl⟩ :=
    addApproval_eq_ok happroval
  refine .requestRollback hfresh (fun q hq => ?_) rfl ha hopen hunconsumed (congrArg some haid.symm)
    ⟨hkind, hsubject, hfingerprint, hdeadline⟩
  exact of_decide_eq_true (List.all_eq_true.1 (require_eq_ok.1 hunique) q hq)

theorem closeRollback_eq_ok {t : SkillRollbackRequest} {status : RollbackRequestStatus}
    (h : closeRollback s r status now resolver = .ok (t, s')) :
    s' = { s with
      skillRollbackRequests := s.skillRollbackRequests.put
        { r with status := status, resolvedAt := some now, resolver := resolver } } := by
  obtain ⟨terminal, hc, h⟩ := bind_ok h
  cases h
  rw [SkillRollbackRequest.checked_eq_ok hc]

theorem executeSkillRollback_move
    (hallowed : g.rollBack id) (h : executeSkillRollback env s id resolver now = .ok (r, s')) :
    Moved env g s s' := by
  obtain ⟨request, hr, h⟩ := bind_ok h
  obtain ⟨hget, hid⟩ : _ ∧ request.id = id := row_of_get? (found_eq_ok.1 hr)
  split at h
  · cases h
    exact .other
  · obtain ⟨_, hpending, approvalId, happroval, h⟩ := bind_ok₂ h
    obtain ⟨a, ha, h⟩ := bind_ok h
    obtain ⟨_, h⟩ := bind_rest h
    have hpending := of_require hpending
    have haid : a.id = approvalId := key_of_get? (found_eq_ok.1 ha)
    split at h
    · obtain rfl := closeRollback_eq_ok h
      exact .closeRollback hget hpending (by decide) (.inl rfl)
    · obtain ⟨skill, hskill, rev, hrev, h⟩ := bind_ok₂ h
      obtain ⟨skill', hactivate, ⟨t, s₁⟩, hclose, h⟩ := bind_ok₂ h
      obtain rfl := closeRollback_eq_ok hclose
      obtain ⟨hskillId, hpointer⟩ := Skill.activate_eq_ok hactivate
      dsimp only at h
      split at h
      · next approvals hconsume =>
        cases h
        obtain ⟨b, hb, happroved, hunconsumed, rfl⟩ := consumeIfUnconsumed_eq_true hconsume
        have hbid : b.id = a.id := key_of_get? hb
        exact .rollBack hget hpending (by rw [hbid]; exact hb) (by rw [hbid, haid]; exact found_eq_ok.1 happroval)
          happroved hunconsumed (getSkill_eq_ok hskill).1 (getSkill_eq_ok hskill).2
          (getRevision_eq_ok hrev).1 (getRevision_eq_ok hrev).2 hskillId hpointer (hid ▸ hallowed)
      · cases h

theorem withdrawRollback_move {approvalStatus : ApprovalStatus} {status : RollbackRequestStatus}
    (happroval : approvalStatus ≠ .expired) (hended : status ≠ .pending ∧ status ≠ .completed)
    (h : withdrawRollback s id approvalStatus status resolver now = .ok (r, s')) :
    Moved env g s s' := by
  obtain ⟨request, hr, stored, hstored, h⟩ := bind_ok₂ h
  obtain ⟨s₁, hs₁, h⟩ := bind_ok h
  obtain ⟨hget, hpending⟩ := Option.filter_eq_some_iff.1 (found_eq_ok.1 hr)
  obtain ⟨hget, -⟩ := row_of_get? hget
  obtain ⟨approvals, hresolved, rfl⟩ := followApproval_eq_ok
    (fun a ha => (loadSubjectApproval_eq_ok (by rw [← ha]; exact hstored)).1) happroval hs₁
  obtain rfl := closeRollback_eq_ok h
  exact .closeRollback hget (of_decide_eq_true hpending) hended hresolved

end

/-! ## Every action is a move -/

/-- The conditions on an action. -/
def Guard.Allows (g : Guard) (s : SkillDb) : SkillAction → Prop
  | .cancelSkillImprovementProposal id =>
    ∀ p, s.skillImprovementProposals.get? id = some p → g.cancel s.toSkillCore p
  | .compareSkillImprovementProposal _ id _ _ _ _ =>
    ∀ p, s.skillImprovementProposals.get? id = some p → g.compare s.toSkillCore p
  | .createSkillRevision _ id _ _ _ => g.revisionId s.toSkillCore id
  | .requestSkillPromotion _ ids _ => g.revisionId s.toSkillCore ids.targetRevisionId
  | .activateSkillRevision skillId revisionId _ => g.activate skillId revisionId
  | .executeSkillPromotion id _ _ => g.promote id
  | .executeSkillRollback id _ _ => g.rollBack id
  | _ => True

variable {s' : SkillDb}

theorem Move.of_core {env : Env} {g : Guard} {s : SkillDb} (h : s'.toSkillCore = s.toSkillCore) :
    Move env g s.toSkillCore s'.toSkillCore := by
  rw [h]
  exact .other

theorem act_move {env : Env} {g : Guard} {s : SkillDb} {a : SkillAction} (hallows : g.Allows s a)
    (h : act env s a = .ok s') : Move env g s.toSkillCore s'.toSkillCore := by
  cases a with
  | createSkill => exact of_map_snd h createSkill_move
  | createSkillRevision => exact of_map_snd h (createSkillRevision_move hallows)
  | activateSkillRevision => exact of_map_snd h (activateSkillRevision_move hallows)
  | disableSkill => exact of_map_snd h disableSkill_move
  | archiveSkill => exact of_map_snd h archiveSkill_move
  | createSkillEvidenceSnapshot =>
    obtain ⟨_, h⟩ := map_snd_eq_ok.1 h
    exact .of_core (createSkillEvidenceSnapshot_core h)
  | createSkillImprovementProposal => exact of_map_snd h createSkillImprovementProposal_move
  | cancelSkillImprovementProposal id =>
    obtain ⟨_, h⟩ := map_snd_eq_ok.1 h
    obtain ⟨p, hp, hstatus, rfl⟩ := cancelSkillImprovementProposal_eq_ok h
    obtain rfl : p.id = id := key_of_get? hp
    exact .cancelProposal hp hstatus (hallows p hp)
  | runSkillEvaluation =>
    obtain ⟨_, h⟩ := map_snd_eq_ok.1 h; exact .of_core (runSkillEvaluation_core h)
  | compareSkillImprovementProposal _ proposalId =>
    obtain ⟨_, h⟩ := map_snd_eq_ok.1 h
    obtain ⟨p, hp, hfresh, hof, hfirst, hs'⟩ := compareSkillImprovementProposal_eq_ok h
    obtain rfl : p.id = proposalId := key_of_get? hp
    rw [hs']
    exact .compare hp hfresh hof hfirst (hallows p hp)
  | requestSkillPromotion => exact of_map_snd h (requestSkillPromotion_move hallows)
  | executeSkillPromotion => exact of_map_snd h (executeSkillPromotion_move hallows)
  | rejectSkillPromotion | cancelSkillPromotion =>
    exact of_map_snd h (withdrawPromotion_move (by decide) (by decide) rfl)
  | requestSkillRollback => exact of_map_snd h requestSkillRollback_move
  | executeSkillRollback => exact of_map_snd h (executeSkillRollback_move hallows)
  | rejectSkillRollback | cancelSkillRollback =>
    exact of_map_snd h (withdrawRollback_move (by decide) (by decide))
  | approveRequest | rejectRequest | cancelApproval => exact resolveApproval_move (by decide) h
  | expireApproval => exact expireApproval_move h
  | runApproval a =>
    obtain ⟨_, hrun, h⟩ := bind_ok h
    cases h
    have hrun := require_eq_ok.1 hrun
    simp only [Bool.and_eq_true, decide_eq_true_eq] at hrun
    refine .runApproval hrun.1 (fun b hb => ?_)
    have hstored := hrun.2
    rw [hb] at hstored
    exact of_decide_eq_true hstored

end Friday.Skills
