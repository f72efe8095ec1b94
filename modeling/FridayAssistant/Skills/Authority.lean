import FridayAssistant.Skills.Moves
import FridayAssistant.Tools.Authorization
/-!
# Generated skills become active only with authority

`Ledger` ties the revisions, the requests and the approvals to each other; every move keeps it.
It says of each request that its own approval is consumed exactly when the request took effect,
and of each generated revision that a promotion took effect for it. `Move.pointer` says when a
skill's active revision changes. `generated_only_with_authority` puts them together for every
run.
-/
namespace Friday.Skills
open Tables Table Transition

/-! ## What is promised -/

/-- A promotion that took effect for a revision, with everything that allowed it. -/
structure Authorized (c : SkillCore) (rev : SkillRevision) (r : SkillPromotionRequest) : Prop where
  stored : r ∈ c.skillPromotionRequests.rows
  promoted : r.status = .promoted
  target : r.targetRevisionId = rev.id
  approval : ∃ a ∈ c.approvals.rows, r.approvalRequestId = some a.id ∧
    a.subjectKind = .skillPromotion ∧ a.status = .approved ∧ a.consumedAt.isSome = true
  comparison : ∃ x ∈ c.skillCandidateEvaluations.rows, x.id = r.candidateEvaluationId ∧
    x.proposalId = r.proposalId ∧ x.recommendation = .eligible
  digest : r.candidateSha256 = rev.contentSha256

/-- The requests that consumed an approval. -/
inductive Consumer (c : SkillCore) (id : ApprovalRequestId) :
    SkillPromotionRequest ⊕ SkillRollbackRequest → Prop where
  | promotion {r : SkillPromotionRequest} (stored : r ∈ c.skillPromotionRequests.rows) (promoted : r.status = .promoted)
      (approval : r.approvalRequestId = some id) : Consumer c id (.inl r)
  | rollback {r : SkillRollbackRequest} (stored : r ∈ c.skillRollbackRequests.rows) (completed : r.status = .completed)
      (approval : r.approvalRequestId = some id) : Consumer c id (.inr r)

/-- The active revision of a skill. -/
def pointer (c : SkillCore) (id : SkillId) : Option SkillRevisionId :=
  (c.skills.get? id).bind (·.activeRevisionId)

/-- Why the active revision of a skill changed in the step of `act`. -/
inductive PointerCause (c c' : SkillCore) (act : SkillAction) (id : SkillId)
    (revisionId : SkillRevisionId) : Prop where
  | activated {rev : SkillRevision} {now : Time} (stored : rev ∈ c.skillRevisions.rows) (named : rev.id = revisionId)
      (written : rev.sourceKind ≠ .generated) (action : act = .activateSkillRevision id revisionId now)
  | promoted {q r : SkillPromotionRequest} {rev : SkillRevision} {resolver : Option String} {now : Time}
      (pending : q ∈ c.skillPromotionRequests.rows ∧ q.id = r.id ∧ q.status = .pending)
      (skill : r.skillId = id) (stored : rev ∈ c'.skillRevisions.rows) (named : rev.id = revisionId)
      (authorized : Authorized c' rev r) (action : act = .executeSkillPromotion r.id resolver now)
  | rolledBack {q r : SkillRollbackRequest} {a : ApprovalRequest} {resolver : Option String} {now : Time}
      (pending : q ∈ c.skillRollbackRequests.rows ∧ q.id = r.id ∧ q.status = .pending)
      (skill : r.skillId = id) (completed : r ∈ c'.skillRollbackRequests.rows ∧
        r.status = .completed) (target : r.targetRevisionId = revisionId)
      (stored : a ∈ c'.approvals.rows) (own : r.approvalRequestId = some a.id ∧
        a.subjectKind = .skillRollback ∧ a.subjectId = some (Uuid.text r.id))
        (approved : a.status = .approved) (consumed : a.consumedAt.isSome = true)
      (action : act = .executeSkillRollback r.id resolver now)

/-! ## The approval of a request -/

/-- The approval of a request: requested for it, and consumed exactly when the request took
effect. -/
structure Backing (t : Approvals) (kind : ApprovalSubjectKind) (id : Uuid) (fingerprint : String)
    (approvalId : Option ApprovalRequestId) (effective : Prop) (a : ApprovalRequest) : Prop where
  stored : t.get? a.id = some a
  named : approvalId = some a.id
  requested : RequestedFor kind id fingerprint a
  consumed : a.consumedAt.isSome = true ↔ effective
  approved : effective → a.status = .approved

def Backed (t : Approvals) (kind : ApprovalSubjectKind) (id : Uuid) (fingerprint : String)
    (approvalId : Option ApprovalRequestId) (effective : Prop) : Prop :=
  ∃ a, Backing t kind id fingerprint approvalId effective a

section
variable {t t' : Approvals} {kind kind' : ApprovalSubjectKind} {id id' : Uuid}
  {fingerprint fingerprint' : String} {approvalId approvalId' : Option ApprovalRequestId}
  {effective effective' : Prop} {a b : ApprovalRequest}

section
variable (h : Backing t kind id fingerprint approvalId effective a)
include h

/-- An approval backs one request. -/
theorem Backing.subject
    (h' : Backing t kind' id' fingerprint' approvalId' effective' b) (hid : a.id = b.id) :
    kind = kind' ∧ id = id' := by
  have hab : a = b := by
    have hb := h'.stored
    rw [← hid, h.stored] at hb
    exact Option.some.inj hb
  subst hab
  refine ⟨h.requested.kind.symm.trans h'.requested.kind, Tools.text_injective ?_⟩
  exact Option.some.inj (h.requested.subject.symm.trans h'.requested.subject)

theorem Backing.eq (hb : t.get? b.id = some b)
    (hnamed : approvalId = some b.id) : a = b := by
  have hid : a.id = b.id := Option.some.inj (h.named.symm.trans hnamed)
  have ha := h.stored
  rw [hid, hb] at ha
  exact (Option.some.inj ha).symm

theorem Backing.put_ne (hne : b.id ≠ a.id) :
    Backing (t.put b) kind id fingerprint approvalId effective a :=
  { h with stored := by rw [get?_put_ne hne]; exact h.stored }

end

section
variable (h : Backed t kind id fingerprint approvalId effective)
include h

theorem Backed.put_fresh (hb : t.get? b.id = none) :
    Backed (t.put b) kind id fingerprint approvalId effective := by
  obtain ⟨a, h⟩ := h
  refine ⟨a, h.put_ne fun hid => ?_⟩
  rw [hid, h.stored] at hb
  cases hb

theorem Backed.put_run (hkind : kind ≠ .run)
    (hb : ∀ a, t.get? b.id = some a → a.subjectKind = .run) :
    Backed (t.put b) kind id fingerprint approvalId effective := by
  obtain ⟨a, h⟩ := h
  refine ⟨a, h.put_ne fun hid => hkind ?_⟩
  rw [← h.requested.kind]
  exact hb a (by rw [hid]; exact h.stored)

/-- Only a pending approval is resolved, and the request of a pending one has not taken effect. -/
theorem Backed.resolved (hr : Resolved t t') :
    Backed t' kind id fingerprint approvalId effective := by
  obtain rfl | ⟨b, b', hb, hres, rfl⟩ := hr
  · exact h
  · obtain ⟨a, h⟩ := h
    have hid : b'.id = b.id := by rw [hres.same]
    by_cases hab : b.id = a.id
    · have hba : a = b := by
        have ha := h.stored
        rw [← hab, hb] at ha
        exact (Option.some.inj ha).symm
      subst hba
      have hno : ¬ effective := fun he => by
        have happroved := h.approved he
        rw [hres.pending] at happroved
        cases happroved
      refine ⟨b', ⟨get?_put_self _ _, by rw [hid]; exact h.named, ?_, ?_, fun he => absurd he hno⟩⟩
      · obtain ⟨hkind, hsubject, hfingerprint, hdeadline⟩ := h.requested
        constructor <;> rw [hres.same] <;> assumption
      · rw [hres.same]
        exact h.consumed
    · exact ⟨a, h.put_ne (by rw [hid]; exact hab)⟩

/-- Consuming the approval of another request. -/
theorem Backed.put_consumed {now : Time}
    (ha : Backing t kind' id' fingerprint' approvalId' effective' a)
    (hne : ¬ (kind = kind' ∧ id = id')) :
    Backed (t.put { a with consumedAt := some now }) kind id fingerprint approvalId effective := by
  obtain ⟨b, h⟩ := h
  exact ⟨b, h.put_ne fun hid => hne (h.subject ha hid.symm)⟩

end

/-- The request of the consumed approval takes effect. -/
theorem Backing.consume {now : Time} (h : Backing t kind id fingerprint approvalId effective a)
    (happroved : a.status = .approved) (heffective : effective') :
    Backed (t.put { a with consumedAt := some now }) kind id fingerprint approvalId effective' :=
  ⟨{ a with consumedAt := some now }, get?_put_self _ _, h.named,
    ⟨h.requested.kind, h.requested.subject, h.requested.fingerprint, h.requested.noDeadline⟩,
    ⟨fun _ => heffective, fun _ => rfl⟩, fun _ => happroved⟩

theorem Backed.congr (h : Backed t kind id fingerprint approvalId effective) (he : effective ↔
    effective') : Backed t kind id fingerprint approvalId effective' := by
  obtain ⟨a, h⟩ := h
  exact ⟨a, h.stored, h.named, h.requested, h.consumed.trans he, fun he' => h.approved (he.2 he')⟩

theorem Backed.of_requested (hopen : a.consumedAt = none) (hnamed : approvalId = some a.id)
    (hr : RequestedFor kind id fingerprint a) (hno : ¬ effective) :
    Backed (t.put a) kind id fingerprint approvalId effective := by
  refine ⟨a, get?_put_self _ _, hnamed, hr, ?_, fun he => absurd he hno⟩
  rw [hopen]
  exact ⟨nofun, fun he => absurd he hno⟩

end

/-! ## The ledger -/

structure Ledger (c : SkillCore) : Prop where
  generated : ∀ rev ∈ c.skillRevisions.rows, rev.sourceKind = .generated →
    ∃ r ∈ c.skillPromotionRequests.rows, r.status = .promoted ∧ r.targetRevisionId = rev.id ∧
    r.candidateSha256 = rev.contentSha256
  targets : ∀ q ∈ c.skillPromotionRequests.rows, ∀ r ∈ c.skillPromotionRequests.rows,
    q.targetRevisionId = r.targetRevisionId → q.id = r.id
  eligible : ∀ r ∈ c.skillPromotionRequests.rows, ∃ x ∈ c.skillCandidateEvaluations.rows,
    x.id = r.candidateEvaluationId ∧ x.proposalId = r.proposalId ∧ x.recommendation = .eligible
  promotions : ∀ r ∈ c.skillPromotionRequests.rows,
    Backed c.approvals .skillPromotion r.id r.authorizationFingerprint r.approvalRequestId
    (r.status = .promoted)
  rollbacks : ∀ r ∈ c.skillRollbackRequests.rows,
    Backed c.approvals .skillRollback r.id r.authorizationFingerprint r.approvalRequestId
    (r.status = .completed)
  requested : ∀ a ∈ c.approvals.rows, a.subjectKind ≠ .run →
    (∃ r ∈ c.skillPromotionRequests.rows, r.approvalRequestId = some a.id) ∨
    ∃ r ∈ c.skillRollbackRequests.rows, r.approvalRequestId = some a.id

theorem Ledger.empty : Ledger .empty where
  generated _ h := absurd h List.not_mem_nil
  targets _ h := absurd h List.not_mem_nil
  eligible _ h := absurd h List.not_mem_nil
  promotions _ h := absurd h List.not_mem_nil
  rollbacks _ h := absurd h List.not_mem_nil
  requested _ h := absurd h List.not_mem_nil

section
variable {env : Env} {g : Guard} {c c' : SkillCore}

theorem Ledger.generated_move (hl : Ledger c) (h : Move env g c c') :
    ∀ rev ∈ c'.skillRevisions.rows, rev.sourceKind = .generated →
      ∃ r ∈ c'.skillPromotionRequests.rows, r.status = .promoted ∧ r.targetRevisionId = rev.id ∧
      r.candidateSha256 = rev.contentSha256 := by
  -- a request that took effect is not pending, so the moves of pending ones leave it
  have kept : ∀ {r r' : SkillPromotionRequest} {rev : SkillRevision},
      c.skillPromotionRequests.get? r.id = some r → r.status = .pending → r'.id = r.id →
      rev ∈ c.skillRevisions.rows → rev.sourceKind = .generated →
        ∃ q ∈ (c.skillPromotionRequests.put r').rows, q.status = .promoted ∧
        q.targetRevisionId = rev.id ∧ q.candidateSha256 = rev.contentSha256 := by
    intro r r' rev hr hpending hid hrev hgenerated
    obtain ⟨q, hq, hpromoted, htarget, hdigest⟩ := hl.generated rev hrev hgenerated
    refine ⟨q, mem_put.2 (.inr ⟨hq, fun hkey => ?_⟩), hpromoted, htarget, hdigest⟩
    have hqr : q = r := eq_of_key hq (mem_of_get? hr) (Eq.trans hkey hid)
    rw [hqr, hpending] at hpromoted
    cases hpromoted
  cases h with
  | revise fresh written =>
    exact forall_put (fun hgenerated => absurd hgenerated written) hl.generated
  | requestPromotion hp ready skill candidate hx ofProposal eligible fresh =>
    intro rev hrev hgenerated
    obtain ⟨q, hq, h⟩ := hl.generated rev hrev hgenerated
    exact ⟨q, (mem_put_fresh fresh).2 (.inr hq), h⟩
  | closePromotion hr pending =>
    exact fun rev hrev hgenerated => kept hr pending rfl hrev hgenerated
  | promote hr pending _ _ _ _ _ _ _ _ _ _ _ _ _ _ _ target digest =>
    exact forall_put (fun _ => ⟨_, mem_put.2 (.inl rfl), rfl, target.symm, digest.symm⟩)
      fun rev hrev hgenerated => kept hr pending rfl hrev hgenerated
  | _ => exact hl.generated

theorem Ledger.targets_move (hl : Ledger c) (h : Move env g c c') :
    ∀ q ∈ c'.skillPromotionRequests.rows, ∀ r ∈ c'.skillPromotionRequests.rows,
      q.targetRevisionId = r.targetRevisionId → q.id = r.id := by
  cases h with
  | requestPromotion _ _ _ _ _ _ _ fresh unique =>
    exact unique_put_fresh fresh (fun q hq => (unique q hq).2.1) hl.targets
  | closePromotion hr | promote hr => exact unique_put (mem_of_get? hr) rfl rfl hl.targets
  | _ => exact hl.targets

theorem Ledger.eligible_move (hl : Ledger c) (h : Move env g c c') :
    ∀ r ∈ c'.skillPromotionRequests.rows, ∃ x ∈ c'.skillCandidateEvaluations.rows,
      x.id = r.candidateEvaluationId ∧ x.proposalId = r.proposalId ∧ x.recommendation = .eligible := by
  cases h with
  | compare hp fresh =>
    intro r hr
    obtain ⟨x, hx, h⟩ := hl.eligible r hr
    exact ⟨x, (mem_put_fresh fresh).2 (.inr hx), h⟩
  | requestPromotion _ _ _ _ hx ofProposal eligible fresh =>
    exact forall_put ⟨_, mem_of_get? hx, key_of_get? hx, ofProposal, eligible⟩ hl.eligible
  | closePromotion hr | promote hr =>
    intro q hq
    obtain ⟨q₀, hq₀, ⟨rfl, rfl⟩ | rfl⟩ := mem_of_mem_put (mem_of_get? hr) hq
    · exact hl.eligible q₀ hq₀
    · exact hl.eligible q hq₀
  | _ => exact hl.eligible

theorem Ledger.promotions_move (hl : Ledger c) (h : Move env g c c') :
    ∀ r ∈ c'.skillPromotionRequests.rows,
      Backed c'.approvals .skillPromotion r.id r.authorizationFingerprint r.approvalRequestId (r.status = .promoted) := by
  cases h with
  | requestPromotion _ _ _ _ _ _ _ fresh _ pending _ freshApproval _ unconsumed approval requested =>
    exact forall_put (.of_requested unconsumed approval requested (by rw [pending]; nofun)) fun q hq =>
      (hl.promotions q hq).put_fresh freshApproval
  | closePromotion hr pending _ _ ended _ resolved =>
    intro q hq
    obtain ⟨q₀, hq₀, ⟨rfl, rfl⟩ | rfl⟩ := mem_of_mem_put (mem_of_get? hr) hq
    · refine Backed.congr ((hl.promotions q₀ hq₀).resolved resolved) ?_
      exact ⟨fun h => (by rw [pending] at h; cases h), fun h => absurd h ended.2⟩
    · exact (hl.promotions q hq₀).resolved resolved
  | promote hr pending _ _ ha approval approved =>
    intro q hq
    obtain ⟨b, hb⟩ := hl.promotions _ (mem_of_get? hr)
    obtain rfl := hb.eq ha approval
    rcases mem_put.1 hq with rfl | ⟨hq, hne⟩
    · exact hb.consume approved rfl
    · exact (hl.promotions q hq).put_consumed hb fun h => hne h.2
  | requestRollback _ _ _ freshApproval =>
    exact fun q hq => (hl.promotions q hq).put_fresh freshApproval
  | closeRollback _ _ _ resolved | resolve resolved =>
    exact fun q hq => (hl.promotions q hq).resolved resolved
  | rollBack hr pending ha approval =>
    intro q hq
    obtain ⟨b, hb⟩ := hl.rollbacks _ (mem_of_get? hr)
    obtain rfl := hb.eq ha approval
    exact (hl.promotions q hq).put_consumed hb nofun
  | runApproval kind stored => exact fun q hq => (hl.promotions q hq).put_run nofun stored
  | _ => exact hl.promotions

theorem Ledger.rollbacks_move (hl : Ledger c) (h : Move env g c c') :
    ∀ r ∈ c'.skillRollbackRequests.rows,
      Backed c'.approvals .skillRollback r.id r.authorizationFingerprint r.approvalRequestId (r.status = .completed) := by
  cases h with
  | requestPromotion _ _ _ _ _ _ _ _ _ _ _ freshApproval =>
    exact fun q hq => (hl.rollbacks q hq).put_fresh freshApproval
  | closePromotion _ _ _ _ _ _ resolved | resolve resolved =>
    exact fun q hq => (hl.rollbacks q hq).resolved resolved
  | promote hr pending _ _ ha approval =>
    intro q hq
    obtain ⟨b, hb⟩ := hl.promotions _ (mem_of_get? hr)
    obtain rfl := hb.eq ha approval
    exact (hl.rollbacks q hq).put_consumed hb nofun
  | requestRollback fresh _ pending freshApproval _ unconsumed approval requested =>
    exact forall_put (.of_requested unconsumed approval requested (by rw [pending]; nofun)) fun q hq =>
      (hl.rollbacks q hq).put_fresh freshApproval
  | closeRollback hr pending ended resolved =>
    intro q hq
    obtain ⟨q₀, hq₀, ⟨rfl, rfl⟩ | rfl⟩ := mem_of_mem_put (mem_of_get? hr) hq
    · refine Backed.congr ((hl.rollbacks q₀ hq₀).resolved resolved) ?_
      exact ⟨fun h => (by rw [pending] at h; cases h), fun h => absurd h ended.2⟩
    · exact (hl.rollbacks q hq₀).resolved resolved
  | rollBack hr pending ha approval approved =>
    intro q hq
    obtain ⟨b, hb⟩ := hl.rollbacks _ (mem_of_get? hr)
    obtain rfl := hb.eq ha approval
    rcases mem_put.1 hq with rfl | ⟨hq, hne⟩
    · exact hb.consume approved rfl
    · exact (hl.rollbacks q hq).put_consumed hb fun h => hne h.2
  | runApproval kind stored => exact fun q hq => (hl.rollbacks q hq).put_run nofun stored
  | _ => exact hl.rollbacks

theorem Resolved.mem {t t' : Approvals} {a' : ApprovalRequest} (h : Resolved t t')
    (ha : a' ∈ t'.rows) : ∃ a ∈ t.rows, a.id = a'.id ∧ a.subjectKind = a'.subjectKind := by
  obtain rfl | ⟨b, b', hb, hres, rfl⟩ := h
  · exact ⟨a', ha, rfl, rfl⟩
  · rcases mem_put.1 ha with rfl | ⟨ha, -⟩
    · exact ⟨b, mem_of_get? hb, by rw [hres.same], by rw [hres.same]⟩
    · exact ⟨a', ha, rfl, rfl⟩

theorem mem_put_consumed {t : Approvals} {a b : ApprovalRequest} {now : Time}
    (ha : t.get? a.id = some a) (hb : b ∈ (t.put { a with consumedAt := some now }).rows) :
    ∃ b' ∈ t.rows, b'.id = b.id ∧ b'.subjectKind = b.subjectKind := by
  obtain ⟨y, hy, ⟨rfl, rfl⟩ | rfl⟩ := mem_of_mem_put (mem_of_get? ha) hb
  · exact ⟨y, hy, rfl, rfl⟩
  · exact ⟨b, hy, rfl, rfl⟩

/-- The requests only grow, and keep the approval they name. -/
theorem Ledger.requested_move (hl : Ledger c) (h : Move env g c c') : ∀ a ∈ c'.approvals.rows,
    a.subjectKind ≠ .run → (∃ r ∈ c'.skillPromotionRequests.rows, r.approvalRequestId = some a.id) ∨
    ∃ r ∈ c'.skillRollbackRequests.rows, r.approvalRequestId = some a.id := by
  have of_old : ∀ {a : ApprovalRequest},
      (∃ b ∈ c.approvals.rows, b.id = a.id ∧ b.subjectKind = a.subjectKind) → a.subjectKind ≠ .run →
        (∃ r ∈ c.skillPromotionRequests.rows, r.approvalRequestId = some a.id) ∨
        ∃ r ∈ c.skillRollbackRequests.rows, r.approvalRequestId = some a.id := by
    intro a ⟨b, hb, hid, hkind⟩ hrun
    rw [← hid]
    exact hl.requested b hb (by rw [hkind]; exact hrun)
  cases h with
  | requestPromotion _ _ _ _ _ _ _ fresh _ _ _ freshApproval _ _ approval =>
    intro a ha hrun
    rcases (mem_put_fresh freshApproval).1 ha with rfl | ha
    · exact .inl ⟨_, (mem_put_fresh fresh).2 (.inl rfl), approval⟩
    · refine (hl.requested a ha hrun).imp_left fun ⟨r, hr, happroval⟩ => ?_
      exact ⟨r, (mem_put_fresh fresh).2 (.inr hr), happroval⟩
  | closePromotion hr _ _ _ _ _ resolved =>
    intro a ha hrun
    exact (of_old (resolved.mem ha) hrun).imp_left (exists_put (mem_of_get? hr) rfl rfl)
  | promote hr _ _ _ happroval =>
    intro a ha hrun
    exact (of_old (mem_put_consumed happroval ha) hrun).imp_left (exists_put (mem_of_get? hr) rfl rfl)
  | requestRollback fresh _ _ freshApproval _ _ approval =>
    intro a ha hrun
    rcases (mem_put_fresh freshApproval).1 ha with rfl | ha
    · exact .inr ⟨_, (mem_put_fresh fresh).2 (.inl rfl), approval⟩
    · refine (hl.requested a ha hrun).imp_right fun ⟨r, hr, happroval⟩ => ?_
      exact ⟨r, (mem_put_fresh fresh).2 (.inr hr), happroval⟩
  | closeRollback hr _ _ resolved =>
    intro a ha hrun
    exact (of_old (resolved.mem ha) hrun).imp_right (exists_put (mem_of_get? hr) rfl rfl)
  | rollBack hr _ happroval =>
    intro a ha hrun
    exact (of_old (mem_put_consumed happroval ha) hrun).imp_right (exists_put (mem_of_get? hr) rfl rfl)
  | resolve resolved => exact fun a ha hrun => of_old (resolved.mem ha) hrun
  | runApproval kind _ =>
    exact forall_put (fun hrun => absurd kind hrun) hl.requested
  | _ => exact hl.requested

theorem Ledger.move (hl : Ledger c) (h : Move env g c c') : Ledger c' :=
  ⟨hl.generated_move h, hl.targets_move h, hl.eligible_move h, hl.promotions_move h,
    hl.rollbacks_move h, hl.requested_move h⟩

end

/-! ## What the ledger says -/

section
variable {c : SkillCore}

theorem Ledger.authorized (hl : Ledger c) {rev : SkillRevision} {r : SkillPromotionRequest}
    (hr : r ∈ c.skillPromotionRequests.rows) (hpromoted : r.status = .promoted)
    (htarget : r.targetRevisionId = rev.id) (hdigest : r.candidateSha256 = rev.contentSha256) :
    Authorized c rev r := by
  obtain ⟨a, ha⟩ := hl.promotions r hr
  exact ⟨hr, hpromoted, htarget, ⟨a, mem_of_get? ha.stored, ha.named, ha.requested.kind,
    ha.approved hpromoted, ha.consumed.2 hpromoted⟩, hl.eligible r hr, hdigest⟩

/-- The approval that a request consumed is its own. -/
theorem Ledger.backing (hl : Ledger c) {id : ApprovalRequestId}
    {x : SkillPromotionRequest ⊕ SkillRollbackRequest} (hx : Consumer c id x) :
      ∃ fingerprint effective a, effective ∧ Backing c.approvals
      (x.elim (fun _ => .skillPromotion) fun _ => .skillRollback) (x.elim (·.id) (·.id)) fingerprint
      (some id) effective a := by
  cases hx with
  | promotion hr hpromoted happroval =>
    obtain ⟨a, ha⟩ := hl.promotions _ hr
    exact ⟨_, _, a, hpromoted, happroval ▸ ha⟩
  | rollback hr hcompleted happroval =>
    obtain ⟨a, ha⟩ := hl.rollbacks _ hr
    exact ⟨_, _, a, hcompleted, happroval ▸ ha⟩

/-- A consumer's approval names the consumer. -/
theorem Ledger.consumer_unique (hl : Ledger c) {id : ApprovalRequestId}
    {x y : SkillPromotionRequest ⊕ SkillRollbackRequest} (hx : Consumer c id x)
    (hy : Consumer c id y) : x = y := by
  obtain ⟨_, _, a, -, ha⟩ := hl.backing hx
  obtain ⟨_, _, b, -, hb⟩ := hl.backing hy
  obtain ⟨hkind, hid⟩ := ha.subject hb (Option.some.inj (ha.named.symm.trans hb.named))
  cases hx with
  | promotion hq =>
    cases hy with
    | promotion hr => exact congrArg Sum.inl (eq_of_key hq hr hid)
    | rollback => cases hkind
  | rollback hq =>
    cases hy with
    | promotion => cases hkind
    | rollback hr => exact congrArg Sum.inr (eq_of_key hq hr hid)

theorem Ledger.consumed_iff (hl : Ledger c) {a : ApprovalRequest} (ha : a ∈ c.approvals.rows)
    (hrun : a.subjectKind ≠ .run) : a.consumedAt.isSome = true ↔ ∃ x, Consumer c a.id x := by
  have hget := get?_of_mem ha
  constructor
  · intro hconsumed
    rcases hl.requested a ha hrun with ⟨r, hr, happroval⟩ | ⟨r, hr, happroval⟩
    · obtain ⟨b, hb⟩ := hl.promotions r hr
      obtain rfl := hb.eq hget happroval
      exact ⟨_, .promotion hr (hb.consumed.1 hconsumed) happroval⟩
    · obtain ⟨b, hb⟩ := hl.rollbacks r hr
      obtain rfl := hb.eq hget happroval
      exact ⟨_, .rollback hr (hb.consumed.1 hconsumed) happroval⟩
  · rintro ⟨x, hx⟩
    obtain ⟨_, _, b, heffective, hb⟩ := hl.backing hx
    obtain rfl := hb.eq hget rfl
    exact hb.consumed.2 heffective

end

/-! ## The active revision -/

/-- The guard that names the action itself. -/
def Guard.of (a : SkillAction) : Guard where
  activate skillId revisionId := ∃ now, a = .activateSkillRevision skillId revisionId now
  promote id := ∃ resolver now, a = .executeSkillPromotion id resolver now
  rollBack id := ∃ resolver now, a = .executeSkillRollback id resolver now

theorem Guard.of_allows (s : SkillDb) (a : SkillAction) : (Guard.of a).Allows s a := by
  cases a with
  | activateSkillRevision => exact ⟨_, rfl⟩
  | executeSkillPromotion | executeSkillRollback => exact ⟨_, _, rfl⟩
  | cancelSkillImprovementProposal | compareSkillImprovementProposal => exact fun _ _ => trivial
  | _ => trivial

variable {c c' : SkillCore}

theorem pointer_put {skill : Skill} (h : c'.skills = c.skills.put skill) (id : SkillId) :
    pointer c' id = if skill.id = id then skill.activeRevisionId else pointer c id := by
  unfold pointer
  rw [h, get?_put]
  by_cases hid : skill.id = id
  · rw [if_pos hid, if_pos (show key skill = id from hid), Option.bind_some]
  · rw [if_neg hid, if_neg (show key skill ≠ id from hid)]

/-- A step that writes one skill changes no other pointer. -/
theorem pointer_changed {skill skill' : Skill} {rev : SkillRevisionId}
    (hskills : c'.skills = c.skills.put skill') (hid : skill'.id = skill.id)
    (hpointer : skill'.activeRevisionId = some rev) {id : SkillId}
    (hne : pointer c' id ≠ pointer c id) : skill.id = id ∧ pointer c' id = some rev := by
  rw [pointer_put hskills] at hne ⊢
  by_cases h : skill'.id = id
  · rw [if_pos h]
    exact ⟨hid.symm.trans h, hpointer⟩
  · rw [if_neg h] at hne
    exact absurd rfl hne

theorem pointer_kept {skill' : Skill} (hskills : c'.skills = c.skills.put skill')
    (h : skill'.activeRevisionId = pointer c skill'.id) (id : SkillId) :
    pointer c' id = pointer c id := by
  rw [pointer_put hskills]
  by_cases hid : skill'.id = id
  · rw [if_pos hid, h, hid]
  · rw [if_neg hid]

theorem Move.pointer_cause {env : Env} {act : SkillAction} (hl' : Ledger c')
    (h : Move env (.of act) c c') {id : SkillId} (hne : pointer c' id ≠ pointer c id) :
    ∃ revisionId, pointer c' id = some revisionId ∧ PointerCause c c' act id revisionId := by
  cases h with
  | createSkill fresh inactive =>
    refine absurd (pointer_kept rfl ?_ id) hne
    rw [pointer, fresh, inactive, Option.bind_none]
  | restate hs hid hpointer =>
    refine absurd (pointer_kept rfl ?_ id) hne
    rw [pointer, hid, hs, hpointer, Option.bind_some]
  | activate hs hr written hid hpointer allowed =>
    obtain ⟨rfl, hnew⟩ := pointer_changed rfl hid hpointer hne
    obtain ⟨now, haction⟩ := allowed
    exact ⟨_, hnew, .activated (mem_of_get? hr) rfl written haction⟩
  | @promote r _ _ _ skill _ rev resolvedAt resolver _ hr pending _ _ _ _ _ _ _ _ _ own hid hpointer _ _ _ target digest
      allowed =>
    obtain ⟨rfl, hnew⟩ := pointer_changed rfl hid hpointer hne
    obtain ⟨resolver', now, haction⟩ := allowed
    let done : SkillPromotionRequest :=
      { r with promotedRevisionId := some rev.id, status := .promoted, resolvedAt := resolvedAt, resolver := resolver }
    have hdone : done ∈ (c.skillPromotionRequests.put done).rows := mem_put.2 (.inl rfl)
    exact ⟨_, hnew, .promoted (q := r) (r := done) ⟨mem_of_get? hr, rfl, pending⟩ own.symm
      (mem_put.2 (.inl rfl)) rfl (hl'.authorized hdone rfl target.symm digest.symm) haction⟩
  | @rollBack r _ skill _ rev resolvedAt resolver _ hr pending _ _ _ _ _ own _ target hid hpointer allowed =>
    obtain ⟨rfl, hnew⟩ := pointer_changed rfl hid hpointer hne
    obtain ⟨resolver', now, haction⟩ := allowed
    let done : SkillRollbackRequest := { r with status := .completed, resolvedAt := resolvedAt, resolver := resolver }
    have hdone : done ∈ (c.skillRollbackRequests.put done).rows := mem_put.2 (.inl rfl)
    obtain ⟨b, hb⟩ := hl'.rollbacks done hdone
    exact ⟨_, hnew, .rolledBack (q := r) (r := done) ⟨mem_of_get? hr, rfl, pending⟩ own.symm ⟨hdone,
      rfl⟩ target.symm (mem_of_get? hb.stored) ⟨hb.named, hb.requested.kind, hb.requested.subject⟩
      (hb.approved rfl) (hb.consumed.2 rfl) haction⟩
  | _ => exact absurd rfl hne

/-! ## Every run -/

theorem ledger_of_reachable {env : Env} {s : SkillDb} (h : (skillSystem env).Reachable s) :
    Ledger s.toSkillCore :=
  h.invariant (fun s => Ledger s.toSkillCore) (fun _ hs => hs ▸ .empty) fun _ a _ _ hl hn =>
    hl.move (act_move (Guard.of_allows _ a) (skillSystem_next hn))

/-- In every state the skill use cases reach, every generated revision is the target of exactly
one promoted request, which had its own consumed approval, an eligible comparison and the digest
of the revision; an approval is consumed by at most one request, which is there once it is
consumed; and from there a skill's active revision changes only to a stored revision that is not
generated, by such a promotion, or by a rollback with its own consumed approval. -/
theorem generated_only_with_authority (env : Env) {s : SkillDb} (h : (skillSystem env).Reachable s) :
    (∀ rev ∈ s.skillRevisions.rows, rev.sourceKind = .generated →
      ∃ r, Authorized s.toSkillCore rev r ∧ ∀ q ∈ s.skillPromotionRequests.rows,
      q.status = .promoted → q.targetRevisionId = rev.id → q = r) ∧
    (∀ a ∈ s.approvals.rows, a.subjectKind ≠ .run →
      (a.consumedAt.isSome = true ↔ ∃ x, Consumer s.toSkillCore a.id x)) ∧
    (∀ id x y, Consumer s.toSkillCore id x → Consumer s.toSkillCore id y → x = y) ∧
    ∀ a s', (skillSystem env).next s a s' → ∀ id, pointer s'.toSkillCore id ≠ pointer s.toSkillCore id →
      ∃ revisionId, pointer s'.toSkillCore id = some revisionId ∧
        PointerCause s.toSkillCore s'.toSkillCore a id revisionId := by
  have hl := ledger_of_reachable h
  refine ⟨fun rev hrev hgenerated => ?_, fun a ha hrun => hl.consumed_iff ha hrun,
    fun id x y hx hy => hl.consumer_unique hx hy, fun a s' hn id hne => ?_⟩
  · obtain ⟨r, hr, hpromoted, htarget, hdigest⟩ := hl.generated rev hrev hgenerated
    refine ⟨r, hl.authorized hr hpromoted htarget hdigest, fun q hq _ hqtarget => ?_⟩
    exact eq_of_key hq hr (hl.targets q hq r hr (hqtarget.trans htarget.symm))
  · have hmove := act_move (Guard.of_allows s a) (skillSystem_next hn)
    exact hmove.pointer_cause (hl.move hmove) hne

/-- The proposal of the sample is promoted. -/
def promotedActions : List SkillAction :=
  proposedActions ++ [compareBetter, .requestSkillPromotion 1 ⟨1, 2, 1⟩ 6,
    .approveRequest 1 "operator" none 7, .executeSkillPromotion 1 none 8]

theorem generated_only_with_authority_sample :
    ∃ rev ∈ (System.run (commit sampleEnv) emptyDb promotedActions).skillRevisions.rows, rev.sourceKind = .generated ∧
      ∃ r, Authorized (System.run (commit sampleEnv) emptyDb promotedActions).toSkillCore rev r := by
  have hlegal : System.Legal (commit sampleEnv) (fun _ _ => True) emptyDb promotedActions ∧
      ∃ rev ∈ (System.run (commit sampleEnv) emptyDb promotedActions).skillRevisions.rows, rev.sourceKind = .generated := by
    decide +kernel
  obtain ⟨hlegal, rev, hrev, hgenerated⟩ := hlegal
  obtain ⟨r, hr, -⟩ := (generated_only_with_authority sampleEnv (skillSystem_run hlegal)).1 rev
    hrev hgenerated
  exact ⟨rev, hrev, hgenerated, r, hr⟩

end Friday.Skills
