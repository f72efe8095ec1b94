import FridayAssistant.Skills.Authority
/-!
# Pending promotions can be closed

`ExecuteSkillPromotion`, `RejectSkillPromotion` and `CancelSkillPromotion` all begin with the
promotion's proposal, which must not be closed. `CancelSkillImprovementProposal` closes it without
a look at the promotions, and the promotion under it can never be closed again
(`pending_promotion_stuck`).

When no proposal with a pending promotion is cancelled, and no id drawn for a revision is taken,
each pending promotion has an open proposal and one of the three use cases closes it: Reject while
its approval is PENDING or REJECTED, Cancel when that is CANCELLED, and Execute when it is APPROVED
(`pending_promotion_closable`).
-/
namespace Friday.Skills
open Tables Table Transition

/-- No stored revision and no pending promotion has the id. -/
def isFreshRevisionId (s : SkillDb) (id : SkillRevisionId) : Bool :=
  (s.skillRevisions.get? id).isNone &&
    s.skillPromotionRequests.rows.all fun r => r.status ≠ .pending || r.targetRevisionId ≠ id

/-- The step cancels no proposal under a pending promotion, and draws a new id for a revision. -/
def leavesPending (s : SkillDb) : SkillAction → Bool
  | .cancelSkillImprovementProposal id =>
    s.skillPromotionRequests.rows.all fun r => r.status ≠ .pending || r.proposalId ≠ id
  | .createSkillRevision _ id _ _ _ => isFreshRevisionId s id
  | .requestSkillPromotion _ ids _ => isFreshRevisionId s ids.targetRevisionId
  | _ => true

/-- The use cases that close a promotion. -/
def closing (id : SkillPromotionRequestId) (now : Time) : List SkillAction :=
  [.executeSkillPromotion id none now, .rejectSkillPromotion id "operator" now,
    .cancelSkillPromotion id now]

def Guard.pending : Guard where
  cancel c p := ∀ r ∈ c.skillPromotionRequests.rows, r.status = .pending → r.proposalId ≠ p.id
  revisionId c id := c.skillRevisions.get? id = none ∧
    ∀ r ∈ c.skillPromotionRequests.rows, r.status = .pending → r.targetRevisionId ≠ id

variable {s s' : SkillDb} {env : Env} {r : SkillPromotionRequest} {now : Time}

theorem pending_allows {a : SkillAction} (h : leavesPending s a = true) :
    Guard.pending.Allows s a := by
  have hfresh : ∀ {id : SkillRevisionId}, isFreshRevisionId s id = true → Guard.pending.revisionId s.toSkillCore id := by
    intro id h
    obtain ⟨hnone, hall⟩ := Bool.and_eq_true_iff.1 h
    refine ⟨Option.isNone_iff_eq_none.1 hnone, fun r hr hpending => ?_⟩
    have h := List.all_eq_true.1 hall r hr
    simpa [hpending] using h
  cases a with
  | cancelSkillImprovementProposal id =>
    intro p hp r hr hpending
    have hid : p.id = id := key_of_get? hp
    have h := List.all_eq_true.1 h r hr
    rw [hid]
    simpa [hpending] using h
  | compareSkillImprovementProposal => exact fun _ _ => trivial
  | createSkillRevision => exact hfresh h
  | requestSkillPromotion => exact hfresh h
  | _ => trivial

/-! ## What a pending promotion needs -/

structure Pending (env : Env) (c : SkillCore) : Prop where
  ledger : Ledger c
  /-- The rows pass the checks of their types, which run again whenever a row is saved. -/
  proposals : ∀ p ∈ c.skillImprovementProposals.rows, p.checked env = .ok p
  requests : ∀ r ∈ c.skillPromotionRequests.rows, r.checked = .ok r
  distinct : ∀ q ∈ c.skillPromotionRequests.rows, ∀ r ∈ c.skillPromotionRequests.rows,
    q.proposalId = r.proposalId → q.id = r.id
  openProposal : ∀ r ∈ c.skillPromotionRequests.rows, r.status = .pending →
    ∃ p, c.skillImprovementProposals.get? r.proposalId = some p ∧ p.skillId = r.skillId ∧
    p.status.isClosed = false
  target : ∀ r ∈ c.skillPromotionRequests.rows, r.status = .pending →
    c.skillRevisions.get? r.targetRevisionId = none
  source : ∀ rev ∈ c.skillRevisions.rows, ∀ id, rev.promotionRequestId = some id →
    ∃ r ∈ c.skillPromotionRequests.rows, r.id = id ∧ r.status = .promoted
  unexpired : ∀ a ∈ c.approvals.rows, a.subjectKind ≠ .run → a.expiresAt = none →
    a.status ≠ .expired

theorem Pending.empty : Pending env .empty where
  ledger := .empty
  proposals _ h := absurd h List.not_mem_nil
  requests _ h := absurd h List.not_mem_nil
  distinct _ h := absurd h List.not_mem_nil
  openProposal _ h := absurd h List.not_mem_nil
  target _ h := absurd h List.not_mem_nil
  source _ h := absurd h List.not_mem_nil
  unexpired _ h := absurd h List.not_mem_nil

variable {status : PromotionRequestStatus}

section
variable {env : Env} {c c' : SkillCore}

/-- The checks of a proposal do not depend on its status. -/
theorem SkillImprovementProposal.checked_status {p : SkillImprovementProposal} (status : SkillProposalStatus)
    (h : p.checked env = .ok p) : SkillImprovementProposal.checked env { p with status := status } =
      .ok { p with status := status } := by
  unfold checked at h ⊢
  simp only [bind_eq_ok, pure_eq_ok] at h ⊢
  obtain ⟨instructions, hi, _, h₁, _, h₂, _, h₃, _, h₄, _, h₅, -⟩ := h
  exact ⟨instructions, hi, _, h₁, _, h₂, _, h₃, _, h₄, _, h₅, trivial⟩

theorem SkillPromotionRequest.checked_status {r : SkillPromotionRequest}
    {promoted : Option SkillRevisionId} {resolvedAt : Option Time} {resolver : Option String}
    (h : r.checked = .ok r) (hstatus : status ≠ .promoted ∨ promoted = some r.targetRevisionId) :
    SkillPromotionRequest.checked
        { r with promotedRevisionId := promoted, status := status, resolvedAt := resolvedAt, resolver := resolver } =
      .ok { r with promotedRevisionId := promoted, status := status, resolvedAt := resolvedAt, resolver := resolver } := by
  unfold checked at h ⊢
  simp only [bind_eq_ok, pure_eq_ok] at h ⊢
  obtain ⟨_, h₁, _, h₂, _, -, -⟩ := h
  refine ⟨_, h₁, _, h₂, (), require_eq_ok.2 ?_, trivial⟩
  simpa using hstatus

variable {g : Guard}

theorem Pending.proposals_move (hp : Pending env c) (h : Move env g c c') :
    ∀ p ∈ c'.skillImprovementProposals.rows, p.checked env = .ok p := by
  have kept : ∀ {p : SkillImprovementProposal} {id : SkillImprovementProposalId} {status : SkillProposalStatus},
      c.skillImprovementProposals.get? id = some p →
      ∀ q ∈ (c.skillImprovementProposals.put { p with status := status }).rows, q.checked env = .ok q := by
    intro p id status hget
    exact forall_put (SkillImprovementProposal.checked_status status
      (hp.proposals p (mem_of_get? hget))) hp.proposals
  cases h with
  | propose fresh _ valid =>
    exact forall_put valid hp.proposals
  | cancelProposal hget | compare hget | closePromotion _ _ hget | promote _ _ hget =>
    exact kept hget
  | _ => exact hp.proposals

theorem Pending.requests_move (hp : Pending env c) (h : Move env g c c') :
    ∀ r ∈ c'.skillPromotionRequests.rows, r.checked = .ok r := by
  cases h with
  | requestPromotion _ _ _ _ _ _ _ fresh _ _ valid =>
    exact forall_put valid hp.requests
  | closePromotion hr _ _ _ ended =>
    exact forall_put (SkillPromotionRequest.checked_status (hp.requests _ (mem_of_get? hr))
      (.inl ended.2)) hp.requests
  | promote hr _ _ _ _ _ _ _ _ _ _ _ _ _ _ _ _ target =>
    exact forall_put (SkillPromotionRequest.checked_status (hp.requests _ (mem_of_get? hr))
      (.inr (congrArg some target))) hp.requests
  | _ => exact hp.requests

theorem Pending.distinct_move (hp : Pending env c) (h : Move env g c c') :
    ∀ q ∈ c'.skillPromotionRequests.rows, ∀ r ∈ c'.skillPromotionRequests.rows, q.proposalId = r.proposalId → q.id = r.id := by
  cases h with
  | requestPromotion _ _ _ _ _ _ _ fresh unique =>
    exact unique_put_fresh fresh (fun q hq => (unique q hq).1) hp.distinct
  | closePromotion hr | promote hr => exact unique_put (mem_of_get? hr) rfl rfl hp.distinct
  | _ => exact hp.distinct

/-- A proposal that has a promotion has a comparison, so that it is not compared again. -/
theorem Pending.open_move (hp : Pending env c) (h : Move env .pending c c') :
    ∀ r ∈ c'.skillPromotionRequests.rows, r.status = .pending → ∃ p,
      c'.skillImprovementProposals.get? r.proposalId = some p ∧ p.skillId = r.skillId ∧ p.status.isClosed = false := by
  -- a promotion ends: the pending ones are others, with other proposals
  have ended : ∀ {r r' : SkillPromotionRequest} {p p' : SkillImprovementProposal},
      c.skillPromotionRequests.get? r.id = some r → r'.id = r.id → r'.status ≠ .pending →
      c.skillImprovementProposals.get? r.proposalId = some p → p'.id = p.id →
      ∀ q ∈ (c.skillPromotionRequests.put r').rows, q.status = .pending → ∃ p₀,
        (c.skillImprovementProposals.put p').get? q.proposalId = some p₀ ∧ p₀.skillId = q.skillId ∧
          p₀.status.isClosed = false := by
    intro r r' p p' hr hid hended hproposal hpid q hq hpending
    rcases mem_put.1 hq with rfl | ⟨hq, hne⟩
    · exact absurd hpending hended
    · have hother : p'.id ≠ q.proposalId := fun h => hne <| by
        have hp' : p.id = r.proposalId := key_of_get? hproposal
        have hqr := hp.distinct q hq r (mem_of_get? hr) (by rw [← h, hpid, hp'])
        exact Eq.trans hqr hid.symm
      rw [get?_put_ne hother]
      exact hp.openProposal q hq hpending
  cases h with
  | propose fresh =>
    intro r hr hpending
    obtain ⟨p, hget, h⟩ := hp.openProposal r hr hpending
    exact ⟨p, get?_put_fresh fresh hget, h⟩
  | cancelProposal _ _ allowed =>
    intro r hr hpending
    rw [get?_put_ne (allowed r hr hpending).symm]
    exact hp.openProposal r hr hpending
  | @compare p x hget _ _ first =>
    intro r hr hpending
    have hother : p.id ≠ r.proposalId := by
      intro h
      obtain ⟨y, hy, -, hyr, -⟩ := hp.ledger.eligible r hr
      exact first y hy (hyr.trans h.symm)
    rw [get?_put_ne hother]
    exact hp.openProposal r hr hpending
  | requestPromotion hget ready skill _ _ _ _ fresh =>
    exact forall_put (fun _ => ⟨_, hget, skill, by rw [ready]; rfl⟩) hp.openProposal
  | closePromotion hr _ hget _ h => exact ended hr rfl h.1 hget rfl
  | promote hr _ hget => exact ended hr rfl nofun hget rfl
  | _ => exact hp.openProposal

theorem Pending.target_move (hp : Pending env c) (h : Move env .pending c c') :
    ∀ r ∈ c'.skillPromotionRequests.rows, r.status = .pending → c'.skillRevisions.get? r.targetRevisionId = none := by
  cases h with
  | revise fresh _ allowed =>
    intro r hr hpending
    rw [get?_put_ne (allowed.2 r hr hpending).symm]
    exact hp.target r hr hpending
  | requestPromotion _ _ _ _ _ _ _ fresh _ _ _ _ _ _ _ _ allowed =>
    exact forall_put (fun _ => allowed.1) hp.target
  | closePromotion hr _ _ _ ended =>
    exact forall_put (fun hpending => absurd hpending ended.1) hp.target
  | @promote r _ _ _ _ _ _ _ _ _ hr _ _ _ _ _ _ _ _ _ _ _ _ _ _ _ _ target =>
    intro q hq hpending
    rcases mem_put.1 hq with rfl | ⟨hq, hne⟩
    · cases hpending
    · refine (get?_put_ne fun h => hne ?_).trans (hp.target q hq hpending)
      exact hp.ledger.targets q hq r (mem_of_get? hr) (h.symm.trans target)
  | _ => exact hp.target

theorem Pending.source_move (hp : Pending env c) (h : Move env g c c') :
    ∀ rev ∈ c'.skillRevisions.rows, ∀ id, rev.promotionRequestId = some id →
      ∃ r ∈ c'.skillPromotionRequests.rows, r.id = id ∧ r.status = .promoted := by
  have kept : ∀ {r r' : SkillPromotionRequest} {rev : SkillRevision} {id : SkillPromotionRequestId},
      c.skillPromotionRequests.get? r.id = some r → r.status = .pending → r'.id = r.id →
      rev ∈ c.skillRevisions.rows → rev.promotionRequestId = some id →
      ∃ q ∈ (c.skillPromotionRequests.put r').rows, q.id = id ∧ q.status = .promoted := by
    intro r r' rev id hr hpending hid hrev hsource
    obtain ⟨q, hq, hqid, hpromoted⟩ := hp.source rev hrev id hsource
    refine ⟨q, mem_put.2 (.inr ⟨hq, fun h => ?_⟩), hqid, hpromoted⟩
    rw [eq_of_key hq (mem_of_get? hr) (Eq.trans h hid), hpending] at hpromoted
    cases hpromoted
  cases h with
  | @revise rev fresh written =>
    intro rev' hrev id hsource
    rcases (mem_put_fresh fresh).1 hrev with rfl | hrev
    · exact absurd (rev'.provenance.2 (by rw [hsource]; rfl)) written
    · exact hp.source rev' hrev id hsource
  | requestPromotion _ _ _ _ _ _ _ fresh =>
    intro rev hrev id hsource
    obtain ⟨q, hq, h⟩ := hp.source rev hrev id hsource
    exact ⟨q, (mem_put_fresh fresh).2 (.inr hq), h⟩
  | closePromotion hr pending => exact fun rev hrev id hsource => kept hr pending rfl hrev hsource
  | promote hr pending _ _ _ _ _ _ _ _ _ _ _ _ _ source fresh =>
    refine forall_put (fun id hsource => ?_) fun rev' hrev id hsource => kept hr pending rfl hrev hsource
    exact ⟨_, mem_put.2 (.inl rfl), Option.some.inj (source.symm.trans hsource), rfl⟩
  | _ => exact hp.source

/-- An approval expires only after its deadline. -/
theorem Pending.unexpired_move (hp : Pending env c) (h : Move env g c c') :
    ∀ a ∈ c'.approvals.rows, a.subjectKind ≠ .run → a.expiresAt = none → a.status ≠ .expired := by
  have resolved : ∀ {t : Approvals}, Resolved c.approvals t →
      ∀ a ∈ t.rows, a.subjectKind ≠ .run → a.expiresAt = none → a.status ≠ .expired := by
    rintro t (rfl | ⟨b, b', hb, hres, rfl⟩) a ha hrun hdeadline
    · exact hp.unexpired a ha hrun hdeadline
    · rcases mem_put.1 ha with rfl | ⟨ha, -⟩
      · intro hexpired
        have hsome := hres.deadline hexpired
        rw [show b.expiresAt = a.expiresAt by rw [hres.same], hdeadline] at hsome
        cases hsome
      · exact hp.unexpired a ha hrun hdeadline
  have requested : ∀ {b : ApprovalRequest}, c.approvals.get? b.id = none → b.status = .pending →
      ∀ a ∈ (c.approvals.put b).rows, a.subjectKind ≠ .run → a.expiresAt = none → a.status ≠ .expired := by
    intro b hfresh hpending
    refine forall_put (fun _ _ => ?_) hp.unexpired
    rw [hpending]
    nofun
  have consumed : ∀ {b : ApprovalRequest} {now : Time}, c.approvals.get? b.id = some b →
      b.status = .approved → ∀ a ∈ (c.approvals.put { b with consumedAt := some now }).rows,
        a.subjectKind ≠ .run → a.expiresAt = none → a.status ≠ .expired := by
    intro b now hb happroved
    refine forall_put (fun _ _ => ?_) hp.unexpired
    show b.status ≠ .expired
    rw [happroved]
    nofun
  cases h with
  | requestPromotion _ _ _ _ _ _ _ _ _ _ _ fresh pending | requestRollback _ _ _ fresh pending =>
    exact requested fresh pending
  | closePromotion _ _ _ _ _ _ h | closeRollback _ _ _ h | resolve h => exact resolved h
  | promote _ _ _ _ ha _ approved | rollBack _ _ ha _ approved => exact consumed ha approved
  | runApproval kind =>
    exact forall_put (fun hrun _ => absurd kind hrun) hp.unexpired
  | _ => exact hp.unexpired

theorem Pending.move (hp : Pending env c) (h : Move env .pending c c') : Pending env c' :=
  ⟨hp.ledger.move h, hp.proposals_move h, hp.requests_move h, hp.distinct_move h, hp.open_move h,
    hp.target_move h, hp.source_move h, hp.unexpired_move h⟩

end

/-! ## The use cases succeed -/

variable {target : ApprovalStatus} {proposalStatus : SkillProposalStatus}

section
variable {env : Env} {s : SkillDb} {r : SkillPromotionRequest} {p : SkillImprovementProposal}
  {a : ApprovalRequest} {now : Time}

/-- What the three use cases read of a pending promotion. -/
structure Reads (env : Env) (s : SkillDb) (r : SkillPromotionRequest) (p : SkillImprovementProposal)
    (a : ApprovalRequest) : Prop where
  stored : s.skillPromotionRequests.get? r.id = some r
  pending : r.status = .pending
  checked : r.checked = .ok r
  proposal : s.skillImprovementProposals.get? r.proposalId = some p
  skill : p.skillId = r.skillId
  notClosed : p.status.isClosed = false
  proposalChecked : p.checked env = .ok p
  approval : Backing s.approvals .skillPromotion r.id r.authorizationFingerprint r.approvalRequestId
    False a
  unexpired : a.status ≠ .expired

theorem Pending.reads (hp : Pending env s.toSkillCore) (hr : r ∈ s.skillPromotionRequests.rows)
    (hpending : r.status = .pending) : ∃ p a, Reads env s r p a := by
  obtain ⟨p, hget, hskill, hopen⟩ := hp.openProposal r hr hpending
  have hineffective : r.status = .promoted ↔ False := by rw [hpending]; exact ⟨nofun, nofun⟩
  obtain ⟨a, ha⟩ := (hp.ledger.promotions r hr).congr hineffective
  refine ⟨p, a, get?_of_mem hr, hpending, hp.requests r hr, hget, hskill, hopen,
    hp.proposals p (mem_of_get? hget), ha, ?_⟩
  exact hp.unexpired a (mem_of_get? ha.stored)
    (by rw [ha.requested.kind]; nofun) ha.requested.noDeadline

theorem Reads.proposal_ok (h : Reads env s r p a) : loadPromotionProposal s r = .ok p := by
  have hid : p.id = r.proposalId := key_of_get? h.proposal
  refine bind_eq_ok.2 ⟨p, found_eq_ok.2 h.proposal,
    bind_eq_ok.2 ⟨(), require_eq_ok.2 ?_, bind_eq_ok.2 ⟨(), ?_, rfl⟩⟩⟩
  · simp [hid, h.skill]
  · simp [h.notClosed]

theorem Reads.approval_ok (h : Reads env s r p a) : loadPromotionApproval s r = .ok (some a) := by
  rw [loadPromotionApproval, h.approval.named]
  refine bind_eq_ok.2 ⟨a, found_eq_ok.2 h.approval.stored,
    bind_eq_ok.2 ⟨(), require_eq_ok.2 ?_, rfl⟩⟩
  simp [h.approval.requested.kind, h.approval.requested.subject, h.approval.requested.fingerprint]

theorem saveProposal_ok {status : SkillProposalStatus} (hp : p.checked env = .ok p)
    (hclosed : status.isClosed = true) :
    saveProposal env s { p with status := status } = .ok { s with
      skillImprovementProposals :=
  s.skillImprovementProposals.put { p with status := status } } := by
  refine bind_eq_ok.2 ⟨_, SkillImprovementProposal.checked_status status hp,
    bind_eq_ok.2 ⟨(), ?_, rfl⟩⟩
  exact require_eq_ok.2 (by rw [oneOpen, hclosed, Bool.true_or])

variable {resolver : Option String}

theorem closePromotion_ok (s : SkillDb) (hr : r.checked = .ok r) (hp : p.checked env = .ok p)
    (hstatus : status ≠ .promoted ∨ r.promotedRevisionId = some r.targetRevisionId)
    (hclosed : proposalStatus.isClosed = true) :
    ∃ r' s', closePromotion env s r p status proposalStatus now resolver = .ok (r', s') ∧ s'.approvals = s.approvals ∧
      s'.skillPromotionRequests.get? r.id = some r' ∧ r'.status = status := by
  let done : SkillPromotionRequest :=
    { r with status := status, resolvedAt := some now, resolver := resolver }
  refine ⟨done, _, bind_eq_ok.2 ⟨done, SkillPromotionRequest.checked_status hr hstatus,
    bind_eq_ok.2 ⟨_, saveProposal_ok hp hclosed, rfl⟩⟩, rfl, ?_, rfl⟩
  exact get?_put_self s.skillPromotionRequests done

theorem Reads.withdraw (h : Reads env s r p a) (hended : status ≠ .pending ∧ status ≠ .promoted)
    (hclosed : proposalStatus.isClosed = true) (hfollow : ∃ s₁, followApproval s (some a) target now resolver = .ok s₁) :
    ∃ r' s', withdrawPromotion env s r.id target status proposalStatus resolver now = .ok (r', s') ∧
      s'.skillPromotionRequests.get? r.id = some r' ∧ r'.status ≠ .pending := by
  obtain ⟨s₁, hs₁⟩ := hfollow
  have hfound : (s.skillPromotionRequests.get? r.id).filter (·.status = .pending) = some r := by
    rw [h.stored, Option.filter_some, if_pos (decide_eq_true h.pending)]
  obtain ⟨r', s', hclose, -, hget, hstatus⟩ :=
    closePromotion_ok s₁ h.checked h.proposalChecked (.inl hended.2) hclosed
  refine ⟨r', s', ?_, hget, by rw [hstatus]; exact hended.1⟩
  exact bind_eq_ok.2 ⟨r, found_eq_ok.2 hfound, bind_eq_ok.2 ⟨p, h.proposal_ok, bind_eq_ok.2 ⟨_, h.approval_ok,
    bind_eq_ok.2 ⟨s₁, hs₁, hclose⟩⟩⟩⟩

theorem follow_same (h : a.status = target) :
    ∃ s₁, followApproval s (some a) target now resolver = .ok s₁ :=
  ⟨s, if_pos h⟩

theorem follow_rejected (h : a.status = .pending) :
    ∃ s₁, followApproval s (some a) .rejected now (some "operator") = .ok s₁ := by
  have hresolver : ApprovalRequest.normalizedResolver (some "operator") = .ok (some (PyText.strip "operator")) := by
    rw [ApprovalRequest.normalizedResolver, if_neg (by decide)]
  have hresolve : ∃ a', Runs.transitionApproval a .rejected now (some "operator") none = .ok a' :=
    ⟨_, bind_eq_ok.2 ⟨"operator", rfl, bind_eq_ok.2 ⟨(), require_eq_ok.2 (decide_eq_true h),
      bind_eq_ok.2 ⟨_, hresolver, rfl⟩⟩⟩⟩
  obtain ⟨a', hresolve⟩ := hresolve
  have hne : ¬ a.status = .rejected := by rw [h]; nofun
  exact ⟨_, (if_neg hne).trans (bind_eq_ok.2 ⟨(), require_eq_ok.2 (decide_eq_true h),
    bind_eq_ok.2 ⟨a', hresolve, rfl⟩⟩)⟩

theorem version_lt_nextVersion {rev : SkillRevision} (hrev : rev ∈ s.skillRevisions.rows) :
    rev.version < nextVersion s rev.skillId := by
  have le : ∀ {l : List Nat} {n : Nat}, n ∈ l → n ≤ l.foldr max 0 := by
    intro l n hn
    induction l with
    | nil => cases hn
    | cons m l ih =>
      rcases List.mem_cons.1 hn with rfl | hn
      · exact le_max_left _ _
      · exact (ih hn).trans (le_max_right _ _)
  exact Nat.lt_succ_of_le (le (List.mem_map.2 ⟨rev, List.mem_filter.2 ⟨hrev, decide_eq_true rfl⟩,
    rfl⟩))

/-- The instructions of a stored proposal make a revision. -/
theorem SkillRevision.new_ok {id : SkillRevisionId} {skillId : SkillId} {version : Nat}
    {requestId : SkillPromotionRequestId} (hp : p.checked env = .ok p) (hversion : 1 ≤ version) :
    ∃ rev, SkillRevision.new env id skillId version p.proposedInstructions .generated now
      (some requestId) = .ok rev ∧ rev.skillId = skillId ∧ rev.version = version := by
  obtain ⟨instructions, hi, -⟩ := bind_ok hp
  have hsame : instructions = p.proposedInstructions := by
    obtain ⟨_, _, hi⟩ := bind_rest₂ hi
    exact (Except.ok.inj hi).symm
  rw [hsame] at hi
  have hprovenance : SkillRevisionSourceKind.generated = .generated ↔
    (some requestId).isSome = true := by simp
  refine ⟨⟨id, skillId, version, p.proposedInstructions, env.sha256 p.proposedInstructions,
    .generated, now, some requestId, hprovenance⟩, ?_, rfl, rfl⟩
  refine bind_eq_ok.2 ⟨(), require_eq_ok.2 (decide_eq_true hversion),
    (dif_pos hprovenance).trans ?_⟩
  exact bind_eq_ok.2 ⟨_, hi, bind_eq_ok.2 ⟨(), require_eq_ok.2 (env.sha256_isDigest _), rfl⟩⟩

/-- Nothing of the new revision is taken: not its id, not its version, not its promotion. -/
theorem Pending.addRevision_ok (hp : Pending env s.toSkillCore)
    (hr : r ∈ s.skillPromotionRequests.rows) (hpending : r.status = .pending) {rev : SkillRevision}
    (hid : rev.id = r.targetRevisionId) (hsource : rev.promotionRequestId = some r.id)
    (hversion : rev.version = nextVersion s rev.skillId) :
    addRevision s rev = .ok { s with skillRevisions := s.skillRevisions.put rev } := by
  refine bind_eq_ok.2 ⟨(), require_eq_ok.2 (List.all_eq_true.2 fun q hq => ?_),
    bind_eq_ok.2 ⟨_, ?_, rfl⟩⟩
  · have hpair : (q.skillId, q.version) ≠ (rev.skillId, rev.version) := by
      intro h
      obtain ⟨hskill, hsame⟩ := Prod.mk.inj h
      have hlt := version_lt_nextVersion hq
      rw [hskill, ← hversion] at hlt
      omega
    have hrequest : q.promotionRequestId ≠ rev.promotionRequestId := by
      intro h
      obtain ⟨r', hr', hid', hpromoted⟩ := hp.source q hq r.id (h.trans hsource)
      rw [eq_of_key hr' hr hid', hpending] at hpromoted
      cases hpromoted
    simp [hpair, hrequest]
  · exact Runs.insert_eq_ok.2 ⟨by rw [show key rev = r.targetRevisionId from hid]; exact hp.target r hr hpending, rfl⟩

theorem Pending.promote_ok (hp : Pending env s.toSkillCore) (h : Reads env s r p a)
    (happroved : a.status = .approved) (hfresh : isStale env s r p a = false)
    (resolver : Option String) : ∃ r' s', promote env s r p a resolver now = .ok (r', s') ∧
      s'.skillPromotionRequests.get? r.id = some r' ∧ r'.status ≠ .pending := by
  obtain ⟨-, skill, -, -, -, hskill, hactive, hversion⟩ := isStale_eq_false hfresh
  have hvalid : 1 ≤ r.targetVersion := by rw [← hversion]; exact Nat.succ_pos _
  obtain ⟨rev, hrev, hrevSkill, hrevVersion⟩ : ∃ rev, SkillRevision.new env r.targetRevisionId skill.id r.targetVersion
      p.proposedInstructions .generated now (some r.id) = .ok rev ∧ rev.skillId = skill.id ∧
        rev.version = r.targetVersion := SkillRevision.new_ok h.proposalChecked hvalid
  obtain ⟨hid, -, hsource, -⟩ := SkillRevision.new_eq_ok hrev
  have hadd := hp.addRevision_ok (mem_of_get? h.stored) h.pending hid hsource
    (by rw [hrevVersion, hrevSkill, hversion])
  have hchecked : SkillPromotionRequest.checked { r with promotedRevisionId := some rev.id } =
      .ok { r with promotedRevisionId := some rev.id } :=
    SkillPromotionRequest.checked_status h.checked (.inl (by rw [h.pending]; decide))
  have hactivate : skill.activate rev now = .ok { skill with activeRevisionId := some rev.id, updatedAt := now } :=
    bind_eq_ok.2 ⟨(), require_eq_ok.2 (by rw [hactive]; rfl),
      bind_eq_ok.2 ⟨(), require_eq_ok.2 (decide_eq_true hrevSkill), rfl⟩⟩
  have hunconsumed : a.consumedAt = none := by
    rw [← Option.not_isSome_iff_eq_none]
    exact h.approval.consumed.1
  have hconsume : consumeIfUnconsumed s.approvals a.id now = (true, s.approvals.put { a with consumedAt := some now }) :=
    update_of_get? h.approval.stored (by simp [happroved, ApprovalRequest.isConsumed, hunconsumed])
  let s₁ : SkillDb := { s with skillRevisions := s.skillRevisions.put rev }
  obtain ⟨r', s₂, hclose, happrovals, hget, hstatus⟩ : ∃ r' s', closePromotion env s₁
      { r with promotedRevisionId := some rev.id } p .promoted .promoted now resolver =
        .ok (r', s') ∧ s'.approvals = s₁.approvals ∧ s'.skillPromotionRequests.get? r.id = some r' ∧
        r'.status = .promoted :=
    closePromotion_ok s₁ hchecked h.proposalChecked (.inr (congrArg some hid)) rfl
  let skill' : Skill := { skill with activeRevisionId := some rev.id, updatedAt := now }
  let s₃ : SkillDb := { s₂ with skills := s₂.skills.put skill', approvals := s.approvals.put { a with consumedAt := some now } }
  refine ⟨r', s₃, ?_, hget, by rw [hstatus]; decide⟩
  have hgetSkill : getSkill s r.skillId = .ok skill := found_eq_ok.2 hskill
  rw [promote, ok_bind hgetSkill, ok_bind hrev, ok_bind hadd, ok_bind hclose]
  show (do let skill ← skill.activate rev now; _) = _
  rw [ok_bind hactivate, happrovals, hconsume]
  rfl

theorem Pending.execute_ok (hp : Pending env s.toSkillCore) (h : Reads env s r p a) (happroved : a.status = .approved) :
    ∃ r' s', executeSkillPromotion env s r.id none now = .ok (r', s') ∧
      s'.skillPromotionRequests.get? r.id = some r' ∧ r'.status ≠ .pending := by
  have hunconsumed : a.isConsumed = false := by
    rw [ApprovalRequest.isConsumed, Bool.eq_false_iff]
    exact h.approval.consumed.1
  have hbody : ∃ r' s', (if isStale env s r p a then
        closePromotion env s r p .stale .superseded now (orResolver none a)
      else promote env s r p a (orResolver none a) now) = .ok (r', s') ∧
      s'.skillPromotionRequests.get? r.id = some r' ∧ r'.status ≠ .pending := by
    cases hstale : isStale env s r p a with
    | true =>
      obtain ⟨r', s', hclose, -, hget, hstatus⟩ : ∃ r' s', closePromotion env s r p .stale .superseded now
          (orResolver none a) = .ok (r', s') ∧ s'.approvals = s.approvals ∧
            s'.skillPromotionRequests.get? r.id = some r' ∧ r'.status = .stale :=
        closePromotion_ok s h.checked h.proposalChecked (.inl (by decide)) rfl
      exact ⟨r', s', hclose, hget, by rw [hstatus]; decide⟩
    | false => exact hp.promote_ok h happroved hstale _
  obtain ⟨r', s', hbody, hresult⟩ := hbody
  refine ⟨r', s', ?_, hresult⟩
  exact bind_eq_ok.2 ⟨r, found_eq_ok.2 h.stored, bind_eq_ok.2 ⟨(), require_eq_ok.2 (decide_eq_true h.pending),
    bind_eq_ok.2 ⟨p, h.proposal_ok, bind_eq_ok.2 ⟨_, h.approval_ok, bind_eq_ok.2 ⟨a, rfl, bind_eq_ok.2 ⟨(),
      require_eq_ok.2 (by rw [happroved, hunconsumed]; rfl), hbody⟩⟩⟩⟩⟩⟩

end

theorem pending_of_reachable
    (h : ((skillSystem env).restrict fun s a => leavesPending s a = true).Reachable s) :
    Pending env s.toSkillCore := by
  refine h.invariant (fun s => Pending env s.toSkillCore)
    (fun _ hs => hs ▸ .empty) fun s a s' _ hp hn => ?_
  obtain ⟨hleaves, hn⟩ := hn
  exact hp.move (act_move (pending_allows hleaves) (skillSystem_next hn))

/-- When no proposal under a pending promotion is cancelled, the proposal of a pending promotion is
open, and at any time one of the three use cases closes the promotion. -/
theorem pending_promotion_closable (env : Env) {s : SkillDb}
    (h : ((skillSystem env).restrict fun s a => leavesPending s a = true).Reachable s) {r : SkillPromotionRequest}
    (hr : r ∈ s.skillPromotionRequests.rows) (hpending : r.status = .pending) :
    (∃ p, s.skillImprovementProposals.get? r.proposalId = some p ∧ p.status.isClosed = false) ∧
    ∀ now, ∃ a ∈ closing r.id now, ∃ s', (skillSystem env).next s a s' ∧
      ∃ r', s'.skillPromotionRequests.get? r.id = some r' ∧ r'.status ≠ .pending := by
  have hp := pending_of_reachable h
  obtain ⟨p, a, hreads⟩ := hp.reads hr hpending
  refine ⟨⟨p, hreads.proposal, hreads.notClosed⟩, fun now => ?_⟩
  have committed : ∀ {action : SkillAction} {x : Result (SkillPromotionRequest × SkillDb)},
      act env s action = x.map (·.2) → action ∈ closing r.id now →
      (∃ r' s', x = .ok (r', s') ∧ s'.skillPromotionRequests.get? r.id = some r' ∧ r'.status ≠ .pending) →
      ∃ a ∈ closing r.id now, ∃ s', (skillSystem env).next s a s' ∧
        ∃ r', s'.skillPromotionRequests.get? r.id = some r' ∧ r'.status ≠ .pending := by
    rintro action x hact hmem ⟨r', s', rfl, hget, hstatus⟩
    exact ⟨action, hmem, s', ⟨toOption_eq_some.2 hact, trivial⟩, r', hget, hstatus⟩
  cases hstatus : a.status with
  | pending =>
    exact committed rfl (.tail _ (.head _)) (hreads.withdraw (by decide) rfl (follow_rejected hstatus))
  | rejected =>
    exact committed rfl (.tail _ (.head _)) (hreads.withdraw (by decide) rfl (follow_same hstatus))
  | cancelled =>
    exact committed rfl (.tail _ (.tail _ (.head _))) (hreads.withdraw (by decide) rfl (follow_same hstatus))
  | approved => exact committed rfl (.head _) (hp.execute_ok hreads hstatus)
  | expired => exact absurd hstatus hreads.unexpired

/-- The sample's promotion, waiting for its approval. -/
def requestedActions : List SkillAction :=
  proposedActions ++ [compareBetter, .requestSkillPromotion 1 ⟨1, 2, 1⟩ 6]

theorem pending_promotion_closable_sample :
    ∃ s, ((skillSystem sampleEnv).restrict fun s a => leavesPending s a = true).Reachable s ∧
      ∃ r ∈ s.skillPromotionRequests.rows, r.status = .pending ∧ ∃ a ∈ closing r.id 7, ∃ s',
        (skillSystem sampleEnv).next s a s' ∧
          ∃ r', s'.skillPromotionRequests.get? r.id = some r' ∧ r'.status ≠ .pending := by
  have hlegal : System.Legal (commit sampleEnv) (fun s a => True ∧ leavesPending s a = true) emptyDb requestedActions ∧
      ∃ r ∈ (System.run (commit sampleEnv) emptyDb requestedActions).skillPromotionRequests.rows,
        r.status = .pending := by decide +kernel
  obtain ⟨hlegal, r, hr, hpending⟩ := hlegal
  have hinit : ((skillSystem sampleEnv).restrict fun s a => leavesPending s a = true).init
    emptyDb := rfl
  have hreachable := System.Reachable.steps (.of_init hinit) (.run_restrict hlegal)
  exact ⟨_, hreachable, r, hr, hpending, (pending_promotion_closable sampleEnv hreachable hr
    hpending).2 7⟩

/-! ## A promotion that cannot be closed -/

section
variable (hr : s.skillPromotionRequests.get? r.id = some r)
include hr

theorem withdrawPromotion_open {r' : SkillPromotionRequest} {resolver : Option String}
    (h : withdrawPromotion env s r.id target status proposalStatus resolver now = .ok (r', s')) :
    ∃ p, s.skillImprovementProposals.get? r.proposalId = some p ∧ p.status.isClosed = false := by
  obtain ⟨q, hq, h⟩ := bind_ok h
  obtain ⟨p, hp, -⟩ := bind_ok h
  obtain ⟨hq, -⟩ := Option.filter_eq_some_iff.1 (found_eq_ok.1 hq)
  obtain rfl := Option.some.inj (hr.symm.trans hq)
  exact ⟨p, loadPromotionProposal_eq_ok hp⟩

theorem closing_open {optional : Option String}
    {resolver : String} {a : SkillAction}
    (ha : a ∈ [SkillAction.executeSkillPromotion r.id optional now, .rejectSkillPromotion r.id resolver now,
      .cancelSkillPromotion r.id now]) (h : act env s a = .ok s') :
    ∃ p, s.skillImprovementProposals.get? r.proposalId = some p ∧ p.status.isClosed = false := by
  simp only [List.mem_cons, List.not_mem_nil, or_false] at ha
  rcases ha with rfl | rfl | rfl
  · obtain ⟨_, h⟩ := map_snd_eq_ok.1 h
    obtain ⟨q, hq, h⟩ := bind_ok h
    obtain ⟨_, h⟩ := bind_rest h
    obtain ⟨p, hp, -⟩ := bind_ok h
    obtain rfl := Option.some.inj (hr.symm.trans (found_eq_ok.1 hq))
    exact ⟨p, loadPromotionProposal_eq_ok hp⟩
  · obtain ⟨_, h⟩ := map_snd_eq_ok.1 h
    exact withdrawPromotion_open hr h
  · obtain ⟨_, h⟩ := map_snd_eq_ok.1 h
    exact withdrawPromotion_open hr h

end

/-- The proposal is cancelled under its pending promotion: whatever becomes of the approval, none of
the three use cases commits. -/
theorem pending_promotion_stuck : ∃ s r p, (skillSystem sampleEnv).Reachable s ∧
    s.skillPromotionRequests.get? r.id = some r ∧ r.status = .pending ∧
    s.skillImprovementProposals.get? r.proposalId = some p ∧ p.status = .cancelled ∧
    ∀ (approvals : Approvals) (optional : Option String) (resolver : String) (now : Time),
      ∀ a ∈ [SkillAction.executeSkillPromotion r.id optional now, .rejectSkillPromotion r.id resolver now,
        .cancelSkillPromotion r.id now],
        ∀ s', ¬ (skillSystem sampleEnv).next { s with approvals := approvals } a s' := by
  have hlegal : System.Legal (commit sampleEnv) (fun _ _ => True) emptyDb
        (requestedActions ++ [.cancelSkillImprovementProposal 1]) ∧
      ∃ r ∈ (System.run (commit sampleEnv) emptyDb
          (requestedActions ++ [.cancelSkillImprovementProposal 1])).skillPromotionRequests.rows, r.status = .pending ∧
        ((System.run (commit sampleEnv) emptyDb
          (requestedActions ++ [.cancelSkillImprovementProposal 1])).skillImprovementProposals.get?
            r.proposalId).any (·.status = .cancelled) = true := by decide +kernel
  obtain ⟨hlegal, hr⟩ := hlegal
  have hreachable := skillSystem_run hlegal
  generalize System.run (commit sampleEnv) emptyDb (requestedActions ++
    [.cancelSkillImprovementProposal 1]) = s at hr hreachable
  obtain ⟨r, hr, hpending, hany⟩ := hr
  obtain ⟨p, hp, hcancelled⟩ := (Option.any_eq_true _ _).1 hany
  have hcancelled : p.status = .cancelled := of_decide_eq_true hcancelled
  have hget := get?_of_mem hr
  refine ⟨s, r, p, hreachable, hget, hpending, hp, hcancelled,
    fun approvals optional resolver now a ha s' hn => ?_⟩
  obtain ⟨q, hq, hopen⟩ :=
    closing_open (s := { s with approvals := approvals }) hget ha (skillSystem_next hn)
  obtain rfl := Option.some.inj (hp.symm.trans hq)
  rw [hcancelled] at hopen
  cases hopen

end Friday.Skills
