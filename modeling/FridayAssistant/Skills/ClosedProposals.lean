import FridayAssistant.Skills.Moves
/-!
# Closed proposals

A proposal is closed once it is REJECTED, SUPERSEDED, CANCELLED, EXPIRED or PROMOTED. Two use cases
open it again or close it differently (`closed_proposal_reopened`):

* `CompareSkillImprovementProposal` never looks at the status; a proposal that was cancelled before
  it had a comparison becomes READY_FOR_REVIEW;
* `CancelSkillImprovementProposal` refuses three of the five closed statuses only; a SUPERSEDED
  proposal becomes CANCELLED.

Those two are the only ones: a committed step keeps every closed proposal exactly when it is not
one of them (`closed_proposals_stay`).
-/
namespace Friday.Skills
open Tables Table Transition

/-- The step neither cancels nor compares a proposal that is closed already. -/
def leavesClosed (s : SkillDb) : SkillAction → Bool
  | .cancelSkillImprovementProposal id =>
    (s.skillImprovementProposals.get? id).all fun p => p.status ≠ .superseded && p.status ≠ .expired
  | .compareSkillImprovementProposal _ id _ _ _ _ =>
    (s.skillImprovementProposals.get? id).all fun p => !p.status.isClosed
  | _ => true

/-- Every closed proposal of `c` is in `c'` as it was. -/
def KeepsClosed (c c' : SkillCore) : Prop :=
  ∀ p ∈ c.skillImprovementProposals.rows, p.status.isClosed = true →
    c'.skillImprovementProposals.get? p.id = some p

/-- No closed proposal is written. -/
def Guard.closed : Guard where
  cancel _ p := p.status.isClosed = false
  compare _ p := p.status.isClosed = false

section
variable {env : Env} {c c' : SkillCore}

theorem keepsClosed_put {p p' : SkillImprovementProposal} {id : SkillImprovementProposalId}
    (hc' : c'.skillImprovementProposals = c.skillImprovementProposals.put p')
    (hp : c.skillImprovementProposals.get? id = some p) (hid : p'.id = id)
    (hopen : p.status.isClosed = false) : KeepsClosed c c' := by
  intro q hq hclosed
  have hget := get?_of_mem hq
  rw [hc', get?_put_ne fun h => ?_]
  · exact hget
  · have hqid : key q = id := (hid.symm.trans h).symm
    rw [hqid, hp] at hget
    cases hget
    rw [hclosed] at hopen
    cases hopen

theorem Move.keepsClosed (h : Move env .closed c c') : KeepsClosed c c' := by
  cases h with
  | propose fresh =>
    exact fun q hq _ => get?_put_fresh fresh (get?_of_mem hq)
  | cancelProposal hp _ allowed | compare hp _ _ _ allowed =>
    exact keepsClosed_put rfl hp rfl allowed
  | closePromotion _ _ hp notClosed | promote _ _ hp notClosed =>
    exact keepsClosed_put rfl hp (key_of_get? hp) notClosed
  | _ => exact fun q hq _ => get?_of_mem hq

end

theorem closed_allows {env : Env} {s s' : SkillDb} {a : SkillAction}
    (hleaves : leavesClosed s a = true) (h : act env s a = .ok s') : Guard.closed.Allows s a := by
  cases a with
  | cancelSkillImprovementProposal id =>
    intro p hp
    obtain ⟨_, h⟩ := map_snd_eq_ok.1 h
    obtain ⟨q, hq, hstatus, -⟩ := cancelSkillImprovementProposal_eq_ok h
    obtain rfl := Option.some.inj (hq.symm.trans hp)
    rw [leavesClosed, hp] at hleaves
    simp only [Option.all_some, Bool.and_eq_true, decide_eq_true_eq] at hleaves
    show q.status.isClosed = false
    cases hq : q.status <;> simp_all [SkillProposalStatus.isClosed]
  | compareSkillImprovementProposal _ id =>
    intro p hp
    rw [leavesClosed, hp] at hleaves
    show p.status.isClosed = false
    simpa using hleaves
  | _ => trivial

/-- A committed cancel or compare writes the proposal it names. -/
theorem leavesClosed_of_keeps {env : Env} {s s' : SkillDb} {a : SkillAction}
    (h : act env s a = .ok s') (hkeeps : KeepsClosed s.toSkillCore s'.toSkillCore) :
    leavesClosed s a = true := by
  cases a with
  | cancelSkillImprovementProposal id =>
    obtain ⟨_, h⟩ := map_snd_eq_ok.1 h
    obtain ⟨p, hp, -, rfl⟩ := cancelSkillImprovementProposal_eq_ok h
    rw [leavesClosed, hp, Option.all_some]
    by_contra hbad
    have hclosed : p.status.isClosed = true ∧ p.status ≠ .cancelled := by
      cases hs : p.status <;> simp_all [SkillProposalStatus.isClosed]
    have hstay := hkeeps p (mem_of_get? hp) hclosed.1
    have hnew := get?_put_self s.skillImprovementProposals { p with status := .cancelled }
    exact hclosed.2 (congrArg SkillImprovementProposal.status (Option.some.inj (hstay.symm.trans hnew)))
  | compareSkillImprovementProposal _ id =>
    obtain ⟨_, h⟩ := map_snd_eq_ok.1 h
    obtain ⟨p, hp, -, -, -, hs'⟩ := compareSkillImprovementProposal_eq_ok h
    rw [leavesClosed, hp, Option.all_some, Bool.not_eq_true']
    by_contra hbad
    have hclosed : p.status.isClosed = true := by simpa using hbad
    have hstay := hkeeps p (mem_of_get? hp) hclosed
    rw [hs'] at hstay
    have hnew := get?_put_self s.skillImprovementProposals { p with status := .readyForReview }
    rw [Option.some.inj (hstay.symm.trans hnew)] at hclosed
    cases hclosed
  | _ => rfl

/-- A committed step keeps the closed proposals exactly when it is no cancel or compare of a closed
one; so in a run of such steps a closed proposal is never written again. -/
theorem closed_proposals_stay (env : Env) :
    (∀ s a s', (skillSystem env).next s a s' →
      (leavesClosed s a = true ↔ KeepsClosed s.toSkillCore s'.toSkillCore)) ∧
    ∀ s s', ((skillSystem env).restrict fun s a => leavesClosed s a = true).Steps s s' →
      KeepsClosed s.toSkillCore s'.toSkillCore := by
  have step : ∀ s a s', (skillSystem env).next s a s' → leavesClosed s a = true →
      KeepsClosed s.toSkillCore s'.toSkillCore := fun s a s' hn hleaves =>
    (act_move (closed_allows hleaves (skillSystem_next hn)) (skillSystem_next hn)).keepsClosed
  refine ⟨fun s a s' hn => ⟨step s a s' hn, leavesClosed_of_keeps (skillSystem_next hn)⟩,
    fun s s' hsteps => ?_⟩
  induction hsteps with
  | refl => exact fun p hp _ => get?_of_mem hp
  | tail _ hstep ih =>
    obtain ⟨a, hleaves, hn⟩ := hstep
    intro p hp hclosed
    exact step _ a _ hn hleaves p (mem_of_get? (ih p hp hclosed)) hclosed

/-- The sample's proposal is cancelled. -/
def cancelledActions : List SkillAction := proposedActions ++ [.cancelSkillImprovementProposal 1]

/-- A proposal for another revision follows. -/
def proposedAgain : List SkillAction :=
  [.createSkillRevision 1 2 "older" .operator 6,
    .createSkillEvidenceSnapshot 2 1 2 sampleEvidence 7,
    .createSkillImprovementProposal 2 (sampleProposal 2 2) 8]

theorem closed_proposals_stay_sample : ∃ s s',
    ((skillSystem sampleEnv).restrict fun s a => leavesClosed s a = true).Steps s s' ∧
    (∃ p ∈ s.skillImprovementProposals.rows, p.status = .cancelled ∧
      s'.skillImprovementProposals.get? p.id = some p) ∧ (s'.skillImprovementProposals.get? 2).isSome = true := by
  let s := System.run (commit sampleEnv) emptyDb cancelledActions
  have hrun : System.Legal (commit sampleEnv) (fun s a => True ∧ leavesClosed s a = true) s proposedAgain ∧
      ((System.run (commit sampleEnv) s proposedAgain).skillImprovementProposals.get? 2).isSome = true ∧
      ∃ p ∈ s.skillImprovementProposals.rows, p.status = .cancelled := by decide +kernel
  obtain ⟨hlegal, hnew, p, hp, hcancelled⟩ := hrun
  have hsteps : ((skillSystem sampleEnv).restrict fun s a => leavesClosed s a = true).Steps s _ :=
    .run_restrict hlegal
  have hkept := (closed_proposals_stay sampleEnv).2 _ _ hsteps p hp (by rw [hcancelled]; rfl)
  exact ⟨s, _, hsteps, ⟨p, hp, hcancelled, hkept⟩, hnew⟩

/-- A cancelled proposal is compared and becomes ready for review. -/
theorem closed_proposal_reopened : ∃ s s', (skillSystem sampleEnv).Reachable s ∧
    (skillSystem sampleEnv).next s compareBetter s' ∧
    ∃ p ∈ s.skillImprovementProposals.rows, p.status = .cancelled ∧
      ∃ p' ∈ s'.skillImprovementProposals.rows, p'.id = p.id ∧ p'.status = .readyForReview := by
  let s := System.run (commit sampleEnv) emptyDb cancelledActions
  have hlegal : System.Legal (commit sampleEnv) (fun _ _ => True) emptyDb cancelledActions ∧
      ∃ p ∈ s.skillImprovementProposals.rows, p.status = .cancelled ∧ (commit sampleEnv s compareBetter).any (fun s' =>
        s'.skillImprovementProposals.rows.any fun p' => p'.id = p.id && p'.status = .readyForReview) = true := by
    decide +kernel
  obtain ⟨hlegal, p, hp, hcancelled, hreopened⟩ := hlegal
  obtain ⟨s', hs', hreopened⟩ := (Option.any_eq_true _ _).1 hreopened
  obtain ⟨p', hp', hready⟩ := List.any_eq_true.1 hreopened
  simp only [Bool.and_eq_true, decide_eq_true_eq] at hready
  exact ⟨s, s', skillSystem_run hlegal, ⟨hs', trivial⟩, p, hp, hcancelled, p', hp', hready⟩

end Friday.Skills
