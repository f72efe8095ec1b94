import FridayAssistant.Domain.Registry
import FridayAssistant.Skills.Work
/-!
# What the improvement policy decides (skill_improvement_policy.py)

The policy keeps a list of its own of the statuses that are over. `SUPERSEDED` and `EXPIRED` are not
on it: such a proposal is closed to the unique index and to the promotions, but takes the one place
`max_open_proposals` leaves.
-/
namespace Friday.Skills
open Tables

/-- The fields the decision reads, with their bounds from `__post_init__`. -/
structure SkillImprovementPolicy where
  enabled : Bool
  minimumUsageRecords : Nat
  minimumFailures : Nat
  minimumHarmfulFeedback : Nat
  cooldownSeconds : Nat
  maxOpenProposals : Nat
  evidenceWindowSize : Nat
  lastTriggeredAt : Option Time
  one_open : maxOpenProposals = 1
  window : 1 ≤ evidenceWindowSize ∧ evidenceWindowSize ≤ 200

inductive SkillFeedbackRating where
  | helpful | neutral | harmful
  deriving DecidableEq

/-- What `skill_usage_records.list_for_skill` and `skill_run_feedback.list_for_run_skill` answer. -/
structure UsageEvidence where
  usage : SkillId → Nat → List SkillUsageRecord
  feedback : RunId → SkillId → List SkillFeedbackRating

/-- The status is counted in `open_count`. -/
def SkillProposalStatus.countsAsOpen : SkillProposalStatus → Bool
  | .cancelled | .rejected | .promoted => false
  | _ => true

/-- The status is in the condition of `uq_skill_improvement_proposals_one_open`. -/
def SkillProposalStatus.isIndexed : SkillProposalStatus → Bool
  | .draft | .readyForEvaluation | .evaluating | .readyForReview | .approved => true
  | _ => false

abbrev SkillImprovementProposals := Table SkillImprovementProposal

/-- `list_for_skill`: by creation time and id. -/
def SkillImprovementProposals.listForSkill (t : SkillImprovementProposals) (skillId : SkillId) :
    List SkillImprovementProposal :=
  (t.select (·.skillId = skillId)).insertionSort fun a b =>
    a.createdAt < b.createdAt ∨ a.createdAt = b.createdAt ∧ a.id ≤ b.id

/-- What `RunSkillImprovementPolicyNow` reads outside the work table. -/
def dueInput (policy : Option SkillImprovementPolicy) (proposals : SkillImprovementProposals)
    (evidence : UsageEvidence) (skillId : SkillId) (now : Time) : DueInput :=
  match policy with
  | none => ⟨false, none, false, false⟩
  | some policy =>
    let usage := evidence.usage skillId policy.evidenceWindowSize
    let failures := usage.countP (·.outcome = .failed)
    let harmful := (usage.flatMap fun item => evidence.feedback item.runId skillId).count .harmful
    let openCount := (proposals.listForSkill skillId).countP (·.status.countsAsOpen)
    { enabled := policy.enabled
      resumable := ((proposals.listForSkill skillId).find? (·.status = .readyForEvaluation)).map (·.id)
      coolingDown := policy.lastTriggeredAt.any fun last => now - last < policy.cooldownSeconds * 1000000
      evidence := !(usage.length < policy.minimumUsageRecords || failures < policy.minimumFailures ||
        harmful < policy.minimumHarmfulFeedback || policy.maxOpenProposals ≤ openCount) }

/-- The answer of `RunSkillImprovementPolicyNow`. -/
def isDue (policy : Option SkillImprovementPolicy) (proposals : SkillImprovementProposals)
    (evidence : UsageEvidence) (works : Works) (skillId : SkillId) (id : SkillImprovementWorkId)
    (now : Time) : Bool :=
  (runSkillImprovementPolicyNow works skillId
    (dueInput policy proposals evidence skillId now) id now).1

section
variable {policy : Option SkillImprovementPolicy} {t t' : SkillImprovementProposals}
  {evidence : UsageEvidence} {works : Works} {skillId : SkillId} {id : SkillImprovementWorkId}
  {now : Time} {s : SkillProposalStatus}

theorem runSkillImprovementPolicyNow_fst {input : DueInput} :
    (runSkillImprovementPolicyNow works skillId input id now).1 = (input.enabled && ((getActiveForSkill works skillId).isSome ||
      input.resumable.isSome || !input.coolingDown && input.evidence)) := by
  obtain ⟨enabled, resumable, coolingDown, evidence⟩ := input
  unfold runSkillImprovementPolicyNow
  cases enabled <;> cases (getActiveForSkill works skillId).isSome <;> cases resumable <;>
    cases coolingDown <;> cases evidence <;> rfl

/-- A count that leaves the status `s` out does not see the proposals in it. -/
theorem countP_listForSkill {p : SkillProposalStatus → Bool} (hp : p s = false)
    (h : ∀ q, q.status ≠ s → (q ∈ t.rows ↔ q ∈ t'.rows)) :
    (t.listForSkill skillId).countP (p ·.status) = (t'.listForSkill skillId).countP (p ·.status) := by
  have hnodup (t : SkillImprovementProposals) : (t.listForSkill skillId).Nodup :=
    (List.perm_insertionSort _ _).nodup_iff.2 (t.rows_nodup.filter _)
  have hperm : ((t.listForSkill skillId).filter (p ·.status)).Perm ((t'.listForSkill skillId).filter (p ·.status)) := by
    apply (List.perm_ext_iff_of_nodup ((hnodup t).filter _) ((hnodup t').filter _)).2
    intro q
    simp only [SkillImprovementProposals.listForSkill, Table.select, List.mem_filter,
      List.mem_insertionSort, decide_eq_true_eq]
    constructor <;> rintro ⟨⟨hq, hskill⟩, hpq⟩
    · exact ⟨⟨(h q fun hs => by simp [hs, hp] at hpq).1 hq, hskill⟩, hpq⟩
    · exact ⟨⟨(h q fun hs => by simp [hs, hp] at hpq).2 hq, hskill⟩, hpq⟩
  rw [List.countP_eq_length_filter, List.countP_eq_length_filter, hperm.length_eq]

theorem isDue_congr (hopen : s.countsAsOpen = false) (h : ∀ q, q.status ≠ s →
    (q ∈ t.rows ↔ q ∈ t'.rows)) : isDue policy t evidence works skillId id now =
      isDue policy t' evidence works skillId id now := by
  cases policy with
  | none => rfl
  | some policy =>
    have hready : decide (s = .readyForEvaluation) = false := by cases s <;> simp_all [SkillProposalStatus.countsAsOpen]
    have hcount : (t.listForSkill skillId).countP _ = _ := countP_listForSkill hopen h
    have hresumable : (t.listForSkill skillId).countP _ = _ :=
      countP_listForSkill (p := fun r => decide (r = .readyForEvaluation)) hready h
    have hfind (u : SkillImprovementProposals) :
        ((u.listForSkill skillId).find? (·.status = .readyForEvaluation)).isSome =
          decide (0 < (u.listForSkill skillId).countP (·.status = .readyForEvaluation)) := by
      rw [Bool.eq_iff_iff, List.find?_isSome, decide_eq_true_iff, List.countP_pos_iff]
    simp only [isDue, runSkillImprovementPolicyNow_fst, dueInput, Option.isSome_map, hfind, hcount, hresumable]

end

/-- A policy without a threshold. -/
def eagerPolicy : SkillImprovementPolicy := ⟨true, 0, 0, 0, 0, 1, 1, none, rfl, by decide⟩

def proposalIn (s : SkillProposalStatus) : SkillImprovementProposal :=
  ⟨1, 7, 2, s, "", 3, "", "", "", "", "", "", "", 0⟩

/-- With one proposal in the status `s`, or with none. -/
def eagerIsDue (rows : Option SkillProposalStatus) : Bool :=
  isDue (some eagerPolicy) ⟨(rows.map proposalIn).toList, by cases rows <;> simp⟩ ⟨fun _ _ => [],
    fun _ _ => []⟩ Table.empty 7 4 0

/-- The two tables have the same proposals in every other status. -/
theorem same_but {s : SkillProposalStatus} {q : SkillImprovementProposal} (hq : q.status ≠ s) :
    q ∈ ((some s).map proposalIn).toList ↔ q ∈ ((none : Option SkillProposalStatus).map proposalIn).toList := by
  have hne : q ≠ proposalIn s := fun e => hq (by rw [e]; rfl)
  simp [hne]

theorem superseded_proposal_blocks :
    SkillProposalStatus.superseded.isClosed = true ∧ eagerIsDue none = true ∧
      eagerIsDue (some .superseded) = false ∧ SkillProposalStatus.superseded.countsAsOpen = true ∧
      SkillProposalStatus.superseded.isIndexed = false := by decide

/-- The proposals in a closed status never change the decision if, and only if, the status is
neither `SUPERSEDED` nor `EXPIRED`; and for these two alone the policy and the unique index
differ. -/
theorem closed_proposals_ignored_iff (s : SkillProposalStatus) (hclosed : s.isClosed = true) :
    ((∀ policy evidence works skillId id now (t t' : SkillImprovementProposals),
        (∀ q, q.status ≠ s → (q ∈ t.rows ↔ q ∈ t'.rows)) →
        isDue policy t evidence works skillId id now = isDue policy t' evidence works skillId id now) ↔
      s ≠ .superseded ∧ s ≠ .expired) ∧
    ∀ r : SkillProposalStatus, r.countsAsOpen = r.isIndexed ↔ r ≠ .superseded ∧ r ≠ .expired := by
  refine ⟨⟨fun h => ?_, ?_⟩, fun r => by cases r <;> decide⟩
  · have hblocks : eagerIsDue none = eagerIsDue (some s) := h _ _ _ _ _ _ _ _ fun _ hq => (same_but hq).symm
    constructor <;> rintro rfl <;> revert hblocks <;> decide
  · rintro ⟨hsuperseded, hexpired⟩ policy evidence works skillId id now t t' h
    apply isDue_congr _ h
    cases s <;> simp_all [SkillProposalStatus.countsAsOpen, SkillProposalStatus.isClosed]

/-- A rejected proposal changes nothing: the eager policy is due with it and without it. -/
theorem closed_proposals_ignored_iff_rejected :
    eagerIsDue (some .rejected) = eagerIsDue none ∧ eagerIsDue none = true := by
  have hignored := (closed_proposals_ignored_iff .rejected rfl).1.2 (by decide)
  exact ⟨hignored _ _ _ _ _ _ _ _ fun _ hq => same_but hq, by decide⟩

end Friday.Skills
