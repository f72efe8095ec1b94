import Mathlib
import FridayAssistant.Skills.System
import FridayAssistant.Tools.Authorization
/-!
# The comparison of a candidate with its baseline (skill_evaluation.py)

The verdict pairs the two runs case by case. Once every frozen case was graded exactly once in each
of them, a result has exactly one partner in the other list, and the verdict is a statement about
these pairs alone.
-/
namespace Friday.Skills
open PyJson

/-- A frozen suite with these case ids, as `SkillEvaluationRun.__post_init__` wants it. -/
structure FrozenCases (suiteSnapshot : JsonValue) (ids : List String) : Prop where
  frozen : ∃ cases, suiteSnapshot.get? "cases" = some (.arr cases) ∧
    cases.map (·.get? "id") = ids.map (some <| .str ·)
  nonempty : ids ≠ []
  distinct : ids.Nodup

/-- One result for each frozen case: none missing, none extra, none twice. -/
def EachOnce (ids : List String) (results : List SkillEvaluationCaseResult) : Prop :=
  (results.map (Uuid.text ·.caseId)).Perm ids

/-- No result of `new` is below that of `old` for the same case. -/
def NoneLower (old new : List SkillEvaluationCaseResult) : Prop :=
  ∀ a ∈ old, ∀ b ∈ new, b.caseId = a.caseId → a.score ≤ b.score

section
variable (env : Env) {ids : List String} {baseline candidate : SkillEvaluationRun}
  {old new new' old' : List SkillEvaluationCaseResult} {a b : SkillEvaluationCaseResult}

theorem filterMap_ids {cases : List JsonValue}
    (h : cases.map (·.get? "id") = ids.map (some <| .str ·)) :
    (cases.filterMap fun item => match item.get? "id" with
      | some (.str id) => some id
      | _ => none) = ids := by
  induction cases generalizing ids with
  | nil => exact (List.map_eq_nil_iff.1 h.symm).symm
  | cons item cases ih =>
    obtain ⟨id, ids, rfl, hid, hrest⟩ := List.map_eq_cons_iff.1 h.symm
    have hid : item.get? "id" = some (.str id) := hid.symm
    simp [hid, ih hrest.symm]

theorem snapshotIds_eq {suiteSnapshot : JsonValue} (h : FrozenCases suiteSnapshot ids) :
    snapshotIds suiteSnapshot = ids := by
  obtain ⟨cases, hcases, hids⟩ := h.frozen
  simp only [snapshotIds, hcases]
  exact (congrArg List.dedup (filterMap_ids hids)).trans h.distinct.dedup

theorem isComplete_iff (hids : ids.Nodup) (hne : ids ≠ []) :
    isComplete ids old new = true ↔ EachOnce ids old ∧ EachOnce ids new := by
  have hgraded (results : List SkillEvaluationCaseResult) :
      (results.length = ids.length ∧ (∀ r ∈ results, Uuid.text r.caseId ∈ ids)) ∧
        (∀ id ∈ ids, ∃ r ∈ results, Uuid.text r.caseId = id) ↔ EachOnce ids results := by
    constructor
    · rintro ⟨⟨hlength, -⟩, hmem⟩
      have hsub : ids ⊆ results.map (Uuid.text ·.caseId) := fun id hid => List.mem_map.2 (hmem id hid)
      exact ((List.subperm_of_subset hids hsub).perm_of_length_le (by simp [hlength])).symm
    · intro h
      refine ⟨⟨by simpa using h.length_eq, fun r hr => h.subset (List.mem_map_of_mem hr)⟩, fun id hid => ?_⟩
      simpa using h.symm.subset hid
  rw [← hgraded, ← hgraded]
  simp [isComplete, hne]

theorem EachOnce.partner (hold : EachOnce ids old) (hnew : EachOnce ids new) (ha : a ∈ old) :
    ∃ b ∈ new, b.caseId = a.caseId := by
  obtain ⟨b, hb, htext⟩ := List.mem_map.1 ((hold.trans hnew.symm).subset (List.mem_map_of_mem ha))
  exact ⟨b, hb, Tools.text_injective htext⟩

theorem EachOnce.scoreOf (hids : ids.Nodup) (h : EachOnce ids new) (hb : b ∈ new) :
    scoreOf new b.caseId = b.score := by
  have hfound : (new.find? (·.caseId = b.caseId)).isSome := List.find?_isSome.2 ⟨b, hb, by simp⟩
  obtain ⟨c, hc⟩ := Option.isSome_iff_exists.1 hfound
  have hcase : c.caseId = b.caseId := by simpa using List.find?_some hc
  have heq := List.inj_on_of_nodup_map (h.nodup_iff.2 hids)
    (List.mem_of_find?_eq_some hc) hb (by rw [hcase])
  rw [Skills.scoreOf, hc, heq]
  rfl

/-- The verdict on two complete runs, in terms of the pairs. -/
theorem eligible_iff (hs : FrozenCases baseline.suiteSnapshot ids) (hold : EachOnce ids old)
    (hnew : EachOnce ids new) (hbase : baseline.aggregateScore.isSome)
    (hcand : candidate.aggregateScore.isSome) : let v := verdict env baseline candidate old new
    (v.recommendation = .eligible ↔
      NoneLower old new ∧ ∃ a ∈ old, ∃ b ∈ new, b.caseId = a.caseId ∧ a.score < b.score) ∧
    v.regressions + v.improvements + v.inconclusive = ids.length := by
  intro v
  obtain ⟨x, hx⟩ := Option.isSome_iff_exists.1 hbase
  obtain ⟨y, hy⟩ := Option.isSome_iff_exists.1 hcand
  have hcomplete := (isComplete_iff hs.distinct hs.nonempty).2 ⟨hold, hnew⟩
  have hlower : NoneLower old new ↔ old.countP (fun r => scoreOf new r.caseId < r.score) = 0 := by
    rw [List.countP_eq_zero]
    constructor
    · intro h a ha
      obtain ⟨b, hb, hcase⟩ := hold.partner hnew ha
      simpa [← hcase, hnew.scoreOf hs.distinct hb] using h a ha b hb hcase
    · intro h a ha b hb hcase
      simpa [← hcase, hnew.scoreOf hs.distinct hb] using h a ha
  have hhigher : (∃ a ∈ old, ∃ b ∈ new, b.caseId = a.caseId ∧ a.score < b.score) ↔
      0 < old.countP (fun r => r.score < scoreOf new r.caseId) := by
    rw [List.countP_pos_iff]
    constructor
    · rintro ⟨a, ha, b, hb, hcase, hlt⟩
      exact ⟨a, ha, by simpa [← hcase, hnew.scoreOf hs.distinct hb] using hlt⟩
    · rintro ⟨a, ha, hlt⟩
      obtain ⟨b, hb, hcase⟩ := hold.partner hnew ha
      exact ⟨a, ha, b, hb, hcase, by simpa [← hcase, hnew.scoreOf hs.distinct hb] using hlt⟩
  have hsum (l : List SkillEvaluationCaseResult) :
      l.countP (fun r => scoreOf new r.caseId < r.score) + l.countP (fun r => r.score < scoreOf new r.caseId) +
        l.countP (fun r => scoreOf new r.caseId = r.score) = l.length := by
    induction l with
    | nil => rfl
    | cons r l ih =>
      simp only [List.countP_cons, List.length_cons, decide_eq_true_eq]
      rcases lt_trichotomy (scoreOf new r.caseId) r.score with h | h | h
      · simp only [h, h.not_gt, h.ne, if_true, if_false]; omega
      · simp only [h, lt_irrefl, if_true, if_false]; omega
      · simp only [h, h.not_gt, h.ne', if_true, if_false]; omega
  have hlength : old.length = ids.length := by simpa using hold.length_eq
  rw [hlower, hhigher, ← hlength, ← hsum old]
  simp only [v, verdict, snapshotIds_eq hs, hcomplete, if_true, hx, hy]
  split
  · next h => exact ⟨by simp [h.ne'], rfl⟩
  · next h => split <;> simp_all

theorem verdict_perm (hs : FrozenCases baseline.suiteSnapshot ids) (hold : old'.Perm old)
    (hnew : new'.Perm new) :
    verdict env baseline candidate old' new' = verdict env baseline candidate old new := by
  have honce {l l' : List SkillEvaluationCaseResult} (h : l'.Perm l) : EachOnce ids l' ↔ EachOnce ids l :=
    ⟨(h.map _).symm.trans, (h.map _).trans⟩
  have hiff := @isComplete_iff ids
  have hcomplete : isComplete ids old' new' = isComplete ids old new := by
    rw [Bool.eq_iff_iff, hiff hs.distinct hs.nonempty, hiff hs.distinct hs.nonempty, honce hold, honce hnew]
  simp only [verdict, snapshotIds_eq hs, hcomplete, hold.length_eq, hnew.length_eq]
  split
  · next h =>
    have hnew₁ := ((hiff hs.distinct hs.nonempty).1 h).2
    have hscore : ∀ r ∈ old, scoreOf new' r.caseId = scoreOf new r.caseId := by
      intro r hr
      obtain ⟨b, hb, hcase⟩ := ((hiff hs.distinct hs.nonempty).1 h).1.partner hnew₁ hr
      rw [← hcase, hnew₁.scoreOf hs.distinct hb, ((honce hnew).2 hnew₁).scoreOf hs.distinct (hnew.mem_iff.2 hb)]
    have hcount (p : Rat → Rat → Bool) :
        old'.countP (fun r => p (scoreOf new' r.caseId) r.score) = old.countP (fun r => p (scoreOf new r.caseId) r.score) := by
      rw [hold.countP_eq]
      exact List.countP_congr fun r hr => by rw [hscore r hr]
    have hlt := hcount fun x y => decide (x < y)
    have hgt := hcount fun x y => decide (y < x)
    have heq := hcount fun x y => decide (x = y)
    simp only [hlt, hgt, heq]
  · rfl

end

/-- The comparison is exact on complete runs, does not depend on the order of the results, is
monotone in the scores of the candidate, and never recommends a candidate over results that are not
complete. -/
theorem comparison_exact_and_monotone (env : Env) {ids : List String}
    {baseline : SkillEvaluationRun} (hs : FrozenCases baseline.suiteSnapshot ids)
    (old new : List SkillEvaluationCaseResult) (candidate : SkillEvaluationRun) :
    let v := verdict env baseline candidate old new
    (∀ old' new', old'.Perm old → new'.Perm new → verdict env baseline candidate old' new' = v) ∧
    (¬ (EachOnce ids old ∧ EachOnce ids new) → v.recommendation = .notEligible) ∧
    (EachOnce ids old → EachOnce ids new → baseline.aggregateScore.isSome →
      candidate.aggregateScore.isSome → (v.recommendation = .eligible ↔
        NoneLower old new ∧ ∃ a ∈ old, ∃ b ∈ new, b.caseId = a.caseId ∧ a.score < b.score) ∧
      v.regressions + v.improvements + v.inconclusive = ids.length ∧
      ∀ (raised : SkillEvaluationRun) new', raised.aggregateScore.isSome → EachOnce ids new' →
        NoneLower new new' → v.recommendation = .eligible →
        (verdict env baseline raised old new').recommendation = .eligible) := by
  intro v
  refine ⟨fun old' new' hold hnew => verdict_perm env hs hold hnew, fun h => ?_,
    fun hold hnew hbase hcand => ?_⟩
  · rw [← isComplete_iff hs.distinct hs.nonempty] at h
    simp [v, verdict, snapshotIds_eq hs, h]
  · obtain ⟨hiff, hsum⟩ := eligible_iff env hs hold hnew hbase hcand
    refine ⟨hiff, hsum, fun raised new' hraised hnew' hup heligible => ?_⟩
    obtain ⟨hlower, a, ha, b, hb, hcase, hlt⟩ := hiff.1 heligible
    apply (eligible_iff env hs hold hnew' hbase hraised).1.2
    constructor
    · -- through the partner of the result in the first list
      intro a ha c hc hcase
      obtain ⟨b, hb, hb'⟩ := hold.partner hnew ha
      exact (hlower a ha b hb hb').trans (hup b hb c hc (hcase.trans hb'.symm))
    · obtain ⟨c, hc, hc'⟩ := hnew.partner hnew' hb
      exact ⟨a, ha, c, hc, hc'.trans hcase, hlt.trans_le (hup b hb c hc hc')⟩

/-- Three cases, reported in different orders; the first is solved by the candidate only. -/
theorem comparison_exact_and_monotone_sample :
    let suite : JsonValue :=
  .obj [("cases", .arr ([5, 6, 7].map fun id => .obj [("id", .str (Uuid.text id))]))]
    let run (id : SkillEvaluationRunId) (score : Rat) : SkillEvaluationRun :=
      ⟨id, 1, 2, none, none, "v", some score, suite, "", ""⟩
    let old : List SkillEvaluationCaseResult := [⟨3, 5, 0⟩, ⟨3, 6, 0⟩, ⟨3, 7, 1⟩]
    let new : List SkillEvaluationCaseResult := [⟨4, 7, 1⟩, ⟨4, 5, 1⟩, ⟨4, 6, 0⟩]
    (verdict sampleEnv (run 3 0) (run 4 1) old new).recommendation = .eligible ∧
      verdict sampleEnv (run 3 0) (run 4 1) old.reverse new.reverse = verdict sampleEnv (run 3 0) (run 4 1) old new := by
  intro suite run old new
  have hfrozen : FrozenCases (run 3 0).suiteSnapshot ([5, 6, 7].map Uuid.text) :=
    ⟨⟨_, rfl, rfl⟩, by simp, List.Nodup.map Tools.text_injective (by decide)⟩
  have hold : EachOnce ([5, 6, 7].map Uuid.text) old := .refl _
  have hnew : EachOnce ([5, 6, 7].map Uuid.text) new :=
    List.Perm.map Uuid.text (show [7, 5, 6].Perm [5, 6, 7] by decide)
  obtain ⟨hperm, -, hcomplete⟩ := comparison_exact_and_monotone sampleEnv hfrozen old new (run 4 1)
  refine ⟨(hcomplete hold hnew rfl rfl).1.2 ?_, hperm _ _ (List.reverse_perm _)
    (List.reverse_perm _)⟩
  unfold NoneLower
  decide

end Friday.Skills
