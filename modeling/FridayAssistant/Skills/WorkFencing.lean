import FridayAssistant.Skills.Work
/-!
# Who writes a work item

`claim_for_skill` and `save_if_claimed` are fenced: they write a row for the worker that takes it
over, or that holds it. `_fail_work` is not, when it finds the row unclaimed: another worker that
claims it before the flush loses the claim, its state and its schedule to a worker that holds
nothing (`unclaimed_work_overwritten`).

As long as `_fail_work` finds no unclaimed row, every write is fenced (`work_fenced`).
-/
namespace Friday.Skills
open Tables Table Transition

/-- The worker holds the row's claim, and its lease has not run out. -/
def Holds (workerId : String) (now : Time) (w : SkillImprovementWork) : Prop :=
  w.claimedBy = some workerId ∧ ∃ e, w.leaseExpiresAt = some e ∧ now < e

/-- The worker takes over a row that is nobody's, or whose lease has run out, and writes nothing
else. -/
def Acquires (workerId : String) (now : Time) (w w' : SkillImprovementWork) : Prop :=
  (w.claimedBy = none ∨ ∃ e, w.leaseExpiresAt = some e ∧ e ≤ now) ∧
    ∃ claimToken leaseExpiresAt, w' = claimed workerId claimToken now leaseExpiresAt w

/-- The four claim columns are the same. -/
def SameClaim (w w' : SkillImprovementWork) : Prop :=
  w'.claimedBy = w.claimedBy ∧ w'.claimToken = w.claimToken ∧
    w'.claimGeneration = w.claimGeneration ∧ w'.leaseExpiresAt = w.leaseExpiresAt

/-- A row changes only for the worker that holds it or takes it over. -/
def Fenced (workerId : String) (now : Time) (t t' : Works) : Prop :=
  ∀ w ∈ t.rows, ∃ w' ∈ t'.rows, w'.id = w.id ∧
    (w' = w ∨ Holds workerId now w ∨ Acquires workerId now w w')

/-- The claims of other workers stay until their leases run out. -/
def KeepsClaims (workerId : String) (now : Time) (t t' : Works) : Prop :=
  ∀ w ∈ t.rows, ∀ v e, w.claimedBy = some v → v ≠ workerId → w.leaseExpiresAt = some e → now < e →
    ∃ w' ∈ t'.rows, w'.id = w.id ∧ SameClaim w w'

/-- `_fail_work` finds the active row of its skill claimed, or none. -/
def findsClaimed (s : WorkState) (a : WorkAction) : Bool :=
  match s.phase a.worker, a.op with
  | .failing skillId, .readActive => (getActiveForSkill s.works skillId).all (·.claimedBy.isSome)
  | _, _ => true

section
variable {workerId : String} {now : Time} {t t' : Works}

theorem Fenced.of_subset (h : ∀ w ∈ t.rows, w ∈ t'.rows) : Fenced workerId now t t' :=
  fun w hw => ⟨w, h w hw, rfl, .inl rfl⟩

theorem Fenced.refl : Fenced workerId now t t := .of_subset fun _ h => h

theorem Fenced.keepsClaims (h : Fenced workerId now t t') : KeepsClaims workerId now t t' := by
  intro w hw v e hv hne he hactive
  obtain ⟨w', hw', hid, rfl | ⟨hholds, -⟩ | ⟨hfree, -⟩⟩ := h w hw
  · exact ⟨w', hw', rfl, rfl, rfl, rfl, rfl⟩
  · exact absurd (Option.some.inj (hv.symm.trans hholds)) hne
  · rcases hfree with hnone | ⟨e', he', hle⟩
    · cases hv.symm.trans hnone
    · rw [he] at he'
      cases he'
      exact absurd hle (not_le.2 hactive)

variable {w : SkillImprovementWork} {claimToken : String}

theorem addIfActiveAbsent_mem {x : SkillImprovementWork} (hx : x ∈ t.rows) :
    x ∈ (addIfActiveAbsent t w).rows := by
  unfold addIfActiveAbsent
  split
  · next h =>
    have hfresh : t.get? w.id = none := Option.isNone_iff_eq_none.1 (Bool.and_eq_true_iff.1 h).1
    exact (mem_put_fresh hfresh).2 (.inr hx)
  · exact hx

theorem runSkillImprovementPolicyNow_fenced {skillId : SkillId} {input : DueInput}
    {id : SkillImprovementWorkId} {b : Bool}
    (h : runSkillImprovementPolicyNow t skillId input id now = (b, t')) :
    Fenced workerId now t t' := by
  refine .of_subset fun w hw => ?_
  have ht' : t' = (runSkillImprovementPolicyNow t skillId input id now).2 := by rw [h]
  rw [ht']
  unfold runSkillImprovementPolicyNow
  split
  · exact hw
  · split
    · exact hw
    · split
      · exact addIfActiveAbsent_mem hw
      · split
        · exact hw
        · exact addIfActiveAbsent_mem hw

theorem claimForSkill_fenced {skillId : SkillId} {leaseExpiresAt : Time}
    {work : Option SkillImprovementWork}
    (h : claimForSkill t skillId workerId claimToken now leaseExpiresAt = (work, t')) :
    Fenced workerId now t t' := by
  unfold claimForSkill at h
  split at h
  · cases h
    exact .refl
  · next n t'' hupdate =>
    cases h
    have ht' : t' = (t.updateWhere (isClaimable skillId now)
        (claimed workerId claimToken now leaseExpiresAt) fun _ => rfl).2 := by rw [hupdate]
    intro w hw
    refine ⟨if isClaimable skillId now w then claimed workerId claimToken now leaseExpiresAt w else w, ?_, ?_, ?_⟩
    · rw [ht']
      exact List.mem_map.2 ⟨w, hw, rfl⟩
    · split <;> rfl
    · split
      · next hclaimable =>
        refine .inr (.inr ⟨?_, claimToken, leaseExpiresAt, rfl⟩)
        have hfree := (Bool.and_eq_true_iff.1 hclaimable).2
        rw [Bool.or_eq_true, Option.isNone_iff_eq_none, Option.any_eq_true] at hfree
        simpa using hfree
      · exact .inl rfl

theorem isClaimedBy_holds {claimGeneration : Nat}
    (h : isClaimedBy workerId claimToken claimGeneration now w = true) : Holds workerId now w := by
  unfold isClaimedBy at h
  simp only [Bool.and_eq_true, decide_eq_true_eq, Option.any_eq_true] at h
  obtain ⟨⟨⟨hworker, -⟩, -⟩, e, he, hlt⟩ := h
  exact ⟨hworker, e, he, hlt⟩

theorem saveIfClaimed_fenced {claimGeneration : Nat} {b : Bool}
    (h : saveIfClaimed t w workerId claimToken claimGeneration now = .ok (b, t')) :
    Fenced workerId now t t' := by
  unfold saveIfClaimed at h
  split at h
  · cases h
  · have h := Except.ok.inj h
    cases b with
    | false =>
      obtain ⟨rfl, -⟩ := update_eq_false h
      exact .refl
    | true =>
      obtain ⟨r, hr, hclaimed, rfl⟩ := update_eq_true h
      have hkey : r.id = w.id := key_of_get? hr
      intro x hx
      by_cases hxw : x.id = w.id
      · have hxr : x = r := eq_of_key hx (mem_of_get? hr) (hxw.trans hkey.symm)
        exact ⟨w, mem_put.2 (.inl rfl), hxw.symm, .inr (.inl (hxr ▸ isClaimedBy_holds hclaimed))⟩
      · exact ⟨x, mem_put.2 (.inr ⟨hx, hxw⟩), rfl, .inl rfl⟩

end

/-! ## Steps -/

/-- A row `_fail_work` has loaded is claimed. -/
def LoadedClaimed : Phase → Prop
  | .loaded w => w.claimedBy.isSome = true
  | .merging _ _ => False
  | _ => True

theorem workOp_fenced {t t' : Works} {workerId : String} {now : Time} {phase phase' : Phase}
    {op : WorkOp} (h : workOp t workerId now phase op = some (phase', t'))
    (hphase : LoadedClaimed phase) : Fenced workerId now t t' := by
  unfold workOp at h
  split at h
  · cases h
    exact .refl
  · split at h
    · next hdue =>
      cases h
      exact runSkillImprovementPolicyNow_fenced hdue
    · next hdue =>
      cases h
      exact runSkillImprovementPolicyNow_fenced hdue
  · split at h
    · next hclaim =>
      cases h
      exact claimForSkill_fenced hclaim
    · next hclaim =>
      cases h
      exact claimForSkill_fenced hclaim
  · split at h
    · cases h
      exact .refl
    · cases h
      exact .refl
  · split at h
    · next hsave =>
      cases h
      exact saveIfClaimed_fenced hsave
    · cases h
      exact .refl
    · cases h
      exact .refl
  · cases h
    exact .refl
  · split at h
    · split at h
      · next hsave =>
        cases h
        exact saveIfClaimed_fenced hsave
      · cases h
        exact .refl
    · cases h
  · -- the row is claimed, so that it is not merged
    split at h
    · cases h
    · next hunclaimed => exact absurd hphase hunclaimed
  · exact hphase.elim
  · obtain ⟨skillId, -, h⟩ := Option.map_eq_some_iff.1 h
    cases h
    exact .refl
  · cases h
    exact .refl
  · cases h

theorem workOp_loadedClaimed {t t' : Works} {workerId : String} {now : Time} {phase phase' : Phase} {op : WorkOp}
    (h : workOp t workerId now phase op = some (phase', t')) (hphase : LoadedClaimed phase)
    (hfinds : ∀ skillId, phase = .failing skillId → op = .readActive →
      (getActiveForSkill t skillId).all (·.claimedBy.isSome) = true) : LoadedClaimed phase' := by
  unfold workOp at h
  split at h
  · cases h
    trivial
  · split at h <;> cases h <;> trivial
  · split at h <;> cases h <;> trivial
  · next skillId work stage proposalId =>
    split at h
    · cases h
      trivial
    · cases h
      cases stage <;> trivial
  · next skillId work stage proposalId current updatedAt =>
    split at h
    · cases h
      cases stage <;> trivial
    · cases h
      trivial
    · cases h
      trivial
  · next skillId =>
    cases h
    have hclaimed := hfinds skillId rfl rfl
    cases hactive : getActiveForSkill t skillId with
    | none => trivial
    | some w =>
      rw [hactive] at hclaimed
      exact hclaimed
  · split at h
    · split at h <;> cases h <;> trivial
    · cases h
  · split at h
    · cases h
    · next hunclaimed => exact absurd hphase hunclaimed
  · exact hphase.elim
  · obtain ⟨skillId, -, h⟩ := Option.map_eq_some_iff.1 h
    cases h
    trivial
  · cases h
    trivial
  · cases h

theorem workStep_eq_some {s s' : WorkState} {a : WorkAction} (h : workStep s a = some s') :
    ∃ phase, workOp s.works a.worker a.now (s.phase a.worker) a.op = some (phase, s'.works) ∧
      s'.phase = fun w => if w = a.worker then phase else s.phase w := by
  obtain ⟨⟨phase, t⟩, hop, h⟩ := Option.map_eq_some_iff.1 h
  cases h
  exact ⟨phase, hop, rfl⟩

theorem loadedClaimed_of_reachable {s : WorkState}
    (h : (workSystem.restrict fun s a => findsClaimed s a = true).Reachable s) :
    ∀ w, LoadedClaimed (s.phase w) := by
  refine h.invariant (fun s => ∀ w, LoadedClaimed (s.phase w))
    (fun s hs w => ?_) fun s a s' _ hs hn w => ?_
  · obtain rfl : s = .initial := hs
    trivial
  · obtain ⟨hfinds, hstep, -⟩ := hn
    obtain ⟨phase, hop, hphase⟩ := workStep_eq_some hstep
    rw [hphase]
    by_cases hw : w = a.worker
    · simp only [if_pos hw]
      refine workOp_loadedClaimed hop (hs a.worker) fun skillId hfailing hread => ?_
      rw [findsClaimed, hfailing, hread] at hfinds
      exact hfinds
    · simp only [if_neg hw]
      exact hs w

/-- As long as `_fail_work` finds no unclaimed row, every statement of every worker leaves every row
as it is unless the worker holds its active claim or takes it over, and the claims of other workers
stay until their leases run out. -/
theorem work_fenced {s s' : WorkState} {a : WorkAction}
    (h : (workSystem.restrict fun s a => findsClaimed s a = true).Reachable s) (hn : workSystem.next s a s') :
    Fenced a.worker a.now s.works s'.works ∧ KeepsClaims a.worker a.now s.works s'.works := by
  obtain ⟨phase, hop, -⟩ := workStep_eq_some hn.1
  have hfenced := workOp_fenced hop (loadedClaimed_of_reachable h a.worker)
  exact ⟨hfenced, hfenced.keepsClaims⟩

/-! ## Sample runs -/

def minute : Time := 60 * 1000000

/-- One worker creates the item and claims it; five minutes later another takes it over, fails, and
lets it go; the first one notices that it has lost the claim. -/
def lostActions : List WorkAction :=
  [⟨"a", 0, .start 1⟩, ⟨"a", 0, .due ⟨true, none, false, true⟩ 1⟩, ⟨"a", 0, .claim "t1"⟩,
    ⟨"a", 1, .read none⟩, ⟨"b", 5 * minute, .start 1⟩,
    ⟨"b", 5 * minute, .due ⟨true, none, false, true⟩ 2⟩, ⟨"b", 5 * minute, .claim "t2"⟩,
    ⟨"b", 5 * minute, .raise⟩, ⟨"b", 5 * minute, .readActive⟩,
    ⟨"b", 5 * minute, .writeFailed (5 * minute) (5 * minute)⟩,
    ⟨"a", 5 * minute, .write (5 * minute)⟩]

/-- The first worker's `_fail_work` reads the row; the second one claims it again; the first one
merges and flushes. -/
def overwriteActions : List WorkAction :=
  [⟨"a", 5 * minute, .readActive⟩, ⟨"b", 6 * minute, .start 1⟩,
    ⟨"b", 6 * minute, .due ⟨true, none, false, true⟩ 3⟩, ⟨"b", 6 * minute, .claim "t3"⟩,
    ⟨"a", 6 * minute, .merge false (5 * minute) (5 * minute)⟩]

/-- The second worker takes over and fails while it holds the claim. -/
theorem work_fenced_sample : ∃ s s', (workSystem.restrict fun s a => findsClaimed s a = true).Reachable s ∧
    workSystem.next s ⟨"b", 5 * minute, .writeFailed (5 * minute) (5 * minute)⟩ s' ∧
    Fenced "b" (5 * minute) s.works s'.works ∧ KeepsClaims "b" (5 * minute) s.works s'.works := by
  have hlegal : System.Legal workStep (fun s a => True ∧ findsClaimed s a = true) .initial (lostActions.take 9) ∧
      (workStep (System.run workStep .initial (lostActions.take 9))
        ⟨"b", 5 * minute, .writeFailed (5 * minute) (5 * minute)⟩).isSome = true := by decide +kernel
  obtain ⟨hlegal, hsome⟩ := hlegal
  obtain ⟨s', hs'⟩ := Option.isSome_iff_exists.1 hsome
  have hinit : (workSystem.restrict fun s a => findsClaimed s a = true).init .initial := rfl
  have hreachable := System.Reachable.steps (.of_init hinit) (.run_restrict hlegal)
  exact ⟨_, s', hreachable, ⟨hs', trivial⟩, work_fenced hreachable ⟨hs', trivial⟩⟩

/-- The first worker's flush takes the second one's claim away, a minute after it was acquired, and
counts another attempt. -/
theorem unclaimed_work_overwritten : ∃ s s', workSystem.Reachable s ∧
    workSystem.next s ⟨"a", 6 * minute, .flush⟩ s' ∧ (∃ w ∈ s.works.rows, Holds "b" (6 * minute) w ∧
      ∃ w' ∈ s'.works.rows, w'.id = w.id ∧ w'.claimedBy = none ∧
      w'.attemptCount = w.attemptCount + 1) ∧
    ¬ Fenced "a" (6 * minute) s.works s'.works ∧ ¬ KeepsClaims "a" (6 * minute) s.works s'.works := by
  have hlegal : System.Legal workStep (fun _ _ => True) .initial (lostActions ++ overwriteActions) ∧
      (workStep (System.run workStep .initial (lostActions ++ overwriteActions)) ⟨"a", 6 * minute, .flush⟩).any (fun s' =>
        (System.run workStep .initial (lostActions ++ overwriteActions)).works.rows.any fun w =>
          w.claimedBy = some "b" && w.leaseExpiresAt = some (11 * minute) &&
            s'.works.rows.any fun w' => w'.id = w.id && w'.claimedBy = none && w'.attemptCount = w.attemptCount + 1) =
        true := by decide +kernel
  obtain ⟨hlegal, hany⟩ := hlegal
  have hinit : workSystem.init .initial := rfl
  have hreachable := System.Reachable.steps (.of_init hinit) (.run hlegal)
  generalize System.run workStep .initial (lostActions ++ overwriteActions) = s at hany hreachable
  obtain ⟨s', hs', hany⟩ := (Option.any_eq_true _ _).1 hany
  obtain ⟨w, hw, hany⟩ := List.any_eq_true.1 hany
  simp only [Bool.and_eq_true, decide_eq_true_eq, List.any_eq_true] at hany
  obtain ⟨⟨hclaimed, hlease⟩, w', hw', ⟨hid, hnone⟩, hattempt⟩ := hany
  have hactive : (6 : Int) * minute < 11 * minute := by decide
  have hkeeps : ¬ KeepsClaims "a" (6 * minute) s.works s'.works := by
    intro h
    obtain ⟨w₂, hw₂, hid₂, hsame, -⟩ := h w hw "b" _ hclaimed (by decide) hlease hactive
    rw [eq_of_key hw₂ hw' (hid₂.trans hid.symm), hnone, hclaimed] at hsame
    cases hsame
  exact ⟨s, s', hreachable, ⟨hs', trivial⟩, ⟨w, hw, ⟨hclaimed, _, hlease, hactive⟩, w', hw', hid,
    hnone, hattempt⟩, fun h => hkeeps h.keepsClaims, hkeeps⟩

end Friday.Skills
