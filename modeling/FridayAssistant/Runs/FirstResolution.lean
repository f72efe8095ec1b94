import FridayAssistant.Tools.Authorization
import FridayAssistant.Runs.FinalRuns
import FridayAssistant.Runs.CancelEquivalence
/-!
# The first resolution of an approval wins

`_resolve` tests PENDING on the approval it has read, and `approvals.save` writes the changed
columns by primary key. Between a read and its commit another resolution may have committed; then
the later one writes its status over the first, and resumes a run that it has read as waiting a
second time.

So the property holds as long as no resolution commits over an approval that has been resolved
since it was read (`StillPending`).
-/
namespace Friday.Runs
open Tables Table PyJson Queue Transition Split

/-! ## Resumptions in the streams -/

/-- A RUN_RESUMED that names `k` in the field of its payload. -/
def resumesFor (field : String) (k : Uuid) (spec : EventSpec) : Bool :=
  spec.type = .runResumed && match spec.payload.get? field with
    | some (.str text) => text = Uuid.text k
    | _ => false

/-- How often a run was resumed for `k`. -/
def resumptionsBy (field : String) (events : List RunEvent) (k : Uuid) : Nat :=
  events.countP (resumesFor field k ·.toEventSpec)

/-- How often a run was resumed for the approval. -/
def resumptions (events : List RunEvent) (k : ApprovalRequestId) : Nat :=
  resumptionsBy "approval_request_id" events k

theorem numbered_specs (runId : RunId) (now : Time) (start : Nat) (specs : List EventSpec) :
    (numbered runId now start specs).map (·.toEventSpec) = specs := by
  induction specs generalizing start with
  | nil => rfl
  | cons spec specs ih => simp [numbered, ih]

theorem resumptionsBy_append (field : String) (events : List RunEvent) (runId : RunId) (now : Time)
    (specs : List EventSpec) (k : Uuid) : resumptionsBy field (appendEvents events runId now specs) k =
      resumptionsBy field events k + specs.countP (resumesFor field k) := by
  have hspecs : ∀ start, (numbered runId now start specs).countP (resumesFor field k ·.toEventSpec) =
      specs.countP (resumesFor field k) := by
    intro start
    rw [← numbered_specs runId now start specs, List.countP_map, numbered_specs]
    rfl
  simp [resumptionsBy, appendEvents, hspecs]

theorem resumptions_append (events : List RunEvent) (runId : RunId) (now : Time) (specs : List EventSpec)
    (k : ApprovalRequestId) : resumptions (appendEvents events runId now specs) k =
      resumptions events k + specs.countP (resumesFor "approval_request_id" k) :=
  resumptionsBy_append _ events runId now specs k

/-- Without a RUN_RESUMED nothing is resumed. -/
theorem countP_quiet {field : String} {specs : List EventSpec} (h : .runResumed ∉ marks specs)
    (k : Uuid) : specs.countP (resumesFor field k) = 0 := by
  rw [List.countP_eq_zero]
  intro spec hspec hresumes
  have htype : spec.type = .runResumed := by
    simp only [resumesFor, Bool.and_eq_true, decide_eq_true_eq] at hresumes
    exact hresumes.1
  exact h (List.mem_filter.2 ⟨List.mem_map.2 ⟨spec, hspec, htype⟩, rfl⟩)

theorem countP_settledSpecs {q : DelegationRequest} {parentId : RunId} {spec : EventSpec}
    (h : spec.type.isLifecycle = false) (k : ApprovalRequestId) :
    (settledSpecs q parentId spec).countP (resumesFor "approval_request_id" k) = 0 := by
  have hne : spec.type ≠ .runResumed := fun e => by rw [e] at h; cases h
  simp [settledSpecs, resumesFor, hne, textPayload, JsonValue.get?]

theorem resumesFor_resumedSpec (runId : RunId) (a : ApprovalRequest) (k : ApprovalRequestId) :
    resumesFor "approval_request_id" k (resumedSpec runId a) = decide (a.id = k) := by
  have htext : Uuid.text a.id = Uuid.text k ↔ a.id = k := Tools.text_injective.eq_iff
  simp [resumesFor, resumedSpec, textPayload, JsonValue.get?, htext]

/-- Only a resolution of an approval resumes a run for it. -/
theorem Entry.resumptions {R : RunId → Prop} {F : Prop} {j j' : Journal} (h : Entry R F False j j')
    (k : ApprovalRequestId) : resumptions j'.events k = resumptions j.events k := by
  have hquiet : ∀ {events : List RunEvent} {runId : RunId} {now : Time} {specs : List EventSpec},
      .runResumed ∉ marks specs → Runs.resumptions (appendEvents events runId now specs) k = Runs.resumptions events k := by
    intro events runId now specs hq
    rw [resumptions_append, countP_quiet hq, Nat.add_zero]
  cases h with
  | note silent => exact hquiet (by rw [silent]; simp)
  | create _ _ _ _ _ told | retry _ _ _ _ _ _ _ _ told => exact hquiet (by rw [told]; simp)
  | save _ _ _ _ quiet => exact hquiet (quiet.resolve_right id)
  | failRetry _ _ _ _ _ _ quiet _ _ _ _ told' =>
    exact (hquiet (by rw [told']; simp)).trans (hquiet quiet)
  | wake _ _ _ _ _ _ _ _ _ silent =>
    exact (resumptions_append _ _ _ _ k).trans (by rw [countP_settledSpecs silent, Nat.add_zero]; rfl)
  | root | newTask | task | request | settle => rfl

theorem Entries.resumptions {R : RunId → Prop} {F : Prop} {j j' : Journal}
    (h : Entries R F False j j') (k : ApprovalRequestId) :
    resumptions j'.events k = resumptions j.events k := by
  induction h with
  | refl => rfl
  | tail _ hstep ih => exact (hstep.resumptions k).trans ih

/-! ## Approvals that are resolved -/

/-- Resolved approvals keep their status. -/
def FinalApprovals (t t' : Approvals) : Prop :=
  ∀ k a, t.get? k = some a → a.status ≠ .pending → ∃ a', t'.get? k = some a' ∧ a'.status = a.status

namespace FinalApprovals
variable {t t' t'' : Approvals}

theorem refl (t : Approvals) : FinalApprovals t t := fun _ a ha _ => ⟨a, ha, rfl⟩

theorem trans (h : FinalApprovals t t') (h' : FinalApprovals t' t'') : FinalApprovals t t'' := by
  intro k a ha hs
  obtain ⟨b, hb, hbs⟩ := h k a ha hs
  obtain ⟨c, hc, hcs⟩ := h' k b hb (by rw [hbs]; exact hs)
  exact ⟨c, hc, hcs.trans hbs⟩

/-- One row is written, which was not there, was PENDING or keeps its status. -/
theorem put {a : ApprovalRequest} (h : ∀ b, t.get? a.id = some b → b.status = .pending ∨
    b.status = a.status) : FinalApprovals t (t.put a) := by
  intro k b hb hs
  by_cases hk : a.id = k
  · rcases h b (by rw [hk]; exact hb) with hp | hsame
    · exact absurd hp hs
    · exact ⟨a, by rw [← hk]; exact get?_put_self t a, hsame.symm⟩
  · exact ⟨b, (get?_put_ne hk).trans hb, rfl⟩

theorem of_cancelled {runId : RunId} (h : ApprovalsCancelled t t' runId) : FinalApprovals t t' := by
  intro k a ha hs
  rcases h k with ⟨hk, -⟩ | ⟨b, b', hb, -, hp, -, -, -⟩
  · exact ⟨a, hk.trans ha, rfl⟩
  · rw [ha] at hb
    cases hb
    exact absurd hp hs

end FinalApprovals

/-- The approvals of skill promotions and rollbacks are added, consumed, or resolved while
PENDING. -/
def Guard.resolveOnce : Guard where
  attempt _ _ _ := True
  latest _ _ := True
  viaTask _ _ := True
  viaTask_stable _ _ _ _ := trivial
  request := True
  subject c a := ∀ b, c.approvals.get? a.id = some b → b.status = .pending ∨ b.status = a.status

theorem Move.finalApprovals {c c' : Core} (h : Move .resolveOnce c c') :
    FinalApprovals c.approvals c'.approvals := by
  cases h with
  | park _ _ fresh _ _ _ _ _ _ =>
    refine .put fun b hb => ?_
    rw [fresh] at hb
    cases hb
  | resolve ha pending id _ _ _ | resume ha pending id _ _ _ _ _ _ _ _ =>
    refine .put fun b hb => .inl ?_
    rw [id, ha] at hb
    cases hb
    exact pending
  | approval harmless =>
    refine .put fun b hb => ?_
    rcases harmless with ⟨-, -, hsubject⟩ | ⟨x, hx, -, hs⟩
    · exact hsubject b hb
    · rw [hx] at hb
      cases hb
      exact .inr hs
  | finish =>
    rw [Core.settle_approvals]
    exact .refl c.approvals
  | cancel _ _ _ _ _ resolved =>
    rw [Core.settle_approvals]
    exact .of_cancelled resolved
  | _ => exact .refl c.approvals

theorem Moves.finalApprovals {c c' : Core} (h : Moves .resolveOnce c c') :
    FinalApprovals c.approvals c'.approvals := by
  induction h with
  | refl => exact .refl _
  | tail _ hstep ih => exact ih.trans hstep.finalApprovals

/-! ## Steps of the system -/

/-- 1 for an approval that is resolved. -/
def resolvedCount (t : Approvals) (k : ApprovalRequestId) : Nat :=
  ((t.get? k).any (·.status ≠ .pending)).toNat

/-- Resolved approvals keep their status, and a resumption comes with the resolution. -/
structure FirstWins (db db' : Db) : Prop where
  status : FinalApprovals db.approvals db'.approvals
  once : ∀ k, resumptions db'.events k + resolvedCount db.approvals k ≤
    resumptions db.events k + resolvedCount db'.approvals k

namespace FirstWins
variable {db db' db'' : Db}

theorem resolvedCount_le {t t' : Approvals} (h : FinalApprovals t t') (k : ApprovalRequestId) :
    resolvedCount t k ≤ resolvedCount t' k := by
  unfold resolvedCount
  cases ha : t.get? k with
  | none => simp
  | some a =>
    by_cases hs : a.status = .pending
    · simp [hs]
    · obtain ⟨a', ha', hs'⟩ := h k a ha hs
      simp [ha', hs, hs']

theorem refl (db : Db) : FirstWins db db := ⟨.refl _, fun _ => Nat.le_refl _⟩

theorem trans (h : FirstWins db db') (h' : FirstWins db' db'') : FirstWins db db'' := by
  refine ⟨h.status.trans h'.status, fun k => ?_⟩
  have := h.once k
  have := h'.once k
  omega

/-- A step that resumes nothing for an approval. -/
theorem quiet (hstatus : FinalApprovals db.approvals db'.approvals)
    (hevents : ∀ k, resumptions db'.events k = resumptions db.events k) : FirstWins db db' := by
  refine ⟨hstatus, fun k => ?_⟩
  have := resolvedCount_le hstatus k
  rw [hevents k]
  omega

end FirstWins

/-- PENDING, if it is stored. -/
def PendingIn (db : Db) (k : ApprovalRequestId) : Prop := ∀ a ∈ db.approvals.get? k,
    a.status = .pending

variable {db db' : Db} {cfg : Config} {call : RunCall}

theorem Overwrite.firstWins {P N : Run → Prop} (h : Overwrite P N (PendingIn db) db db') :
    FirstWins db db' := by
  have hresolves : ∀ {a : ApprovalRequest}, PendingIn db a.id → FinalApprovals db.approvals (db.approvals.put a) :=
    fun hp => .put fun b hb => .inl (hp b hb)
  cases h with
  | @ended r r' approvals e specs now stored known same told tells cancelled core journal =>
    have happrovals : db'.approvals = approvals := by rw [core, Core.settle_approvals]; rfl
    refine .quiet ?_ fun k => ?_
    · rw [happrovals]
      rcases cancelled with rfl | hcancelled
      · exact .refl _
      · exact .of_cancelled hcancelled
    · have hquiet : .runResumed ∉ marks specs := by
        rw [tells]
        cases hs : r'.status <;> rw [hs] at told <;> cases told <;> simp
      refine ((journal (fun _ => True) True False).resumptions k).trans ?_
      exact (resumptions_append _ _ _ _ k).trans (by rw [countP_quiet hquiet, Nat.add_zero]; rfl)
  | @retried r r' n specs specs' at₁ now stored known same failed tells fresh queued task execution next tells' core journal =>
    refine .quiet (by rw [core]; exact .refl _) fun k => ?_
    have hevents : db'.events = appendEvents (appendEvents db.events r.id now specs) n.id now specs' :=
      congrArg Journal.events journal
    rw [hevents, resumptions_append, resumptions_append, countP_quiet (by rw [tells]; simp),
      countP_quiet (by rw [tells']; simp)]
    rfl
  | @resumed r r' a resolved now stored known same running settles final id core journal =>
    have happrovals : db'.approvals = db.approvals.put a := by rw [core]; rfl
    have hevents : db'.events = appendEvents db.events r.id now [resolvedSpec resolved, resumedSpec r.id resolved] :=
      congrArg Journal.events journal
    have hstatus : FinalApprovals db.approvals db'.approvals := by rw [happrovals]; exact hresolves settles
    refine ⟨hstatus, fun k => ?_⟩
    have hsilent : resumesFor "approval_request_id" k (resolvedSpec resolved) = false := by simp [resumesFor, resolvedSpec]
    rw [hevents, resumptions_append, List.countP_cons, List.countP_cons, hsilent, resumesFor_resumedSpec, id]
    by_cases hk : a.id = k
    · -- the approval was PENDING and is resolved now
      have hbefore : resolvedCount db.approvals k = 0 := by
        unfold resolvedCount
        cases hb : db.approvals.get? k with
        | none => rfl
        | some b => simp [settles b (by rw [hk]; exact hb)]
      have hafter : resolvedCount db'.approvals k = 1 := by
        rw [happrovals, ← hk, resolvedCount, show (db.approvals.put a).get? a.id = some a from get?_put_self _ _]
        simp [final]
      simp [hk, hbefore, hafter]
    · have := FirstWins.resolvedCount_le hstatus k
      simp [hk]
      omega
  | @resolved a settles final core journal =>
    refine .quiet (by rw [core]; exact hresolves settles) fun k => ?_
    rcases journal with journal | ⟨runId, now, b, journal⟩
    · rw [show db'.events = db.events from congrArg Journal.events journal]
    · rw [show db'.events = appendEvents db.events runId now
        [resolvedSpec b] from congrArg Journal.events journal, resumptions_append]
      simp [resumesFor, resolvedSpec]

/-! ## Resolutions in one transaction -/

theorem resolves_action {a : RunAction} (h : a.resolves = true) : ∃ id by_ now,
    a = (RunCommand.resolve id by_ now).action := by
  cases a with
  | approveRequest id resolver note now => exact ⟨id, .approve resolver note, now, rfl⟩
  | rejectRequest id resolver note now => exact ⟨id, .reject resolver note, now, rfl⟩
  | cancelApproval id note now => exact ⟨id, .cancel note, now, rfl⟩
  | expireApproval id now => exact ⟨id, .expire, now, rfl⟩
  | _ => cases h

/-- What a resolution has read was PENDING. -/
theorem readResolve_pending {id : ApprovalRequestId} {by_ : Resolution} {now : Time} (h : readRun cfg db (.resolve id by_ now) = .ok (some call)) :
    ∀ k ∈ call.resolves, PendingIn db k := by
  obtain ⟨approval, hget, h⟩ := bind_ok h
  obtain ⟨_, h⟩ := bind_rest h
  split at h
  · cases h
  · obtain ⟨_, hpending, run, -, h⟩ := bind_ok₂ h
    obtain ⟨step, -, h⟩ := bind_ok h
    cases h
    intro k hk
    cases hk
    intro a ha
    have hget := found_eq_ok.1 hget
    rw [show approval.id = id from key_of_get? hget] at ha
    cases hget.symm.trans ha
    exact of_require hpending

/-- A resolution in one transaction is its two halves, so it finds the approval as it has read
it. -/
theorem resolve_firstWins {id : ApprovalRequestId} {by_ : Resolution} {now : Time}
    (h : commit cfg db (RunCommand.resolve id by_ now).action = some db') : FirstWins db db' := by
  have hhalves := @resolve_halves cfg db ⟨true, true, true⟩ id by_ now
  rw [h, Option.getD_some] at hhalves
  cases hread : (readRun cfg db (.resolve id by_ now)).toOption.join with
  | none =>
    rw [hread] at hhalves
    rw [← show db = db' from hhalves]
    exact .refl db
  | some call =>
    rw [hread, Option.bind_some] at hhalves
    have hcall := toOption_eq_some.1 (Option.join_eq_some_iff.1 hread)
    cases hw : (writeRun cfg db call ⟨true, true, true⟩).toOption with
    | none =>
      rw [hw] at hhalves
      rw [← show db = db' from hhalves]
      exact .refl db
    | some after =>
      rw [hw] at hhalves
      rw [← show after = db' from hhalves]
      have hstored : StillStored (fun _ => True) db call := fun run hrun =>
        ⟨run, readRun_stored hcall run hrun, .refl run, trivial⟩
      exact (writeRun_overwrite (N := fun _ => True) hstored (fun _ _ => trivial)
        (readResolve_pending hcall) (toOption_eq_some.1 hw)).firstWins

/-! ## Every run of the system -/

/-- The approvals of skill promotions and rollbacks are never resolved twice. -/
def subjectsResolveOnce (db : Db) : RunAction → Prop
  | .subjectApproval a => ∀ b ∈ db.approvals.get? a.id, b.status = .pending ∨ b.status = a.status
  | _ => True

/-- No resolution commits over an approval that has been resolved since it was read. -/
def StillPending (db : Db) (call : RunCall) : Prop :=
  ∀ a ∈ call.resolves.bind fun k => db.approvals.get? k, a.status = .pending
  deriving Decidable

theorem StillPending.pendingIn (h : StillPending db call) :
    ∀ k ∈ call.resolves, PendingIn db k :=
  fun _ hk a ha => h a (Option.mem_bind_iff.2 ⟨_, hk, ha⟩)

/-- As `splitRuns`, with the skill use cases doing to their approvals what they do. -/
def splitResolutions (cfg : Config) : System (State Db RunCall) CallStep :=
  (runCalls cfg).system (fun db => db.toCore = .empty ∧ db.events = [])
    fun db a => tellsElsewhere db a ∧ subjectsResolveOnce db a

theorem commit_firstWins {a : RunAction} (htells : tellsElsewhere db a)
    (hsubject : subjectsResolveOnce db a) (h : commit cfg db a = some db') : FirstWins db db' := by
  cases hres : a.resolves with
  | true =>
    obtain ⟨id, by_, now, rfl⟩ := resolves_action hres
    exact resolve_firstWins h
  | false =>
    have hact := toOption_eq_some.1 h
    have hallowed : Allowed .resolveOnce db a := by
      cases a with
      | subjectApproval a => exact hsubject
      | _ => unfold Allowed; simp [Guard.resolveOnce]
    have hmoves := act_moves hallowed (fun _ _ _ => trivial) hact
    have hentries := act_entries (F := True) (A := False) htells (fun _ _ _ _ => .inl trivial)
      (fun hr => by rw [hres] at hr; cases hr) hact
    exact .quiet hmoves.finalApprovals hentries.resumptions

theorem write_firstWins {held : HeldRows}
    (hstored : StillStored (fun _ => True) db call) (hpending : StillPending db call)
    (h : writeRun cfg db call held = .ok db') : FirstWins db db' :=
  (writeRun_overwrite (N := fun _ => True) hstored (fun _ _ => trivial) hpending.pendingIn
    h).firstWins

/-- Runs of the system in which every resolution finds its approval PENDING. -/
abbrev pendingRuns (cfg : Config) : System (State Db RunCall) CallStep :=
  (splitResolutions cfg).restrict (AtCommit StillPending)

/-- As many resumptions as resolutions, at most. -/
def ResumedOnce (db : Db) : Prop := ∀ k, resumptions db.events k ≤ resolvedCount db.approvals k

theorem ResumedOnce.step (h : ResumedOnce db) (hwins : FirstWins db db') : ResumedOnce db' := by
  intro k
  have := h k
  have := hwins.once k
  omega

theorem pendingRuns_inv {s : State Db RunCall} (h : (pendingRuns cfg).Reachable s) :
    ResumedOnce s.db ∧ ∀ call ∈ s.calls, StillStored (fun _ => True) s.db call := by
  refine reachable_stored ResumedOnce (fun db hinit => ?_)
    (fun hI hg ha => hI.step (commit_firstWins hg.1 hg.2 ha))
    (fun hI hQ hC hw => hI.step (write_firstWins hQ hC hw)) h
  obtain ⟨-, hevents⟩ := hinit
  intro k
  rw [hevents]
  exact Nat.zero_le _

/-- **The first resolution wins** in every run of the system in which no resolution commits over an
approval that has been resolved since it was read: a resolved approval keeps its status for good,
and at most one RUN_RESUMED names it. -/
theorem first_resolution_wins (cfg : Config) (s s' : State Db RunCall)
    (hs : (pendingRuns cfg).Reachable s) (h : (pendingRuns cfg).Steps s s')
    (k : ApprovalRequestId) : (∀ a, s.db.approvals.get? k = some a → a.status ≠ .pending →
      ∃ later, s'.db.approvals.get? k = some later ∧ later.status = a.status) ∧ resumptions s'.db.events k ≤ 1 := by
  have hwins : FirstWins s.db s'.db :=
    Steps.split ResumedOnce (StillStored fun _ => True) FirstWins .refl .trans pendingRuns_inv
      (fun _ hg ha => commit_firstWins hg.1 hg.2 ha)
      (fun _ hQ hC hw => write_firstWins hQ hC (toOption_eq_some.1 hw)) hs h
  refine ⟨fun a ha hres => hwins.status k a ha hres, ?_⟩
  have hone : resolvedCount s'.db.approvals k ≤ 1 := Bool.toNat_le _
  exact ((pendingRuns_inv (hs.steps h)).1 k).trans hone

/-- Spelled out, and not about a skill. -/
def RunAction.isAboutRuns : RunAction → Bool
  | .subjectApproval _ => false
  | a => a.isSpelledOut

theorem splitResolutions_guarded {s : State Db RunCall} {a : CallStep}
    (h : Protocol.Guarded (fun _ a => a.isAboutRuns = true) s a) :
    Protocol.Guarded (fun db a => tellsElsewhere db a ∧ subjectsResolveOnce db a) s a := by
  cases a with
  | atomic a => cases a <;> first | exact ⟨trivial, trivial⟩ | cases h
  | _ => trivial

theorem sample_resolutions_init : (splitResolutions sampleConfig).init ⟨sampleDb, []⟩ :=
  ⟨⟨rfl, rfl⟩, rfl⟩

/-- A claimed run waits for approval 10. -/
def waitingRun : List CallStep :=
  [.atomic (.createTask 1 "title" "" 0), .atomic (.startRun 1 2 1),
    .atomic (.claimNextRun sampleClaim 2),
    .atomic (.requestApproval ⟨2, .other, "summary", "", "action", .null, none, none, none⟩ 10 3)]

/-- The approval the run waits for is approved. -/
def approvedRun : List CallStep :=
  waitingRun ++ [.read (.resolve 10 (.approve "owner" none) 4), .commit 0 ⟨true, true, true⟩]

def approvedFirst : State Db RunCall := runSample ⟨sampleDb, []⟩ approvedRun

/-- The run goes on. -/
def afterApproval : List CallStep :=
  [.atomic (.claimNextRun sampleClaim 5), .read (.applySucceededOutcome 2 ⟨"worker", "token",
    1⟩ none 6), .commit 0 ⟨true, true, true⟩]

def succeededAfterApproval : State Db RunCall := runSample approvedFirst afterApproval

theorem first_resolution_wins_approved :
    (approvedFirst.db.approvals.get? 10).map (·.status) = some .approved ∧
      (∃ later, succeededAfterApproval.db.approvals.get? 10 = some later ∧ later.status = .approved) ∧
      resumptions succeededAfterApproval.db.events 10 ≤ 1 := by
  have hstatus : (approvedFirst.db.approvals.get? 10).map (·.status) = some .approved := by
    decide +kernel
  obtain ⟨a, ha, hs⟩ := Option.map_eq_some_iff.1 hstatus
  have hlegal : System.Legal (runCalls sampleConfig).step
      (fun s a => Protocol.Guarded (fun _ a => a.isAboutRuns = true) s a ∧ AtCommit StillPending s a) ⟨sampleDb, []⟩
      approvedRun := by decide +kernel
  have hlater : System.Legal (runCalls sampleConfig).step
      (fun s a => Protocol.Guarded (fun _ a => a.isAboutRuns = true) s a ∧ AtCommit StillPending s a) approvedFirst
      afterApproval := by decide +kernel
  have hreach : (pendingRuns sampleConfig).Reachable approvedFirst :=
    .steps (.of_init sample_resolutions_init)
      (.run_restrict (hlegal.mono fun _ _ _ h => ⟨splitResolutions_guarded h.1, h.2⟩))
  have hwins := first_resolution_wins sampleConfig approvedFirst succeededAfterApproval hreach
    (.run_restrict (hlater.mono fun _ _ _ h => ⟨splitResolutions_guarded h.1, h.2⟩)) 10
  have hkept := hwins.1 a ha (by rw [hs]; decide)
  rw [hs] at hkept
  exact ⟨hstatus, hkept, hwins.2⟩

/-! ## A rejection over an approval -/

/-- Approve and Reject read the same PENDING approval; the approval commits, and the run goes on
and succeeds. -/
def approveAndReject : List CallStep :=
  waitingRun ++ [.read (.resolve 10 (.reject "owner" none) 4),
    .read (.resolve 10 (.approve "owner" none) 5), .commit 1 ⟨true, true, true⟩,
    .atomic (.claimNextRun sampleClaim 6),
    .atomic (.applySucceededOutcome 2 ⟨"worker", "token", 1⟩ none 7)]

def approvedMeanwhile : State Db RunCall := runSample ⟨sampleDb, []⟩ approveAndReject

/-- Then the rejection commits. -/
def rejectedLate (held : HeldRows) : State Db RunCall :=
  runSample approvedMeanwhile [.commit 0 held]

/-- The APPROVED approval becomes REJECTED, and a second RUN_RESUMED names it. -/
theorem approved_approval_is_rejected :
    (splitResolutions sampleConfig).Reachable approvedMeanwhile ∧
      (splitResolutions sampleConfig).Steps approvedMeanwhile (rejectedLate ⟨true, true, true⟩) ∧
      (approvedMeanwhile.db.approvals.get? 10).map (·.status) = some .approved ∧
      resumptions approvedMeanwhile.db.events 10 = 1 ∧
      ((rejectedLate ⟨true, true, true⟩).db.approvals.get? 10).map (·.status) = some .rejected ∧
      resumptions (rejectedLate ⟨true, true, true⟩).db.events 10 = 2 := by
  have hlegal : System.Legal (runCalls sampleConfig).step (Protocol.Guarded fun _ a =>
      a.isAboutRuns = true) ⟨sampleDb, []⟩ approveAndReject := by decide +kernel
  have hcommit : System.Legal (runCalls sampleConfig).step (Protocol.Guarded fun _ a =>
      a.isAboutRuns = true) approvedMeanwhile [.commit 0 ⟨true, true, true⟩] := by decide +kernel
  refine ⟨.steps (.of_init sample_resolutions_init) (.run (hlegal.mono fun _ _ _ => splitResolutions_guarded)),
    .run (hcommit.mono fun _ _ _ => splitResolutions_guarded), by decide +kernel, by decide +kernel, ?_⟩
  decide +kernel

end Friday.Runs
