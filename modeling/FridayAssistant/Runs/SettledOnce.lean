import FridayAssistant.Runs.FirstResolution
/-!
# A delegation settles once, from its last attempt

`finalize_if_dispatched` is conditional and reads under the lock, so a request leaves DISPATCHED
once, with one resumption of the parent. Which status it gets is read off the latest attempt of the
child in the same transaction; that this stays the status of that attempt rests on the attempt
staying as it ended. A commit over an ended attempt (`FinalRuns`) breaks it, and so does nothing
else.
-/
namespace Friday.Runs
open Tables Table PyJson Queue Transition Split

/-! ## Requests and what their parents are told -/

/-- 1 for a request that is settled. -/
def settledCount (t : DelegationRequests) (k : DelegationRequestId) : Nat :=
  ((t.get? k).any (·.status.isTerminal)).toNat

/-- How often a parent was resumed for the request. -/
def wakes (events : List RunEvent) (k : DelegationRequestId) : Nat :=
  resumptionsBy "delegation_request_id" events k

theorem wakes_append (events : List RunEvent) (runId : RunId) (now : Time) (specs : List EventSpec)
    (k : DelegationRequestId) : wakes (appendEvents events runId now specs) k =
      wakes events k + specs.countP (resumesFor "delegation_request_id" k) :=
  resumptionsBy_append _ events runId now specs k

/-- Plain events resume nothing for a request. -/
theorem countP_plain {specs : List EventSpec} (h : specs.all isPlain = true)
    (k : DelegationRequestId) : specs.countP (resumesFor "delegation_request_id" k) = 0 := by
  rw [List.countP_eq_zero]
  intro spec hspec hresumes
  have hplain := List.all_eq_true.1 h spec hspec
  simp only [isPlain, Bool.or_eq_true, decide_eq_true_eq, Option.isNone_iff_eq_none] at hplain
  simp only [resumesFor, Bool.and_eq_true, decide_eq_true_eq] at hresumes
  rcases hplain with hne | hnone
  · exact hne hresumes.1
  · rw [hnone] at hresumes
    cases hresumes.2

variable {q : DelegationRequest}

theorem countP_settled {parentId : RunId} {spec : EventSpec} (h : spec.type.isLifecycle = false)
    (k : DelegationRequestId) :
    (settledSpecs q parentId spec).countP (resumesFor "delegation_request_id" k) = if q.id = k then 1 else 0 := by
  have hne : spec.type ≠ .runResumed := fun e => by rw [e] at h; cases h
  have htext : Uuid.text q.id = Uuid.text k ↔ q.id = k := Tools.text_injective.eq_iff
  by_cases hk : q.id = k <;>
    simp [settledSpecs, resumesFor, hne, textPayload, JsonValue.get?, htext, hk]

/-- Settled requests are as they were, and a parent is resumed only when its request is settled. -/
structure SettlesOnce (j j' : Journal) : Prop where
  frozen : ∀ k q, j.requests.get? k = some q → q.status.isTerminal = true →
    j'.requests.get? k = some q
  once : ∀ k, wakes j'.events k + settledCount j.requests k ≤ wakes j.events k + settledCount
    j'.requests k

variable {r : Run}

namespace SettlesOnce
variable {j j' j'' : Journal}

theorem refl (j : Journal) : SettlesOnce j j := ⟨fun _ _ h _ => h, fun _ => Nat.le_refl _⟩

theorem trans (h : SettlesOnce j j') (h' : SettlesOnce j' j'') : SettlesOnce j j'' := by
  refine ⟨fun k q hq hs => h'.frozen k q (h.frozen k q hq hs) hs, fun k => ?_⟩
  have := h.once k
  have := h'.once k
  omega

/-- No request changes and no parent is told. -/
theorem quiet (hrequests : j'.requests = j.requests)
    (hwakes : ∀ k, wakes j'.events k = wakes j.events k) : SettlesOnce j j' := by
  refine ⟨fun k q hq _ => by rw [hrequests]; exact hq, fun k => ?_⟩
  rw [hrequests, hwakes]

variable {runId : RunId} {now : Time} {specs : List EventSpec}

theorem append {j : Journal} (h : specs.all isPlain = true) :
    SettlesOnce j (j.append runId now specs) :=
  .quiet rfl fun k => (wakes_append j.events runId now specs k).trans (by rw [countP_plain h]; rfl)

/-- A run is saved with plain events. -/
theorem save (h : specs.all isPlain = true) :
    SettlesOnce j ((j.withRun r).append runId now specs) :=
  (SettlesOnce.quiet rfl fun _ => rfl : SettlesOnce j (j.withRun r)).trans (.append h)

/-- A request that is not settled is written. -/
theorem put (h : ∀ x, j.requests.get? q.id = some x → x.status.isTerminal = false) :
    SettlesOnce j (j.withRequest q) := by
  have hget : ∀ k, (j.withRequest q).requests.get? k = if q.id = k then some q else j.requests.get? k :=
    fun k => get?_put _ _ _
  refine ⟨fun k x hx hs => ?_, fun k => ?_⟩
  · rw [hget, if_neg ?_]
    · exact hx
    · rintro rfl
      rw [h x hx] at hs
      cases hs
  · have hbefore : q.id = k → settledCount j.requests k = 0 := by
      rintro rfl
      unfold settledCount
      cases hx : j.requests.get? q.id with
      | none => rfl
      | some x => simp [h x hx]
    have hle : settledCount j.requests k ≤ settledCount (j.withRequest q).requests k := by
      by_cases hk : q.id = k
      · rw [hbefore hk]
        exact Nat.zero_le _
      · unfold settledCount
        rw [hget, if_neg hk]
    exact Nat.add_le_add_left hle _

end SettlesOnce

theorem Entry.settlesOnce {R : RunId → Prop} {F A : Prop} {j j' : Journal} (h : Entry R F A j j') :
    SettlesOnce j j' := by
  have hrow : ∀ {e : RunId} {q x : DelegationRequest}, j.requests.getForChildExecution j.runs e = some q →
      q.status = .dispatched → j.requests.get? q.id = some x → x.status.isTerminal = false := by
    intro e q x hq hs hx
    cases (DelegationRequests.getForChildExecution_some hq).1.symm.trans hx
    rw [hs]
    rfl
  cases h with
  | note silent => exact .append (plain_of_marks (by rw [silent]; simp))
  | create _ _ _ _ _ told | retry _ _ _ _ _ _ _ _ told =>
    exact .save (plain_of_marks (by rw [told]; simp))
  | save _ _ _ plain _ => exact .save plain
  | failRetry _ _ _ _ _ plain _ _ _ _ _ told' =>
    exact (SettlesOnce.save plain).trans (.save (plain_of_marks (by rw [told']; simp)))
  | root | newTask | task => exact .quiet rfl fun _ => rfl
  | request fresh => exact .put fun x hx => by rw [fresh] at hx; cases hx
  | @settle e q l outcome now hq dispatched latest ended =>
    exact .put fun x hx => hrow hq dispatched hx
  | @wake e q l p p' outcome spec now hq dispatched latest ended hp parent waiting same running silent =>
    have hput := SettlesOnce.put (j := j) (q := Core.finalized q outcome now) fun x hx => hrow hq dispatched hx
    refine ⟨hput.frozen, fun k => ?_⟩
    have hevents : wakes (appendEvents j.events p.id now (settledSpecs q p.id spec)) k =
        wakes j.events k + if q.id = k then 1 else 0 := by rw [wakes_append, countP_settled silent]
    show wakes (appendEvents j.events p.id now (settledSpecs q p.id spec)) k + _ ≤ _
    rw [hevents]
    by_cases hk : q.id = k
    · -- the request goes from DISPATCHED to its end in the same entry
      have hbefore : settledCount j.requests k = 0 := by
        subst hk
        simp [settledCount, (DelegationRequests.getForChildExecution_some hq).1, dispatched, DelegationStatus.isTerminal]
      have hget : (j.requests.put (Core.finalized q outcome now)).get? k = some (Core.finalized q outcome now) := by
        rw [← hk]
        exact get?_put_self _ _
      have hafter : settledCount (j.requests.put (Core.finalized q outcome now)) k = 1 := by
        obtain ⟨hr, hd⟩ := settlement_status ended
        rw [settledCount, hget, Option.any_some]
        show outcome.1.isTerminal.toNat = 1
        cases ho : outcome.1 <;> first | rfl | exact absurd ho hr | exact absurd ho hd
      have hafter' : settledCount (((j.withRequest (Core.finalized q outcome now)).withRun
        p').append p.id now (settledSpecs q p.id spec)).requests k = 1 := hafter
      simp [hk, hbefore, hafter']
    · rw [if_neg hk]
      exact hput.once k

theorem Entries.settlesOnce {R : RunId → Prop} {F A : Prop} {j j' : Journal}
    (h : Entries R F A j j') : SettlesOnce j j' := by
  induction h with
  | refl => exact .refl j
  | tail _ hstep ih => exact ih.trans hstep.settlesOnce

variable {db db' : Db} {cfg : Config}

theorem Overwrite.settlesOnce {P N : Run → Prop} {S : ApprovalRequestId → Prop}
    (h : Overwrite P N S db db') : SettlesOnce db.journal db'.journal := by
  cases h with
  | @ended r r' approvals e specs now stored known same told tells cancelled core journal =>
    have hquiet : .runResumed ∉ marks specs := by
      rw [tells]
      cases hs : r'.status <;> rw [hs] at told <;> cases told <;> simp
    exact (SettlesOnce.save (plain_of_marks hquiet)).trans (journal (fun _ => True) True True).settlesOnce
  | retried stored known same failed tells fresh queued task execution next tells' core journal =>
    rw [journal]
    exact (SettlesOnce.save (plain_of_marks (by rw [tells]; simp))).trans
      (.save (plain_of_marks (by rw [tells']; simp)))
  | resumed stored known same running settles final id core journal =>
    rw [journal]
    exact .save rfl
  | resolved settles final core journal =>
    rcases journal with journal | ⟨runId, now, b, journal⟩
    · rw [journal]
      exact .refl _
    · rw [journal]
      exact .append rfl

/-! ## The attempt a request was settled from -/

/-- The request has the status its last attempt ended with; all attempts have ended. -/
def SettledFrom (runs : RunTable) (q : DelegationRequest) (k : RunId) (l : Run) : Prop :=
  q.childRunId = some k ∧ l ∈ runs.rows ∧ l.executionId = k ∧
    (settlement l).map (·.1) = some q.status ∧ ∀ x ∈ runs.rows, x.executionId = k →
    x.status.isTerminal = true ∧ (x.id ≠ l.id → x.createdAt < l.createdAt)

def SettledRight (runs : RunTable) (requests : DelegationRequests) : Prop :=
  ∀ q ∈ requests.rows, q.status.isTerminal = true → ∃ k l, SettledFrom runs q k l

abbrev Core.settledRight (c : Core) : Prop := SettledRight c.runs c.delegationRequests

variable {n r' : Run}

section
variable {runs : RunTable} {requests : DelegationRequests}

/-- A live attempt is of no settled execution, so saving it changes none. -/
theorem SettledRight.save (h : SettledRight runs requests) (hr : r ∈ runs.rows)
    (live : r.status.isTerminal = false) (same : SameAttempt r r') :
    SettledRight (runs.put r') requests := by
  intro q hq hs
  obtain ⟨k, l, hk, hl, hle, hstatus, hall⟩ := h q hq hs
  have hne : r.executionId ≠ k := fun e => by
    rw [(hall r hr e).1] at live
    cases live
  refine ⟨k, l, hk, mem_put.2 (.inr ⟨hl, fun e => hne ?_⟩), hle, hstatus,
    forall_put (fun he => absurd (same.executionId.symm.trans he) hne) hall⟩
  rw [key_run, key_run, same.id] at e
  rw [← eq_of_key hl hr e, hle]

/-- A new attempt of an execution that is not settled. -/
theorem SettledRight.fresh (h : SettledRight runs requests) (hfresh : runs.get? n.id = none)
    (hother : ∀ q ∈ requests.rows, q.status.isTerminal = true → q.childRunId ≠ some n.executionId) :
    SettledRight (runs.put n) requests := by
  intro q hq hs
  obtain ⟨k, l, hk, hl, hle, hstatus, hall⟩ := h q hq hs
  exact ⟨k, l, hk, (mem_put_fresh hfresh).2 (.inr hl), hle, hstatus,
    forall_put (fun he => absurd (by rw [hk, he]) (hother q hq hs)) hall⟩

theorem SettledRight.request (h : SettledRight runs requests) (hs : q.status.isTerminal = false) :
    SettledRight runs (requests.put q) := by
  refine forall_put (fun hxs => ?_) h
  rw [hs] at hxs
  cases hxs

end

section
variable {c c₁ : Core}

/-- A live attempt ends and its execution is settled. -/
theorem settledRight_ended {now : Time} (hl : c.lineages) (hn : Newest c.runs) (h : c.settledRight)
    (hr : r ∈ c.runs.rows) (live : r.status.isTerminal = false) (same : SameAttempt r r')
    (hended : r'.status.isTerminal = true) (hruns : c₁.runs = c.runs.put r')
    (hrequests : c₁.delegationRequests = c.delegationRequests) :
    (c₁.settle r.executionId now).settledRight := by
  have hl₁ := Lineages.save hl hr same (fun _ => live) fun hw => by rw [hw] at hended; cases hended
  rw [← hruns, ← hrequests] at hl₁
  have hsaved : c₁.settledRight := by
    show SettledRight c₁.runs c₁.delegationRequests
    rw [hruns, hrequests]
    exact h.save hr live same
  rcases c₁.settle_cases r.executionId now with ⟨hs, -⟩ | ⟨q, outcome, hq, hstatus, ho, hs⟩
  · rw [hs]
    exact hsaved
  · have hlatest : c₁.runs.getLatestForExecution r.executionId = some r' := by
      rw [hruns]
      exact hn.latest_saved hr live same
    rw [hlatest, Option.bind_some] at ho
    obtain ⟨hqin, hqc⟩ := hl₁.getForChildExecution.1 hq
    -- the attempts are the one that has just ended and those that ended before
    have hall : ∀ x ∈ c₁.runs.rows, x.executionId = r.executionId →
        x.status.isTerminal = true ∧ (x.id ≠ r'.id → x.createdAt < r'.createdAt) := by
      intro x hx he
      rw [hruns] at hx
      refine ⟨?_, fun hne => hn.older hr live same hx he hne⟩
      rcases mem_put.1 hx with rfl | ⟨hx, hne⟩
      · exact hended
      · refine hl.others_ended hr live hx he fun e => hne ?_
        rw [key_run, key_run, e, same.id]
    have hput : SettledRight c₁.runs (c₁.delegationRequests.put (Core.finalized q outcome now)) := by
      refine forall_put (fun _ => ⟨r.executionId, r', hqc, ?_, same.executionId, ?_, hall⟩) hsaved
      · rw [hruns]
        exact mem_put.2 (.inl rfl)
      · rw [ho]
        rfl
    rw [hs]
    rcases Core.wake_cases { c₁ with delegationRequests := c₁.delegationRequests.put (Core.finalized q outcome now) } q now
      with ⟨hw, -⟩ | ⟨p, hp, -, hwaits, -, hw⟩
    · rw [hw]
      exact hput
    · rw [hw]
      exact hput.save (mem_of_get? hp) (by rw [hwaits]; rfl) ⟨rfl, rfl, rfl, rfl⟩

/-- A live attempt fails and another one follows. -/
theorem settledRight_retried (h : c.settledRight) (hr : c.runs.get? r.id = some r)
    (live : r.status.isTerminal = false) (same : SameAttempt r r') (fresh : c.runs.get? n.id = none)
    (execution : n.executionId = r.executionId) :
    SettledRight ((c.runs.put r').put n) c.delegationRequests := by
  refine (h.save (mem_of_get? hr) live same).fresh (fresh_put (same.id ▸ hr) fresh) ?_
  -- the execution of a live attempt is not settled
  rw [execution]
  intro q hq hs hc
  obtain ⟨k, l, hk, -, -, -, hall⟩ := h q hq hs
  cases hk.symm.trans hc
  rw [(hall r (mem_of_get? hr) rfl).1] at live
  cases live

theorem settledRight_create (hl : c.lineages) (h : c.settledRight) (fresh : c.runs.get? n.id = none)
    (root : n.executionId = n.id) : SettledRight (c.runs.put n) c.delegationRequests := by
  refine SettledRight.fresh h fresh fun q hq hs hc => ?_
  obtain ⟨x, hx, hid, -⟩ := hl.child q hq _ hc
  exact ne_of_fresh (get?_of_mem hx) fresh (hid.trans root)

theorem settledRight_move {g : Guard} {c' : Core} (hl : c.lineages) (hn : Newest c.runs)
    (h : c.settledRight) (hm : Move g c c') : c'.settledRight := by
  cases hm with
  | create fresh _ root => exact settledRight_create hl h fresh root
  | retry _ _ notDelegated fresh _ _ execution _ =>
    refine SettledRight.fresh h fresh fun q hq _ hc => ?_
    rw [execution] at hc
    rw [hl.getForChildExecution.2 ⟨hq, hc⟩] at notDelegated
    cases notDelegated
  | start hr live same _ | park hr live _ _ _ _ same _ _ | startWorkflow hr live _ _ _ _ same _ _
  | resume _ _ _ _ _ hr _ live _ same _ | finishWorkflow _ _ _ _ hr _ live _ same _ =>
    exact SettledRight.save h (mem_of_get? hr) (by rw [live]; rfl) same
  | request _ requested _ _ _ => exact h.request (by rw [requested]; rfl)
  | @dispatch p p' child q at₁ at₂ hp running fresh _ root _ dispatched _ _ _ _ same _ _ _ =>
    have hrequest : SettledRight (c.runs.put child) (c.delegationRequests.put q) :=
      (settledRight_create hl h fresh root).request (by rw [dispatched]; rfl)
    exact hrequest.save ((mem_put_fresh fresh).2 (.inr (mem_of_get? hp))) (by rw [running]; rfl) same
  | @finish r r' now hr may same ended =>
    exact settledRight_ended hl hn h (mem_of_get? hr) may.live same (isTerminal_of_ended ended) rfl rfl
  | finishRetry hr may same _ fresh _ _ execution _ =>
    exact settledRight_retried h hr may.live same fresh execution
  | @cancel r r' approvals now hr live allowed same cancelled resolved =>
    have hended : r'.status.isTerminal = true := by rw [cancelled]; rfl
    exact settledRight_ended hl hn h (mem_of_get? hr) live same hended rfl rfl
  | viaTask hr live _ _ same _ => exact SettledRight.save h (mem_of_get? hr) live same
  | queue | resolve | approval | bind | unbind | endWorkflow => exact h

end

/-! ## Commits over a live attempt -/

/-- The next attempt of a failed one is later than all before. -/
def LaterAttempt (db : Db) : RunCall → Prop
  | .applyFailed run _ _ _ now => laterThanAll db.toCore run.executionId now
  | _ => True

instance (db : Db) (call : RunCall) : Decidable (LaterAttempt db call) :=
  match call with
  | .applyFailed run _ _ _ now =>
    inferInstanceAs (Decidable (∀ x ∈ db.runs.rows, x.executionId = run.executionId → x.createdAt < now))
  | .complete .. => isTrue trivial
  | .fail .. => isTrue trivial
  | .cancel .. => isTrue trivial
  | .applySucceeded .. => isTrue trivial
  | .resolve .. => isTrue trivial

/-- New attempts are later than the others. -/
def Guard.increasing : Guard where
  attempt := laterThanAll
  latest _ _ := True
  viaTask _ _ := True
  viaTask_stable _ _ _ _ := trivial
  request := True

theorem allowed_increasing (db : Db) (a : RunAction) : Allowed .increasing db a := by
  unfold Allowed
  split <;> simp [Guard.increasing]

structure SettlementOk (c : Core) : Prop where
  lineages : c.lineages
  newest : Newest c.runs
  settled : c.settledRight

theorem SettlementOk.move {g : Guard} {c c' : Core} (strict : ∀ {c e now}, g.attempt c e now →
    laterThanAll c e now) (h : SettlementOk c) (hm : Move g c c') : SettlementOk c' :=
  ⟨lineages_move h.lineages hm, newest_move strict h.lineages h.newest hm,
    settledRight_move h.lineages h.newest h.settled hm⟩

theorem Overwrite.settlementOk {S : ApprovalRequestId → Prop} (hok : SettlementOk db.toCore)
    (h : Overwrite (fun r => r.status.isTerminal = false) (fun n => laterThanAll db.toCore n.executionId n.createdAt) S
      db db') : SettlementOk db'.toCore := by
  obtain ⟨hl, hn, hs⟩ := hok
  cases h with
  | @ended r r' approvals e specs now stored live same told tells cancelled core journal =>
    have hin := mem_of_get? stored
    have hended := isTerminal_of_endEvent told
    have hl₁ : ((({ db.toCore with approvals := approvals }).withRun r').dropItem r.id).lineages :=
      Lineages.save hl hin same (fun _ => live) fun hw => by rw [hw] at hended; cases hended
    have hn₁ : Newest ((({ db.toCore with approvals := approvals }).withRun r').dropItem r.id).runs :=
      hn.save hin same fun _ => live
    rw [core]
    exact ⟨lineages_settle hl₁, newest_settle hn₁, settledRight_ended hl hn hs hin live same hended rfl rfl⟩
  | @retried r r' n specs specs' at₁ now stored live same failed tells fresh queued task execution next tells' core journal =>
    have hin := mem_of_get? stored
    have hnone : (db.runs.put r').get? n.id = none := fresh_put (same.id ▸ stored) fresh
    have hothers : ∀ x ∈ (db.runs.put r').rows, x.executionId = n.executionId →
        x.taskId = n.taskId ∧ x.status.isTerminal = true ∧ x.createdAt < n.createdAt := by
      intro x hx he
      obtain ⟨hxt, hxe, y, hy, hye, hat⟩ := hl.all_ended hin live same (by rw [failed]; rfl) hx (he.trans execution)
      exact ⟨hxt.trans task.symm, hxe, hat ▸ next y hy (hye.trans execution.symm)⟩
    have hl₁ : Lineages (db.runs.put r') db.delegationRequests db.taskAgentBindings :=
      hl.save hin same (fun _ => live) (by rw [failed]; nofun)
    rw [core]
    refine ⟨?_, ?_, settledRight_retried hs stored live same fresh execution⟩
    · exact hl₁.fresh hnone queued (.inr ⟨r', mem_put.2 (.inl rfl), same.executionId.trans execution.symm⟩)
        fun x hx he => ⟨(hothers x hx he).1, (hothers x hx he).2.1⟩
    · exact (hn.save hin same fun _ => live).fresh hnone fun x hx he => (hothers x hx he).2
  | resumed stored live same running settles final id core journal =>
    have hin := mem_of_get? stored
    rw [core]
    exact ⟨Lineages.save hl hin same (fun _ => live) (by rw [running]; nofun),
      hn.save hin same fun _ => live, SettledRight.save hs hin live same⟩
  | resolved settles final core journal =>
    rw [core]
    exact ⟨hl, hn, hs⟩

/-! ## Every run of the system -/

/-- As `splitRuns`, with a clock that moves between two attempts of an execution. -/
def splitAttempts (cfg : Config) : System (State Db RunCall) CallStep :=
  ((runCalls cfg).system (fun db => db.toCore = .empty ∧ db.events = [])
    fun db a => tellsElsewhere db a ∧ clockAdvances cfg db a = true).restrict
    (AtCommit LaterAttempt)

/-- The clock moves, and no commit finds that the run it writes has ended. -/
def LaterAndOpen (db : Db) (call : RunCall) : Prop := LaterAttempt db call ∧ RunOpen db call
  deriving Decidable

abbrev openAttempts (cfg : Config) : System (State Db RunCall) CallStep :=
  ((runCalls cfg).system (fun db => db.toCore = .empty ∧ db.events = [])
    fun db a => tellsElsewhere db a ∧ clockAdvances cfg db a = true).restrict
    (AtCommit LaterAndOpen)

structure DelegationOk (db : Db) : Prop where
  core : SettlementOk db.toCore
  woken : ∀ k, wakes db.events k ≤ settledCount db.delegationRequests k

theorem DelegationOk.step (h : DelegationOk db) (hcore : SettlementOk db'.toCore)
    (hsettles : SettlesOnce db.journal db'.journal) : DelegationOk db' := by
  refine ⟨hcore, fun k => ?_⟩
  have := h.woken k
  have : wakes db'.events k + settledCount db.delegationRequests k ≤
    wakes db.events k + settledCount db'.delegationRequests k := hsettles.once k
  omega

theorem commit_delegationOk {a : RunAction} (htells : tellsElsewhere db a)
    (hclock : clockAdvances cfg db a = true) (h : commit cfg db a = some db') :
    SettlesOnce db.journal db'.journal ∧ (SettlementOk db.toCore → SettlementOk db'.toCore) := by
  have hact := toOption_eq_some.1 h
  have hentries := act_entries (F := True) (A := True) htells (fun _ _ _ _ => .inl trivial)
    (fun _ => trivial) hact
  refine ⟨hentries.settlesOnce, fun hok => ?_⟩
  have hincrease : attemptsIncrease db db' = true := by
    unfold clockAdvances at hclock
    rw [h] at hclock
    exact hclock
  have hmoves : Moves .increasing db.toCore db'.toCore :=
    act_moves (allowed_increasing db a) (fun n hn hfresh => newAttempts_of_increase hincrease n hn hfresh) hact
  exact hmoves.keep hok (SettlementOk.move fun hlater => hlater)

theorem write_delegationOk {call : RunCall} {held : HeldRows}
    (hstored : StillStored (fun _ => True) db call) (hcond : LaterAndOpen db call)
    (h : writeRun cfg db call held = .ok db') :
    SettlesOnce db.journal db'.journal ∧ (SettlementOk db.toCore → SettlementOk db'.toCore) := by
  have hnext : ∀ n ∈ call.next, laterThanAll db.toCore n.executionId n.createdAt := by
    intro n hn
    cases call with
    | applyFailed run claim failure ids now =>
      cases hn
      exact hcond.1
    | _ => cases hn
  have hover := writeRun_open hstored hcond.2 hnext h
  exact ⟨hover.settlesOnce, fun hok => hover.settlementOk hok⟩

theorem openAttempts_inv {s : State Db RunCall} (h : (openAttempts cfg).Reachable s) :
    DelegationOk s.db ∧ ∀ call ∈ s.calls, StillStored (fun _ => True) s.db call := by
  refine reachable_stored DelegationOk (fun db hinit => ?_) (fun hI hg ha => ?_)
    (fun hI hQ hC hw => ?_) h
  · obtain ⟨hcore, hevents⟩ := hinit
    rw [show db = { db with toCore := .empty } by rw [← hcore]] at *
    refine ⟨⟨lineages_empty, fun r hr => (by cases hr), fun q hq => (by cases hq)⟩, fun k => ?_⟩
    rw [hevents]
    exact Nat.zero_le _
  · obtain ⟨hsettles, hcore⟩ := commit_delegationOk hg.1 hg.2 ha
    exact hI.step (hcore hI.core) hsettles
  · obtain ⟨hsettles, hcore⟩ := write_delegationOk hQ hC hw
    exact hI.step (hcore hI.core) hsettles

/-- **A delegation settles once and from the right attempt** in every run of the system in which no
commit finds that the run it writes has ended since it was read. At most one RUN_RESUMED names a
request. A settled request never changes again; its status is that of the last attempt of the
child, all attempts have ended, and reconciling any of them changes nothing. -/
theorem delegation_settles_once (cfg : Config) (s s' : State Db RunCall)
    (hs : (openAttempts cfg).Reachable s) (h : (openAttempts cfg).Steps s s')
    (k : DelegationRequestId) : wakes s'.db.events k ≤ 1 ∧
      ∀ q, s.db.delegationRequests.get? k = some q → q.status.isTerminal = true →
        s'.db.delegationRequests.get? k = some q ∧ ∃ child l, q.childRunId = some child ∧
        s'.db.runs.getLatestForExecution child = some l ∧ (settlement l).map (·.1) = some q.status ∧
        (∀ x ∈ s'.db.runs.rows, x.executionId = child → x.status.isTerminal = true) ∧ ∀ run now,
        run.executionId = child → reconcileChildTerminal s'.db run now = .ok s'.db := by
  have hsettles : SettlesOnce s.db.journal s'.db.journal :=
    Steps.split DelegationOk (StillStored fun _ => True) (fun db db' => SettlesOnce db.journal db'.journal)
      (fun _ => .refl _) .trans openAttempts_inv (fun _ hg ha => (commit_delegationOk hg.1 hg.2 ha).1)
      (fun _ hQ hC hw => (write_delegationOk hQ hC (toOption_eq_some.1 hw)).1) hs h
  obtain ⟨hok, -⟩ := openAttempts_inv (hs.steps h)
  refine ⟨(hok.woken k).trans (Bool.toNat_le _), fun q hq hterminal => ?_⟩
  have hq' : s'.db.delegationRequests.get? k = some q := hsettles.frozen k q hq hterminal
  have hin := mem_of_get? hq'
  obtain ⟨child, l, hchild, hl, hle, hstatus, hall⟩ := hok.core.settled q hin hterminal
  refine ⟨hq', child, l, hchild, ?_, hstatus, fun x hx he => (hall x hx he).1,
    fun run now hrun => ?_⟩
  · rw [← hle]
    exact RunTable.getLatestForExecution_of_newest hl fun x hx he hne => (hall x hx (he.trans hle)).2 hne
  · -- once the request is settled, no attempt of the child reconciles anything
    have hfound : s'.db.delegationRequests.getForChildExecution s'.db.runs run.executionId = some q :=
      hok.core.lineages.getForChildExecution.2 ⟨hin, by rw [hrun]; exact hchild⟩
    have hne : q.status ≠ .dispatched := fun e => by rw [e] at hterminal; cases hterminal
    simp [reconcileChildTerminal, hfound, hne]

theorem splitAttempts_guarded {s : State Db RunCall} {a : CallStep}
    (h : Protocol.Guarded (fun db a => a.isSpelledOut = true ∧ clockAdvances sampleConfig db a = true) s a) :
    Protocol.Guarded (fun db a => tellsElsewhere db a ∧ clockAdvances sampleConfig db a = true) s a := by
  cases a with
  | atomic a => exact ⟨tellsElsewhere_of_spelledOut h.1, h.2⟩
  | _ => trivial

/-- A run delegates to a child, which is claimed. -/
def childClaimed : List CallStep :=
  delegationRun.map .atomic ++ [.atomic (.claimNextRun sampleClaim 4)]

/-- The child succeeds. -/
def childSucceeds : List CallStep :=
  childClaimed ++ [.read (.applySucceededOutcome 12 ⟨"worker", "token", 1⟩ none 5),
    .commit 0 ⟨true, true, true⟩]

def childSucceeded : State Db RunCall := runSample ⟨sampleDb, []⟩ childSucceeds

/-- The parent goes on. -/
def parentGoesOn : List CallStep :=
  [.atomic (.claimNextRun sampleClaim 6), .read (.applySucceededOutcome 2 ⟨"worker", "token",
    1⟩ none 7), .commit 0 ⟨true, true, true⟩]

def parentSucceeded : State Db RunCall := runSample childSucceeded parentGoesOn

theorem delegation_settles_once_sample :
    wakes parentSucceeded.db.events 10 ≤ 1 ∧
      (childSucceeded.db.delegationRequests.get? 10).map (·.status) = some .succeeded ∧
      ∃ q child l, parentSucceeded.db.delegationRequests.get? 10 = some q ∧
        q.childRunId = some child ∧ parentSucceeded.db.runs.getLatestForExecution child = some l ∧
        (settlement l).map (·.1) = some q.status := by
  have hstatus : (childSucceeded.db.delegationRequests.get? 10).map (·.status) =
    some .succeeded := by decide +kernel
  obtain ⟨q, hq, hs⟩ := Option.map_eq_some_iff.1 hstatus
  have hlegal : System.Legal (runCalls sampleConfig).step (fun s a => Protocol.Guarded (fun db a =>
      a.isSpelledOut = true ∧ clockAdvances sampleConfig db a = true) s a ∧ AtCommit LaterAndOpen s a) ⟨sampleDb, []⟩
      childSucceeds := by decide +kernel
  have hlater : System.Legal (runCalls sampleConfig).step (fun s a => Protocol.Guarded (fun db a =>
      a.isSpelledOut = true ∧ clockAdvances sampleConfig db a = true) s a ∧ AtCommit LaterAndOpen s a) childSucceeded
      parentGoesOn := by decide +kernel
  have hreach : (openAttempts sampleConfig).Reachable childSucceeded :=
    .steps (.of_init ⟨⟨rfl, rfl⟩, rfl⟩)
      (.run_restrict (hlegal.mono fun _ _ _ h => ⟨splitAttempts_guarded h.1, h.2⟩))
  have hsettles := delegation_settles_once sampleConfig childSucceeded parentSucceeded hreach
    (.run_restrict (hlater.mono fun _ _ _ h => ⟨splitAttempts_guarded h.1, h.2⟩)) 10
  obtain ⟨hq', child, l, hchild, hl, hfrom, -⟩ := hsettles.2 q hq (by rw [hs]; rfl)
  exact ⟨hsettles.1, hstatus, q, child, l, hq', hchild, hl, hfrom⟩

/-! ## A cancellation over the attempt that settled the request -/

/-- `CancelRun` reads the claimed child, and the child succeeds. -/
def cancelReadsChild : List CallStep :=
  childClaimed ++ [.read (.cancelRun 12 5), .atomic (.applySucceededOutcome 12 ⟨"worker", "token",
    1⟩ none 6)]

def settledSucceeded : State Db RunCall := runSample ⟨sampleDb, []⟩ cancelReadsChild

/-- Then the cancellation commits. -/
def childCancelled (held : HeldRows) : State Db RunCall :=
  runSample settledSucceeded [.commit 0 held]

/-- The request stays SUCCEEDED, and the last attempt of the child is CANCELLED. -/
theorem settled_from_another_status :
    (splitAttempts sampleConfig).Reachable (childCancelled ⟨true, true, true⟩) ∧
      ((childCancelled ⟨true, true, true⟩).db.delegationRequests.get? 10).map
        (fun q => (q.status, q.childRunId)) = some (.succeeded, some 12) ∧
      ((childCancelled ⟨true, true, true⟩).db.runs.getLatestForExecution 12).map (·.status) = some .cancelled := by
  have hlegal : System.Legal (runCalls sampleConfig).step (fun s a => Protocol.Guarded (fun db a =>
      a.isSpelledOut = true ∧ clockAdvances sampleConfig db a = true) s a ∧ AtCommit LaterAttempt s a) ⟨sampleDb, []⟩
      cancelReadsChild := by decide +kernel
  have hcommit : System.Legal (runCalls sampleConfig).step (fun s a => Protocol.Guarded (fun db a =>
      a.isSpelledOut = true ∧ clockAdvances sampleConfig db a = true) s a ∧ AtCommit LaterAttempt s a) settledSucceeded
      [.commit 0 ⟨true, true, true⟩] := by decide +kernel
  have hreach : (splitAttempts sampleConfig).Reachable settledSucceeded :=
    .steps (.of_init ⟨⟨rfl, rfl⟩, rfl⟩)
      (.run_restrict (hlegal.mono fun _ _ _ h => ⟨splitAttempts_guarded h.1, h.2⟩))
  refine ⟨hreach.steps (.run_restrict (hcommit.mono fun _ _ _ h =>
    ⟨splitAttempts_guarded h.1, h.2⟩)), ?_⟩
  decide +kernel

end Friday.Runs
