import FridayAssistant.Runs.RetryBounds
/-!
# The order of attempts

The attempts of an execution are listed by `created_at`, and by their random ids when two were
created at one instant. The table keeps its rows in the order they were committed, so that the
list is the rows of the execution as they stand (`Succession`) is what "the latest attempt is the
last one created" means. `RetryFailedRun` and `ApplyFailedOutcome` are the only use cases that add
to an execution; they keep the order when the new attempt sorts after the others.
-/
namespace Friday.Runs
open Tables Table Queue Transition

/-- In the order of their commits the attempts of an execution are sorted, and all but the last one
have ended. -/
def Succession (t : RunTable) : Prop :=
  t.rows.Pairwise fun x y => x.executionId = y.executionId → x.creationOrder y ∧
    x.status.isTerminal = true

/-- A retry sorts after the attempts of its execution. -/
def attemptFollows (db : Db) : RunAction → Bool
  | .retryFailedRun runId ids now | .applyFailedOutcome runId _ _ ids now =>
    (db.runs.get? runId).all fun run => db.runs.rows.all fun x => x.executionId ≠ run.executionId ||
      decide (x.createdAt < now ∨ x.createdAt = now ∧ x.id ≤ ids.runId)
  | _ => true

/-! ## One write -/

section
variable {t : RunTable}

theorem Succession.save (h : Succession t) {r r' : Run} (hr : t.get? r.id = some r)
    (same : SameAttempt r r') (hlive : r'.status.isTerminal = false → r.status.isTerminal = false) :
    Succession (t.put r') := by
  have hin := mem_of_get? hr
  have hrows : (t.put r').rows = t.rows.map fun x => if r.id = x.id then r' else x :=
    map_putRow same.id t.nodup hin
  have hsame : ∀ x ∈ t.rows, SameAttempt x (if r.id = x.id then r' else x) ∧
      (x.status.isTerminal = true → (if r.id = x.id then r' else x).status.isTerminal = true) := by
    intro x hx
    split
    · next hk =>
      obtain rfl := eq_of_key hin hx hk
      refine ⟨same, fun ht => ?_⟩
      by_contra hf
      rw [hlive (Bool.eq_false_of_not_eq_true hf)] at ht
      cases ht
    · exact ⟨.refl x, id⟩
  unfold Succession
  rw [hrows, List.pairwise_map]
  refine List.Pairwise.imp_of_mem (fun {x y} hx hy hxy he => ?_) h
  obtain ⟨hx', hxt⟩ := hsame x hx
  obtain ⟨hy', -⟩ := hsame y hy
  rw [hx'.executionId, hy'.executionId] at he
  obtain ⟨horder, hterminal⟩ := hxy he
  refine ⟨?_, hxt hterminal⟩
  rwa [Run.creationOrder, hx'.createdAt, hy'.createdAt, hx'.id, hy'.id]

theorem Succession.fresh (h : Succession t) {n : Run} (hfresh : t.get? n.id = none)
    (hothers : ∀ x ∈ t.rows, x.executionId = n.executionId → x.creationOrder n ∧ x.status.isTerminal = true) :
    Succession (t.put n) := by
  unfold Succession
  rw [rows_put_fresh hfresh, List.pairwise_append]
  refine ⟨h, List.pairwise_singleton _ _, fun x hx y hy => ?_⟩
  rw [List.mem_singleton.1 hy]
  exact hothers x hx

theorem Succession.settle {c : Core} (h : Succession c.runs) (executionId : RunId) (now : Time) :
    Succession (c.settle executionId now).runs := by
  rcases c.settle_runs executionId now with hs | ⟨p, hp, hwaiting, hs⟩
  · rw [hs]
    exact h
  · rw [hs]
    exact h.save hp ⟨rfl, rfl, rfl, rfl⟩ fun _ => by rw [hwaiting]; rfl

/-- A move that creates no further attempt keeps the order. -/
theorem Succession.move {g : Guard} (hno : ∀ c e now, ¬g.attempt c e now) {c c' : Core}
    (hl : c.lineages) (h : Succession c.runs) (hm : Move g c c') : Succession c'.runs := by
  have hfirst : ∀ {n : Run}, c.runs.get? n.id = none → n.executionId = n.id → Succession (c.runs.put n) :=
    fun hfresh hroot => h.fresh hfresh fun x hx he => absurd he (hl.none_of_fresh hfresh hroot x hx)
  have hlive : ∀ {r r' : Run}, c.runs.get? r.id = some r → SameAttempt r r' → r.status.isTerminal = false →
      Succession (c.runs.put r') := fun hr same hl => h.save hr same fun _ => hl
  cases hm with
  | create fresh _ root => exact hfirst fresh root
  | retry _ _ _ _ _ _ _ clock | finishRetry _ _ _ _ _ _ _ _ clock => exact absurd clock (hno _ _ _)
  | start hr live same _ | park hr live _ _ _ _ same _ _ | startWorkflow hr live _ _ _ _ same _ _
  | resume _ _ _ _ _ hr _ live _ same _ | finishWorkflow _ _ _ _ hr _ live _ same _ =>
    exact hlive hr same (by rw [live]; rfl)
  | @dispatch p p' child q at₁ at₂ hp running fresh _ root _ _ _ _ _ _ same _ _ =>
    exact (hfirst fresh root).save (get?_put_fresh fresh hp) same fun _ => by rw [running]; rfl
  | @finish r r' now hr may same _ =>
    exact Succession.settle (c := (c.withRun r').dropItem r.id) (hlive hr same may.live) _ _
  | @cancel r r' approvals now hr live _ same _ _ =>
    exact Succession.settle (c := ({ c with approvals := approvals }.withRun r').dropItem r.id) (hlive hr same live) _ _
  | viaTask hr live _ _ same _ => exact hlive hr same live
  | _ => exact h

end

/-! ## One commit -/

/-- First attempts only. -/
def Guard.firstAttempts : Guard where
  attempt _ _ _ := False
  latest _ _ := True
  viaTask _ _ := True
  viaTask_stable _ _ _ _ := trivial
  request := True

structure OrderOk (c : Core) : Prop where
  lineages : c.lineages
  succession : Succession c.runs

theorem act_succession {cfg : Config} {db db' : Db} {a : RunAction} (hok : OrderOk db.toCore)
    (hfollows : attemptFollows db a = true) (h : act cfg db a = .ok db') : Succession db'.runs := by
  -- what the condition says of the run that is retried
  have hafter : ∀ {run : Run} {ids : RetryIds} {now : Time}, db.runs.get? run.id = some run →
      (db.runs.get? run.id).all (fun run => db.runs.rows.all fun x => x.executionId ≠ run.executionId ||
        decide (x.createdAt < now ∨ x.createdAt = now ∧ x.id ≤ ids.runId)) = true →
      ∀ x ∈ db.runs.rows, x.executionId = run.executionId → x.createdAt < now ∨ x.createdAt = now ∧ x.id ≤ ids.runId := by
    intro run ids now hr hall x hx he
    rw [hr, Option.all_some, List.all_eq_true] at hall
    simpa [he] using hall x hx
  by_cases hretries : a.retries = true
  · cases a with
    | retryFailedRun runId ids now =>
      obtain ⟨source, -, hsource, rfl, hended, -, -, -, h⟩ := retryFailedRun_eq_ok h
      obtain ⟨hfresh, ⟨at₁, hcore⟩, -⟩ := addRetry_writes h
      have hin := mem_of_get? hsource
      rw [hcore]
      refine hok.succession.fresh hfresh fun x hx he => ?_
      exact ⟨hafter hsource hfollows x hx he,
        hended x (get?_of_mem hx) (hok.lineages.task source hin x hx he)⟩
    | applyFailedOutcome runId claim failure ids now =>
      obtain ⟨r, h⟩ := map_snd_eq_ok.1 h
      obtain ⟨run, hr, rfl, hmay, same, hstatus, ⟨-, hnone, at₁, hcore⟩ | hcore⟩ := applyFailedOutcome_core h
      · have hin := mem_of_get? hr
        have hsaved : Succession (db.runs.put r) := hok.succession.save hr same fun _ => hmay.live
        have hne : r.id ≠ ids.runId := fun e => by
          rw [← e, same.id, hr] at hnone
          cases hnone
        rw [hcore]
        refine hsaved.fresh ((get?_put_ne hne).trans hnone) fun y hy he => ?_
        obtain ⟨x, hx, hxy, hcase⟩ := saved_back hin same hy
        have hxe : x.executionId = run.executionId := hxy.executionId.symm.trans he
        constructor
        · have := hafter hr hfollows x hx hxe
          rwa [← hxy.createdAt, ← hxy.id] at this
        · rcases hcase with ⟨rfl, hne⟩ | ⟨rfl, rfl⟩
          · -- another live attempt would be this one
            by_contra hlive
            exact hne (congrArg Run.id (hok.lineages.single run hin hmay.live x hx hxe (Bool.eq_false_of_not_eq_true hlive)))
          · rw [hstatus]
            rfl
      · rw [hcore]
        exact Succession.settle (c := (db.toCore.withRun r).dropItem run.id)
          (hok.succession.save hr same fun _ => hmay.live) _ _
    | _ => cases hretries
  · have hmoves : Moves .firstAttempts db.toCore db'.toCore :=
      act_moves_of (by unfold Allowed; split <;> simp [Guard.firstAttempts]) (fun hr => absurd hr hretries) h
    have hkept := hmoves.keep hok fun hP hm => OrderOk.mk (lineages_move hP.lineages hm)
      (hP.succession.move (fun _ _ _ hfalse => hfalse) hP.lineages hm)
    exact hkept.succession

/-! ## What the order gives -/

/-- The queries name the attempt committed last, and what acts on an execution reaches the attempt
that lives. -/
structure LatestIsLast (db : Db) : Prop where
  latest : ∀ e, db.runs.getLatestForExecution e = (db.runs.select (·.executionId = e)).getLast?
  ordinal : ∀ (r : Run) (i : Nat), (db.runs.select (·.executionId = r.executionId))[i]? = some r →
    db.runs.ordinalForExecution r.id = i + 1
  live : ∀ r ∈ db.runs.rows, r.status.isTerminal = false →
    db.runs.getLatestForExecution r.executionId = some r
  /-- `CancelRun` of an ended attempt cancels it. -/
  cancels : ∀ r ∈ db.runs.rows, r.status.isTerminal = false → ∀ x ∈ db.runs.rows,
    x.executionId = r.executionId → x.status.isTerminal = true → x.status ≠ .cancelled →
    ∀ now, cancelRun db x.id now = runCancellation db r now
  /-- No delegation of the execution is settled while it lives. -/
  settles : ∀ r ∈ db.runs.rows, r.status.isTerminal = false → ∀ x, x.executionId = r.executionId →
    ∀ now, reconcileChildTerminal db x now = .ok db
  /-- Nor does a workflow take an outcome over. -/
  reconciles : ∀ r ∈ db.runs.rows, r.status.isTerminal = false → ∀ node : WorkflowNodeExecution,
    node.childExecutionId = some r.executionId → ∀ nodes rest now,
      reconcileChildren now (nodes, db) (node :: rest) = reconcileChildren now (nodes, db) rest

variable {t : RunTable} {r : Run}

theorem Succession.sorted (h : Succession t) (e : RunId) :
    t.listForExecution e = t.select (·.executionId = e) := by
  refine List.Pairwise.insertionSort_eq ?_
  refine List.Pairwise.imp_of_mem (fun {x y} hx hy hxy => ?_) (h.filter (·.executionId = e))
  have hxe : x.executionId = e := by simpa using (List.mem_filter.1 hx).2
  have hye : y.executionId = e := by simpa using (List.mem_filter.1 hy).2
  exact (hxy (hxe.trans hye.symm)).1

theorem Succession.latest_live (h : Succession t) (hr : r ∈ t.rows)
    (hlive : r.status.isTerminal = false) : t.getLatestForExecution r.executionId = some r := by
  have hmem : r ∈ t.select (·.executionId = r.executionId) :=
    List.mem_filter.2 ⟨hr, decide_eq_true rfl⟩
  have hpair : (t.select (·.executionId = r.executionId)).Pairwise _ :=
    h.filter (·.executionId = r.executionId)
  rw [RunTable.getLatestForExecution, h.sorted]
  obtain ⟨front, last, hl⟩ := (List.eq_nil_or_concat' _).resolve_left (List.ne_nil_of_mem hmem)
  have hlast : last.executionId = r.executionId := by
    have hin : last ∈ t.select (·.executionId = r.executionId) := hl ▸ List.mem_append_right _ (List.mem_singleton_self _)
    exact of_decide_eq_true (List.mem_filter.1 hin).2
  rw [hl] at hmem hpair ⊢
  rw [List.getLast?_concat]
  rcases List.mem_append.1 hmem with hfront | hr
  · -- an attempt that is not the last one has ended
    have hended := ((List.pairwise_append.1 hpair).2.2 r hfront last (List.mem_singleton_self _) hlast.symm).2
    rw [hlive] at hended
    cases hended
  · rw [List.mem_singleton.1 hr]

theorem Succession.ordinal (h : Succession t) {i : Nat}
    (hi : (t.select (·.executionId = r.executionId))[i]? = some r) :
    t.ordinalForExecution r.id = i + 1 := by
  have hr : t.get? r.id = some r := get?_of_mem (List.mem_of_mem_filter (List.mem_of_getElem? hi))
  have hnodup : ((t.select (·.executionId = r.executionId)).map Run.id).Nodup :=
    t.nodup.sublist (List.filter_sublist.map Run.id)
  have hindex : (t.select (·.executionId = r.executionId)).findIdx? (·.id = r.id) = some i := by
    obtain ⟨hlt, hget⟩ := List.getElem?_eq_some_iff.1 hi
    refine List.findIdx?_eq_some_iff_getElem.2 ⟨hlt, by simp [hget], fun j hj => ?_⟩
    have hne := List.nodup_iff_pairwise_ne.1 hnodup |> List.pairwise_iff_getElem.1
    have := hne j i (by simp; omega) (by simpa using hlt) hj
    simpa [hget] using this
  rw [RunTable.ordinalForExecution, hr]
  simp only [h.sorted, hindex]
  rfl

theorem settlement_live (h : r.status.isTerminal = false) : settlement r = none := by
  unfold settlement
  cases hs : r.status <;> rw [hs] at h <;> first | rfl | cases h

theorem Succession.latestIsLast {db : Db} (h : Succession db.runs) : LatestIsLast db where
  latest e := congrArg List.getLast? (h.sorted e)
  ordinal r i hi := h.ordinal hi
  live r hr hlive := h.latest_live hr hlive
  cancels r hr hlive x hx he hended hne now := by
    have hget : db.runs.get? x.id = some x := get?_of_mem hx
    have hlatest := h.latest_live hr hlive
    rw [← he] at hlatest
    rw [cancelRun, getRun, hget]
    show (if _ then _ else if _ then _ else _) = _
    rw [if_neg hne, if_pos hended, cancelLatest, hlatest]
    simp only [hlive, Bool.false_eq_true, if_false]
  settles r hr hlive x he now := by
    have hlatest := h.latest_live hr hlive
    rw [← he] at hlatest
    rcases reconcile_cases db x now with ⟨heq, -⟩ | ⟨_, l, outcome, _, -, -, hl, ho, -⟩
    · exact heq
    · cases hlatest.symm.trans hl
      cases ho.symm.trans (settlement_live hlive)
  reconciles r hr hlive node hnode nodes rest now := by
    have hstill : reconcileChild (nodes, db) node r now = .ok (nodes, db) := by
      unfold reconcileChild
      cases hs : r.status <;> rw [hs] at hlive <;> first | rfl | cases hlive
    rw [reconcileChildren]
    split
    · rfl
    · rw [hnode, ok_bind (found_eq_ok.2 rfl)]
      dsimp only
      rw [h.latest_live hr hlive]
      simp only [hstill]
      rfl

/-! ## Every run -/

/-- While every retry sorts after the attempts before it, the latest attempt is the one created
last. -/
theorem latest_attempt_last_created (cfg : Config) {db : Db}
    (h : ((runSystem cfg).restrict fun db a => attemptFollows db a = true).Reachable db) :
    LatestIsLast db := by
  have hok : OrderOk db.toCore := by
    refine h.invariant (fun db => OrderOk db.toCore) (fun db hinit => ?_) fun db a db' _ hok hnext => ?_
    · have hcore : db.toCore = .empty := hinit
      rw [hcore]
      exact ⟨lineages_empty, List.Pairwise.nil⟩
    · obtain ⟨hfollows, hnext⟩ := hnext
      have hact := runSystem_next hnext
      have hmoves : Moves .free db.toCore db'.toCore := act_moves (allowed_free db a) (fun _ _ _ => trivial) hact
      exact ⟨hmoves.keep hok.lineages lineages_move, act_succession hok hfollows hact⟩
  exact hok.succession.latestIsLast

/-! ## A tie -/

/-- A run is claimed and fails at the instant it was created at; its retry is created at that
instant. -/
def tiedActions (failed retry : RunId) : List RunAction :=
  [.createTask 1 "title" "" 0, .startRun 1 failed 1, .claimNextRun sampleClaim 1,
    .applyFailedOutcome failed ⟨"worker", "token", 1⟩ ⟨"code", "message", true, .runtime, .null,
      Eq.refl false, Eq.refl false⟩ ⟨retry, 6, 7⟩ 1]

def tiedDb (failed retry : RunId) : Db :=
  System.run (commit sampleConfig) sampleDb (tiedActions failed retry)

theorem latest_attempt_last_created_tie :
    ((runSystem sampleConfig).restrict fun db a => attemptFollows db a = true).Reachable
      (tiedDb 3 5) ∧ LatestIsLast (tiedDb 3 5) ∧ ((tiedDb 3 5).runs.getLatestForExecution 3).map
      (·.id) = some 5 := by
  have hlegal : System.Legal (commit sampleConfig) (fun db a => attemptFollows db a = true) sampleDb (tiedActions 3 5) := by
    decide +kernel
  have hreach := sample_reachable_restrict hlegal
  exact ⟨hreach, latest_attempt_last_created sampleConfig hreach, by decide +kernel⟩

/-- With the smaller id the retry sorts before the run it retries: the latest attempt is the failed
one, and `CancelRun` finds nothing to cancel while the retry is queued. -/
theorem latest_attempt_tied :
    (runSystem sampleConfig).Reachable (tiedDb 5 3) ∧
      ((tiedDb 5 3).runs.select (·.executionId = 5)).map (fun r => (r.id, r.createdAt, r.status)) =
        [(5, 1, .failed), (3, 1, .queued)] ∧
      ((tiedDb 5 3).runs.getLatestForExecution 5).map (·.id) = some 5 ∧
      (tiedDb 5 3).runs.ordinalForExecution 5 = 2 ∧ (tiedDb 5 3).runs.ordinalForExecution 3 = 1 ∧
      (cancelRun (tiedDb 5 3) 5 2).toOption.isNone = true ∧ ¬LatestIsLast (tiedDb 5 3) := by
  have hlegal : System.Legal (commit sampleConfig)
    (fun _ _ => True) sampleDb (tiedActions 5 3) := by decide +kernel
  have hlatest : ((tiedDb 5 3).runs.getLatestForExecution 5).map (·.id) = some 5 := by
    decide +kernel
  have hlast : ((tiedDb 5 3).runs.select (·.executionId = 5)).getLast?.map (·.id) = some 3 := by
    decide +kernel
  refine ⟨sample_reachable hlegal, by decide +kernel, hlatest, by decide +kernel, by decide +kernel, by decide +kernel,
    fun h => ?_⟩
  rw [h.latest, hlast] at hlatest
  cases hlatest

end Friday.Runs
