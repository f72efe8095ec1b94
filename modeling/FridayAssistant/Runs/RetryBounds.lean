import FridayAssistant.Runs.SettledOnce
/-!
# Automatic retries are bounded

Beside the database the system keeps a log of the runs `ApplyFailedOutcome` has created. With
attempts created one after the other, the attempt that fails is the newest of its execution, so
its ordinal is the number of the attempts; a retry is allowed only while that is below
`max_attempts`, and every retry makes it one more, whoever created the others.
-/
namespace Friday.Runs
open Tables Table Queue Transition

/-- A run that `ApplyFailedOutcome` created. -/
structure AutoRetry where
  executionId : RunId
  failed : RunId
  retry : RunId
  /-- `failure.retryable` of the outcome that was applied. -/
  retryable : Bool
  deriving DecidableEq

/-- The runs a commit of `ApplyFailedOutcome` adds to the table. -/
def autoRetries (db db' : Db) : RunAction → List AutoRetry
  | .applyFailedOutcome runId _ failure _ _ =>
    (db'.runs.rows.filter fun r => (db.runs.get? r.id).isNone).map fun r => ⟨r.executionId, runId, r.id, failure.retryable⟩
  | _ => []

structure RetryLog where
  db : Db
  created : List AutoRetry

def retryStep (cfg : Config) (s : RetryLog) (a : RunAction) : Option RetryLog :=
  (commit cfg s.db a).map fun db => ⟨db, s.created ++ autoRetries s.db db a⟩

/-- Every committed use case, in any order, when each attempt of an execution is created after the
ones before it. -/
def retrySystem (cfg : Config) : System RetryLog RunAction :=
  .ofStep (fun s => s.db.toCore = .empty ∧ s.created = []) (retryStep cfg) fun s a =>
    clockAdvances cfg s.db a = true

/-! ## Ordinals -/

/-- The attempts of an execution. -/
def attemptCount (runs : RunTable) (executionId : RunId) : Nat :=
  (runs.select (·.executionId = executionId)).length

variable {r : Run} {t : RunTable} {cfg : Config} {a : RunAction}

/-- The latest attempt has the last ordinal. -/
theorem ordinal_latest {runs : RunTable} (h : runs.getLatestForExecution r.executionId = some r) :
    runs.ordinalForExecution r.id = attemptCount runs r.executionId := by
  obtain ⟨front, hfront⟩ := List.getLast?_eq_some_iff.1 h
  have hget := (RunTable.getLatestForExecution_mem h).1
  have hnodup : ((runs.listForExecution r.executionId).map Run.id).Nodup := by
    have hperm := (List.perm_insertionSort Run.creationOrder (runs.select (·.executionId = r.executionId))).map Run.id
    exact hperm.nodup_iff.2 (runs.nodup.sublist (List.filter_sublist.map Run.id))
  have hfresh : ∀ x ∈ front, x.id ≠ r.id := by
    intro x hx hid
    rw [hfront, List.map_append, List.nodup_append] at hnodup
    exact hnodup.2.2 x.id (List.mem_map_of_mem hx) r.id (List.mem_singleton_self _) hid
  have hindex : (runs.listForExecution r.executionId).findIdx? (·.id = r.id) = some front.length := by
    rw [hfront, List.findIdx?_append, List.findIdx?_eq_none_iff.2 fun x hx => by simpa using hfresh x hx]
    simp
  have hlength : (runs.listForExecution r.executionId).length = attemptCount runs r.executionId :=
    List.length_insertionSort _ _
  rw [← hlength, hfront, List.length_append, List.length_singleton]
  simp [RunTable.ordinalForExecution, hget, hindex]

theorem attemptCount_le {t' : RunTable} (h : AttemptSteps t t') (executionId : RunId) :
    attemptCount t executionId ≤ attemptCount t' executionId := by
  refine length_select_le fun x hx he => ?_
  obtain ⟨x', hx', hsame⟩ := h.keeps (get?_of_mem hx)
  refine ⟨x', mem_of_get? hx', ?_, hsame.id⟩
  rw [decide_eq_true_iff] at he ⊢
  exact hsame.executionId.trans he

/-! ## What is logged -/

/-- No run is new when an attempt is saved. -/
theorem new_saved {r' : Run} (hr : t.get? r.id = some r) (same : SameAttempt r r') :
    (t.put r').rows.filter (fun x => (t.get? x.id).isNone) = [] := by
  refine List.filter_eq_nil_iff.2 fun x hx hnew => ?_
  obtain ⟨y, hy, hyx, -⟩ := saved_back (mem_of_get? hr) same hx
  have hget : t.get? x.id = some y := by
    rw [hyx.id]
    exact get?_of_mem hy
  rw [hget] at hnew
  cases hnew

/-- A commit of `ApplyFailedOutcome` that ends `run` as `r` and creates the retry `n`. -/
structure Retried (cfg : Config) (db db' : Db) (x : AutoRetry) (run r n : Run) : Prop where
  failed : db.runs.get? run.id = some run
  live : run.status.isTerminal = false
  same : SameAttempt run r
  status : r.status = .failed
  ordinal : RunTable.ordinalForExecution (db.runs.put r) r.id < cfg.retryPolicy.maxAttempts
  fresh : (db.runs.put r).get? n.id = none
  execution : n.executionId = run.executionId
  queued : n.status = .queued
  logged : x = ⟨run.executionId, run.id, n.id, true⟩
  runs : db'.runs = (db.runs.put r).put n
  item : (db'.workQueue.get? n.id).isSome = true

theorem autoRetries_cases {db db' : Db} (h : act cfg db a = .ok db') :
    autoRetries db db' a = [] ∨ ∃ x run r n, autoRetries db db' a = [x] ∧ Retried cfg db db' x run r n := by
  cases a with
  | applyFailedOutcome runId claim failure ids now =>
    obtain ⟨r, h⟩ := map_snd_eq_ok.1 h
    obtain ⟨run, hr, rfl, hmay, hsame, hstatus, ⟨hallowed, hnone, at₁, hcore⟩ | hcore⟩ := applyFailedOutcome_core h
    · right
      have hruns : db'.runs = (db.runs.put r).put (Run.new ids.runId run.taskId now (some run.executionId)) :=
        congrArg Core.runs hcore
      have hne : r.id ≠ ids.runId := fun e => by
        rw [← e, hsame.id, hr] at hnone
        cases hnone
      have hfresh : (db.runs.put r).get? ids.runId = none := (get?_put_ne hne).trans hnone
      rw [RetryPolicy.isRetryAllowed, Bool.and_eq_true, decide_eq_true_iff] at hallowed
      refine ⟨_, run, r, Run.new ids.runId run.taskId now (some run.executionId), ?_, hr, hmay.live,
        hsame, hstatus, hallowed.2, hfresh, rfl, rfl, rfl, hruns, ?_⟩
      · dsimp only [autoRetries]
        rw [hruns, rows_put_fresh hfresh, List.filter_append, new_saved hr hsame, List.nil_append,
          List.filter_cons_of_pos (by simp [Run.new, hnone]), hallowed.1]
        rfl
      · rw [hcore]
        exact isSome_enqueue_self
    · left
      have hruns : db'.runs = (((db.toCore.withRun r).dropItem run.id).settle run.executionId now).runs :=
        congrArg Core.runs hcore
      have hnew : db'.runs.rows.filter (fun x => (db.runs.get? x.id).isNone) = [] := by
        refine List.filter_eq_nil_iff.2 fun x hx hnew => ?_
        have hx : x ∈ (((db.toCore.withRun r).dropItem run.id).settle run.executionId now).runs.rows := hruns ▸ hx
        have hback : ∃ y ∈ (db.runs.put r).rows, y.id = x.id := by
          rcases ((db.toCore.withRun r).dropItem run.id).settle_runs run.executionId now with hs | ⟨p, hp, -, hs⟩
          · rw [hs] at hx
            exact ⟨x, hx, rfl⟩
          · rw [hs] at hx
            have hsaved : SameAttempt p { p with status := .running, delegationRequestId := none } := ⟨rfl, rfl, rfl, rfl⟩
            obtain ⟨y, hy, hyx, -⟩ := saved_back (mem_of_get? hp) hsaved hx
            exact ⟨y, hy, hyx.id.symm⟩
        obtain ⟨y, hy, hid⟩ := hback
        have hnone := List.filter_eq_nil_iff.1 (new_saved hr hsame) y hy
        rw [hid] at hnone
        exact hnone hnew
      rw [autoRetries, hnew, List.map_nil]
  | _ => exact .inl rfl

/-! ## The bound -/

structure RetriesOk (cfg : Config) (s : RetryLog) : Prop where
  lineages : s.db.toCore.lineages
  newest : Newest s.db.runs
  /-- Of the attempts of an execution the first one is no retry. -/
  counted : ∀ e, s.created.countP (·.executionId = e) ≤ attemptCount s.db.runs e - 1
  bounded : ∀ e, s.created.countP (·.executionId = e) ≤ cfg.retryPolicy.maxAttempts - 1
  ended : ∀ x ∈ s.created, ∃ run, s.db.runs.get? x.failed = some run ∧ run.status = .failed
  once : (s.created.map (·.failed)).Nodup
  retryable : ∀ x ∈ s.created, x.retryable = true

theorem attemptCount_fresh {n : Run} (hfresh : t.get? n.id = none) :
    attemptCount (t.put n) n.executionId = attemptCount t n.executionId + 1 := by
  rw [attemptCount, Table.select, rows_put_fresh hfresh, List.filter_append, List.length_append,
    List.filter_cons_of_pos (by simp)]
  rfl

variable {s s' : RetryLog}

theorem retrySystem_next (h : (retrySystem cfg).next s a s') :
    act cfg s.db a = .ok s'.db ∧ attemptsIncrease s.db s'.db = true ∧ s'.created = s.created ++ autoRetries s.db s'.db a := by
  obtain ⟨hstep, hclock⟩ := h
  obtain ⟨db, hcommit, rfl⟩ := Option.map_eq_some_iff.1 hstep
  refine ⟨toOption_eq_some.1 hcommit, ?_, rfl⟩
  have hclock : (commit cfg s.db a).all (attemptsIncrease s.db) = true := hclock
  rw [hcommit] at hclock
  exact hclock

theorem retrySystem_moves (h : (retrySystem cfg).next s a s') :
    Moves .increasing s.db.toCore s'.db.toCore := by
  obtain ⟨hact, hincrease, -⟩ := retrySystem_next h
  exact act_moves (allowed_increasing s.db a)
    (fun n hn hfresh => newAttempts_of_increase hincrease n hn hfresh) hact

/-- A retry makes the attempts of its execution one more, and there were fewer than
`max_attempts`. -/
theorem Retried.count {db db' : Db} {x : AutoRetry} {run n : Run} (h : Retried cfg db db' x run r n)
    (hnewest : Newest db.runs) :
    0 < attemptCount db.runs x.executionId ∧ attemptCount db.runs x.executionId < cfg.retryPolicy.maxAttempts ∧
      attemptCount db.runs x.executionId + 1 ≤ attemptCount db'.runs x.executionId := by
  have hin := mem_of_get? h.failed
  have hlatest := hnewest.latest_saved hin h.live h.same
  have hpos : 0 < attemptCount db.runs run.executionId :=
    List.length_pos_of_mem (List.mem_filter.2 ⟨hin, decide_eq_true rfl⟩)
  have hsaved : attemptCount db.runs run.executionId ≤ attemptCount (db.runs.put r) run.executionId :=
    attemptCount_le (.single (.save h.failed h.live h.same)) run.executionId
  have hmore := attemptCount_fresh h.fresh
  have hordinal := h.ordinal
  rw [ordinal_latest (by rw [h.same.executionId]; exact hlatest), h.same.executionId] at hordinal
  rw [h.execution] at hmore
  have hx : x.executionId = run.executionId := by rw [h.logged]
  rw [hx, h.runs]
  exact ⟨hpos, by omega, by omega⟩

theorem RetriesOk.next (h : RetriesOk cfg s) (hstep : (retrySystem cfg).next s a s') :
    RetriesOk cfg s' := by
  obtain ⟨hact, -, hcreated⟩ := retrySystem_next hstep
  have hmoves := retrySystem_moves hstep
  have hsteps : AttemptSteps s.db.runs s'.db.runs := hmoves.attempts
  have hkept : s'.db.toCore.lineages ∧ Newest s'.db.runs :=
    hmoves.keep (P := fun c => c.lineages ∧ Newest c.runs) ⟨h.lineages, h.newest⟩ fun hP hm =>
      ⟨lineages_move hP.1 hm, newest_move (fun hlater => hlater) hP.1 hP.2 hm⟩
  have hended : ∀ x ∈ s.created, ∃ run, s'.db.runs.get? x.failed = some run ∧ run.status = .failed := by
    intro x hx
    obtain ⟨run, hr, hs⟩ := h.ended x hx
    exact ⟨run, hsteps.keeps_ended hr (by rw [hs]; rfl), hs⟩
  rcases autoRetries_cases hact with hnone | ⟨x, run, r, n, hone, hx⟩
  · rw [hnone, List.append_nil] at hcreated
    refine ⟨hkept.1, hkept.2, fun e => ?_, ?_, ?_, ?_, ?_⟩
    · have := h.counted e
      have := attemptCount_le hsteps e
      rw [hcreated]
      omega
    · exact hcreated ▸ h.bounded
    · exact hcreated ▸ hended
    · exact hcreated ▸ h.once
    · exact hcreated ▸ h.retryable
  · rw [hone] at hcreated
    obtain ⟨hpos, hlt, hmore⟩ := hx.count h.newest
    -- the log holds one entry more for this execution, and as many as before for the others
    have hcount : ∀ e, s'.created.countP (·.executionId = e) =
        s.created.countP (·.executionId = e) + if x.executionId = e then 1 else 0 := by
      intro e
      rw [hcreated, List.countP_append, List.countP_singleton]
      simp
    refine ⟨hkept.1, hkept.2, fun e => ?_, fun e => ?_, ?_, ?_, ?_⟩
    · rw [hcount e]
      have hold := h.counted e
      have hmono := attemptCount_le hsteps e
      split
      · subst e
        omega
      · omega
    · rw [hcount e]
      have hold := h.counted e
      have hbound := h.bounded e
      split
      · subst e
        omega
      · exact hbound
    · rw [hcreated]
      intro y hy
      rcases List.mem_append.1 hy with hy | hy
      · exact hended y hy
      · obtain rfl := List.mem_singleton.1 hy
        refine ⟨r, ?_, hx.status⟩
        have hne : n.id ≠ r.id := fun e => by
          have hfresh := hx.fresh
          rw [e] at hfresh
          cases (get?_put_self s.db.runs r).symm.trans hfresh
        rw [hx.logged, hx.runs, ← hx.same.id]
        exact (get?_put_ne hne).trans (get?_put_self s.db.runs r)
    · -- the run that fails now was live, those of the log have ended
      rw [hcreated, List.map_append, List.map_singleton, List.nodup_append]
      refine ⟨h.once, List.nodup_singleton _, fun i hi j hj hij => ?_⟩
      obtain ⟨y, hy, rfl⟩ := List.mem_map.1 hi
      obtain rfl := List.mem_singleton.1 hj
      obtain ⟨run', hr', hs'⟩ := h.ended y hy
      have hfailed : x.failed = run.id := by rw [hx.logged]
      rw [hij, hfailed, hx.failed] at hr'
      cases hr'
      have hlive := hx.live
      rw [hs'] at hlive
      cases hlive
    · rw [hcreated]
      intro y hy
      rcases List.mem_append.1 hy with hy | hy
      · exact h.retryable y hy
      · obtain rfl := List.mem_singleton.1 hy
        rw [hx.logged]

theorem retrySystem_ok (h : (retrySystem cfg).Reachable s) : RetriesOk cfg s := by
  refine h.invariant (RetriesOk cfg) (fun s hinit => ?_) fun s a s' _ hok hstep => hok.next hstep
  obtain ⟨hcore, hcreated⟩ := hinit
  have hruns : s.db.runs = Core.empty.runs := congrArg Core.runs hcore
  refine ⟨hcore ▸ lineages_empty, hruns ▸ fun r hr => absurd hr List.not_mem_nil, ?_, ?_, ?_, ?_,
    ?_⟩ <;> rw [hcreated]
  · exact fun e => Nat.zero_le _
  · exact fun e => Nat.zero_le _
  · exact fun x hx => absurd hx List.not_mem_nil
  · exact List.nodup_nil
  · exact fun x hx => absurd hx List.not_mem_nil

/-- Whatever else is committed in between (other outcomes, lost leases, `RetryFailedRun`), the
automatic retries of an execution number at most `max_attempts - 1`. -/
theorem automatic_retries_bounded (cfg : Config) {s : RetryLog} (h : (retrySystem cfg).Reachable s) :
    (∀ executionId,
      s.created.countP (·.executionId = executionId) ≤ cfg.retryPolicy.maxAttempts - 1) ∧ (s.created.map (·.failed)).Nodup ∧
      (∀ x ∈ s.created, x.retryable = true ∧ ∃ run, s.db.runs.get? x.failed = some run ∧ run.status = .failed) ∧
      (∀ r ∈ s.db.runs.rows, r.status.isTerminal = false → ∀ x ∈ s.db.runs.rows,
        x.executionId = r.executionId → x.status.isTerminal = false → x = r) ∧
      ∀ a s', (retrySystem cfg).next s a s' → s'.created = s.created ++ autoRetries s.db s'.db a ∧
        ∀ x ∈ autoRetries s.db s'.db a, (s'.db.workQueue.get? x.retry).isSome = true ∧
          ∃ n, s'.db.runs.get? x.retry = some n ∧ n.status = .queued ∧ n.executionId = x.executionId := by
  have hok := retrySystem_ok h
  refine ⟨hok.bounded, hok.once, fun x hx => ⟨hok.retryable x hx, hok.ended x hx⟩,
    hok.lineages.single, fun a s' hstep => ?_⟩
  obtain ⟨hact, -, hcreated⟩ := retrySystem_next hstep
  refine ⟨hcreated, fun x hx => ?_⟩
  rcases autoRetries_cases hact with hnone | ⟨y, run, r, n, hone, hy⟩
  · rw [hnone] at hx
    cases hx
  · rw [hone] at hx
    obtain rfl := List.mem_singleton.1 hx
    have hget : s'.db.runs.get? n.id = some n := by
      rw [hy.runs]
      exact get?_put_self _ n
    rw [hy.logged]
    exact ⟨hy.item, n, hget, hy.queued, hy.execution⟩

/-- Three attempts: a retry, one started by hand when that has failed for good, and its failure. -/
def retryActions : List RunAction :=
  let claim : ClaimTriple := ⟨"worker", "token", 1⟩
  let failure (retryable : Bool) : Failure :=
    ⟨"code", "message", retryable, .runtime, .null, Eq.refl false, Eq.refl false⟩
  [.createTask 1 "title" "" 0, .startRun 1 2 1, .claimNextRun sampleClaim 2,
    .applyFailedOutcome 2 claim (failure true) ⟨3, 4, 5⟩ 3, .claimNextRun sampleClaim 100,
    .applyFailedOutcome 3 claim (failure false) ⟨6, 7, 8⟩ 101, .retryFailedRun 3 ⟨9, 10, 11⟩ 102,
    .claimNextRun sampleClaim 103, .applyFailedOutcome 9 claim (failure true) ⟨12, 13, 14⟩ 104]

def retryLog : RetryLog := System.run (retryStep sampleConfig) ⟨sampleDb, []⟩ retryActions

theorem automatic_retries_bounded_sample :
    (retrySystem sampleConfig).Reachable retryLog ∧ retryLog.created = [⟨2, 2, 3, true⟩] ∧
      retryLog.db.runs.rows.map (·.status) = [.failed, .failed, .failed] ∧
      (retryLog.created.map (·.failed)).Nodup := by
  have hlegal : System.Legal (retryStep sampleConfig)
    (fun s a => clockAdvances sampleConfig s.db a = true) ⟨sampleDb, []⟩
      retryActions := by decide +kernel
  have hreach : (retrySystem sampleConfig).Reachable retryLog :=
    .steps (.of_init ⟨rfl, rfl⟩) (.run hlegal)
  exact ⟨hreach, by decide +kernel, by decide +kernel, (automatic_retries_bounded sampleConfig hreach).2.1⟩

end Friday.Runs
