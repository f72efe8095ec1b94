import FridayAssistant.App.System
/-!
# A task that is over owns no live run

Over the entries: a run is only added to a task that is not over, and a task ends after its runs.
`FailTask` is the exception: it asks for neither, so a FAILED task can keep a live run, whose
failure then adds the next attempt.
-/
namespace Friday.App
open Tables Table Runs Transition PyJson Queue Replay

/-- Every run of a task that is over has ended. -/
def TasksOk (j : Journal) : Prop :=
  ∀ r ∈ j.runs.rows, ∀ t, j.tasks.get? r.taskId = some t → t.status.isTerminal = true →
    r.status.isTerminal = true

/-- A task that is over stays as it is, and gets no run. -/
def Closed (j j' : Journal) : Prop :=
  ∀ t, j.tasks.get? t.id = some t → t.status.isTerminal = true → j'.tasks.get? t.id = some t ∧
    ∀ r ∈ j'.runs.rows, r.taskId = t.id → ∃ r₀ ∈ j.runs.rows, r₀.id = r.id ∧ r₀.taskId = t.id

theorem Closed.refl (j : Journal) : Closed j j :=
  fun _ ht _ => ⟨ht, fun r hr hof => ⟨r, hr, rfl, hof⟩⟩

theorem Closed.trans {j j' j'' : Journal} (h : Closed j j') (h' : Closed j' j'') : Closed j j'' :=
  fun t ht hover => by
  obtain ⟨ht', hold⟩ := h t ht hover
  obtain ⟨ht'', hold'⟩ := h' t ht' hover
  refine ⟨ht'', fun r hr hof => ?_⟩
  obtain ⟨r', hr', hid', hof'⟩ := hold' r hr hof
  obtain ⟨r₀, hr₀, hid₀, hof₀⟩ := hold r' hr' hof'
  exact ⟨r₀, hr₀, hid₀.trans hid', hof₀⟩

section
variable {R : RunId → Prop} {j j' : Journal} {r r' : Run} {t u : Task}

/-- A transition keeps the task of the run, and what has ended has ended. -/
theorem TasksOk.save (h : TasksOk j) (hr : j.runs.get? r.id = some r) (same : SameAttempt r r')
    (hkeep : r.status.isTerminal = true → r'.status.isTerminal = true) :
    TasksOk (j.withRun r') ∧ Closed j (j.withRun r') := by
  have hmem : r ∈ j.runs.rows := mem_of_get? hr
  refine ⟨forall_put (fun t ht hover => ?_) h, fun t ht _ => ⟨ht, ?_⟩⟩
  · exact hkeep (h r hmem t (by rw [← same.taskId]; exact ht) hover)
  · exact forall_put (fun hof => ⟨r, hmem, same.id.symm, same.taskId.symm.trans hof⟩) fun x hx hof => ⟨x, hx, rfl, hof⟩

/-- A run is added to a task that is not over. -/
theorem TasksOk.add (h : TasksOk j) (hopen : ∀ t, j.tasks.get? r.taskId = some t →
    t.status.isTerminal = false) : TasksOk (j.withRun r) ∧ Closed j (j.withRun r) := by
  refine ⟨forall_put (fun t ht hover => ?_) h,
    fun t ht hover => ⟨ht, forall_put (fun hof => ?_) ?_⟩⟩
  · rw [hopen t ht] at hover
    cases hover
  · rw [hopen t (by rw [hof]; exact ht)] at hover
    cases hover
  · exact fun x hx hof => ⟨x, hx, rfl, hof⟩

theorem replay_terminal {s s' : RunStatus} {log : List RunEventType} (hs : s.isTerminal = true)
    (h : replay fire (some s) log = some (some s')) : s' = s := by
  cases log with
  | nil => exact (Option.some.inj (Option.some.inj h)).symm
  | cons e log =>
    rw [replay, fire_terminal hs] at h
    cases h

theorem entry_tasksOk (h : TasksOk j) (he : Entry R False A j j') : TasksOk j' ∧ Closed j j' := by
  cases he with
  | note | request | settle => exact ⟨h, Closed.refl j⟩
  | create _ _ _ task active | retry _ _ _ _ _ _ task active =>
    refine h.add fun t ht => ?_
    rw [task] at ht
    cases ht
    rw [active]; rfl
  | save hr same told =>
    refine h.save hr same fun hended => ?_
    rw [replay_terminal hended told]
    exact hended
  | @failRetry r r' n now now' specs specs' hr live same failed told _ _ _ _ sameTask _ _ =>
    obtain ⟨hok, hclosed⟩ := h.save hr same fun _ => by rw [failed]; rfl
    have hopen : ∀ t, (j.withRun r').tasks.get? n.taskId = some t → t.status.isTerminal = false := by
      intro t ht
      cases hover : t.status.isTerminal with
      | false => rfl
      | true =>
        rw [h r (mem_of_get? hr) t (by rw [← sameTask]; exact ht) hover] at live
        cases live
    obtain ⟨hok', hclosed'⟩ := hok.add hopen
    exact ⟨hok', hclosed.trans hclosed'⟩
  | root hr same _ live => exact h.save hr same fun hended => by rw [live] at hended; cases hended
  | @newTask t fresh pending =>
    refine ⟨fun x hx u hu hover => ?_, fun u hu _ => ⟨(get?_put_ne fun e => ?_).trans hu, fun x hx hof => ⟨x, hx, rfl, hof⟩⟩⟩
    · rw [show (j.withTask t).tasks = j.tasks.put t from rfl, get?_put] at hu
      split at hu
      · cases hu
        rw [pending] at hover
        cases hover
      · exact h x hx u hu hover
    · rw [← e, key_task, fresh] at hu
      cases hu
  | @task t u ht id live ended =>
    refine ⟨fun x hx v hv hover => ?_, fun v hv hover => ⟨(get?_put_ne fun e => ?_).trans hv, fun x hx hof => ⟨x, hx, rfl, hof⟩⟩⟩
    · rw [show (j.withTask u).tasks = j.tasks.put u from rfl, get?_put] at hv
      split at hv
      · next hkey =>
        cases hv
        rcases ended hover with hfalse | hall
        · exact hfalse.elim
        · exact hall x hx (hkey.symm.trans id)
      · exact h x hx v hv hover
    · rw [← e, key_task, id, ht] at hv
      cases hv
      rw [live] at hover
      cases hover
  | wake _ _ _ _ hp _ waiting same =>
    exact TasksOk.save (j := j.withRequest _) h hp same fun hended => by rw [waiting] at hended; cases hended

theorem entries_tasksOk (h : TasksOk j) (he : Entries R False A j j') : TasksOk j' ∧
    Closed j j' := by
  induction he with
  | refl => exact ⟨h, Closed.refl j⟩
  | tail _ hstep ih =>
    obtain ⟨hok, hclosed⟩ := entry_tasksOk ih.1 hstep
    exact ⟨hok, ih.2.trans hclosed⟩

end

/-- `FailTask` only when every run of the task has ended. -/
def failsAfterRuns (db : AppDb) : AppAction → Prop
  | .run (.failTask taskId _ _) =>
    ∀ r ∈ db.runs.rows, r.taskId = taskId → r.status.isTerminal = true
  | _ => True

instance (db : AppDb) (a : AppAction) : Decidable (failsAfterRuns db a) := by
  unfold failsAfterRuns
  split
  · infer_instance
  · infer_instance

theorem restricted_tasksOk {cfg : AppConfig} {db db' : AppDb} {a : AppAction}
    (h : TasksOk db.journal) (hnext : ((appSystem cfg).restrict failsAfterRuns).next db a db') :
    TasksOk db'.journal ∧ Closed db.journal db'.journal := by
  obtain ⟨hcond, hnext⟩ := hnext
  obtain ⟨hact, htells⟩ := hnext
  have hact := toOption_eq_some.1 hact
  have hentries : Entries db'.Roots False True db.journal db'.journal := by
    refine appAct_entries trivial (fun b hb => ?_) (fun taskId failure now ha => .inr ?_) hact
    · rw [hb] at htells; exact htells
    · rw [ha] at hcond; exact hcond
  exact entries_tasksOk h hentries

/-- **A task that is over owns no live run**, when `FailTask` is only committed after the runs of
the task: its runs have ended, and in every later state it has no other. -/
theorem terminal_task_owns_no_live_run (cfg : AppConfig) (db : AppDb)
    (h : ((appSystem cfg).restrict failsAfterRuns).Reachable db) (t : Task) (ht : t ∈ db.tasks.rows)
    (hover : t.status.isTerminal = true) :
    (∀ r ∈ db.runs.rows, r.taskId = t.id → r.status.isTerminal = true) ∧
    ∀ db', ((appSystem cfg).restrict failsAfterRuns).Steps db db' → ∀ r ∈ db'.runs.rows,
      r.taskId = t.id → ∃ r₀ ∈ db.runs.rows, r₀.id = r.id := by
  have hinv : ∀ {db}, ((appSystem cfg).restrict failsAfterRuns).Reachable db → TasksOk db.journal :=
    System.Reachable.invariant (fun db => TasksOk db.journal)
      (fun db hinit r hr => by
        rw [show db.journal.runs = .empty from congrArg Core.runs hinit] at hr
        cases hr)
      fun db a db' _ hok hnext => (restricted_tasksOk hok hnext).1
  have hget : db.journal.tasks.get? t.id = some t := get?_of_mem ht
  refine ⟨fun r hr hof => hinv h r hr t (by rw [hof]; exact hget) hover, fun db' hsteps => ?_⟩
  have hclosed : Closed db.journal db'.journal := by
    induction hsteps with
    | refl => exact Closed.refl _
    | tail hs hstep ih =>
      obtain ⟨a, hnext⟩ := hstep
      exact ih.trans (restricted_tasksOk (hinv (h.steps hs)) hnext).2
  intro r hr hof
  obtain ⟨r₀, hr₀, hid, -⟩ := (hclosed t hget hover).2 r hr hof
  exact ⟨r₀, hr₀, hid⟩

/-! ## The runs that `FailTask` leaves behind -/

/-- A run is claimed and its task fails. -/
def failedTaskActions : List AppAction :=
  [.run (.createTask 1 "title" "" 0), .run (.startRun 1 2 1), .run (.claimNextRun sampleClaim 2),
    .run (.failTask 1 sampleFailure 3)]

def failedTask : AppDb := System.run (appCommit sampleAppConfig) sampleAppDb failedTaskActions

/-- The failure of the run then adds the next attempt. -/
def retryActions : List AppAction :=
  [.run (.applyFailedOutcome 2 ⟨"worker", "token", 1⟩ sampleFailure ⟨4, 5, 6⟩ 4)]

def retriedTask : AppDb := System.run (appCommit sampleAppConfig) failedTask retryActions

/-- A FAILED task owns a RUNNING run, and gets another one. -/
theorem failed_task_with_live_run :
    (appSystem sampleAppConfig).Reachable failedTask ∧
      (appSystem sampleAppConfig).Steps failedTask retriedTask ∧ (failedTask.tasks.get? 1).map
      (·.status) = some .failed ∧ (failedTask.runs.get? 2).map
      (fun r => (r.taskId, r.status)) = some (1, .running) ∧ failedTask.runs.get? 4 = none ∧
      (retriedTask.runs.get? 4).map (fun r => (r.taskId, r.status)) = some (1, .queued) := by
  have hfailed : System.Legal (appCommit sampleAppConfig)
    (fun _ a => a.isSpelledOut = true) sampleAppDb
    failedTaskActions := by decide +kernel
  have hretried : System.Legal (appCommit sampleAppConfig)
    (fun _ a => a.isSpelledOut = true) failedTask
    retryActions := by decide +kernel
  have hinit : (appSystem sampleAppConfig).init sampleAppDb := rfl
  refine ⟨.steps (.of_init hinit) (.run (hfailed.mono fun _ _ _ => AppAction.isSpelledOut.tells)),
    .run (hretried.mono fun _ _ _ => AppAction.isSpelledOut.tells), ?_⟩
  decide +kernel

/-- The run succeeds first, then the task fails. -/
def endedTaskActions : List AppAction :=
  [.run (.createTask 1 "title" "" 0), .run (.startRun 1 2 1), .run (.claimNextRun sampleClaim 2),
    .run (.applySucceededOutcome 2 ⟨"worker", "token", 1⟩ none 3),
    .run (.failTask 1 sampleFailure 4)]

def endedTask : AppDb := System.run (appCommit sampleAppConfig) sampleAppDb endedTaskActions

theorem terminal_task_owns_no_live_run_sample :
    (endedTask.tasks.get? 1).map (·.status) = some .failed ∧
      ∀ r ∈ endedTask.runs.rows, r.taskId = 1 → r.status.isTerminal = true := by
  have htask : (endedTask.tasks.get? 1).map (·.status) = some .failed := by decide +kernel
  obtain ⟨t, ht, hs⟩ := Option.map_eq_some_iff.1 htask
  have hid : t.id = 1 := key_of_get? ht
  have hinit : ((appSystem sampleAppConfig).restrict failsAfterRuns).init sampleAppDb := rfl
  have hown : ∀ a ∈ endedTaskActions, a.isSpelledOut = true := by decide
  have hlegal : System.Legal (appCommit sampleAppConfig) failsAfterRuns sampleAppDb
    endedTaskActions := by decide +kernel
  have hreach : ((appSystem sampleAppConfig).restrict failsAfterRuns).Reachable endedTask :=
    .steps (.of_init hinit)
    (.run_restrict (hlegal.mono fun a ha _ hcond => ⟨AppAction.isSpelledOut.tells (hown a ha), hcond⟩))
  have hended := (terminal_task_owns_no_live_run sampleAppConfig endedTask hreach t (mem_of_get? ht)
    (by rw [hs]; rfl)).1
  rw [hid] at hended
  exact ⟨htask, hended⟩

end Friday.App
