import FridayAssistant.App.System
import Mathlib
/-!
# Occurrences of a schedule

Every use case is one step, and the instants the schedule use cases read never decrease. A fire
is for the occurrence the schedule was due for, the next one lies after the instant of the fire,
and nothing is fired while an attempt of an earlier fire is live. A retry brings an old fire back
to life only when no run of its task is live; the fires of a schedule all belong to its task.
-/
namespace Friday.App
open Tables Table Runs Transition

/-- The instant a schedule use case reads. -/
def AppAction.instant : AppAction → Option Time
  | .createSchedule _ _ now | .changeSchedule _ _ _ now | .materialize _ _ _ now => some now
  | _ => none

structure Clocked where
  db : AppDb
  clock : Time

def clockedCommit (cfg : AppConfig) (s : Clocked) (a : AppAction) : Option Clocked :=
  (appCommit cfg s.db a).map fun db => ⟨db, a.instant.getD s.clock⟩

/-- The clock does not go back. -/
def Onward (s : Clocked) (a : AppAction) : Prop := ∀ now ∈ a.instant, s.clock ≤ now
  deriving Decidable

/-- Every use case, in any order, on a clock that does not go back. -/
def clockedSystem (cfg : AppConfig) : System Clocked AppAction :=
  .ofStep (fun s => s.db.toCore = .empty ∧ s.db.schedules = .empty ∧ s.db.scheduleFires = .empty)
    (clockedCommit cfg) Onward

/-! ## What a use case does to schedules -/

/-- The same schedule later: one that is over stays so; a new next occurrence lies after the
instant. -/
structure SameSchedule (instant : Option Time) (s s' : Schedule) : Prop where
  task : s'.taskId = s.taskId
  terminal : s.status.isTerminal = true → s'.status = s.status
  next : ∀ next, s'.nextFireAt = some next → s.nextFireAt = some next ∨ ∃ now ∈ instant, now < next

theorem SameSchedule.refl {instant : Option Time} (s : Schedule) : SameSchedule instant s s :=
  ⟨rfl, fun _ => rfl, fun _ hn => .inl hn⟩

variable {s : Schedule} {cfg : AppConfig}

theorem SameSchedule.of_live {instant : Option Time} {s' : Schedule}
    (live : s.status.isTerminal = false) (task : s'.taskId = s.taskId)
    (next : ∀ next, s'.nextFireAt = some next → s.nextFireAt = some next ∨ ∃ now ∈ instant, now < next) :
    SameSchedule instant s s' :=
  ⟨task, fun hterminal => absurd (live.symm.trans hterminal) Bool.false_ne_true, next⟩

/-- Every stored schedule stays. -/
def SchedulesKept (instant : Option Time) (t t' : Schedules) : Prop :=
  ∀ k s, t.get? k = some s → ∃ s', t'.get? k = some s' ∧ SameSchedule instant s s'

namespace SchedulesKept
variable {instant : Option Time} {t : Schedules}

theorem refl : SchedulesKept instant t t := fun _ s hs => ⟨s, hs, .refl s⟩

theorem put {s' : Schedule} (hs : t.get? s.id = some s) (id : s'.id = s.id)
    (same : SameSchedule instant s s') : SchedulesKept instant t (t.put s') := by
  intro k x hx
  rw [get?_put, key_schedule, id]
  split
  · next hk =>
    rw [← hk, hs] at hx
    cases hx
    exact ⟨s', rfl, same⟩
  · exact ⟨x, hx, .refl x⟩

theorem add (fresh : t.get? s.id = none) : SchedulesKept instant t (t.put s) := by
  exact fun _ x hx => ⟨x, get?_put_fresh fresh hx, .refl x⟩

theorem completeForTask (taskId : TaskId) (now : Time) (cancelled : Bool) :
    SchedulesKept instant t (t.completeForTask taskId now cancelled) := by
  intro k s hs
  rw [Schedules.completeForTask, get?_updateWhere, hs, Option.map_some]
  split
  · next hlive =>
    refine ⟨_, rfl, rfl, fun hterminal => ?_, nofun⟩
    simp [hterminal] at hlive
  · exact ⟨s, rfl, .refl s⟩

theorem schedulesAfter (db : AppDb) (a : RunAction) :
    SchedulesKept instant db.schedules (schedulesAfter db a) := by
  unfold App.schedulesAfter
  cases a with
  | cancelTask taskId now | completeTask taskId now | failTask taskId _ now =>
    dsimp only; split <;> first | exact refl | exact completeForTask taskId now _
  | _ => exact refl

end SchedulesKept

/-- What pause, resume and cancel make of a schedule, which is not over. -/
theorem controlled_keeps {cal : Calendar} {s' : Schedule} {control : ScheduleControl} {now : Time}
    (h : controlled cal s control now = .ok s') :
    s'.id = s.id ∧ s.status.isTerminal = false ∧ SameSchedule (some now) s s' := by
  unfold controlled asConflict at h
  split at h
  · cases h
  cases control with
  | pause =>
    obtain ⟨_, hs, h⟩ := bind_ok h
    have hlive : s.status.isTerminal = false := by rw [of_require hs]; rfl
    cases h
    exact ⟨rfl, hlive, .of_live hlive rfl fun _ hn => .inl hn⟩
  | resume =>
    obtain ⟨next, hnext, _, hs, h⟩ := bind_ok₂ h
    have hlive : s.status.isTerminal = false := by rw [of_require hs]; rfl
    cases h
    refine ⟨rfl, hlive, .of_live hlive rfl fun n hn => .inr ⟨now, rfl, ?_⟩⟩
    rw [show next = some n from hn] at hnext
    exact nextOccurrence_later hnext
  | cancel =>
    obtain ⟨_, hs, h⟩ := bind_ok h
    have hlive : s.status.isTerminal = false := by simpa using require_eq_ok.1 hs
    cases h
    exact ⟨rfl, hlive, .of_live hlive rfl nofun⟩

theorem getSchedule_eq_ok {db : AppDb} {id : ScheduleId} {taskId : Option TaskId}
    (h : getSchedule db id taskId = .ok s) : s.id = id ∧ db.schedules.get? s.id = some s := by
  obtain ⟨_, hget, h⟩ := bind_ok h
  obtain ⟨_, h⟩ := bind_rest h
  cases h
  have hget := found_eq_ok.1 hget
  obtain rfl : s.id = id := key_of_get? hget
  exact ⟨rfl, hget⟩

/-! ## The invariant -/

/-- Of what a materialization that fires writes. -/
structure FireAdded (db : AppDb) (now : Time) (db' : AppDb) (s : Schedule) (f : ScheduleFire) :
    Prop where
  active : s.status = .active
  due : s.nextFireAt = some f.scheduledFor
  reached : f.scheduledFor ≤ now
  schedule : db.schedules.get? f.scheduleId = some s
  schedules : SchedulesKept (some now) db.schedules db'.schedules
  next : ∀ s', db'.schedules.get? f.scheduleId = some s' → ∀ next, s'.nextFireAt = some next →
    now < next
  idle : db.hasNonTerminalExecution f.scheduleId = false
  run : ∃ n : Run, n.id = f.runId ∧ n.executionId = n.id ∧ n.taskId = s.taskId ∧
    db.runs.get? n.id = none ∧ db'.runs = db.runs.put n
  fresh : db.scheduleFires.get? f.id = none
  fires : db'.scheduleFires = db.scheduleFires.put f

/-- A use case fires an occurrence, or leaves the fires alone. -/
theorem appAct_fires {db db' : AppDb} {a : AppAction} (h : appAct cfg db a = .ok db') :
    (db'.scheduleFires = db.scheduleFires ∧ SchedulesKept a.instant db.schedules db'.schedules ∧
      AttemptSteps db.runs db'.runs) ∨
    ∃ now s f, a.instant = some now ∧ FireAdded db now db' s f := by
  cases appAct_applied h with
  | @run b db₁ acted =>
    have hmoves : Moves .free db.toDb.toCore db₁.toCore :=
      act_moves (by cases b <;> first | exact trivial | exact fun _ _ _ _ _ _ _ => trivial |
        exact fun _ _ _ _ _ => trivial) (fun _ _ _ => trivial) acted
    exact .inl ⟨rfl, .schedulesAfter db b, hmoves.attempts⟩
  | created fresh => exact .inl ⟨rfl, .add fresh, .refl⟩
  | changed read written =>
    obtain ⟨hid, -, hsame⟩ := controlled_keeps written
    exact .inl ⟨rfl, .put (getSchedule_eq_ok read).2 hid hsame, .refl⟩
  | @materialized resolve id ids now _ fired =>
    cases fired with
    | nothing => exact .inl ⟨rfl, .refl, .refl⟩
    | @passed s hs active =>
      obtain rfl : s.id = id := key_of_get? hs
      exact .inl ⟨rfl, .put hs rfl (.of_live (by rw [active]; rfl) rfl nofun), .refl⟩
    | @fire s task policy occurrence next db₁ hs active due reached htask idle started hnext =>
      have hid : s.id = id := key_of_get? hs
      have htid : task.id = s.taskId := key_of_get? htask
      obtain ⟨runs, fires, plans, hruns, hfires, -, rfl⟩ := startFire_eq_ok started
      obtain ⟨hfresh, hcore⟩ := startRunInUow_core hruns
      obtain ⟨hfreshFire, rfl, -⟩ := ScheduleFires.add_eq_ok hfires
      rw [← hid] at hs
      refine .inr ⟨now, s, newFire s occurrence ids now, rfl, active, due, reached, hs, ?_, ?_, idle, ?_, hfreshFire, rfl⟩
      · refine .put hs rfl (.of_live (by rw [active]; rfl) rfl fun n hn => .inr ⟨now, rfl, ?_⟩)
        exact coalescedNext_later (hnext.trans (by rw [show next = some n from hn]))
      · intro s' hs' n hn
        have hs' := (get?_put_self db.schedules (s.advanceAfterFire now next)).symm.trans hs'
        cases hs'
        exact coalescedNext_later (hnext.trans (by rw [show next = some n from hn]))
      · exact ⟨Run.new ids.runId task.id now none, rfl, rfl, htid, hfresh, congrArg Core.runs hcore⟩
  | @submitted _ ids now _ _ answer =>
    rcases submitConversationTurn_written answer with rfl | ⟨turn, hwritten⟩
    · exact .inl ⟨rfl, .refl, .refl⟩
    · obtain ⟨task, started, -, -, hstarted, hdb⟩ := hwritten.task
      obtain ⟨hfresh, hcore⟩ := startRunInUow_core hstarted
      refine .inl ⟨hwritten.fires, ?_, ?_⟩
      · rw [hwritten.schedules]
        exact .refl
      · rw [hdb, show started.runs = _ from congrArg Core.runs hcore]
        exact .single (.first (n := Run.new ids.runId task.id now none) hfresh rfl)
  | _ => exact .inl ⟨rfl, .refl, .refl⟩

structure OccurrencesOk (s : Clocked) : Prop where
  rooted : Rooted s.db.runs
  /-- A fire belongs to a schedule, and its run is the first attempt of an execution of its task. -/
  owned : ∀ f ∈ s.db.scheduleFires.rows, ∃ schedule root,
    s.db.schedules.get? f.scheduleId = some schedule ∧ s.db.runs.get? f.runId = some root ∧
    root.executionId = root.id ∧ root.taskId = schedule.taskId
  /-- What was fired is past, and before what is next. -/
  past : ∀ f ∈ s.db.scheduleFires.rows, f.scheduledFor ≤ s.clock ∧
    ∀ schedule, s.db.schedules.get? f.scheduleId = some schedule →
      ∀ next, schedule.nextFireAt = some next → f.scheduledFor < next
  unique : ∀ f ∈ s.db.scheduleFires.rows, ∀ f' ∈ s.db.scheduleFires.rows, f.runId = f'.runId →
    f = f'
  increasing : s.db.scheduleFires.rows.Pairwise fun f f' => f.scheduleId = f'.scheduleId →
    f.scheduledFor < f'.scheduledFor
  apart : ∀ f ∈ s.db.scheduleFires.rows, ∀ f' ∈ s.db.scheduleFires.rows,
    f.scheduleId = f'.scheduleId → LiveExecution s.db.runs f.runId →
    LiveExecution s.db.runs f'.runId → f = f'

section
variable {db db' : AppDb} {clock : Time}

/-- The fires are what they were. -/
theorem OccurrencesOk.keep (h : OccurrencesOk ⟨db, clock⟩) (instant : Option Time)
    (honward : ∀ now ∈ instant, clock ≤ now) (hfires : db'.scheduleFires = db.scheduleFires)
    (hschedules : SchedulesKept instant db.schedules db'.schedules)
    (hruns : AttemptSteps db.runs db'.runs) : OccurrencesOk ⟨db', instant.getD clock⟩ := by
  have hclock : clock ≤ instant.getD clock := by
    cases instant with
    | none => exact le_rfl
    | some now => exact honward now rfl
  refine ⟨hruns.rooted h.rooted, ?_, ?_, ?_, ?_, ?_⟩ <;> simp only [hfires]
  · intro f hf
    obtain ⟨schedule, root, hs, hr, hself, htask⟩ := h.owned f hf
    obtain ⟨schedule', hs', hschedule⟩ := hschedules _ _ hs
    obtain ⟨root', hr', hsame⟩ := hruns.keeps hr
    exact ⟨schedule', root', hs', hr', by rw [hsame.executionId, hsame.id, hself], by
      rw [hsame.taskId, htask, hschedule.task]⟩
  · intro f hf
    obtain ⟨hpast, hnext⟩ := h.past f hf
    refine ⟨hpast.trans hclock, fun schedule' hs' next hn => ?_⟩
    obtain ⟨schedule, -, hs, -⟩ := h.owned f hf
    obtain ⟨x, hx, hschedule⟩ := hschedules _ _ hs
    rw [hs'] at hx
    cases hx
    rcases hschedule.next next hn with hold | ⟨now, hnow, hlt⟩
    · exact hnext schedule hs next hold
    · exact (hpast.trans (honward now hnow)).trans_lt hlt
  · exact h.unique
  · exact h.increasing
  · intro f hf f' hf' hof hlive hlive'
    by_contra hne
    obtain ⟨schedule, root, hs, hr, -, htask⟩ := h.owned f hf
    obtain ⟨schedule', root', hs', hr', -, htask'⟩ := h.owned f' hf'
    rw [hof, hs'] at hs
    cases hs
    -- two fires of one schedule have runs of one task, and were live before
    obtain ⟨hl, hl'⟩ := hruns.live_pair h.rooted hr hr' (htask.trans htask'.symm)
      (fun e => hne (h.unique f hf f' hf' e)) hlive hlive'
    exact hne (h.apart f hf f' hf' hof hl hl')

/-- An occurrence is fired. -/
theorem OccurrencesOk.fire (h : OccurrencesOk ⟨db, clock⟩) {now : Time} {f : ScheduleFire}
    (honward : clock ≤ now) (hadd : FireAdded db now db' s f) : OccurrencesOk ⟨db', now⟩ := by
  obtain ⟨n, hid, hself, htask, hfresh, hruns⟩ := hadd.run
  have hsteps : AttemptSteps db.runs db'.runs := by
    rw [hruns]
    exact .single (.first hfresh hself)
  -- what the old fires keep when another one is added
  have hold : OccurrencesOk ⟨{ db' with scheduleFires := db.scheduleFires }, now⟩ :=
    h.keep (some now) (fun t ht => by cases ht; exact honward) rfl hadd.schedules hsteps
  have hmem : ∀ {x}, x ∈ db'.scheduleFires.rows ↔ x = f ∨ x ∈ db.scheduleFires.rows := by
    intro x
    rw [hadd.fires]
    exact mem_put_fresh hadd.fresh
  have hnew : ∀ x ∈ db.scheduleFires.rows, x.runId ≠ f.runId := by
    intro x hx e
    obtain ⟨-, root, -, hr, -⟩ := h.owned x hx
    rw [e, ← hid, hfresh] at hr
    cases hr
  have hbefore : ∀ x ∈ db.scheduleFires.rows, x.scheduleId = f.scheduleId → x.scheduledFor < f.scheduledFor :=
    fun x hx e => (h.past x hx).2 s (by rw [e]; exact hadd.schedule) _ hadd.due
  -- nothing of an earlier fire is live
  have hquiet : ∀ x ∈ db.scheduleFires.rows, x.scheduleId = f.scheduleId → ¬LiveExecution db'.runs x.runId := by
    rintro x hx e ⟨r, hr, hexec, hlive⟩
    rw [hruns] at hr
    rcases (mem_put_fresh hfresh).1 hr with rfl | hr
    · exact hnew x hx (by rw [← hexec, hself, hid])
    · have hidle := hadd.idle
      simp only [AppDb.hasNonTerminalExecution, List.any_eq_false, Bool.and_eq_true, Bool.not_eq_true', not_and] at hidle
      refine hidle r hr hlive ?_
      exact List.any_eq_true.2 ⟨x, hx, by simp [e, hexec]⟩
  refine ⟨hold.rooted, ?_, ?_, ?_, ?_, ?_⟩
  · intro x hx
    rcases hmem.1 hx with rfl | hx
    · obtain ⟨s', hs', hschedule⟩ := hadd.schedules _ _ hadd.schedule
      refine ⟨s', n, hs', ?_, hself, htask.trans hschedule.task.symm⟩
      show db'.runs.get? x.runId = some n
      rw [hruns, ← hid]
      exact get?_put_self db.runs n
    · exact hold.owned x hx
  · intro x hx
    rcases hmem.1 hx with rfl | hx
    · exact ⟨hadd.reached, fun s' hs' next hn => hadd.reached.trans_lt (hadd.next s' hs' next hn)⟩
    · exact hold.past x hx
  · intro x hx y hy e
    rcases hmem.1 hx with rfl | hx <;> rcases hmem.1 hy with rfl | hy
    · rfl
    · exact absurd e.symm (hnew y hy)
    · exact absurd e (hnew x hx)
    · exact h.unique x hx y hy e
  · show db'.scheduleFires.rows.Pairwise _
    rw [hadd.fires, rows_put_fresh hadd.fresh, List.pairwise_append]
    refine ⟨h.increasing, List.pairwise_singleton _ _, fun x hx y hy => ?_⟩
    rw [List.mem_singleton.1 hy]
    exact hbefore x hx
  · intro x hx y hy e hlive hlive'
    rcases hmem.1 hx with rfl | hx <;> rcases hmem.1 hy with rfl | hy
    · rfl
    · exact absurd hlive' (hquiet y hy e.symm)
    · exact absurd hlive (hquiet x hx e)
    · exact hold.apart x hx y hy e hlive hlive'

end

theorem clockedSystem_next {s s' : Clocked} {a : AppAction} (h : (clockedSystem cfg).next s a s') :
    Onward s a ∧ appAct cfg s.db a = .ok s'.db ∧ s'.clock = a.instant.getD s.clock := by
  obtain ⟨hstep, honward⟩ := h
  obtain ⟨db, hact, rfl⟩ := Option.map_eq_some_iff.1 hstep
  exact ⟨honward, toOption_eq_some.1 hact, rfl⟩

theorem occurrencesOk_reachable {s : Clocked} (h : (clockedSystem cfg).Reachable s) :
    OccurrencesOk s := by
  refine h.invariant OccurrencesOk (fun s hinit => ?_) (fun s a s' _ hok hnext => ?_)
  · obtain ⟨hcore, -, hfires⟩ := hinit
    have hruns : s.db.runs.rows = [] := congrArg (fun c : Core => c.runs.rows) hcore
    have hrows : s.db.scheduleFires.rows = [] := by rw [hfires]; rfl
    constructor <;> simp [Rooted, hruns, hrows]
  · obtain ⟨honward, hact, hclock⟩ := clockedSystem_next hnext
    obtain ⟨db', clock'⟩ := s'
    subst hclock
    rcases appAct_fires hact with ⟨hfires, hschedules, hruns⟩ | ⟨now, schedule, f, hnow, hadd⟩
    · exact hok.keep _ honward hfires hschedules hruns
    · rw [hnow]
      exact hok.fire (honward now hnow) hadd

/-- Fires are appended, in the order of their commits. -/
theorem fires_appended {s s' : Clocked} (h : (clockedSystem cfg).Steps s s') :
    s.db.scheduleFires.rows <+: s'.db.scheduleFires.rows := by
  induction h with
  | refl => exact List.prefix_rfl
  | tail _ hstep ih =>
    obtain ⟨a, hnext⟩ := hstep
    obtain ⟨-, hact, -⟩ := clockedSystem_next hnext
    refine ih.trans ?_
    rcases appAct_fires hact with ⟨hfires, -, -⟩ | ⟨_, _, f, -, hadd⟩
    · rw [hfires]
    · rw [hadd.fires, rows_put_fresh hadd.fresh]
      exact List.prefix_append _ _

/-- **Occurrences fire at most once and never overlap.** In every state a run reaches: the fires
of a schedule, in the order of their commits, are for later and later occurrences; an occurrence
has one fire, whose run is the first attempt of an execution no other fire has; and of the fires
of a schedule at most one has an attempt that is not terminal. -/
theorem occurrences_fire_once (cfg : AppConfig) (s : Clocked)
    (h : (clockedSystem cfg).Reachable s) :
    (∀ s', (clockedSystem cfg).Steps s s' → s.db.scheduleFires.rows <+: s'.db.scheduleFires.rows) ∧
    (s.db.scheduleFires.rows.Pairwise fun f f' => f.scheduleId = f'.scheduleId →
      f.scheduledFor < f'.scheduledFor) ∧
      (∀ f ∈ s.db.scheduleFires.rows, (∃ root, s.db.runs.get? f.runId = some root ∧
        root.executionId = root.id) ∧ ∀ f' ∈ s.db.scheduleFires.rows, f.scheduleId = f'.scheduleId ∧
        f.scheduledFor = f'.scheduledFor ∨ f.runId = f'.runId → f = f') ∧
    (∀ f ∈ s.db.scheduleFires.rows, ∀ f' ∈ s.db.scheduleFires.rows, f.scheduleId = f'.scheduleId →
      LiveExecution s.db.runs f.runId → LiveExecution s.db.runs f'.runId → f = f') := by
  have hok := occurrencesOk_reachable h
  refine ⟨fun s' => fires_appended, hok.increasing, fun f hf => ⟨?_, fun f' hf' hsame => ?_⟩,
    hok.apart⟩
  · obtain ⟨-, root, -, hr, hself, -⟩ := hok.owned f hf
    exact ⟨root, hr, hself⟩
  · rcases hsame with ⟨hof, hat⟩ | hrun
    · let Differ (f f' : ScheduleFire) : Prop := f.scheduleId = f'.scheduleId → f.scheduledFor ≠ f'.scheduledFor
      have hsymm : Std.Symm Differ := ⟨fun _ _ hdiffer hof => (hdiffer hof.symm).symm⟩
      have hdiffer : s.db.scheduleFires.rows.Pairwise Differ := hok.increasing.imp fun hlt hof => (hlt hof).ne
      by_contra hne
      exact hdiffer.forall hf hf' hne hof hat
    · exact hok.unique f hf f' hf' hrun

/-- A schedule fires late, its run fails and is tried again; the schedule is paused and resumed,
and fires once more when the second attempt has been cancelled. -/
def firedActions : List AppAction :=
  [.run (.createTask 1 "title" "" 0), .createSchedule ⟨1, .cron, some "* * * * *", none,
    "UTC"⟩ 10 0, .materialize (fun _ => none) 10 ⟨2, 11, 12⟩ 130,
    .run (.claimNextRun sampleClaim 131),
    .run (.applyFailedOutcome 2 ⟨"worker", "token", 1⟩ sampleFailure ⟨4, 5, 6⟩ 132),
    .materialize (fun _ => none) 10 ⟨7, 13, 14⟩ 200, .changeSchedule 10 none .pause 210,
    .changeSchedule 10 none .resume 220, .run (.cancelRun 4 230),
    .materialize (fun _ => none) 10 ⟨7, 13, 14⟩ 300]

def firedState : Clocked := System.run (clockedCommit sampleAppConfig) ⟨sampleAppDb, 0⟩ firedActions

theorem occurrences_fire_once_sample :
    firedState.db.scheduleFires.rows.map (fun f => (f.scheduledFor, f.runId)) = [(60, 2),
      (280, 7)] ∧ ¬LiveExecution firedState.db.runs 2 := by
  have hlegal : System.Legal (clockedCommit sampleAppConfig) Onward ⟨sampleAppDb,
    0⟩ firedActions := by decide +kernel
  have hinit : (clockedSystem sampleAppConfig).init ⟨sampleAppDb, 0⟩ := ⟨rfl, rfl, rfl⟩
  have hreach : (clockedSystem sampleAppConfig).Reachable firedState :=
    .steps (.of_init hinit) (.run hlegal)
  have happart := (occurrences_fire_once sampleAppConfig firedState hreach).2.2.2
  refine ⟨by decide +kernel, fun hlive => ?_⟩
  have hfires : firedState.db.scheduleFires.rows = [⟨11, 10, 60, 130, 2⟩,
    ⟨13, 10, 280, 300, 7⟩] := by decide +kernel
  have hlast : LiveExecution firedState.db.runs 7 := by
    unfold LiveExecution
    decide +kernel
  rw [hfires] at happart
  have heq := happart ⟨11, 10, 60, 130, 2⟩ (by decide) ⟨13, 10, 280, 300, 7⟩ (by decide) rfl
    hlive hlast
  exact absurd heq (by decide)

end Friday.App
