import FridayAssistant.App.Occurrences
import FridayAssistant.Lib.Split
import FridayAssistant.Runs.Flush
/-!
# Schedules between other transactions

`_materialize_one` and `ScheduleControl._change` read the schedule, decide, and write it back at
their commit; `schedules.save` is a `Session.merge` that asks for nothing but the key. The session
may still hold the row it loaded, and the flush is then an `UPDATE` of the columns that changed; or
it has dropped it (its identity map is weak), reads it again, and writes every column that differs.
`complete_for_task` is an `UPDATE` with the status in its `WHERE`, so what the use cases that end a
task have read does not matter to it.
-/
namespace Friday.App
open Tables Table Runs Transition Split

/-! ## What `save` writes -/

/-- Whether the session still holds the rows it loaded. -/
structure Held where
  schedule : Bool
  task : Bool

def flushSchedule (held : Bool) (loaded saved current : Schedule) : Schedule :=
  if held then
    { id := current.id
      taskId := changed loaded.taskId saved.taskId current.taskId
      kind := changed loaded.kind saved.kind current.kind
      cron := changed loaded.cron saved.cron current.cron
      runAt := changed loaded.runAt saved.runAt current.runAt
      timezone := changed loaded.timezone saved.timezone current.timezone
      status := changed loaded.status saved.status current.status
      nextFireAt := changed loaded.nextFireAt saved.nextFireAt current.nextFireAt
      createdAt := changed loaded.createdAt saved.createdAt current.createdAt
      updatedAt := changed loaded.updatedAt saved.updatedAt current.updatedAt }
  else { saved with id := current.id }

def flushTask (failureEq : Failure → Failure → Bool) (held : Bool) (loaded saved current : Task) :
    Task :=
  if held then
    { id := current.id
      title := changed loaded.title saved.title current.title
      description := changed loaded.description saved.description current.description
      status := changed loaded.status saved.status current.status
      createdAt := changed loaded.createdAt saved.createdAt current.createdAt
      startedAt := changed loaded.startedAt saved.startedAt current.startedAt
      completedAt := changed loaded.completedAt saved.completedAt current.completedAt
      failedAt := changed loaded.failedAt saved.failedAt current.failedAt
      cancelledAt := changed loaded.cancelledAt saved.cancelledAt current.cancelledAt
      failure := changedFailure failureEq loaded.failure saved.failure current.failure }
  else { saved with id := current.id }

/-- `schedules.save`. -/
def saveSchedule (held : Bool) (t : Schedules) (loaded saved : Schedule) : Schedules :=
  match t.get? loaded.id with
  | some current => t.put (flushSchedule held loaded saved current)
  | none => t.put saved

/-- `tasks.save`, of the task a run was started for. -/
def saveTask (failureEq : Failure → Failure → Bool) (held : Bool) (before after : Tasks)
    (loaded : Task) : Tasks :=
  match before.get? loaded.id, after.get? loaded.id with
  | some current, some saved => after.put (flushTask failureEq held loaded saved current)
  | _, _ => after

/-! ## The two halves of a call -/

inductive ScheduleCommand where
  | materialize (resolve : Resolver) (id : ScheduleId) (ids : FireIds) (now : Time)
  | change (id : ScheduleId) (taskId : Option TaskId) (control : ScheduleControl) (now : Time)

/-- A call that will write, with what it has read. -/
inductive ScheduleCall where
  | complete (s : Schedule) (now : Time)
  | fire (resolve : Resolver) (ids : FireIds) (now : Time) (s : Schedule) (task : Task)
      (policy : Option ScheduleDeliveryPolicy) (occurrence : Time)
  | change (s s' : Schedule)

/-- The schedule as it was read. -/
def ScheduleCall.schedule : ScheduleCall → Schedule
  | .complete s _ | .fire _ _ _ s _ _ _ | .change s _ => s

def readSchedule (cal : Calendar) (db : AppDb) : ScheduleCommand → Option ScheduleCall
  | .materialize resolve id ids now =>
    match readDue db id now with
    | .ok (.complete s) => some (.complete s now)
    | .ok (.fire s task policy occurrence) => some (.fire resolve ids now s task policy occurrence)
    | _ => none
  | .change id taskId control now =>
    match (do
      let s ← getSchedule db id taskId
      let s' ← controlled cal s control now
      return ScheduleCall.change s s' : Result ScheduleCall) with
    | .ok call => some call
    | .error _ => none

def writeSchedule (cfg : AppConfig) (db : AppDb) (call : ScheduleCall) (held : Held) :
    Option AppDb :=
  match call with
  | .complete s now =>
    some { db with schedules := saveSchedule held.schedule db.schedules s (s.complete now) }
  | .fire resolve ids now s task policy occurrence => (do
      let db' ← startFire resolve db s task policy occurrence ids now
      let next ← coalescedNext cfg.calendar s now
      return { db' with
        tasks := saveTask cfg.runs.failureEq held.task db.tasks db'.tasks task
        schedules := saveSchedule held.schedule db'.schedules s (s.advanceAfterFire now next) } :
        Result AppDb).toOption
  | .change s s' => some { db with schedules := saveSchedule held.schedule db.schedules s s' }

/-- Everything else is one transaction: any use case, or one that ends a task whatever it has read
(`complete_for_task`, beside what it writes to the other tables). -/
inductive ScheduleAtomic where
  | app (a : AppAction)
  | taskEnds (taskId : TaskId) (now : Time) (cancelled : Bool) (other : Db)

def scheduleAtomic (cfg : AppConfig) (db : AppDb) : ScheduleAtomic → Option AppDb
  | .app a => appCommit cfg db a
  | .taskEnds taskId now cancelled other =>
    some { db with toDb := other, schedules := db.schedules.completeForTask taskId now cancelled }

def scheduleCalls (cfg : AppConfig) :
    Protocol AppDb ScheduleCommand ScheduleCall Held ScheduleAtomic where
  atomic := scheduleAtomic cfg
  read := readSchedule cfg.calendar
  write := writeSchedule cfg

/-- Any number of materializations and controls between their two halves, beside everything else. -/
def splitSchedules (cfg : AppConfig) : System (State AppDb ScheduleCall)
    (Action ScheduleCommand Held ScheduleAtomic) :=
  (scheduleCalls cfg).system (fun db => db.schedules = .empty ∧ db.scheduleFires = .empty)
    fun _ _ => True

/-! ## A stopped schedule -/

/-- Of a schedule that is over neither the status changes nor is there another fire. -/
structure StaysStopped (db db' : AppDb) : Prop where
  status : ∀ k s, db.schedules.get? k = some s → s.status.isTerminal = true →
    ∃ s', db'.schedules.get? k = some s' ∧ s'.status = s.status
  fires : ∀ k s, db.schedules.get? k = some s → s.status.isTerminal = true →
    ∀ f ∈ db'.scheduleFires.rows, f.scheduleId = k → f ∈ db.scheduleFires.rows

namespace StaysStopped

theorem refl (db : AppDb) : StaysStopped db db :=
  ⟨fun _ s hs _ => ⟨s, hs, rfl⟩, fun _ _ _ _ _ hf _ => hf⟩

theorem trans {a b c : AppDb} (h : StaysStopped a b) (h' : StaysStopped b c) :
    StaysStopped a c where
  status k s hs hterminal := by
    obtain ⟨s₁, hs₁, he₁⟩ := h.status k s hs hterminal
    obtain ⟨s₂, hs₂, he₂⟩ := h'.status k s₁ hs₁ (by rw [he₁]; exact hterminal)
    exact ⟨s₂, hs₂, he₂.trans he₁⟩
  fires k s hs hterminal f hf hof := by
    obtain ⟨s₁, hs₁, he₁⟩ := h.status k s hs hterminal
    exact h.fires k s hs hterminal f (h'.fires k s₁ hs₁ (by rw [he₁]; exact hterminal) f hf hof) hof

/-- No fire is added, and the schedules stay. -/
theorem of_kept {db db' : AppDb} (instant : Option Time)
    (hschedules : SchedulesKept instant db.schedules db'.schedules)
    (hfires : db'.scheduleFires = db.scheduleFires) : StaysStopped db db' where
  status k s hs hterminal := by
    obtain ⟨s', hs', hsame⟩ := hschedules k s hs
    exact ⟨s', hs', hsame.terminal hterminal⟩
  fires k s _ _ f hf _ := by rwa [hfires] at hf

end StaysStopped

section
variable {cfg : AppConfig} {db db' : AppDb}

theorem appAct_stopped {a : AppAction} (h : appAct cfg db a = .ok db') : StaysStopped db db' := by
  rcases appAct_fires h with ⟨hfires, hschedules, -⟩ | ⟨now, s, f, -, hadd⟩
  · exact .of_kept _ hschedules hfires
  · constructor
    · intro k x hx hterminal
      obtain ⟨x', hx', hsame⟩ := hadd.schedules k x hx
      exact ⟨x', hx', hsame.terminal hterminal⟩
    · -- the schedule that fires is ACTIVE
      intro k x hx hterminal g hg hof
      rw [hadd.fires] at hg
      rcases (mem_put_fresh hadd.fresh).1 hg with rfl | hg
      · rw [← hof, hadd.schedule] at hx
        cases hx
        rw [hadd.active] at hterminal
        cases hterminal
      · exact hg

/-- The schedule a commit writes is not over. -/
def Open (db : AppDb) (call : ScheduleCall) : Prop :=
  ∀ s ∈ db.schedules.get? call.schedule.id, s.status.isTerminal = false
  deriving Decidable

/-- A call writes the schedule it has read. -/
def ScheduleCall.WritesRead : ScheduleCall → Prop
  | .change s s' => s'.id = s.id
  | _ => True

theorem readSchedule_writesRead {c : ScheduleCommand} {call : ScheduleCall}
    (h : readSchedule cfg.calendar db c = some call) : call.WritesRead := by
  cases c with
  | materialize resolve id ids now =>
    unfold readSchedule at h
    dsimp only at h
    split at h <;> cases h <;> exact trivial
  | change id taskId control now =>
    unfold readSchedule at h
    dsimp only at h
    split at h
    · next hread =>
      cases h
      obtain ⟨s, -, s', hs', hread⟩ := bind_ok₂ hread
      cases hread
      exact (controlled_keeps hs').1
    · cases h

/-- A schedule that is not over is written: every schedule that is over is as it was. -/
theorem saveSchedule_over (held : Bool) {t : Schedules} (loaded saved : Schedule)
    (hid : saved.id = loaded.id) (hopen : ∀ s ∈ t.get? loaded.id, s.status.isTerminal = false)
    {k : ScheduleId} {s : Schedule} (hs : t.get? k = some s)
    (hterminal : s.status.isTerminal = true) :
    (saveSchedule held t loaded saved).get? k = some s := by
  have hne : loaded.id ≠ k := by
    rintro rfl
    rw [hopen s hs] at hterminal
    cases hterminal
  unfold saveSchedule
  split
  · next current hcurrent =>
    have hkey : (flushSchedule held loaded saved current).id = loaded.id := by
      rw [← show current.id = loaded.id from key_of_get? hcurrent]
      cases held <;> rfl
    exact (get?_put_ne (by rw [key_schedule, hkey]; exact hne)).trans hs
  · exact (get?_put_ne (by rw [key_schedule, hid]; exact hne)).trans hs

theorem writeSchedule_stopped {call : ScheduleCall} {held : Held} (hcall : call.WritesRead)
    (hopen : Open db call) (h : writeSchedule cfg db call held = some db') :
    StaysStopped db db' := by
  cases call with
  | complete s now =>
    cases h
    exact ⟨fun k x hx hterminal => ⟨x, saveSchedule_over _ s (s.complete now) rfl hopen hx hterminal, rfl⟩, fun _ _ _ _ _ hf _ => hf⟩
  | change s s' =>
    cases h
    exact ⟨fun k x hx hterminal => ⟨x, saveSchedule_over _ s s' hcall hopen hx hterminal, rfl⟩, fun _ _ _ _ _ hf _ => hf⟩
  | fire resolve ids now s task policy occurrence =>
    obtain ⟨db₁, hstart, h⟩ := bind_ok (toOption_eq_some.1 h)
    obtain ⟨next, -, h⟩ := bind_ok h
    cases h
    obtain ⟨started, fires, plans, -, hfires, -, rfl⟩ := startFire_eq_ok hstart
    obtain ⟨hfresh, rfl, -⟩ := ScheduleFires.add_eq_ok hfires
    constructor
    · exact fun k x hx hterminal => ⟨x, saveSchedule_over _ s (s.advanceAfterFire now next) rfl hopen hx hterminal, rfl⟩
    · intro k x hx hterminal f hf hof
      rcases (mem_put_fresh hfresh).1 hf with rfl | hf
      · rw [hopen x (by rw [← hof] at hx; exact hx)] at hterminal
        cases hterminal
      · exact hf

end

/-- **A stopped schedule stays stopped** in every run in which no materialization or control is
committed over a schedule that has become CANCELLED or COMPLETED since it was read. -/
theorem stopped_schedule_stays_stopped (cfg : AppConfig) (s s' : State AppDb ScheduleCall)
    (h : ((splitSchedules cfg).restrict (AtCommit Open)).Reachable s)
    (hs' : ((splitSchedules cfg).restrict (AtCommit Open)).Steps s s') (k : ScheduleId) (schedule : Schedule)
    (hk : s.db.schedules.get? k = some schedule) (hterminal : schedule.status.isTerminal = true) :
    (∃ later, s'.db.schedules.get? k = some later ∧ later.status = schedule.status) ∧
      ∀ f ∈ s'.db.scheduleFires.rows, f.scheduleId = k → f ∈ s.db.scheduleFires.rows := by
  have hinv : ∀ {s : State AppDb ScheduleCall}, ((splitSchedules cfg).restrict (AtCommit Open)).Reachable s →
      True ∧ ∀ g ∈ s.calls, ScheduleCall.WritesRead g :=
    Reachable.split (fun _ => True) (fun _ => ScheduleCall.WritesRead) (fun _ _ => trivial)
      (fun _ _ _ => ⟨trivial, fun _ hcall => hcall⟩) (fun _ hread => readSchedule_writesRead hread)
      fun _ _ _ _ => ⟨trivial, fun _ hcall => hcall⟩
  have hstays : StaysStopped s.db s'.db := by
    refine Steps.split (fun _ => True) (fun _ => ScheduleCall.WritesRead) StaysStopped .refl .trans hinv (fun {db a db'} _ _ ha => ?_)
      (fun _ hcall hopen hw => writeSchedule_stopped hcall hopen hw) h hs'
    cases a with
    | app a => exact appAct_stopped (toOption_eq_some.1 ha)
    | taskEnds taskId now cancelled other =>
      cases ha
      exact .of_kept none (.completeForTask taskId now cancelled) rfl
  exact ⟨hstays.status k schedule hk hterminal, hstays.fires k schedule hk hterminal⟩

theorem splitSchedules_guarded (s : State AppDb ScheduleCall)
    (a : Action ScheduleCommand Held ScheduleAtomic) : Protocol.Guarded (fun _ _ => True) s a := by
  cases a <;> exact trivial

theorem sample_split_init : (splitSchedules sampleAppConfig).init ⟨sampleAppDb, []⟩ :=
  ⟨⟨rfl, rfl⟩, rfl⟩

/-- A materialization commits before the schedule is cancelled. -/
def stoppedActions : List (Action ScheduleCommand Held ScheduleAtomic) :=
  [.atomic (.app (.run (.createTask 1 "title" "" 0))),
    .atomic (.app (.createSchedule ⟨1, .cron, some "* * * * *", none, "UTC"⟩ 10 0)),
    .read (.materialize (fun _ => none) 10 ⟨2, 11, 12⟩ 70), .commit 0 ⟨true, false⟩,
    .read (.change 10 none .cancel 80), .commit 0 ⟨false, false⟩]

def stoppedSchedule : State AppDb ScheduleCall :=
  System.run (scheduleCalls sampleAppConfig).step ⟨sampleAppDb, []⟩ stoppedActions

def laterActions : List (Action ScheduleCommand Held ScheduleAtomic) :=
  [.atomic (.app (.run (.claimNextRun sampleClaim 130))),
    .atomic (.app (.materialize (fun _ => none) 10 ⟨3, 13, 14⟩ 200))]

def laterSchedule : State AppDb ScheduleCall :=
  System.run (scheduleCalls sampleAppConfig).step stoppedSchedule laterActions

theorem stopped_schedule_stays_stopped_sample :
    (stoppedSchedule.db.schedules.get? 10).map (·.status) = some .cancelled ∧
      (∃ later, laterSchedule.db.schedules.get? 10 = some later ∧ later.status = .cancelled) ∧
      ∀ f ∈ laterSchedule.db.scheduleFires.rows, f.scheduleId = 10 → f ∈ stoppedSchedule.db.scheduleFires.rows := by
  have hstatus : (stoppedSchedule.db.schedules.get? 10).map (·.status) = some .cancelled := by
    decide +kernel
  obtain ⟨schedule, hschedule, hs⟩ := Option.map_eq_some_iff.1 hstatus
  have hlegal : System.Legal (scheduleCalls sampleAppConfig).step (AtCommit Open) ⟨sampleAppDb, []⟩ stoppedActions := by
    decide +kernel
  have hlater : System.Legal (scheduleCalls sampleAppConfig).step (AtCommit Open) stoppedSchedule laterActions := by
    decide +kernel
  have hreach : ((splitSchedules sampleAppConfig).restrict (AtCommit Open)).Reachable stoppedSchedule :=
    .steps (.of_init sample_split_init)
      (.run_restrict (hlegal.mono fun a _ s hc => ⟨splitSchedules_guarded s a, hc⟩))
  have hstays := stopped_schedule_stays_stopped sampleAppConfig stoppedSchedule laterSchedule hreach
    (.run_restrict (hlater.mono fun a _ s hc => ⟨splitSchedules_guarded s a, hc⟩)) 10 schedule
    hschedule (by rw [hs]; rfl)
  rw [hs] at hstays
  exact ⟨hstatus, hstays⟩

/-! ## A cancelled schedule fires -/

/-- A schedule that fires once is read when it is due, and cancelled. -/
def cancelActions : List (Action ScheduleCommand Held ScheduleAtomic) :=
  [.atomic (.app (.run (.createTask 1 "title" "" 0))),
    .atomic (.app (.createSchedule ⟨1, .once, none, some (.aware 60), "UTC"⟩ 10 0)),
    .read (.materialize (fun _ => none) 10 ⟨2, 11, 12⟩ 70),
    .atomic (.app (.changeSchedule 10 none .cancel 71))]

def cancelledSchedule : State AppDb ScheduleCall :=
  System.run (scheduleCalls sampleAppConfig).step ⟨sampleAppDb, []⟩ cancelActions

/-- Then the materialization commits. -/
def firedAfterCancel (held : Held) : State AppDb ScheduleCall :=
  System.run (scheduleCalls sampleAppConfig).step cancelledSchedule [.commit 0 held]

/-- The CANCELLED schedule becomes COMPLETED, and gets a fire with a run. -/
theorem cancelled_schedule_fires :
    (splitSchedules sampleAppConfig).Reachable cancelledSchedule ∧
      (splitSchedules sampleAppConfig).Steps cancelledSchedule (firedAfterCancel ⟨true, true⟩) ∧
      (cancelledSchedule.db.schedules.get? 10).map (·.status) = some .cancelled ∧
      cancelledSchedule.db.scheduleFires.rows = [] ∧
      ((firedAfterCancel ⟨true, true⟩).db.schedules.get? 10).map (·.status) = some .completed ∧
      (firedAfterCancel ⟨true, true⟩).db.scheduleFires.rows = [⟨11, 10, 60, 70, 2⟩] ∧
      ((firedAfterCancel ⟨true, true⟩).db.runs.get? 2).map (·.status) = some .queued := by
  have hlegal : System.Legal (scheduleCalls sampleAppConfig).step (fun _ _ => True) ⟨sampleAppDb, []⟩ cancelActions := by
    decide +kernel
  have hcommit : System.Legal (scheduleCalls sampleAppConfig).step (fun _ _ => True)
      cancelledSchedule [.commit 0 ⟨true, true⟩] := by decide +kernel
  refine ⟨.steps (.of_init sample_split_init) (.run (hlegal.mono fun a _ s _ => splitSchedules_guarded s a)),
    .run (hcommit.mono fun a _ s _ => splitSchedules_guarded s a), by decide +kernel, by decide +kernel, ?_⟩
  decide +kernel

end Friday.App
