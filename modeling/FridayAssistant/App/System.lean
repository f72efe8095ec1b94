import FridayAssistant.App.Schedules
import FridayAssistant.App.Turns
import FridayAssistant.Runs.WorkflowEffects
/-!
# The system of all use cases that start or end runs

The run use cases, and beside them schedules and conversations. A task that ends takes its
schedules with it, in the same transaction (`schedulesAfter`). What a schedule or a turn writes
about runs and tasks is entries, as for every other use case.
-/
namespace Friday.App
open Tables Runs Transition

structure AppConfig where
  runs : Config
  calendar : Calendar

inductive AppAction where
  | run (a : RunAction)
  | createSchedule (command : CreateScheduleCommand) (id : ScheduleId) (now : Time)
  | changeSchedule (id : ScheduleId) (taskId : Option TaskId) (control : ScheduleControl) (now : Time)
  | putScheduleDeliveryPolicy (id : ScheduleId) (taskId : TaskId) (routeId : String) (enabled : Bool) (now : Time)
  | materialize (resolve : Resolver) (id : ScheduleId) (ids : FireIds) (now : Time)
  | createConversation (id : ConversationId) (now : Time)
  | submitConversationTurn (command : SubmitConversationTurnCommand) (ids : TurnIds) (now : Time)

/-- `complete_for_task` in the use cases that end a task; one that finds it ended writes nothing. -/
def schedulesAfter (db : AppDb) (a : RunAction) : Schedules :=
  let ended (taskId : TaskId) := (db.tasks.get? taskId).any (·.status.isTerminal)
  match a with
  | .cancelTask taskId now =>
    if ended taskId then db.schedules else db.schedules.completeForTask taskId now true
  | .completeTask taskId now | .failTask taskId _ now =>
    if ended taskId then db.schedules else db.schedules.completeForTask taskId now false
  | _ => db.schedules

def createConversation (db : AppDb) (id : ConversationId) (now : Time) : Result AppDb := do
  let conversations ← found (db.conversations.insert? ⟨id, now, now⟩) .integrity
  return { db with conversations := conversations }

/-- The database a use case commits. -/
def appAct (cfg : AppConfig) (db : AppDb) : AppAction → Result AppDb
  | .run a => do
    let db' ← act cfg.runs db.toDb a
    return { db with toDb := db', schedules := schedulesAfter db a }
  | .createSchedule command id now => createSchedule cfg.calendar db command id now
  | .changeSchedule id taskId control now => changeSchedule cfg.calendar db id taskId control now
  | .putScheduleDeliveryPolicy id taskId routeId enabled now =>
    putScheduleDeliveryPolicy db id taskId routeId enabled now
  | .materialize resolve id ids now => (materializeOne cfg.calendar resolve db id ids now).map (·.2)
  | .createConversation id now => createConversation db id now
  | .submitConversationTurn command ids now => (submitConversationTurn db command ids now).map (·.2)

def appCommit (cfg : AppConfig) (db : AppDb) (a : AppAction) : Option AppDb :=
  (appAct cfg db a).toOption

/-! ## What is written about runs -/

/-- A materialization either writes nothing of runs, or starts one on a task that exists. -/
inductive Fired (cal : Calendar) (resolve : Resolver) (db : AppDb) (id : ScheduleId) (ids : FireIds)
    (now : Time) : AppDb → Prop where
  | nothing : Fired cal resolve db id ids now db
  | passed {s : Schedule} (hs : db.schedules.get? id = some s) (active : s.status = .active) :
      Fired cal resolve db id ids now { db with schedules := db.schedules.put (s.complete now) }
  | fire {s : Schedule} {task : Task} {policy : Option ScheduleDeliveryPolicy} {occurrence : Time} {next : Option Time}
      {db' : AppDb} (hs : db.schedules.get? id = some s) (active : s.status = .active)
      (due : s.nextFireAt = some occurrence) (reached : occurrence ≤ now)
      (htask : db.tasks.get? s.taskId = some task) (idle : db.hasNonTerminalExecution s.id = false)
      (started : startFire resolve db s task policy occurrence ids now = .ok db')
      (hnext : coalescedNext cal s now = .ok next) :
      Fired cal resolve db id ids now { db' with schedules := db'.schedules.put (s.advanceAfterFire now next) }

variable {db : AppDb}

variable {resolve : Resolver}

theorem materializeOne_fired {cal : Calendar} {db' : AppDb} {id : ScheduleId} {ids : FireIds}
    {now : Time} {fired : Bool} (h : materializeOne cal resolve db id ids now = .ok (fired, db')) :
    Fired cal resolve db id ids now db' := by
  unfold materializeOne at h
  split at h
  · cases h; exact .nothing
  · obtain ⟨decision, hread, h⟩ := bind_ok h
    unfold readDue at hread
    split at hread
    · cases hread; cases h; exact .nothing
    · next s hs =>
      split at hread
      · cases hread; cases h; exact .nothing
      · next occurrence hdue =>
        split at hread
        · cases hread; cases h; exact .nothing
        · next hready =>
          obtain ⟨hactive, hreached⟩ := not_or.1 hready
          obtain ⟨task, htask, hread⟩ := bind_ok hread
          split at hread
          · cases hread; cases h
            exact .passed hs (not_not.1 hactive)
          · split at hread
            · cases hread; cases h; exact .nothing
            · next hidle =>
              cases hread
              obtain ⟨db₁, hstarted, next, hnext, h⟩ := bind_ok₂ h
              cases h
              exact .fire hs (not_not.1 hactive) hdue (not_lt.1 hreached) (found_eq_ok.1 htask)
                (by simpa using hidle) hstarted hnext

variable {a : AppAction} {cfg : AppConfig}

section
variable {R : RunId → Prop} {F A : Prop} {db db' : AppDb} {now : Time}

theorem startFire_eq_ok {s : Schedule} {task : Task} {policy : Option ScheduleDeliveryPolicy}
    {occurrence : Time} {ids : FireIds} (h : startFire resolve db s task policy occurrence ids now = .ok db') :
    ∃ started fires plans, startRunInUow db.toDb task ids.runId now = .ok started ∧
      db.scheduleFires.add (newFire s occurrence ids now) = .ok fires ∧
      addPlan resolve db.scheduleFireDeliveryPlans policy (newFire s occurrence ids now) ids.planId now = .ok plans ∧
      db' = { db with toDb := started, scheduleFires := fires, scheduleFireDeliveryPlans := plans } := by
  obtain ⟨started, hstarted, root, -, h⟩ := bind_ok₂ h
  obtain ⟨_, h⟩ := bind_rest h
  obtain ⟨fires, hfires, plans, hplans, h⟩ := bind_ok₂ h
  cases h
  exact ⟨started, fires, plans, hstarted, hfires, hplans, rfl⟩

theorem Fired.entries {cal : Calendar} {id : ScheduleId} {ids : FireIds}
    (h : Fired cal resolve db id ids now db') : Entries R F A db.journal db'.journal := by
  cases h with
  | nothing => exact .refl
  | passed => exact .refl
  | @fire s task policy occurrence next db₁ hs active due reached htask idle started hnext =>
    obtain ⟨runs, fires, plans, hruns, -, -, rfl⟩ := startFire_eq_ok started
    have hid : task.id = s.taskId := Table.key_of_get? htask
    exact startRunInUow_entries (by rw [hid]; exact htask) hruns

/-- A turn that is written: its task, its run, and the row that binds them to the client's id. -/
structure TurnWritten (db : AppDb) (c : SubmitConversationTurnCommand) (ids : TurnIds) (now : Time)
    (turn : ConversationTurn) (db' : AppDb) : Prop where
  task : ∃ task started,
    Task.new ids.taskId (titleFor c.payload.inputText) c.payload.inputText now = .ok task ∧
    db.tasks.get? task.id = none ∧
    startRunInUow { db.toDb with tasks := db.tasks.put task } task ids.runId now = .ok started ∧
    db'.toDb = started
  new : ConversationTurn.new ids.turnId c.conversationId c.client c.payload ids.taskId ids.runId
    now = .ok turn
  fresh : ∀ x ∈ db.conversationTurns.rows, ¬(x.conversationId = turn.conversationId ∧
    x.clientTurnId = turn.clientTurnId)
  freshId : db.conversationTurns.get? turn.id = none
  turns : db'.conversationTurns = db.conversationTurns.put turn
  schedules : db'.schedules = db.schedules
  fires : db'.scheduleFires = db.scheduleFires
  plans : db'.scheduleFireDeliveryPlans = db.scheduleFireDeliveryPlans

variable {c : SubmitConversationTurnCommand} {ids : TurnIds}

theorem writeTurn_written {conversation : Conversation}
    {turn : ConversationTurn} (h : writeTurn db conversation c ids now = .ok (turn, db')) :
    TurnWritten db c ids now turn db' := by
  obtain ⟨task, htask, tasks, htasks, h⟩ := bind_ok₂ h
  obtain ⟨started, hstarted, turn₁, hturn, h⟩ := bind_ok₂ h
  obtain ⟨turns, hturns, h⟩ := bind_ok h
  obtain ⟨rfl, rfl⟩ := Prod.mk.inj (Except.ok.inj h)
  obtain ⟨hfresh, rfl⟩ := insert_eq_ok.1 htasks
  obtain ⟨hfreshTurn, rfl, hunique⟩ := ConversationTurns.add_eq_ok hturns
  have hid : task.id = ids.taskId := by
    obtain ⟨_, htask⟩ := bind_rest htask
    cases htask
    rfl
  rw [hid] at hturn
  exact ⟨⟨task, started, htask, hfresh, hstarted, rfl⟩, hturn, hunique, hfreshTurn, rfl,
    rfl, rfl, rfl⟩

theorem submitConversationTurn_written
    {result : SubmitConversationTurnResult} (h : submitConversationTurn db c ids now = .ok (result, db')) :
    db' = db ∨ ∃ turn, TurnWritten db c ids now turn db' := by
  unfold submitConversationTurn at h
  split at h
  · obtain ⟨_, _, h⟩ := bind_rest₂ h
    cases h
    exact .inl rfl
  · obtain ⟨⟨conversation, answer⟩, -, h⟩ := bind_ok h
    cases answer with
    | some _ => cases h; exact .inl rfl
    | none =>
      obtain ⟨⟨turn, db₁⟩, hwrite, h⟩ := bind_ok h
      cases h
      exact .inr ⟨turn, writeTurn_written hwrite⟩

theorem TurnWritten.entries {turn : ConversationTurn}
    (h : TurnWritten db c ids now turn db') : Entries R F A db.journal db'.journal := by
  obtain ⟨task, started, hnew, hfresh, hstarted, hdb⟩ := h.task
  have hpending : task.status = .pending := by
    obtain ⟨_, hnew⟩ := bind_rest hnew
    cases hnew
    rfl
  rw [hdb]
  exact .head (.newTask hfresh hpending)
    (startRunInUow_entries (Table.get?_put_self db.tasks task) hstarted)

/-- What one committed use case has done. -/
inductive Applied (cfg : AppConfig) (db : AppDb) : AppAction → AppDb → Prop where
  | run {b : RunAction} {db₁ : Db} (acted : act cfg.runs db.toDb b = .ok db₁) :
      Applied cfg db (.run b) { db with toDb := db₁, schedules := schedulesAfter db b }
  | created {command : CreateScheduleCommand} {id : ScheduleId} {now : Time} {s : Schedule}
      (fresh : db.schedules.get? s.id = none) :
      Applied cfg db (.createSchedule command id now) { db with schedules := db.schedules.put s }
  | changed {id : ScheduleId} {taskId : Option TaskId} {control : ScheduleControl} {now : Time} {s s' : Schedule}
      (read : getSchedule db id taskId = .ok s) (written : controlled cfg.calendar s control now = .ok s') :
      Applied cfg db (.changeSchedule id taskId control now) { db with schedules := db.schedules.put s' }
  | policy {id : ScheduleId} {taskId : TaskId} {routeId : String} {enabled : Bool} {now : Time}
      {policies : Table ScheduleDeliveryPolicy} :
      Applied cfg db (.putScheduleDeliveryPolicy id taskId routeId enabled now)
        { db with scheduleDeliveryPolicies := policies }
  | materialized {resolve : Resolver} {id : ScheduleId} {ids : FireIds} {now : Time} {db' : AppDb}
      (fired : Fired cfg.calendar resolve db id ids now db') : Applied cfg db (.materialize resolve id ids now) db'
  | conversation {id : ConversationId} {now : Time} {conversations : Table Conversation} :
      Applied cfg db (.createConversation id now) { db with conversations := conversations }
  | submitted {c : SubmitConversationTurnCommand} {ids : TurnIds} {now : Time} {result : SubmitConversationTurnResult}
      {db' : AppDb} (answer : submitConversationTurn db c ids now = .ok (result, db')) :
      Applied cfg db (.submitConversationTurn c ids now) db'

theorem appAct_applied (h : appAct cfg db a = .ok db') : Applied cfg db a db' := by
  cases a with
  | run b =>
    obtain ⟨db₁, hact, h⟩ := bind_ok h
    cases h
    exact .run hact
  | createSchedule command id now =>
    simp only [appAct, createSchedule, bind_eq_ok, insert_eq_ok] at h
    obtain ⟨_, -, _, -, _, -, _, -, _, -, _, ⟨hfresh, rfl⟩, h⟩ := h
    cases h
    exact .created hfresh
  | changeSchedule id taskId control now =>
    obtain ⟨s, hs, s', hs', h⟩ := bind_ok₂ h
    cases h
    exact .changed hs hs'
  | putScheduleDeliveryPolicy id taskId routeId enabled now =>
    simp only [appAct, putScheduleDeliveryPolicy, bind_eq_ok] at h
    obtain ⟨_, -, _, -, _, -, h⟩ := h
    cases h
    exact .policy
  | materialize resolve id ids now =>
    obtain ⟨_, h⟩ := map_snd_eq_ok.1 h
    exact .materialized (materializeOne_fired h)
  | createConversation id now =>
    obtain ⟨_, h⟩ := bind_rest h
    cases h
    exact .conversation
  | submitConversationTurn command ids now =>
    obtain ⟨_, h⟩ := map_snd_eq_ok.1 h
    exact .submitted h

/-- **Every use case of the application is a sequence of entries.** -/
theorem appAct_entries (hA : A) (htells : ∀ b, a = .run b → tellsElsewhere db.toDb b)
    (hfail : ∀ taskId failure now, a = .run (.failTask taskId failure now) →
      F ∨ ∀ r ∈ db.runs.rows, r.taskId = taskId → r.status.isTerminal = true) (h : appAct cfg db a = .ok db') :
    Entries db'.Roots F A db.journal db'.journal := by
  cases appAct_applied h with
  | run acted =>
    exact act_entries (htells _ rfl) (fun t f n hb => hfail t f n (by rw [hb])) (fun _ => hA) acted
  | materialized fired => exact fired.entries
  | submitted answer =>
    rcases submitConversationTurn_written answer with rfl | ⟨turn, hwritten⟩
    · exact .refl
    · exact hwritten.entries
  | _ => exact .refl

end

/-! ## The system -/

/-- The use cases that are not spelled out leave tasks and run events alone. -/
def tellsAll (db : AppDb) : AppAction → Prop
  | .run a => tellsElsewhere db.toDb a
  | _ => True

/-- Every committed use case, in any order, from a database without runs. -/
def appSystem (cfg : AppConfig) : System AppDb AppAction :=
  .ofStep (fun db => db.toCore = .empty) (appCommit cfg) tellsAll

/-! ## A small deployment -/

/-- A cron schedule fires every 60 µs. -/
def sampleCalendar : Calendar where
  zoneExists _ := true
  wallTime _ t := some t
  croniter _ _ after := some (after + 60)
  croniter_later _ _ after next h := by
    obtain rfl := Option.some.inj h
    exact Int.lt_add_of_pos_right after (by decide)

def sampleAppConfig : AppConfig := ⟨sampleConfig, sampleCalendar⟩

def sampleAppDb : AppDb where
  toDb := sampleDb
  schedules := .empty
  scheduleFires := .empty
  scheduleDeliveryPolicies := .empty
  scheduleFireDeliveryPlans := .empty
  conversations := .empty
  conversationTurns := .empty

def sampleFailure : Failure := ⟨"code", "message", true, .runtime, .null, by decide, by decide⟩

def AppAction.isSpelledOut : AppAction → Bool
  | .run a => a.isSpelledOut
  | _ => true

theorem AppAction.isSpelledOut.tells (h : a.isSpelledOut = true) : tellsAll db a := by
  cases a with
  | run b => cases b <;> first | exact trivial | cases h
  | _ => exact trivial

end Friday.App
