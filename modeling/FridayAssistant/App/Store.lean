import FridayAssistant.Domain.Schedule
import FridayAssistant.Domain.Conversation
import FridayAssistant.Runs.System
/-!
# The database with schedules and conversations

`AppDb` adds the tables of the two other ways to start a run: a schedule fires, or a conversation
gets a turn.
-/
namespace Friday.App
open Tables Runs

structure AppDb extends Db where
  schedules : Schedules
  scheduleFires : ScheduleFires
  scheduleDeliveryPolicies : Table ScheduleDeliveryPolicy
  scheduleFireDeliveryPlans : ScheduleFireDeliveryPlans
  conversations : Table Conversation
  conversationTurns : ConversationTurns

/-- `has_non_terminal_execution_for_schedule`: all attempts of a fire share its execution. -/
def AppDb.hasNonTerminalExecution (db : AppDb) (scheduleId : ScheduleId) : Bool :=
  db.runs.rows.any fun r => !r.status.isTerminal &&
    db.scheduleFires.rows.any fun f => f.scheduleId = scheduleId && f.runId = r.executionId

end Friday.App
