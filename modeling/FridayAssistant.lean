import FridayAssistant.Delivery.AtMostOnce
import FridayAssistant.Delivery.Fencing
import FridayAssistant.Tools.OneShot
import FridayAssistant.Runs.NoOrphanedWorkflow
import FridayAssistant.Runs.WorkerLoop
import FridayAssistant.Runs.SchedulingSafety
import FridayAssistant.Runs.WorkflowConfluence
import FridayAssistant.Context.WorkflowRoom
import FridayAssistant.Runs.DelegationBounds
import FridayAssistant.App.TerminalTasks
import FridayAssistant.App.StoppedSchedules
import FridayAssistant.App.TurnsOnce
import FridayAssistant.Runs.EventStream
import FridayAssistant.App.AnswerDeliveries
import FridayAssistant.Runs.AttemptOrder
import FridayAssistant.Skills.ClosedProposals
import FridayAssistant.Skills.ClosablePromotions
import FridayAssistant.Skills.WorkFencing
import FridayAssistant.Skills.PolicyDecision
import FridayAssistant.Skills.Comparison
import FridayAssistant.Memory.LockExclusion
import FridayAssistant.Runs.ChildResults
import FridayAssistant.Mcp.Redaction
import FridayAssistant.Process.WireFraming
import FridayAssistant.Workspace.Listing
import FridayAssistant.Computer.Capture
import FridayAssistant.Workspace.Reading
import FridayAssistant.Web.TtsQueue
import FridayAssistant.Web.RunEventStream
