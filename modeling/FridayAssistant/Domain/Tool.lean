import FridayAssistant.Basic
import FridayAssistant.Lib.Table
/-!
# `ToolInvocation` (domain/tool.py, domain/tool_provenance.py)

One attempt to run a tool. The approval it was made under and its provenance are fixed when it
is created; only its status, end and outcome change.
-/
namespace Friday
open Tables

inductive ToolInvocationStatus where
  | requested | running | succeeded | failed | cancelled
  deriving DecidableEq

def ToolInvocationStatus.value : ToolInvocationStatus → String
  | .requested => "requested"
  | .running => "running"
  | .succeeded => "succeeded"
  | .failed => "failed"
  | .cancelled => "cancelled"

/-- `TERMINAL_TOOL_INVOCATION_STATUSES`. -/
def ToolInvocationStatus.isTerminal : ToolInvocationStatus → Bool
  | .succeeded | .failed | .cancelled => true
  | _ => false

/-- A provenance field: not blank, at most 200 characters. -/
def isProvenanceField (s : String) : Bool := !PyText.isBlank s && s.toList.length ≤ 200

structure ToolProvenance where
  kind : String
  target : String
  remoteName : String
  bindingFingerprint : String
  fields_ok : [kind, target, remoteName, bindingFingerprint].all isProvenanceField = true

structure ToolInvocation where
  id : ToolInvocationId
  runId : RunId
  toolName : String
  requestedInput : PyJson.JsonValue
  status : ToolInvocationStatus
  requestedAt : Time
  stepId : Option RunStepId
  approvalRequestId : Option ApprovalRequestId
  startedAt : Option Time
  completedAt : Option Time
  output : PyJson.JsonValue
  outputSet : Bool
  failure : Option Failure
  provenance : Option ToolProvenance

instance : Keyed ToolInvocation ToolInvocationId := ⟨ToolInvocation.id⟩

@[simp] theorem key_invocation (v : ToolInvocation) : key v = v.id := rfl

namespace ToolInvocation

/-- `ToolInvocation.new`. -/
def new (id : ToolInvocationId) (runId : RunId) (toolName : String)
    (requestedInput : PyJson.JsonValue) (requestedAt : Time) (stepId : Option RunStepId)
    (approvalRequestId : Option ApprovalRequestId) (provenance : Option ToolProvenance) :
    Result ToolInvocation := do
  require (!PyText.isBlank toolName)
    (.domainValidation "ToolInvocation.tool_name must not be empty")
  return { id := id, runId := runId, toolName := PyText.strip toolName, requestedInput := requestedInput,
           status := .requested, requestedAt := requestedAt, stepId := stepId,
           approvalRequestId := approvalRequestId, startedAt := none, completedAt := none,
           output := .null, outputSet := false, failure := none, provenance := provenance }

def requireStatus (v : ToolInvocation) (allowed : List ToolInvocationStatus)
    (target : ToolInvocationStatus) : Result Unit :=
  require (allowed.contains v.status)
    (.invalidStateTransition "ToolInvocation" v.status.value target.value)

/-- `_validated_end`. -/
def validatedEnd (v : ToolInvocation) (now : Time) : Result Time := do
  require (v.startedAt.getD v.requestedAt ≤ now)
    (.domainValidation "ToolInvocation end timestamp precedes its start/request time")
  return now

def start (v : ToolInvocation) (now : Time) : Result ToolInvocation := do
  v.requireStatus [.requested] .running
  return { v with startedAt := some now, status := .running }

def succeed (v : ToolInvocation) (now : Time) (output : PyJson.JsonValue) : Result ToolInvocation :=
  do
  v.requireStatus [.running] .succeeded
  let ended ← v.validatedEnd now
  return { v with completedAt := some ended, output := output, outputSet := true, status := .succeeded }

def fail (v : ToolInvocation) (now : Time) (failure : Failure) : Result ToolInvocation := do
  v.requireStatus [.running] .failed
  let ended ← v.validatedEnd now
  return { v with completedAt := some ended, failure := some failure, status := .failed }

def cancel (v : ToolInvocation) (now : Time) : Result ToolInvocation := do
  v.requireStatus [.requested, .running] .cancelled
  let ended ← v.validatedEnd now
  return { v with completedAt := some ended, status := .cancelled }

/-- `ORDER BY requested_at, id`. -/
def requestOrder (a b : ToolInvocation) : Prop :=
  a.requestedAt < b.requestedAt ∨ a.requestedAt = b.requestedAt ∧ a.id ≤ b.id
  deriving Decidable

end ToolInvocation

abbrev ToolInvocations := Table ToolInvocation

/-- `list_for_run` (repositories.py, `ToolInvocationRepository`). -/
def ToolInvocations.listForRun (t : ToolInvocations) (runId : RunId) : List ToolInvocation :=
  (t.select (·.runId = runId)).insertionSort ToolInvocation.requestOrder

end Friday
