import FridayAssistant.Domain.Run
import FridayAssistant.Domain.Approval
/-!
# Agents, frozen skills and their ledger

`Agent`, `AgentRevision` and the task and run bindings (domain/agent.py), the brain runtimes a
revision may name (application/brain_runtime_registry.py), the skills a run was frozen to
(domain/skill.py) and the usage record a terminal run leaves (domain/skill_usage.py).
-/
namespace Friday
open Tables PyJson

/-! ## Agents -/

inductive AgentStatus where
  | active | disabled | archived
  deriving DecidableEq

/-- `Agent`, without the texts shown to people. -/
structure Agent where
  id : AgentId
  agentKey : String
  status : AgentStatus
  activeRevisionId : Option AgentRevisionId

instance : Keyed Agent AgentId := ⟨Agent.id⟩

abbrev Agents := Table Agent

/-- `get_by_key`. -/
def Agents.getByKey (t : Agents) (agentKey : String) : Option Agent :=
  t.rows.find? (·.agentKey = agentKey)

/-- `agent.status is AgentStatus.ACTIVE and agent.active_revision_id is not None`. -/
def Agent.isAvailable (a : Agent) : Bool := a.status = .active && a.activeRevisionId.isSome

structure AgentRevision where
  id : AgentRevisionId
  agentId : AgentId
  version : Nat
  instructions : String
  runtimeKind : String
  runtimeConfig : JsonValue
  contentSha256 : String

instance : Keyed AgentRevision AgentRevisionId := ⟨AgentRevision.id⟩

/-- `_canonical_revision_content`. -/
def AgentRevision.canonicalContent (r : AgentRevision) : String :=
  dumps (.obj [("instructions", .str r.instructions), ("runtime_kind", .str r.runtimeKind),
    ("runtime_config", r.runtimeConfig)])

structure TaskAgentBinding where
  taskId : TaskId
  agentId : AgentId
  createdAt : Time

instance : Keyed TaskAgentBinding TaskId := ⟨TaskAgentBinding.taskId⟩

@[simp] theorem key_taskAgentBinding (b : TaskAgentBinding) : key b = b.taskId := rfl

abbrev TaskAgentBindings := Table TaskAgentBinding

/-- `replace`: the old row is deleted, the new one added. -/
def TaskAgentBindings.replace (t : TaskAgentBindings) (taskId : TaskId) : Option TaskAgentBinding →
    TaskAgentBindings
  | none => t.erase taskId
  | some b => (t.erase taskId).put b

structure RunAgentResolution where
  id : Uuid
  runId : RunId
  agentId : AgentId
  revisionId : AgentRevisionId
  resolvedAt : Time

/-- One resolution for each run. -/
instance : Keyed RunAgentResolution RunId := ⟨RunAgentResolution.runId⟩

/-- `BrainRuntimeRegistry`: only `claude_cli` has a configuration policy, so it is the only kind
that can be registered. -/
structure BrainRuntimeRegistry where
  claudeCli : Bool

def BrainRuntimeRegistry.isRegistered (g : BrainRuntimeRegistry) (runtimeKind : String) : Bool :=
  g.claudeCli && runtimeKind = "claude_cli"

/-- `validate_runtime_config` of a registered kind: the policy is the empty object, which is
within the size bounds. -/
def BrainRuntimeRegistry.validateRuntimeConfig : JsonValue → Bool
  | .obj [] => true
  | _ => false

/-! ## Frozen skills -/

structure RunSkillResolution where
  id : Uuid
  runId : RunId
  resolvedAt : Time

/-- One resolution for each run. -/
instance : Keyed RunSkillResolution RunId := ⟨RunSkillResolution.runId⟩

structure RunSkillBinding where
  runId : RunId
  skillId : SkillId
  revisionId : SkillRevisionId
  position : Nat

instance : Keyed RunSkillBinding (RunId × SkillId) := ⟨fun b => (b.runId, b.skillId)⟩

abbrev RunSkillBindings := Table RunSkillBinding

/-- `list_for_run`: by position, which is unique within a run. -/
def RunSkillBindings.listForRun (t : RunSkillBindings) (runId : RunId) : List RunSkillBinding :=
  (t.select (·.runId = runId)).insertionSort fun a b => a.position ≤ b.position

inductive SkillUsageOutcome where
  | succeeded | failed | cancelled | resolutionFailed
  deriving DecidableEq

/-- `SkillUsageRecord`, without its own id, which nothing reads. -/
structure SkillUsageRecord where
  runId : RunId
  taskId : TaskId
  skillId : SkillId
  revisionId : SkillRevisionId
  position : Nat
  resolutionId : Uuid
  executionId : RunId
  attemptNumber : Nat
  startedAt : Option Time
  completedAt : Time
  outcome : SkillUsageOutcome
  failureCode : Option String
  toolCallCount : Nat
  approvalCount : Nat
  durationMs : Option Int
  createdAt : Time

/-- `uq_skill_usage_records_run_skill`. -/
instance : Keyed SkillUsageRecord (RunId × SkillId) := ⟨fun r => (r.runId, r.skillId)⟩

namespace SkillUsageRecord

/-- `__post_init__`. -/
def validate (r : SkillUsageRecord) : Result Unit := do
  require (1 ≤ r.position && 1 ≤ r.attemptNumber)
    (.domainValidation "skill usage position and attempt must be positive")
  require (r.durationMs.all (0 ≤ ·)) (.domainValidation "skill usage duration must be non-negative")
  require (r.outcome ≠ .failed || r.failureCode.any (· ≠ ""))
    (.domainValidation "failed skill usage requires a failure code")
  require (r.outcome = .failed || r.failureCode.isNone)
    (.domainValidation "only failed skill usage may have a failure code")

/-- `length(failure_code) BETWEEN 1 AND 128 AND failure_code NOT GLOB '*[^a-z0-9_]*'`; both
functions of SQLite stop at a NUL. -/
def isUsageCode (s : String) : Bool :=
  let cs := s.toList.takeWhile (·.toNat ≠ 0)
  1 ≤ cs.length && cs.length ≤ 128 && cs.all PyText.isCodeChar

/-- The `CHECK` constraints of `skill_usage_records` (models.py:151-167). -/
def rowOk (r : SkillUsageRecord) : Bool :=
  0 < r.attemptNumber && r.durationMs.all (0 ≤ ·) && (1 ≤ r.position && r.position ≤ 16) &&
    ((r.outcome = .failed && r.failureCode.any isUsageCode) || (r.outcome ≠ .failed && r.failureCode.isNone))

end SkillUsageRecord

abbrev SkillUsageRecords := Table SkillUsageRecord

/-- `add`: `INSERT … ON CONFLICT (run_id, skill_id) DO NOTHING`, under the row's checks. -/
def SkillUsageRecords.add (t : SkillUsageRecords) (r : SkillUsageRecord) :
    Result SkillUsageRecords := do
  require r.rowOk .integrity
  return (t.insert? r).getD t

end Friday
