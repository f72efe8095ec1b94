import FridayAssistant.Basic
import FridayAssistant.Lib.Table
/-!
# `ApprovalRequest` (domain/approval.py)

A request for human authorization. It is resolved once, from PENDING; an APPROVED one can be
consumed once, by the tool execution whose fingerprint it carries.
-/
namespace Friday
open Tables

inductive ApprovalStatus where
  | pending | approved | rejected | cancelled | expired
  deriving DecidableEq

def ApprovalStatus.value : ApprovalStatus → String
  | .pending => "pending"
  | .approved => "approved"
  | .rejected => "rejected"
  | .cancelled => "cancelled"
  | .expired => "expired"

inductive ApprovalCategory where
  | toolExecution | filesystemWrite | networkAccess | computerUse | externalCommunication | other
  deriving DecidableEq

def ApprovalCategory.value : ApprovalCategory → String
  | .toolExecution => "tool_execution"
  | .filesystemWrite => "filesystem_write"
  | .networkAccess => "network_access"
  | .computerUse => "computer_use"
  | .externalCommunication => "external_communication"
  | .other => "other"

inductive ApprovalSubjectKind where
  | run | skillPromotion | skillRollback
  deriving DecidableEq

structure ApprovalRequest where
  id : ApprovalRequestId
  runId : Option RunId
  category : ApprovalCategory
  summary : String
  reason : String
  requestedAction : String
  requestedInput : PyJson.JsonValue
  status : ApprovalStatus
  requestedAt : Time
  stepId : Option RunStepId
  expiresAt : Option Time
  resolvedAt : Option Time
  resolutionNote : Option String
  resolver : Option String
  authorizationFingerprint : Option String
  consumedAt : Option Time
  subjectKind : ApprovalSubjectKind
  subjectId : Option String

instance : Keyed ApprovalRequest ApprovalRequestId := ⟨ApprovalRequest.id⟩

@[simp] theorem key_approval (a : ApprovalRequest) : key a = a.id := rfl

/-- What `ApprovalRequest.new` is called with. -/
structure ApprovalRequest.Draft where
  id : ApprovalRequestId
  runId : Option RunId
  category : ApprovalCategory
  summary : String
  reason : String
  requestedAction : String
  requestedInput : PyJson.JsonValue
  requestedAt : Time
  stepId : Option RunStepId
  expiresAt : Option Time
  authorizationFingerprint : Option String
  subjectKind : ApprovalSubjectKind
  subjectId : Option String

namespace ApprovalRequest

/-- `re.fullmatch(r"[0-9a-f]{64}", …)`. -/
def isDigest (s : String) : Bool := s.toList.length = 64 && s.toList.all PyText.isLowerHex

/-- `ApprovalRequest.new`. -/
def new (d : Draft) : Result ApprovalRequest := do
  require (!PyText.isBlank d.summary)
    (.domainValidation "ApprovalRequest.summary must not be empty")
  require (!PyText.isBlank d.requestedAction)
    (.domainValidation "ApprovalRequest.requested_action must not be empty")
  require (d.authorizationFingerprint.all isDigest)
    (.domainValidation "ApprovalRequest.authorization_fingerprint must be 64 lowercase hex characters")
  require (d.runId.isSome || (d.subjectKind ≠ .run && d.subjectId.any (· ≠ "")))
    (.domainValidation "non-run ApprovalRequest requires a typed subject identity")
  require (d.runId.isNone || d.subjectKind = .run)
    (.domainValidation "run ApprovalRequest must use the run subject kind")
  require (d.expiresAt.all (d.requestedAt < ·))
    (.domainValidation "ApprovalRequest.expires_at must be after its requested_at")
  return { id := d.id, runId := d.runId, category := d.category, summary := PyText.strip d.summary,
           reason := PyText.strip d.reason, requestedAction := PyText.strip d.requestedAction,
           requestedInput := d.requestedInput, status := .pending, requestedAt := d.requestedAt,
           stepId := d.stepId, expiresAt := d.expiresAt, resolvedAt := none, resolutionNote := none,
           resolver := none, authorizationFingerprint := d.authorizationFingerprint,
           consumedAt := none, subjectKind := d.subjectKind, subjectId := d.subjectId }

theorem new_eq_ok {d : Draft} {a : ApprovalRequest} (h : new d = .ok a) :
    a.id = d.id ∧ a.runId = d.runId ∧ a.status = .pending := by
  simp only [new, bind_eq_ok, pure_eq_ok] at h
  obtain ⟨_, -, _, -, _, -, _, -, _, -, _, -, rfl⟩ := h
  exact ⟨rfl, rfl, rfl⟩

def isConsumed (a : ApprovalRequest) : Bool := a.consumedAt.isSome

/-- A resolver that is given must not be blank. -/
def normalizedResolver : Option String → Result (Option String)
  | none => .ok none
  | some resolver =>
    if PyText.isBlank resolver then .error (.domainValidation "ApprovalRequest.resolver must not be empty")
    else .ok (some (PyText.strip resolver))

/-- `_resolve`. -/
def resolve (a : ApprovalRequest) (target : ApprovalStatus) (now : Time)
    (resolver resolutionNote : Option String) : Result ApprovalRequest := do
  require (a.status = .pending)
    (.invalidStateTransition "ApprovalRequest" a.status.value target.value)
  let resolver ← normalizedResolver resolver
  return { a with resolvedAt := some now, resolver := resolver, resolutionNote := resolutionNote, status := target }

theorem resolve_eq_ok {a a' : ApprovalRequest} {target : ApprovalStatus} {now : Time}
    {resolver note : Option String} (h : a.resolve target now resolver note = .ok a') :
    a.status = .pending ∧ a'.id = a.id ∧ a'.runId = a.runId ∧ a'.stepId = a.stepId ∧ a'.status = target := by
  obtain ⟨_, hp, h⟩ := bind_ok h
  obtain ⟨_, h⟩ := bind_rest h
  cases h
  exact ⟨of_require hp, rfl, rfl, rfl, rfl⟩

def approve (a : ApprovalRequest) (now : Time) (resolver : String) (note : Option String) :=
  a.resolve .approved now (some resolver) note

def reject (a : ApprovalRequest) (now : Time) (resolver : String) (note : Option String) :=
  a.resolve .rejected now (some resolver) note

def cancel (a : ApprovalRequest) (now : Time) (note : Option String) :=
  a.resolve .cancelled now none note

def expire (a : ApprovalRequest) (now : Time) := a.resolve .expired now none none

/-- `consume`: one execution for one approval. -/
def consume (a : ApprovalRequest) (now : Time) : Result ApprovalRequest := do
  require (a.status = .approved)
    (.invalidStateTransition "ApprovalRequest" a.status.value "consumed")
  require a.consumedAt.isNone (.domainValidation "ApprovalRequest is already consumed")
  return { a with consumedAt := some now }

/-- `ORDER BY requested_at, id`. -/
def requestOrder (a b : ApprovalRequest) : Prop :=
  a.requestedAt < b.requestedAt ∨ a.requestedAt = b.requestedAt ∧ a.id ≤ b.id
  deriving Decidable

end ApprovalRequest

abbrev Approvals := Table ApprovalRequest

/-- `list_for_run` (repositories.py, `ApprovalRepository`). -/
def Approvals.listForRun (t : Approvals) (runId : RunId) : List ApprovalRequest :=
  (t.select (·.runId = some runId)).insertionSort ApprovalRequest.requestOrder

end Friday
