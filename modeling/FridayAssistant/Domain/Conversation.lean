import FridayAssistant.Basic
import FridayAssistant.Lib.Table
/-!
# Conversations and their turns (domain/conversation.py, domain/conversation_turn.py)

A turn is one utterance with the task and the run made for it. Its texts are stored trimmed.
-/
namespace Friday
open Tables

abbrev ConversationId := Uuid
abbrev ConversationTurnId := Uuid

structure Conversation where
  id : ConversationId
  createdAt : Time
  updatedAt : Time

instance : Keyed Conversation ConversationId := ⟨Conversation.id⟩

def Conversation.touch (c : Conversation) (now : Time) : Conversation := { c with updatedAt := now }

inductive ConversationInputMode where
  | typed | pushToTalk | handsFree
  deriving DecidableEq

structure ConversationTurn where
  id : ConversationTurnId
  conversationId : ConversationId
  clientTurnId : String
  inputText : String
  inputMode : ConversationInputMode
  recognitionLanguage : Option String
  taskId : TaskId
  runId : RunId
  createdAt : Time
  deriving DecidableEq

instance : Keyed ConversationTurn ConversationTurnId := ⟨ConversationTurn.id⟩

namespace ConversationTurn

/-- `_bounded`. -/
def bounded (value field : String) (limit : Nat) : Result String := do
  let normalized := PyText.strip value
  require (normalized ≠ "")
    (.domainValidation ("ConversationTurn." ++ field ++ " must not be empty after trimming"))
  require (normalized.length ≤ limit)
    (.domainValidation ("ConversationTurn." ++ field ++ " must be at most " ++ toString limit ++ " characters"))
  return normalized

theorem bounded_eq_ok {value field normalized : String} {limit : Nat}
    (h : bounded value field limit = .ok normalized) : normalized = PyText.strip value := by
  obtain ⟨_, _, h⟩ := bind_rest₂ h
  exact pure_eq_ok.1 h

/-- The language is optional. -/
def boundedLanguage : Option String → Result (Option String)
  | none => .ok none
  | some language => do
    let normalized ← bounded language "recognition_language" 35
    return some normalized

/-- What the caller says in a turn. -/
structure Payload where
  inputText : String
  inputMode : ConversationInputMode
  recognitionLanguage : Option String
  deriving DecidableEq

/-- The payload a turn stores. -/
def payload (t : ConversationTurn) : Payload := ⟨t.inputText, t.inputMode, t.recognitionLanguage⟩

/-- As `ConversationTurn.new` stores it. -/
def Payload.canonical (p : Payload) : Payload :=
  ⟨PyText.strip p.inputText, p.inputMode, p.recognitionLanguage.map PyText.strip⟩

/-- `ConversationTurn.new`: the language is checked first, then the client's id and the text. -/
def new (id : ConversationTurnId) (conversationId : ConversationId) (clientTurnId : String)
    (p : Payload) (taskId : TaskId) (runId : RunId) (createdAt : Time) : Result ConversationTurn :=
  do
  let language ← boundedLanguage p.recognitionLanguage
  let client ← bounded clientTurnId "client_turn_id" 200
  let text ← bounded p.inputText "input_text" 8000
  return { id := id, conversationId := conversationId, clientTurnId := client, inputText := text,
           inputMode := p.inputMode, recognitionLanguage := language, taskId := taskId,
           runId := runId, createdAt := createdAt }

theorem boundedLanguage_eq_ok {language normalized : Option String}
    (h : boundedLanguage language = .ok normalized) : normalized = language.map PyText.strip := by
  cases language with
  | none => cases h; rfl
  | some text =>
    obtain ⟨_, hb, h⟩ := bind_ok h
    cases h
    rw [bounded_eq_ok hb]
    rfl

theorem new_eq_ok {id : ConversationTurnId} {conversationId : ConversationId}
    {clientTurnId : String} {p : Payload} {taskId : TaskId} {runId : RunId} {createdAt : Time}
    {t : ConversationTurn}
    (h : new id conversationId clientTurnId p taskId runId createdAt = .ok t) : t.id = id ∧
      t.conversationId = conversationId ∧ t.clientTurnId = PyText.strip clientTurnId ∧
      t.taskId = taskId ∧ t.runId = runId ∧ t.payload = p.canonical := by
  obtain ⟨_, hl, _, hc, h⟩ := bind_ok₂ h
  obtain ⟨_, ht, h⟩ := bind_ok h
  cases h
  rw [boundedLanguage_eq_ok hl, bounded_eq_ok hc, bounded_eq_ok ht]
  exact ⟨rfl, rfl, rfl, rfl, rfl, rfl⟩

end ConversationTurn

abbrev ConversationTurns := Table ConversationTurn

/-- `get_by_client_turn_id`. -/
def ConversationTurns.getByClientTurnId (t : ConversationTurns) (conversationId : ConversationId)
    (clientTurnId : String) : Option ConversationTurn :=
  t.rows.find? fun x => x.conversationId = conversationId && x.clientTurnId = clientTurnId

/-- `add` under `uq_conversation_turns_client_turn_id` and `uq_conversation_turns_run_id`. -/
def ConversationTurns.add (t : ConversationTurns) (turn : ConversationTurn) :
    Result ConversationTurns := do
  require (t.rows.all fun x =>
    !(x.conversationId = turn.conversationId && x.clientTurnId = turn.clientTurnId) && x.runId ≠ turn.runId) .integrity
  found (t.insert? turn) .integrity

theorem ConversationTurns.add_eq_ok {t t' : ConversationTurns} {turn : ConversationTurn}
    (h : t.add turn = .ok t') : t.get? turn.id = none ∧ t' = t.put turn ∧
      ∀ x ∈ t.rows, ¬(x.conversationId = turn.conversationId ∧ x.clientTurnId = turn.clientTurnId) := by
  obtain ⟨_, hunique, h⟩ := bind_ok h
  obtain ⟨hfresh, rfl⟩ := Table.insert?_eq_some.1 (found_eq_ok.1 h)
  refine ⟨hfresh, rfl, fun x hx hsame => ?_⟩
  have hx := List.all_eq_true.1 (require_eq_ok.1 hunique) x hx
  simp [hsame.1, hsame.2] at hx

end Friday
