import FridayAssistant.App.Store
/-!
# `SubmitConversationTurn` (submit_conversation_turn.py)

A turn is looked up by the conversation and the client's id. If there is none, a task with its
run and the turn are written in one transaction; when that violates the unique constraint, the
turn of the caller that won is read and compared.
-/
namespace Friday.App
open Tables Runs

structure SubmitConversationTurnCommand where
  conversationId : ConversationId
  clientTurnId : String
  payload : ConversationTurn.Payload

/-- `_canonical_client_turn_id`. -/
def SubmitConversationTurnCommand.client (c : SubmitConversationTurnCommand) : String :=
  PyText.strip c.clientTurnId

structure SubmitConversationTurnResult where
  conversationId : ConversationId
  turnId : ConversationTurnId
  taskId : TaskId
  runId : RunId
  deduplicated : Bool
  deriving DecidableEq

def resultOf (t : ConversationTurn) (deduplicated : Bool) : SubmitConversationTurnResult :=
  ⟨t.conversationId, t.id, t.taskId, t.runId, deduplicated⟩

def conversationTaskTitleChars : Nat := 120

/-- `text.rstrip()`. -/
def rstrip (text : String) : String :=
  String.ofList ((text.toList.reverse.dropWhile PyText.isSpace).reverse)

/-- `_title_for`. -/
def titleFor (inputText : String) : String :=
  let collapsed := PyText.join " " (PyText.words inputText)
  if collapsed.length ≤ conversationTaskTitleChars then collapsed
  else rstrip (PyText.take (conversationTaskTitleChars - 1) collapsed) ++ "…"

/-- `_assert_same_payload`. -/
def assertSamePayload (turn : ConversationTurn) (c : SubmitConversationTurnCommand) : Result Unit :=
  do
  let canonical ← ConversationTurn.new turn.id c.conversationId c.client c.payload turn.taskId
    turn.runId turn.createdAt
  require (turn.payload = canonical.payload)
    (.entityConflict "client_turn_id is already bound to a different payload")

/-- An existing turn answers a call with the same payload. -/
def replayed (turn : ConversationTurn) (c : SubmitConversationTurnCommand) :
    Result SubmitConversationTurnResult := do
  assertSamePayload turn c
  return resultOf turn true

/-- `_existing`. -/
def existing (db : AppDb) (c : SubmitConversationTurnCommand) :
    Result (Option SubmitConversationTurnResult) :=
  match db.conversationTurns.getByClientTurnId c.conversationId c.client with
  | none => .ok none
  | some turn => do
    let result ← replayed turn c
    return some result

/-- The ids one submission draws. -/
structure TurnIds where
  taskId : TaskId
  runId : RunId
  turnId : ConversationTurnId

/-- The reads of `_materialize`: the conversation, and the answer if the turn exists. -/
def lookup (db : AppDb) (c : SubmitConversationTurnCommand) :
    Result (Conversation × Option SubmitConversationTurnResult) := do
  let conversation ← found (db.conversations.get? c.conversationId)
    (.notFound "Conversation" c.conversationId)
  let answer ← existing db c
  return (conversation, answer)

/-- Its writes. -/
def writeTurn (db : AppDb) (conversation : Conversation) (c : SubmitConversationTurnCommand)
    (ids : TurnIds) (now : Time) : Result (ConversationTurn × AppDb) := do
  let task ← Task.new ids.taskId (titleFor c.payload.inputText) c.payload.inputText now
  let tasks ← found (db.tasks.insert? task) .integrity
  let started ← startRunInUow { db.toDb with tasks := tasks } task ids.runId now
  let turn ← ConversationTurn.new ids.turnId c.conversationId c.client c.payload task.id
    ids.runId now
  let turns ← db.conversationTurns.add turn
  return (turn, { db with toDb := started, conversationTurns := turns,
                          conversations := db.conversations.put (conversation.touch now) })

/-- `SubmitConversationTurn.execute` with no other caller in between. -/
def submitConversationTurn (db : AppDb) (c : SubmitConversationTurnCommand) (ids : TurnIds)
    (now : Time) : Result (SubmitConversationTurnResult × AppDb) :=
  match (do
    let (conversation, answer) ← lookup db c
    match answer with
    | some result => return (result, db)
    | none => do
      let (turn, db) ← writeTurn db conversation c ids now
      return (resultOf turn false, db)) with
  | .error (.entityConflict message) => do
    let answer ← existing db c
    let result ← found answer (.entityConflict message)
    return (result, db)
  | outcome => outcome

end Friday.App
