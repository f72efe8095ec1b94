import FridayAssistant.App.System
/-!
# One turn for each client id

Any number of callers are inside `SubmitConversationTurn.execute` at once. A call looks its turn up,
writes in a transaction that is checked against the unique constraints at its commit, and on an
`EntityConflict` reads the turn of the caller that won; between any two of these steps, every other
caller and every other use case may commit. What is kept beside the database is the turns that were
committed and the answers that were returned.
-/
namespace Friday.App
open Tables Table Runs Queue Transition

/-- Where a call of `execute` is, once it has not ended in its first transaction's reads. -/
inductive TurnCall where
  /-- It found no turn; the conversation is the row it read. -/
  | writing (command : SubmitConversationTurnCommand) (conversation : Conversation) (ids : TurnIds) (now : Time)
  /-- It is in `except EntityConflict`. -/
  | conflicted (command : SubmitConversationTurnCommand)

structure TurnState where
  db : AppDb
  calls : List TurnCall
  committed : List ConversationTurn
  returned : List (SubmitConversationTurnCommand × SubmitConversationTurnResult)

inductive TurnAction where
  /-- Another use case commits. -/
  | other (a : AppAction)
  | start (command : SubmitConversationTurnCommand) (ids : TurnIds) (now : Time)
  | commit (i : Nat)
  | recover (i : Nat)
  /-- A call ends in any other exception, and its transaction with it. -/
  | crash (i : Nat)

def AppAction.isSubmission : AppAction → Bool
  | .submitConversationTurn .. => true
  | _ => false

def TurnState.answer (s : TurnState) (c : SubmitConversationTurnCommand)
    (result : SubmitConversationTurnResult) :
    TurnState := { s with returned := (c, result) :: s.returned }

/-- The reads of `_materialize`. -/
def startTurn (s : TurnState) (c : SubmitConversationTurnCommand) (ids : TurnIds) (now : Time) :
    TurnState :=
  match lookup s.db c with
  | .ok (_, some result) => s.answer c result
  | .ok (conversation, none) => { s with calls := .writing c conversation ids now :: s.calls }
  | .error (.entityConflict _) => { s with calls := .conflicted c :: s.calls }
  | .error _ => s

/-- Its writes; a violated constraint rolls the transaction back and is an `EntityConflict`. -/
def commitTurn (s : TurnState) (conversation : Conversation) (c : SubmitConversationTurnCommand)
    (ids : TurnIds) (now : Time) : TurnState :=
  match writeTurn s.db conversation c ids now with
  | .ok (turn, db) =>
    { s with db := db, committed := turn :: s.committed }.answer c (resultOf turn false)
  | .error (.entityConflict _) => { s with calls := .conflicted c :: s.calls }
  | .error _ => s

/-- `except EntityConflict`: a second transaction reads the turn; without one the conflict is
raised. -/
def recoverTurn (s : TurnState) (c : SubmitConversationTurnCommand) : TurnState :=
  match existing s.db c with
  | .ok (some result) => s.answer c result
  | _ => s

def TurnState.drop (s : TurnState) (i : Nat) : TurnState := { s with calls := s.calls.eraseIdx i }

def turnStep (cfg : AppConfig) (s : TurnState) : TurnAction → Option TurnState
  | .other a =>
    if a.isSubmission then none else (appCommit cfg s.db a).map fun db => { s with db := db }
  | .start c ids now => some (startTurn s c ids now)
  | .commit i =>
    match s.calls[i]? with
    | some (.writing c conversation ids now) => some (commitTurn (s.drop i) conversation c ids now)
    | _ => none
  | .recover i =>
    match s.calls[i]? with
    | some (.conflicted c) => some (recoverTurn (s.drop i) c)
    | _ => none
  | .crash i => some (s.drop i)

/-- Every interleaving, from a database without turns. -/
def turnSystem (cfg : AppConfig) : System TurnState TurnAction :=
  .ofStep (fun s => s.db.conversationTurns = .empty ∧ s.calls = [] ∧ s.committed = [] ∧
    s.returned = []) (turnStep cfg) (fun _ _ => True)

/-! ## What a submission reads and writes -/

variable {c : SubmitConversationTurnCommand}

variable {db : AppDb} {result : SubmitConversationTurnResult}

/-- The answer to a repeated call is the stored turn of its key, with the caller's payload. -/
theorem existing_eq_some (h : existing db c = .ok (some result)) :
    ∃ turn ∈ db.conversationTurns.rows, turn.conversationId = c.conversationId ∧ turn.clientTurnId = c.client ∧
      result = resultOf turn true ∧ turn.payload = c.payload.canonical := by
  unfold existing at h
  split at h
  · cases h
  · next turn hturn =>
    obtain ⟨_, hreplayed, h⟩ := bind_ok h
    cases h
    obtain ⟨_, hsame, h⟩ := bind_ok hreplayed
    cases h
    obtain ⟨canonical, hnew, hsame⟩ := bind_ok hsame
    have hpayload : turn.payload = canonical.payload := of_require hsame
    have hkey := List.find?_some hturn
    rw [Bool.and_eq_true, decide_eq_true_iff, decide_eq_true_iff] at hkey
    exact ⟨turn, List.mem_of_find?_eq_some hturn, hkey.1, hkey.2, rfl,
      hpayload.trans (ConversationTurn.new_eq_ok hnew).2.2.2.2.2⟩

/-- One turn is added, with one task, one run of that task and one work item of that run. -/
structure Materialized (db : AppDb) (turn : ConversationTurn) (db' : AppDb) : Prop where
  newTurn : db.conversationTurns.get? turn.id = none
  turns : db'.conversationTurns = db.conversationTurns.put turn
  newTask : db.tasks.get? turn.taskId = none
  task : (db'.tasks.get? turn.taskId).isSome
  otherTasks : ∀ id, id ≠ turn.taskId → db'.tasks.get? id = db.tasks.get? id
  newRun : db.runs.get? turn.runId = none
  run : ∃ run, db'.runs.get? turn.runId = some run ∧ run.taskId = turn.taskId
  otherRuns : ∀ id, id ≠ turn.runId → db'.runs.get? id = db.runs.get? id
  item : (db'.workQueue.get? turn.runId).isSome
  otherItems : ∀ id, id ≠ turn.runId → db'.workQueue.get? id = db.workQueue.get? id

theorem TurnWritten.materialized {db' : AppDb} {ids : TurnIds} {now : Time}
    {turn : ConversationTurn} (h : TurnWritten db c ids now turn db') :
    Materialized db turn db' := by
  obtain ⟨task, started, hnew, hfresh, hstarted, hdb⟩ := h.task
  obtain ⟨-, -, -, htaskId, hrunId, -⟩ := ConversationTurn.new_eq_ok h.new
  have hid : task.id = turn.taskId := by
    obtain ⟨_, hnew⟩ := bind_rest hnew
    cases hnew
    exact htaskId.symm
  obtain ⟨hfreshRun, hcore⟩ := startRunInUow_core hstarted
  have hruns : db'.runs = db.runs.put (Run.new turn.runId turn.taskId now none) := by
    rw [hdb, hrunId, ← hid]
    exact congrArg Core.runs hcore
  have hqueue : db'.workQueue = enqueue db.workQueue turn.runId now now := by
    rw [hdb, hrunId]
    exact congrArg Core.workQueue hcore
  have htasks : (db'.tasks.get? task.id).isSome ∧ ∀ id, id ≠ task.id → db'.tasks.get? id = db.tasks.get? id := by
    rw [hdb]
    obtain ⟨-, tasks, htasks, hdb⟩ := startRunInUow_eq_ok hstarted
    rw [show started.tasks = tasks by rw [hdb]; rfl]
    rcases htasks with ⟨-, rfl⟩ | ⟨-, rfl⟩
    · constructor
      · exact Option.isSome_iff_exists.2 ⟨_, get?_put_self db.tasks task⟩
      · intro id hne
        exact get?_put_ne (Ne.symm hne)
    · constructor
      · exact Option.isSome_iff_exists.2 ⟨_, get?_put_self (db.tasks.put task) { task with startedAt := _, status := _ }⟩
      · intro id hne
        exact (get?_put_ne (Ne.symm hne)).trans (get?_put_ne (Ne.symm hne))
  rw [hid] at htasks hfresh
  refine ⟨h.freshId, h.turns, hfresh, htasks.1, htasks.2, hrunId ▸ hfreshRun, ?_, ?_, ?_, ?_⟩
  · rw [hruns]
    exact ⟨_, get?_put_self db.runs (Run.new turn.runId turn.taskId now none), rfl⟩
  · intro id hne
    rw [hruns]
    exact get?_put_ne (Ne.symm hne)
  · rw [hqueue]
    exact isSome_enqueue_self
  · intro id hne
    rw [hqueue, get?_enqueue_ne (Ne.symm hne)]

/-- The use cases beside the submissions write no turn. -/
theorem appAct_turns {cfg : AppConfig} {db' : AppDb} {a : AppAction}
    (hother : a.isSubmission = false) (h : appAct cfg db a = .ok db') :
    db'.conversationTurns = db.conversationTurns := by
  cases appAct_applied h with
  | materialized fired =>
    cases fired with
    | fire _ _ _ _ _ _ started =>
      obtain ⟨_, _, _, -, -, -, rfl⟩ := startFire_eq_ok started
      rfl
    | _ => rfl
  | submitted => cases hother
  | _ => rfl

/-! ## What one step does -/

/-- Everything a step can do: another use case commits, no turn among its rows; a call goes on or
ends without an answer; a call is answered with the stored turn of its key and its payload; or a
turn of a new key is committed and answers its caller. -/
inductive TurnStep (s : TurnState) (a : TurnAction) (s' : TurnState) : Prop where
  | other {b : AppAction} (ha : a = .other b) (turns : s'.db.conversationTurns = s.db.conversationTurns)
      (committed : s'.committed = s.committed) (returned : s'.returned = s.returned)
  | silent (db : s'.db = s.db) (committed : s'.committed = s.committed) (returned : s'.returned = s.returned)
  | answered {c : SubmitConversationTurnCommand} {turn : ConversationTurn} (hturn : turn ∈ s.db.conversationTurns.rows)
      (conversation : turn.conversationId = c.conversationId)
      (client : turn.clientTurnId = c.client) (payload : turn.payload = c.payload.canonical)
      (db : s'.db = s.db) (committed : s'.committed = s.committed)
      (returned : s'.returned = (c, resultOf turn true) :: s.returned)
  | created {c : SubmitConversationTurnCommand} {turn : ConversationTurn}
      (conversation : turn.conversationId = c.conversationId)
      (client : turn.clientTurnId = c.client) (payload : turn.payload = c.payload.canonical)
      (fresh : ∀ x ∈ s.db.conversationTurns.rows,
        ¬(x.conversationId = turn.conversationId ∧ x.clientTurnId = turn.clientTurnId))
      (materialized : Materialized s.db turn s'.db) (committed : s'.committed = turn :: s.committed)
      (returned : s'.returned = (c, resultOf turn false) :: s.returned)

variable {s : TurnState}

theorem answered_of_existing {s₁ : TurnState} {a : TurnAction}
    (hdb : s₁.db = s.db) (hcommitted : s₁.committed = s.committed)
    (hreturned : s₁.returned = s.returned) (h : existing s.db c = .ok (some result)) :
    TurnStep s a (s₁.answer c result) := by
  obtain ⟨turn, hturn, hconversation, hclient, rfl, hpayload⟩ := existing_eq_some h
  exact .answered hturn hconversation hclient hpayload hdb hcommitted (by rw [← hreturned]; rfl)

theorem startTurn_step (s : TurnState) (a : TurnAction) (c : SubmitConversationTurnCommand)
    (ids : TurnIds) (now : Time) : TurnStep s a (startTurn s c ids now) := by
  unfold startTurn
  split
  · next hlookup =>
    obtain ⟨_, hlookup⟩ := bind_rest hlookup
    obtain ⟨answer, hanswer, hlookup⟩ := bind_ok hlookup
    cases hlookup
    exact answered_of_existing rfl rfl rfl hanswer
  · exact .silent rfl rfl rfl
  · exact .silent rfl rfl rfl
  · exact .silent rfl rfl rfl

theorem commitTurn_step (s : TurnState) (a : TurnAction) (i : Nat) (conversation : Conversation)
    (c : SubmitConversationTurnCommand) (ids : TurnIds) (now : Time) :
    TurnStep s a (commitTurn (s.drop i) conversation c ids now) := by
  unfold commitTurn
  split
  · next turn db hwrite =>
    have hwritten : TurnWritten s.db c ids now turn db := writeTurn_written hwrite
    obtain ⟨-, hconversation, hclient, -, -, hpayload⟩ := ConversationTurn.new_eq_ok hwritten.new
    have hstripped : turn.clientTurnId = c.client := hclient.trans (PyText.strip_strip c.clientTurnId)
    exact .created hconversation hstripped hpayload hwritten.fresh hwritten.materialized rfl rfl
  · exact .silent rfl rfl rfl
  · exact .silent rfl rfl rfl

theorem recoverTurn_step (s : TurnState) (a : TurnAction) (i : Nat)
    (c : SubmitConversationTurnCommand) : TurnStep s a (recoverTurn (s.drop i) c) := by
  unfold recoverTurn
  split
  · next hexisting =>
    have hexisting : existing s.db c = _ := hexisting
    exact answered_of_existing rfl rfl rfl hexisting
  · exact .silent rfl rfl rfl

theorem turnSystem_step {cfg : AppConfig} {s' : TurnState} {a : TurnAction}
    (h : (turnSystem cfg).next s a s') : TurnStep s a s' := by
  have hstep : turnStep cfg s a = some s' := h.1
  cases a with
  | other a =>
    dsimp only [turnStep] at hstep
    split at hstep
    · cases hstep
    · next hother =>
      obtain ⟨db, hcommit, rfl⟩ := Option.map_eq_some_iff.1 hstep
      exact .other rfl (appAct_turns (Bool.eq_false_iff.2 hother) (toOption_eq_some.1 hcommit)) rfl rfl
  | start c ids now =>
    obtain rfl := Option.some.inj hstep
    exact startTurn_step s _ c ids now
  | commit i =>
    dsimp only [turnStep] at hstep
    split at hstep
    · obtain rfl := Option.some.inj hstep
      exact commitTurn_step s _ i _ _ _ _
    · cases hstep
  | recover i =>
    dsimp only [turnStep] at hstep
    split at hstep
    · obtain rfl := Option.some.inj hstep
      exact recoverTurn_step s _ i _
    · cases hstep
  | crash i =>
    obtain rfl := Option.some.inj hstep
    exact .silent rfl rfl rfl

/-! ## Exactly once -/

def ConversationTurn.isOf (conversationId : ConversationId) (client : String)
    (t : ConversationTurn) : Bool :=
  t.conversationId = conversationId && t.clientTurnId = client

open App.ConversationTurn (isOf)

/-- The calls for one turn: the same conversation, the same client id up to white space around
it. -/
def SubmitConversationTurnCommand.isFor (conversationId : ConversationId) (client : String)
    (c : SubmitConversationTurnCommand) : Bool :=
  c.conversationId = conversationId && c.client = client

/-- What every interleaving keeps, for one conversation and one client id. -/
structure TurnsOnce (conversationId : ConversationId) (client : String) (s : TurnState) : Prop where
  stored : ∀ t, t ∈ s.db.conversationTurns.rows ↔ t ∈ s.committed
  once : s.committed.countP (isOf conversationId client) ≤ 1
  answers : ∀ p ∈ s.returned, p.1.isFor conversationId client = true → ∃ turn ∈ s.committed,
    isOf conversationId client turn = true ∧ p.2 = resultOf turn p.2.deduplicated ∧
      turn.payload = p.1.payload.canonical
  /-- One answer says `deduplicated=False` for each turn. -/
  first : s.returned.countP (fun p => p.1.isFor conversationId client && !p.2.deduplicated) =
    s.committed.countP (isOf conversationId client)

section
variable {conversationId : ConversationId} {client : String} {s s' : TurnState}

theorem isOf_eq_isFor {turn : ConversationTurn}
    (hconversation : turn.conversationId = c.conversationId)
    (hclient : turn.clientTurnId = c.client) :
    isOf conversationId client turn = c.isFor conversationId client := by
  rw [isOf, SubmitConversationTurnCommand.isFor, hconversation, hclient]

theorem TurnStep.turnsOnce {a : TurnAction} (h : TurnStep s a s')
    (hinv : TurnsOnce conversationId client s) : TurnsOnce conversationId client s' := by
  cases h with
  | other _ db committed returned | silent db committed returned =>
    exact ⟨by rw [db, committed]; exact hinv.stored, by rw [committed]; exact hinv.once,
      by rw [returned, committed]; exact hinv.answers, by rw [returned, committed]; exact hinv.first⟩
  | @answered c turn hturn conversation client' payload db committed returned =>
    refine ⟨by rw [db, committed]; exact hinv.stored, by rw [committed]; exact hinv.once, ?_, ?_⟩
    · rw [returned, committed]
      intro p hp hfor
      rcases List.mem_cons.1 hp with rfl | hp
      · exact ⟨turn, (hinv.stored turn).1 hturn, (isOf_eq_isFor conversation client').trans hfor, rfl, payload⟩
      · exact hinv.answers p hp hfor
    · rw [returned, committed, List.countP_cons_of_neg (by simp [resultOf])]
      exact hinv.first
  | @created c turn conversation client' payload fresh materialized committed returned =>
    have hkey : isOf conversationId client turn = c.isFor conversationId client :=
      isOf_eq_isFor conversation client'
    refine ⟨fun t => ?_, ?_, ?_, ?_⟩
    · rw [materialized.turns, committed, mem_put_fresh materialized.newTurn, hinv.stored t, List.mem_cons]
    · rw [committed]
      by_cases hof : isOf conversationId client turn = true
      · -- the unique constraint: no turn of this key has been committed before
        have hnone : s.committed.countP (isOf conversationId client) = 0 := by
          rw [List.countP_eq_zero]
          intro x hx hxof
          simp only [isOf, Bool.and_eq_true, decide_eq_true_iff] at hof hxof
          exact fresh x ((hinv.stored x).2 hx) ⟨hxof.1.trans hof.1.symm, hxof.2.trans hof.2.symm⟩
        rw [List.countP_cons_of_pos hof, hnone]
      · rw [List.countP_cons_of_neg hof]
        exact hinv.once
    · rw [returned, committed]
      intro p hp hfor
      rcases List.mem_cons.1 hp with rfl | hp
      · exact ⟨turn, List.mem_cons_self, hkey.trans hfor, rfl, payload⟩
      · obtain ⟨t, ht, hrest⟩ := hinv.answers p hp hfor
        exact ⟨t, List.mem_cons_of_mem turn ht, hrest⟩
    · rw [returned, committed, List.countP_cons, List.countP_cons, hinv.first, hkey]
      simp [resultOf]

theorem turnSystem_turnsOnce {cfg : AppConfig} (h : (turnSystem cfg).Reachable s) :
    TurnsOnce conversationId client s :=
  h.invariant (TurnsOnce conversationId client)
    (fun s hinit => by
      obtain ⟨hturns, -, hcommitted, hreturned⟩ := hinit
      refine ⟨fun t => ?_, ?_, ?_, ?_⟩
      · rw [hturns, hcommitted]; exact Iff.rfl
      · rw [hcommitted]; exact Nat.zero_le 1
      · rw [hreturned]; exact fun p hp => absurd hp List.not_mem_nil
      · rw [hcommitted, hreturned]; rfl)
    (fun _ _ _ _ hinv hnext => (turnSystem_step hnext).turnsOnce hinv)

end

/-- Two committed turns of one key are the same turn. -/
theorem TurnsOnce.unique {conversationId : ConversationId} {client : String}
    (h : TurnsOnce conversationId client s) {t u : ConversationTurn} (ht : t ∈ s.committed)
    (hu : u ∈ s.committed) (htof : isOf conversationId client t = true)
    (huof : isOf conversationId client u = true) : t = u := by
  have hlength : (s.committed.filter (isOf conversationId client)).length ≤ 1 := by
    rw [← List.countP_eq_length_filter]
    exact h.once
  have htin := List.mem_filter.2 ⟨ht, htof⟩
  have huin := List.mem_filter.2 ⟨hu, huof⟩
  cases hfilter : s.committed.filter (isOf conversationId client) with
  | nil => rw [hfilter] at htin; exact absurd htin List.not_mem_nil
  | cons x rest =>
    rw [hfilter, List.length_cons] at hlength
    rw [hfilter, List.eq_nil_of_length_eq_zero (by omega : rest.length = 0), List.mem_singleton] at htin huin
    exact htin.trans huin.symm

/-- **Conversation turns materialize exactly once.** In every interleaving, at most one turn is
committed for a conversation and a client id, and whatever a submission commits is one turn with its
task, its run and its work item; every answer is the one of that turn, to the payload it stores, and
at most one says that it was not there before. -/
theorem turn_materializes_once (cfg : AppConfig) {s : TurnState} (hs : (turnSystem cfg).Reachable s)
    (conversationId : ConversationId) (client : String) :
    s.committed.countP (isOf conversationId client) ≤ 1 ∧
    (∀ t, t ∈ s.db.conversationTurns.rows ↔ t ∈ s.committed) ∧
    (∀ a s', (turnSystem cfg).next s a s' → (∀ b, a ≠ .other b) →
      s'.db = s.db ∧ s'.committed = s.committed ∨
      ∃ turn, s'.committed = turn :: s.committed ∧ Materialized s.db turn s'.db) ∧
    (∀ p ∈ s.returned, p.1.isFor conversationId client = true → ∃ turn ∈ s.committed,
      isOf conversationId client turn = true ∧ p.2 = resultOf turn p.2.deduplicated) ∧
    s.returned.countP (fun p => p.1.isFor conversationId client && !p.2.deduplicated) ≤ 1 ∧
    (∀ p ∈ s.returned, ∀ turn ∈ s.committed, p.1.isFor conversationId client = true →
      isOf conversationId client turn = true → p.1.payload.canonical = turn.payload) := by
  have hinv : TurnsOnce conversationId client s := turnSystem_turnsOnce hs
  refine ⟨hinv.once, hinv.stored, ?_, ?_, hinv.first ▸ hinv.once, ?_⟩
  · intro a s' hnext hown
    cases turnSystem_step hnext with
    | other ha => exact absurd ha (hown _)
    | silent db committed | answered _ _ _ _ db committed => exact .inl ⟨db, committed⟩
    | created _ _ _ _ materialized committed => exact .inr ⟨_, committed, materialized⟩
  · intro p hp hfor
    obtain ⟨turn, hturn, hof, hresult, -⟩ := hinv.answers p hp hfor
    exact ⟨turn, hturn, hof, hresult⟩
  · intro p hp turn hturn hfor hof
    obtain ⟨answer, hanswer, hanswerOf, -, hpayload⟩ := hinv.answers p hp hfor
    rw [← hpayload, hinv.unique hanswer hturn hanswerOf hof]

/-- Two callers find no turn, both write, one of them loses and reads what the other wrote. -/
def sampleTurn (text : String) : SubmitConversationTurnCommand := ⟨1, text, ⟨"Hello", .typed, none⟩⟩

def sampleTurnState : TurnState := ⟨sampleAppDb, [], [], []⟩

def sampleTurnActions : List TurnAction :=
  [.other (.createConversation 1 0), .start (sampleTurn "turn") ⟨2, 3, 4⟩ 1,
    .start (sampleTurn " turn ") ⟨5, 6, 7⟩ 1, .commit 1, .commit 0, .recover 0]

def sampleTurnsDone : TurnState :=
  System.run (turnStep sampleAppConfig) sampleTurnState sampleTurnActions

theorem turn_materializes_once_twice :
    sampleTurnsDone.committed.countP (isOf 1 "turn") ≤ 1 ∧
      sampleTurnsDone.returned.map (·.2) = [⟨1, 4, 2, 3, true⟩, ⟨1, 4, 2, 3, false⟩] :=
  ⟨(turn_materializes_once sampleAppConfig (.steps (.of_init ⟨rfl, rfl, rfl, rfl⟩)
    (.run (by decide +kernel))) 1 "turn").1, by decide +kernel⟩

end Friday.App
