import FridayAssistant.Runs.NoLostWork
/-!
# The event log replays to the run's status

The stream of a run, read `ORDER BY sequence`, is fed to the state machine of the run. Every
committed use case is a sequence of entries and every entry keeps log and status together, so the
log replays to the stored status of every run that no workflow execution names as its root.
-/
namespace Friday.Runs
open Tables Transition PyJson Queue Replay

/-! ## Streams are numbered from 1 -/

/-- `SELECT … WHERE run_id = ? ORDER BY sequence`. -/
def streamOf (events : List RunEvent) (k : RunId) : List RunEvent :=
  (events.filter (·.runId = k)).insertionSort (·.sequence ≤ ·.sequence)

/-- The run's own events in the order of the stream. -/
def Db.lifecycleEvents (db : Db) (k : RunId) : List RunEventType :=
  ((streamOf db.events k).map (·.type)).filter (·.isLifecycle)

/-- In the order in which they were appended the events of every run are 1, 2, 3, … -/
def InSequence (events : List RunEvent) : Prop :=
  ∀ k, (events.filter (·.runId = k)).map (·.sequence) = List.range' 1
    (events.filter (·.runId = k)).length

theorem numbered_sequences {runId : RunId} {now : Time} : ∀ (start : Nat) (specs : List EventSpec),
    (numbered runId now start specs).map (·.sequence) = List.range' start (numbered runId now start specs).length
  | _, [] => rfl
  | start, _ :: specs => by
    rw [numbered, List.map_cons, numbered_sequences (start + 1) specs, List.length_cons, List.range'_succ]

theorem InSequence.append {events : List RunEvent} (h : InSequence events) (runId : RunId)
    (now : Time) (specs : List EventSpec) : InSequence (appendEvents events runId now specs) := by
  intro k
  rw [appendEvents, List.filter_append, List.map_append, List.length_append, h k]
  by_cases hk : runId = k
  · rw [List.filter_eq_self.2 fun e he => decide_eq_true ((numbered_runId he).trans hk),
      numbered_sequences, List.countP_eq_length_filter, hk, ← List.range'_append_1, Nat.add_comm 1]
  · rw [List.filter_eq_nil_iff.2 fun e he h => hk ((numbered_runId he).symm.trans (of_decide_eq_true h))]
    simp

theorem streamOf_eq {events : List RunEvent} (h : InSequence events) (k : RunId) :
    streamOf events k = events.filter (·.runId = k) := by
  have hsorted : ((events.filter (·.runId = k)).map (·.sequence)).Pairwise (· ≤ ·) := by
    rw [h k]
    exact List.pairwise_le_range' 1
  exact (List.pairwise_map.1 hsorted).insertionSort_eq

variable {db : Db}

theorem Entry.inSequence {R : RunId → Prop} {F A : Prop} {j j' : Journal} (h : InSequence j.events)
    (he : Entry R F A j j') : InSequence j'.events := by
  cases he with
  | failRetry => exact (h.append _ _ _).append _ _ _
  | root | newTask | task | request | settle => exact h
  | _ => exact h.append _ _ _

/-! ## Every reachable state -/

/-- The committed use cases, from a database without runs and events. -/
def eventSystem (cfg : Config) : System Db RunAction :=
  .ofStep (fun db => db.toCore = .empty ∧ db.events = []) (commit cfg) tellsElsewhere

structure Logged (db : Db) : Prop where
  numbered : InSequence db.events
  replays : ∀ k, ¬db.Roots k → db.journal.Replays k

theorem Entries.inSequence {R : RunId → Prop} {F A : Prop} {j j' : Journal}
    (h : InSequence j.events) (he : Entries R F A j j') : InSequence j'.events := by
  induction he with
  | refl => exact h
  | tail _ hstep ih => exact hstep.inSequence ih

theorem Logged.act {cfg : Config} {db' : Db} {a : RunAction} (h : Logged db)
    (htells : tellsElsewhere db a) (hact : act cfg db a = .ok db') : Logged db' := by
  have hentries := act_entries (F := True) (A := True) htells (fun _ _ _ _ => .inl trivial)
    (fun _ => trivial) hact
  have hmoves : Moves .free db.toCore db'.toCore :=
    act_moves (allowed_free db a) (fun _ _ _ => trivial) hact
  exact ⟨Entries.inSequence h.numbered hentries, fun k hk =>
    Entries.replays hk (h.replays k fun hroot => hk (Moves.roots hroot hmoves)) hentries⟩

theorem logged_reachable {cfg : Config} (h : (eventSystem cfg).Reachable db) : Logged db := by
  refine System.Reachable.invariant Logged (fun db hinit => ?_) (fun db a db' _ hI hnext => ?_) h
  · obtain ⟨hcore, hevents⟩ := hinit
    refine ⟨by rw [hevents]; exact fun _ => rfl, fun k _ => ?_⟩
    have hlog : db.journal.log k = [] := by rw [Journal.log, Db.journal, hevents]; rfl
    have hstatus : db.journal.status k = none := by rw [Journal.status, Db.journal, hcore]; rfl
    rw [Journal.Replays, hlog, hstatus]
    rfl
  · exact hI.act hnext.2 (toOption_eq_some.1 hnext.1)

/-! ## What the machine says about a log -/

/-- SUCCEEDED, FAILED or CANCELLED. -/
def RunEventType.isTerminal : RunEventType → Bool
  | .runSucceeded | .runFailed | .runCancelled => true
  | _ => false

/-- Created and no longer QUEUED. -/
def begun : Option RunStatus → Prop
  | none | some .queued => False
  | _ => True

theorem begun_fire {s s' : Option RunStatus} {e : RunEventType} (hs : begun s)
    (h : fire s e = some s') : begun s' := by
  rcases s with _ | s
  · exact absurd hs id
  · cases s <;> first
      | exact absurd hs id
      | (cases e <;> first | (cases h; trivial) | cases h)

theorem terminal_stuck {e : RunEventType} (he : e.isTerminal = true) (s s' : Option RunStatus)
    (h : fire s e = some s') (e' : RunEventType) : fire s' e' = none := by
  have hterminal : ∃ t : RunStatus, s' = some t ∧ t.isTerminal = true := by
    rcases s with _ | s
    · cases e <;> first | (cases he; done) | cases h
    · cases s <;> cases e <;> first | (cases he; done) | (cases h; done) | (cases h; exact ⟨_, rfl, rfl⟩)
  obtain ⟨t, rfl, ht⟩ := hterminal
  exact fire_terminal ht e'

theorem started_once {s : Option RunStatus} {log : List RunEventType}
    (h : replay fire none log = some s) : log.count .runStarted ≤ 1 := by
  refine count_le_one begun (fun _ _ _ => begun_fire) (fun s s' hs h => ?_) (fun s s' h => ?_) h
  · rcases s with _ | s
    · exact hs
    · cases s <;> first | exact hs | cases h
  · rcases s with _ | s
    · cases h
    · cases s <;> first | (cases h; done) | (cases h; trivial)

/-- **The event log replays to the run's status.** In every state the committed use cases can
reach, the run events of a run that is not the root of a workflow make only legal transitions and
end in the stored status; RUN_STARTED is among them at most once, and a terminal event is the
last. -/
theorem event_log_replays (cfg : Config) (db : Db) (h : (eventSystem cfg).Reachable db) (r : Run)
    (hr : r ∈ db.runs.rows) (hroot : ∀ x ∈ db.workflowExecutions.rows, x.rootRunId ≠ r.id) :
    replay fire none (db.lifecycleEvents r.id) = some (some r.status) ∧
    (db.lifecycleEvents r.id).count .runStarted ≤ 1 ∧
    ∀ front back e, db.lifecycleEvents r.id = front ++ e :: back → e.isTerminal = true → back = [] := by
  have hlogged := logged_reachable h
  have hreplay : replay fire none (db.lifecycleEvents r.id) = some (some r.status) := by
    have hnot : ¬db.Roots r.id := fun ⟨x, hx, hxr⟩ => hroot x hx hxr
    have hlog : replay fire none (lifecycleLog db.events r.id) = some (db.journal.status r.id) := hlogged.replays r.id hnot
    have hstatus : db.journal.status r.id = some r.status := status_of_get? (Table.mem_rows.1 hr)
    rw [Db.lifecycleEvents, streamOf_eq hlogged.numbered]
    exact hlog.trans (by rw [hstatus])
  refine ⟨hreplay, started_once hreplay, fun front back e he hterminal => ?_⟩
  rw [he] at hreplay
  exact replay_last hreplay (terminal_stuck hterminal)

theorem tellsElsewhere_of_spelledOut {a : RunAction} (h : a.isSpelledOut = true) :
    tellsElsewhere db a := by
  cases a <;> first | exact trivial | cases h

/-- A run is claimed, loses its lease, is claimed again, waits for an approval that is rejected and
is cancelled. -/
def loggedActions : List RunAction :=
  [.createTask 1 "title" "" 0, .startRun 1 2 1, .claimNextRun sampleClaim 2,
    .recoverExpiredLeases 10 200, .claimNextRun sampleClaim 201,
    .requestApproval ⟨2, .other, "summary", "", "action", .null, none, none, none⟩ 10 202,
    .rejectRequest 10 "owner" none 203, .cancelRun 2 204]

def loggedState : Db := System.run (commit sampleConfig) sampleDb loggedActions

theorem event_log_replays_reclaimed :
    loggedState.lifecycleEvents 2 = [.runCreated, .runStarted, .runWaitingForApproval, .runResumed, .runCancelled] ∧
    replay fire none (loggedState.lifecycleEvents 2) = some (some .cancelled) := by
  have hlegal : System.Legal (commit sampleConfig) (fun _ a => a.isSpelledOut = true) sampleDb loggedActions := by
    decide +kernel
  have hinit : (eventSystem sampleConfig).init sampleDb := ⟨rfl, rfl⟩
  have hreach : (eventSystem sampleConfig).Reachable loggedState :=
    .steps (.of_init hinit) (.run (hlegal.mono fun _ _ _ => tellsElsewhere_of_spelledOut))
  have hrun : (loggedState.runs.get? 2).map (·.status) = some .cancelled := by decide +kernel
  obtain ⟨r, hr, hs⟩ := Option.map_eq_some_iff.1 hrun
  have hid : r.id = 2 := Table.key_of_get? hr
  have hroots : loggedState.workflowExecutions.rows = [] := by decide +kernel
  have hlog := (event_log_replays sampleConfig loggedState hreach r (Table.mem_of_get? hr)
    (by rw [hroots]; nofun)).1
  rw [hid, hs] at hlog
  exact ⟨by decide +kernel, hlog⟩

end Friday.Runs
