import FridayAssistant.Lib.Replay
import FridayAssistant.Runs.Moves
/-!
# What a committed use case writes down

The runs, their tasks, the delegation requests and the event streams are four records of the same
history. `Entry` says once how they change together: a run is saved with the events that tell it,
a task ends, a request is settled and its parent told. Every use case is a sequence of entries
(`Entries`), and what the records always say about each other is proved over the entries.

`fire` is the state machine of domain/run.py read off the event types; a transition of `Run`
always comes with the event that makes it there, except when a run becomes the root of a workflow
or ends with it: those runs are the set `R`. A task ends after its runs, unless `F` allows it to end
before. No approval resumes a run, unless `A` allows it.
-/
namespace Friday.Runs
open Tables PyJson Queue Replay

/-! ## The run's own events -/

/-- The types that tell a transition of the run itself. -/
def RunEventType.isLifecycle : RunEventType → Bool
  | .runCreated | .runStarted | .runWaitingForApproval | .runWaitingForDelegation | .runResumed | .runSucceeded
  | .runFailed | .runCancelled => true
  | _ => false

/-- `Run` (domain/run.py:106-205) as a machine on event types; `none` is a run that does not
exist. -/
def fire : Option RunStatus → RunEventType → Option (Option RunStatus)
  | none, .runCreated => some (some .queued)
  | some .queued, .runStarted => some (some .running)
  | some .running, .runWaitingForApproval => some (some .waitingForApproval)
  | some .running, .runWaitingForDelegation => some (some .waitingForDelegation)
  | some .waitingForApproval, .runResumed => some (some .running)
  | some .waitingForDelegation, .runResumed => some (some .running)
  | some .running, .runSucceeded => some (some .succeeded)
  | some .waitingForWorkflow, .runSucceeded => some (some .succeeded)
  | some .running, .runFailed => some (some .failed)
  | some .waitingForWorkflow, .runFailed => some (some .failed)
  | some s, .runCancelled => if s.isTerminal then none else some (some .cancelled)
  | _, _ => none

section
variable {r r' : Run} {now : Time}

/-- The same attempt goes where the event says. -/
def Told (r : Run) (e : RunEventType) (r' : Run) : Prop :=
  SameAttempt r r' ∧ fire (some r.status) e = some (some r'.status)

theorem start_told (h : r.start now = .ok r') : Told r .runStarted r' := by
  obtain ⟨hs, rfl⟩ := Run.start_eq_ok.1 h
  exact ⟨⟨rfl, rfl, rfl, rfl⟩, by rw [hs]; rfl⟩

theorem waitForApproval_told {a : ApprovalRequestId} (h : r.waitForApproval a = .ok r') :
    Told r .runWaitingForApproval r' := by
  obtain ⟨hs, -, rfl⟩ := Run.waitForApproval_eq_ok.1 h
  exact ⟨⟨rfl, rfl, rfl, rfl⟩, by rw [hs]; rfl⟩

theorem waitForDelegation_told {q : DelegationRequestId} (h : r.waitForDelegation q = .ok r') :
    Told r .runWaitingForDelegation r' := by
  obtain ⟨hs, -, rfl⟩ := Run.waitForDelegation_eq_ok.1 h
  exact ⟨⟨rfl, rfl, rfl, rfl⟩, by rw [hs]; rfl⟩

theorem resume_told (h : r.resume = .ok r') : Told r .runResumed r' := by
  obtain ⟨hs, rfl⟩ := Run.resume_eq_ok.1 h
  exact ⟨⟨rfl, rfl, rfl, rfl⟩, by rcases hs with hs | hs <;> rw [hs] <;> rfl⟩

theorem succeed_told (h : r.succeed now = .ok r') : Told r .runSucceeded r' := by
  obtain ⟨hs, -, rfl⟩ := Run.succeed_eq_ok.1 h
  exact ⟨⟨rfl, rfl, rfl, rfl⟩, by rcases hs with hs | hs <;> rw [hs] <;> rfl⟩

theorem fail_told {failure : Failure} (h : r.fail now failure = .ok r') : Told r .runFailed r' := by
  obtain ⟨hs, -, rfl⟩ := Run.fail_eq_ok.1 h
  exact ⟨⟨rfl, rfl, rfl, rfl⟩, by rcases hs with hs | hs <;> rw [hs] <;> rfl⟩

theorem cancel_told (h : r.cancel now = .ok r') : Told r .runCancelled r' := by
  obtain ⟨hs, -, rfl⟩ := Run.cancel_eq_ok.1 h
  refine ⟨⟨rfl, rfl, rfl, rfl⟩, ?_⟩
  cases hstatus : r.status <;> rw [hstatus] at hs <;> first | rfl | cases hs

/-- A terminal run allows nothing. -/
theorem fire_terminal {s : RunStatus} (h : s.isTerminal = true) (e : RunEventType) :
    fire (some s) e = none := by
  cases s <;> first | exact absurd h Bool.false_ne_true | (cases e <;> rfl)

theorem Told.live {e : RunEventType} (h : Told r e r') : r.status.isTerminal = false := by
  cases hs : r.status.isTerminal with
  | false => rfl
  | true => exact absurd (h.2.symm.trans (fire_terminal hs e)) nofun

end

/-! ## Logs -/

/-- The lifecycle events among those of one append. -/
def marks (specs : List EventSpec) : List RunEventType :=
  (specs.map (·.type)).filter (·.isLifecycle)

@[simp] theorem marks_nil : marks [] = [] := rfl

@[simp] theorem marks_append (specs specs' : List EventSpec) :
    marks (specs ++ specs') = marks specs ++ marks specs' := by
  simp [marks]

theorem marks_cons (spec : EventSpec) (specs : List EventSpec) :
    marks (spec :: specs) = if spec.type.isLifecycle then spec.type :: marks specs else marks specs := by
  simp [marks, List.filter_cons]

/-- `append_run_events` as it acts on the streams. -/
def appendEvents (events : List RunEvent) (runId : RunId) (now : Time) (specs : List EventSpec) :
    List RunEvent :=
  events ++ numbered runId now (events.countP (·.runId = runId) + 1) specs

/-- The lifecycle events of a run, in the order they were appended. -/
def lifecycleLog (events : List RunEvent) (runId : RunId) : List RunEventType :=
  ((events.filter (·.runId = runId)).map (·.type)).filter (·.isLifecycle)

theorem numbered_runId {runId : RunId} {now : Time} : ∀ {start : Nat} {specs : List EventSpec} {e : RunEvent},
    e ∈ numbered runId now start specs → e.runId = runId
  | _, [], _, h => by cases h
  | start, spec :: specs, e, h => by
    rcases List.mem_cons.1 h with rfl | h
    · rfl
    · exact numbered_runId h

theorem numbered_types {runId : RunId} {now : Time} : ∀ (start : Nat) (specs : List EventSpec),
    (numbered runId now start specs).map (·.type) = specs.map (·.type)
  | _, [] => rfl
  | start, spec :: specs => by rw [numbered, List.map_cons, numbered_types, List.map_cons]

theorem lifecycleLog_append (events : List RunEvent) (k runId : RunId) (now : Time)
    (specs : List EventSpec) : lifecycleLog (appendEvents events runId now specs) k =
      lifecycleLog events k ++ if runId = k then marks specs else [] := by
  simp only [lifecycleLog, appendEvents, List.filter_append, List.map_append]
  congr 1
  split
  · next hk =>
    rw [List.filter_eq_self.2 fun e he => decide_eq_true ((numbered_runId he).trans hk), numbered_types]
    rfl
  · next hk =>
    rw [List.filter_eq_nil_iff.2 fun e he h => hk ((numbered_runId he).symm.trans (of_decide_eq_true h))]
    rfl

/-! ## The journal -/

structure Journal where
  runs : RunTable
  tasks : Tasks
  requests : DelegationRequests
  events : List RunEvent

def Db.journal (db : Db) : Journal := ⟨db.runs, db.tasks, db.delegationRequests, db.events⟩

namespace Journal

def withRun (j : Journal) (r : Run) : Journal := { j with runs := j.runs.put r }

def withTask (j : Journal) (t : Task) : Journal := { j with tasks := j.tasks.put t }

def withRequest (j : Journal) (q : DelegationRequest) : Journal :=
  { j with requests := j.requests.put q }

def append (j : Journal) (runId : RunId) (now : Time) (specs : List EventSpec) : Journal :=
  { j with events := appendEvents j.events runId now specs }

/-- Where a run stands, if it exists. -/
def status (j : Journal) (k : RunId) : Option RunStatus := (j.runs.get? k).map (·.status)

def log (j : Journal) (k : RunId) : List RunEventType := lifecycleLog j.events k

theorem status_withRun (j : Journal) (r : Run) (k : RunId) :
    (j.withRun r).status k = if r.id = k then some r.status else j.status k := by
  unfold status withRun
  rw [Table.get?_put, key_run]
  split <;> rfl

@[simp] theorem status_append (j : Journal) (runId k : RunId) (now : Time)
    (specs : List EventSpec) : (j.append runId now specs).status k = j.status k := rfl

@[simp] theorem log_withRun (j : Journal) (r : Run) (k : RunId) : (j.withRun r).log k = j.log k :=
  rfl

theorem log_append (j : Journal) (runId k : RunId) (now : Time) (specs : List EventSpec) :
    (j.append runId now specs).log k = j.log k ++ if runId = k then marks specs else [] :=
  lifecycleLog_append j.events k runId now specs

end Journal

/-- What a parent is told when its delegation is settled. -/
def settledSpecs (q : DelegationRequest) (parentId : RunId) (spec : EventSpec) : List EventSpec :=
  [spec, ⟨.runResumed, textPayload [("run_id", Uuid.text parentId),
    ("delegation_request_id", Uuid.text q.id)], none⟩]

theorem marks_settledSpecs {q : DelegationRequest} {parentId : RunId} {spec : EventSpec}
    (h : spec.type.isLifecycle = false) : marks (settledSpecs q parentId spec) = [.runResumed] := by
  rw [settledSpecs, marks_cons, if_neg (by rw [h]; exact Bool.false_ne_true)]
  rfl

/-- Not a resumption by a delegation. -/
def isPlain (spec : EventSpec) : Bool :=
  spec.type ≠ .runResumed || (spec.payload.get? "delegation_request_id").isNone

/-- One change of the journal. -/
inductive Entry (R : RunId → Prop) (F A : Prop) : Journal → Journal → Prop where
  /-- Events about something else. -/
  | note {j : Journal} {runId : RunId} {now : Time} {specs : List EventSpec} (silent : marks specs = []) :
      Entry R F A j (j.append runId now specs)
  /-- A first attempt of an ACTIVE task. -/
  | create {j : Journal} {r : Run} {t : Task} {now : Time} {specs : List EventSpec} (fresh : j.runs.get? r.id = none)
      (queued : r.status = .queued) (root : r.executionId = r.id)
      (task : j.tasks.get? r.taskId = some t) (active : t.status = .active)
      (told : marks specs = [.runCreated]) : Entry R F A j ((j.withRun r).append r.id now specs)
  /-- `RetryFailedRun`. -/
  | retry {j : Journal} {source r : Run} {t : Task} {now : Time} {specs : List EventSpec}
      (hsource : j.runs.get? source.id = some source) (fresh : j.runs.get? r.id = none)
      (queued : r.status = .queued) (sameTask : r.taskId = source.taskId)
      (execution : r.executionId = source.executionId)
      (notDelegated : j.requests.getForChildExecution j.runs source.executionId = none)
      (task : j.tasks.get? r.taskId = some t) (active : t.status = .active)
      (told : marks specs = [.runCreated]) : Entry R F A j ((j.withRun r).append r.id now specs)
  /-- A transition of a run, told by its event. -/
  | save {j : Journal} {r r' : Run} {now : Time} {specs : List EventSpec} (hr : j.runs.get? r.id = some r)
      (same : SameAttempt r r') (told : replay fire (some r.status) (marks specs) = some (some r'.status))
      (plain : specs.all isPlain = true) (quiet : .runResumed ∉ marks specs ∨ A) :
      Entry R F A j ((j.withRun r').append r.id now specs)
  /-- A failure with the next attempt. -/
  | failRetry {j : Journal} {r r' n : Run} {now now' : Time} {specs specs' : List EventSpec}
      (hr : j.runs.get? r.id = some r) (live : r.status.isTerminal = false)
      (same : SameAttempt r r') (failed : r'.status = .failed)
      (told : replay fire (some r.status) (marks specs) = some (some r'.status)) (plain : specs.all isPlain = true)
      (quiet : .runResumed ∉ marks specs) (fresh : j.runs.get? n.id = none) (queued : n.status = .queued) (sameTask : n.taskId = r.taskId)
      (execution : n.executionId = r.executionId) (told' : marks specs' = [.runCreated]) :
      Entry R F A j ((((j.withRun r').append r.id now specs).withRun n).append n.id now' specs')
  /-- A run that owns a workflow waits for it or ends with it. -/
  | root {j : Journal} {r r' : Run} (hr : j.runs.get? r.id = some r) (same : SameAttempt r r') (owner : R r.id)
      (live : r.status.isTerminal = false) : Entry R F A j (j.withRun r')
  | newTask {j : Journal} {t : Task} (fresh : j.tasks.get? t.id = none) (pending : t.status = .pending) :
      Entry R F A j (j.withTask t)
  /-- A transition of a task, which ends only after its runs, unless `F`. -/
  | task {j : Journal} {t u : Task} (ht : j.tasks.get? t.id = some t) (id : u.id = t.id)
      (live : t.status.isTerminal = false)
      (ended : u.status.isTerminal = true → F ∨
        ∀ r ∈ j.runs.rows, r.taskId = t.id → r.status.isTerminal = true) : Entry R F A j (j.withTask u)
  | request {j : Journal} {q : DelegationRequest} (fresh : j.requests.get? q.id = none) : Entry R F A j (j.withRequest q)
  /-- A request is settled by the end of the latest attempt. -/
  | settle {j : Journal} {e : RunId} {q : DelegationRequest} {l : Run}
      {outcome : DelegationStatus × RunEventType × Option String} {now : Time}
      (hq : j.requests.getForChildExecution j.runs e = some q) (dispatched : q.status = .dispatched)
      (latest : j.runs.getLatestForExecution e = some l) (ended : settlement l = some outcome) :
      Entry R F A j (j.withRequest (Core.finalized q outcome now))
  /-- It is settled and the parent, which waits for it, goes on. -/
  | wake {j : Journal} {e : RunId} {q : DelegationRequest} {l p p' : Run}
      {outcome : DelegationStatus × RunEventType × Option String} {spec : EventSpec} {now : Time}
      (hq : j.requests.getForChildExecution j.runs e = some q) (dispatched : q.status = .dispatched)
      (latest : j.runs.getLatestForExecution e = some l) (ended : settlement l = some outcome)
      (hp : j.runs.get? p.id = some p) (parent : q.parentRunId = p.id) (waiting : p.status = .waitingForDelegation)
      (same : SameAttempt p p') (running : p'.status = .running) (silent : spec.type.isLifecycle = false) :
      Entry R F A j (((j.withRequest (Core.finalized q outcome now)).withRun p').append p.id now (settledSpecs q p.id spec))

/-- Any number of entries. -/
abbrev Entries (R : RunId → Prop) (F A : Prop) : Journal → Journal → Prop :=
  Relation.ReflTransGen (Entry R F A)

theorem Entries.of_eq {R : RunId → Prop} {F A : Prop} {j j' : Journal} (h : j' = j) :
    Entries R F A j j' := h ▸ .refl

/-! ## What the log says -/

section
variable {R : RunId → Prop} {F A : Prop} {j j' : Journal} {k : RunId}

/-- The log of the run replays to where the run stands. -/
def Journal.Replays (j : Journal) (k : RunId) : Prop :=
  replay fire none (j.log k) = some (j.status k)

theorem Replays.told {runId : RunId} {now : Time} {specs : List EventSpec} {r : Run}
    (h : j.Replays k) (hid : r.id = runId) (hlegal : runId = k → replay fire (j.status k)
      (marks specs) = some (some r.status)) :
    ((j.withRun r).append runId now specs).Replays k := by
  unfold Journal.Replays at *
  rw [Journal.log_append, Journal.status_append, Journal.status_withRun, Journal.log_withRun,
    replay_append, h, Option.bind_some, hid]
  split
  · next hk => exact hlegal hk
  · rfl

theorem status_of_get? {r : Run} (h : j.runs.get? k = some r) : j.status k = some r.status := by
  rw [Journal.status, h]; rfl

theorem status_of_fresh (h : j.runs.get? k = none) : j.status k = none := by
    rw [Journal.status, h]; rfl

theorem Entry.replays (hk : ¬R k) (h : j.Replays k) (he : Entry R F A j j') : j'.Replays k := by
  cases he with
  | note silent =>
    unfold Journal.Replays at *
    rw [Journal.log_append, Journal.status_append, silent, ite_self, List.append_nil]
    exact h
  | create fresh queued _ _ _ told | retry _ fresh queued _ _ _ _ _ told =>
    refine Replays.told h rfl fun hid => ?_
    rw [← hid, status_of_fresh fresh, told, queued]; rfl
  | save hr same told _ _ =>
    refine Replays.told h same.id fun hid => ?_
    rw [← hid, status_of_get? hr]
    exact told
  | @failRetry r r' n now now' specs specs' hr _ same _ told _ _ fresh queued _ _ told' =>
    have hne : r'.id ≠ n.id := Table.ne_of_fresh (same.id ▸ hr) fresh
    have hfirst : ((j.withRun r').append r.id now specs).Replays k := by
      refine Replays.told h same.id fun hid => ?_
      rw [← hid, status_of_get? hr]
      exact told
    refine Replays.told hfirst rfl fun hid => ?_
    rw [Journal.status_append, Journal.status_withRun, ← hid, if_neg hne, status_of_fresh fresh, told', queued]
    rfl
  | @root r r' hr same owner _ =>
    unfold Journal.Replays at *
    have hne : r'.id ≠ k := fun e => hk (e ▸ same.id ▸ owner)
    rw [Journal.status_withRun, if_neg hne]
    exact h
  | newTask | task | request | settle => exact h
  | @wake e q l p p' outcome spec now hq _ _ _ hp _ waiting same running silent =>
    have hsettled : (j.withRequest (Core.finalized q outcome now)).Replays k := h
    refine Replays.told hsettled same.id fun hid => ?_
    have hs : (j.withRequest (Core.finalized q outcome now)).status k = some p.status := by
      rw [← hid]; exact status_of_get? hp
    rw [hs, marks_settledSpecs silent, waiting, running]; rfl

theorem Entries.replays (hk : ¬R k) (h : j.Replays k) (he : Entries R F A j j') : j'.Replays k := by
  induction he with
  | refl => exact h
  | tail _ hstep ih => exact hstep.replays hk ih

end

end Friday.Runs
