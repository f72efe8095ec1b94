import Mathlib
import FridayAssistant.Runs.EventStream
/-!
# The event stream of the SDK (packages/sdk-ts/src/resources/events.ts)

An `EventSource` calls the listeners of the type of an event, and keeps its id whether there are any
or not. When the connection is lost it connects again with this id, and what had not arrived is lost
with the connection.
-/
namespace Friday.Web
open Runs Transition

/-- The types with a listener, and those `validateRunEvent` accepts. -/
def eventTypes : List RunEventType :=
  [.runCreated, .runStarted, .runWaitingForApproval, .runWaitingForDelegation, .runResumed,
    .runSucceeded, .runFailed, .runCancelled, .stepCreated, .stepStarted, .stepSucceeded,
    .stepFailed, .stepSkipped, .stepCancelled, .approvalRequested, .approvalResolved,
    .toolInvocationRequested, .toolInvocationStarted, .toolInvocationSucceeded,
    .toolInvocationFailed, .toolInvocationCancelled, .artifactCreated, .agentFinished,
    .delegationDispatched, .delegationSucceeded, .delegationFailed, .delegationCancelled,
    .memoryContextAttached, .memoryRetrievalDegraded, .memoryWriteRequested, .memoryWriteCommitted,
    .memoryWriteConflicted, .memoryIndexMarkedStale]

structure ClientState where
  server : EventState
  lastEventId : Option String
  /-- How many events of this connection have arrived. -/
  arrived : Nat
  /-- What `onEvent` was called with. -/
  received : List RunEvent

def ClientState.history (s : ClientState) (runId : RunId) : List RunEvent :=
  s.server.stored.events.filter (·.runId = runId)

/-- A new connection. -/
def ClientState.over (s : ClientState) (st : RunEventStream) : ClientState :=
  { s with server := { s.server with stream := some st }, arrived := 0 }

inductive ClientAction where
  | server (a : EventAction)
  | connect
  | arrive

def clientStep (int : String → Option Int) (runId : RunId) (s : ClientState) : ClientAction →
    Option ClientState
  | .server (.connect ..) => none
  | .server a => (eventStep int s.server a).map fun server => { s with server }
  | .connect =>
    (eventStep int s.server (.connect runId s.lastEventId)).map fun server => { s with server, arrived := 0 }
  | .arrive =>
    (s.server.stream.bind (·.emitted[s.arrived]?)).map fun e =>
      { s with lastEventId := some (toString e.sequence), arrived := s.arrived + 1,
               received := s.received ++ [e].filter (·.type ∈ eventTypes) }

def clientSystem (int : String → Option Int) (runId : RunId) : System ClientState ClientAction :=
  .ofStep (fun s => s = ⟨⟨⟨.empty, []⟩, none, none⟩, none, 0, []⟩) (clientStep int runId) fun _ _ =>
    True

/-- So often connect again and wait for one event. -/
def reconnects (n : Nat) : List ClientAction :=
  (List.replicate n [.connect, .server .poll, .server .yield, .arrive]).flatten

/-- The first `n` events have arrived. -/
structure ClientState.Follows (int : String → Option Int) (runId : RunId) (s : ClientState)
    (n : Nat) : Prop where
  good : s.server.Good
  le : n ≤ (s.history runId).length
  lastEventId : parseLastEventId int s.lastEventId = some n
  stream : ∀ st, s.server.stream = some st → st.runId = runId ∧ st.start + s.arrived = n
  received : s.received = ((s.history runId).take n).filter (·.type ∈ eventTypes)

theorem eventStep_stream {int : String → Option Int} {s s' : EventState} {a : EventAction}
    (h : eventStep int s a = some s') (ha : ∀ runId id, a ≠ .connect runId id) :
    s'.stream.map (fun st => (st.runId, st.start)) = s.stream.map fun st => (st.runId, st.start) := by
  cases a <;> grind [eventStep, RunEventStream.poll, RunEventStream.yield]

section
variable {int : String → Option Int} {runId : RunId} {s s' : ClientState} {n : Nat}

namespace ClientState.Follows

theorem server (h : s.Follows int runId n) {a : EventAction}
    (hstep : clientStep int runId s (.server a) = some s') : s'.Follows int runId n := by
  have ha : ∀ k id, a ≠ .connect k id := by
    rintro k id rfl
    cases hstep
  obtain ⟨server, hserver, rfl⟩ : ∃ server, eventStep int s.server a = some server ∧ { s with server } = s' := by
    cases a <;> first | cases hstep | exact Option.map_eq_some_iff.1 hstep
  have hnext : (streamSystem int).next s.server a server := ⟨hserver, trivial⟩
  obtain ⟨hgood, hext⟩ := streamSystem_step h.good hnext
  obtain ⟨more, hmore⟩ := hext.filter (·.runId = runId)
  have hhistory : ({ s with server } : ClientState).history runId = s.history runId ++ more :=
    hmore.symm
  refine ⟨hgood, ?_, h.lastEventId, fun st hst => ?_, ?_⟩
  · rw [hhistory, List.length_append]
    exact h.le.trans (Nat.le_add_right _ _)
  · have hsame := eventStep_stream hserver ha
    rw [hst, Option.map_some, eq_comm, Option.map_eq_some_iff] at hsame
    obtain ⟨st₀, hst₀, heq⟩ := hsame
    obtain ⟨hrun, hstart⟩ := Prod.mk.inj heq
    rw [← hrun, ← hstart]
    exact h.stream st₀ hst₀
  · rw [hhistory, List.take_append_of_le_length h.le]
    exact h.received

theorem connect (h : s.Follows int runId n) :
    clientStep int runId s .connect = some (s.over ⟨runId, n, n, [], []⟩) ∧
      (s.over ⟨runId, n, n, [], []⟩).Follows int runId n := by
  refine ⟨by rw [clientStep, eventStep, h.lastEventId]; rfl,
    ⟨h.good.counted, h.good.writer, ?_⟩, h.le, h.lastEventId, ?_, h.received⟩
  · rintro st ⟨⟩
    exact ⟨rfl, List.nil_prefix⟩
  · rintro st ⟨⟩
    exact ⟨rfl, rfl⟩

variable (hint : ∀ k : Nat, int (toString k) = some ↑k)
include hint

theorem arrive (h : s.Follows int runId n)
    (hstep : clientStep int runId s .arrive = some s') : s'.Follows int runId (n + 1) := by
  obtain ⟨e, harrives, rfl⟩ := Option.map_eq_some_iff.1 hstep
  obtain ⟨st, hst, he⟩ := Option.bind_eq_some_iff.1 harrives
  obtain ⟨hrun, hn⟩ := h.stream st hst
  obtain ⟨later, hlater⟩ := (h.good.stream st hst).next
  -- it is the next one of the history
  have hget : (s.history runId)[n]? = some e := by
    rw [hrun] at hlater
    rw [← hn, ← List.getElem?_drop, ClientState.history, ← hlater, List.append_assoc]
    exact List.getElem?_append_left (List.getElem?_eq_some_iff.1 he).1 ▸ he
  obtain ⟨hlt, -⟩ := List.getElem?_eq_some_iff.1 hget
  have hsequence : e.sequence = n + 1 := by
    have hnumber : ((s.history runId).map (·.sequence))[n]? = (List.range' 1 (s.history runId).length)[n]? :=
      congrArg (·[n]?) (h.good.counted.sequence runId)
    rw [List.getElem?_map, hget, List.getElem?_range' hlt] at hnumber
    exact (Option.some.inj hnumber).trans (by rw [Nat.one_mul, Nat.add_comm])
  refine ⟨h.good, hlt, ?_, fun st' hst' => ?_, ?_⟩
  · rw [hsequence, parseLastEventId, hint, Option.bind_some, if_neg (by omega), Int.toNat_natCast]
  · exact ⟨(h.stream st' hst').1, by rw [← Nat.add_assoc, (h.stream st' hst').2]⟩
  · show s.received ++ _ = ((s.history runId).take (n + 1)).filter _
    rw [List.take_add_one, hget, List.filter_append, h.received]
    rfl

/-- Who connects again gets the next event. -/
theorem round (h : s.Follows int runId n) :
    ∃ n', let s' := System.run (clientStep int runId) s [.connect, .server .poll, .server .yield, .arrive]
      s'.Follows int runId n' ∧ s'.history runId = s.history runId ∧ min (n + 1) (s.history runId).length ≤ n' := by
  obtain ⟨hconnect, h₁⟩ := h.connect
  have hpoll : clientStep int runId (s.over ⟨runId, n, n, [], []⟩) (.server .poll) =
      some (s.over ⟨runId, n, n, listAfterSequence s.server.stored.events runId n 100, []⟩) := rfl
  have h₂ := h₁.server hpoll
  rw [listAfterSequence_eq h.good.counted.sequence, ← ClientState.history] at hpoll h₂
  simp only [System.run, hconnect, hpoll, Option.getD_some]
  cases hnext : (s.history runId).drop n with
  | nil =>
    rw [hnext] at h₂
    have hlength := List.drop_eq_nil_iff.1 hnext
    exact ⟨n, h₂, rfl, (Nat.min_le_right _ _).trans hlength⟩
  | cons e rest =>
    rw [hnext] at h₂
    have hyield : clientStep int runId (s.over ⟨runId, n, n, (e :: rest).take 100, []⟩)
        (.server .yield) = some (s.over ⟨runId, n, n + 1, rest.take 99, [e]⟩) :=
      congrArg (some <| s.over ·) ((h₂.good.stream _ rfl).yield_eq h.good.counted.sequence rfl)
    rw [hyield]
    exact ⟨n + 1, (h₂.server hyield).arrive hint rfl, rfl, Nat.min_le_left _ _⟩

theorem run_reconnects : ∀ (k : Nat) {s : ClientState} {n : Nat},
    s.Follows int runId n → ∃ n', let s' := System.run (clientStep int runId) s (reconnects k)
      s'.Follows int runId n' ∧ s'.history runId = s.history runId ∧ min (n + k) (s.history runId).length ≤ n'
  | 0, _, n, h => ⟨n, h, rfl, Nat.min_le_left _ _⟩
  | k + 1, s, n, h => by
    obtain ⟨n₁, h₁, hhistory₁, hmin₁⟩ := h.round hint
    obtain ⟨n₂, h₂, hhistory₂, hmin₂⟩ := run_reconnects k h₁
    rw [hhistory₁] at hmin₂
    exact ⟨n₂, h₂, hhistory₂.trans hhistory₁, by omega⟩

end ClientState.Follows

theorem follows_of_reachable (hint : ∀ k : Nat, int (toString k) = some ↑k)
    (hs : (clientSystem int runId).Reachable s) : ∃ n, s.Follows int runId n := by
  refine hs.invariant (fun s => ∃ n, s.Follows int runId n) ?_ ?_
  · rintro s rfl
    exact ⟨0, ⟨⟨fun _ => rfl, fun _ => rfl⟩, nofun, nofun⟩, Nat.zero_le _, rfl, nofun, rfl⟩
  · rintro s a s' - ⟨n, h⟩ ⟨hstep, -⟩
    cases a with
    | server a => exact ⟨n, h.server hstep⟩
    | connect =>
      rw [h.connect.1] at hstep
      exact ⟨n, Option.some.inj hstep ▸ h.connect.2⟩
    | arrive => exact ⟨n + 1, h.arrive hint hstep⟩

/-- **The SDK stream delivers the whole history exactly when every event has a listener.** In every
state, what was received is the beginning of the history and the rest comes with the next
connections. -/
theorem run_event_stream_delivers_iff (hint : ∀ k : Nat, int (toString k) = some ↑k)
    (hs : (clientSystem int runId).Reachable s) :
    (s.received <+: s.history runId ∧
      (System.run (clientStep int runId) s (reconnects (s.history runId).length)).received = s.history runId) ↔
    ∀ e ∈ s.history runId, e.type ∈ eventTypes := by
  obtain ⟨n, h⟩ := follows_of_reachable hint hs
  obtain ⟨n', h', hhistory, hmin⟩ := h.run_reconnects hint (s.history runId).length
  rw [h'.received, hhistory, List.take_of_length_le (by omega), List.filter_eq_self, h.received]
  simp only [decide_eq_true_eq, and_iff_right_iff_imp]
  intro hall
  rw [List.filter_eq_self.2 fun e he => decide_eq_true (hall e (List.mem_of_mem_take he))]
  exact List.take_prefix _ _
end

/-- Run 5 has two events. -/
def sampleClient (type : RunEventType) (arrivals : List ClientAction) : ClientState :=
  System.run (clientStep String.toInt? 5) ⟨⟨⟨.empty, []⟩, none, none⟩, none, 0, []⟩
    (.server (.append 1 5 0 [⟨type, .null, none⟩, ⟨.runSucceeded, .null, none⟩]) :: .server (.commit 1) :: .connect ::
      .server .poll :: .server .yield :: .server .yield :: arrivals)

/-- The second one is lost with the connection. -/
theorem run_event_stream_delivers_lost :
    (sampleClient .runStarted [.arrive]).received.length = 1 ∧
      (System.run (clientStep String.toInt? 5) (sampleClient .runStarted [.arrive])
        (reconnects 2)).received = (sampleClient .runStarted [.arrive]).history 5 :=
  ⟨by decide +kernel, ((run_event_stream_delivers_iff Nat.toInt?_repr
    (.steps (.of_init rfl) (.run (by decide +kernel)))).2 (by decide +kernel)).2⟩

/-- A listener is not told that a workflow has started, and the id of the event is behind it. -/
theorem run_event_stream_skips_workflow :
    (clientSystem String.toInt? 5).Reachable (sampleClient .workflowExecutionStarted [.arrive, .arrive]) ∧
      (sampleClient .workflowExecutionStarted [.arrive, .arrive]).lastEventId = some "2" ∧
      (sampleClient .workflowExecutionStarted [.arrive, .arrive]).received.map (·.type) = [.runSucceeded] :=
  ⟨.steps (.of_init rfl) (.run (by decide +kernel)), by decide +kernel, by decide +kernel⟩

end Friday.Web
