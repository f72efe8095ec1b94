import FridayAssistant.Runs.EventReplay
/-!
# Event streams: `reserve_sequences` and `_run_event_stream`

| here | there |
| --- | --- |
| `reserveSequences` | `RunEventStore.reserve_sequences` (repositories.py:3024): the counter row of a run |
| `appendInTransaction` | `append_run_events` (lifecycle_events.py:42) |
| `listAfterSequence` | `RunEventStore.list_after_sequence` (repositories.py:3015) |
| `parseLastEventId` | `_parse_last_event_id` (events.py:91) |
| `poll`, `yield` | one round of `_run_event_stream` (events.py:108) |

A transaction that writes holds the lock of the database from its first write on; the others see
the last commit. The reader is in a thread of its own: everybody may commit while it yields a page.
-/
namespace Friday.Runs
open Tables Transition

structure EventCounter where
  runId : RunId
  nextValue : Nat

instance : Keyed EventCounter RunId := ⟨EventCounter.runId⟩

@[simp] theorem key_counter (c : EventCounter) : key c = c.runId := rfl

/-- The tables `run_event_sequence_counters` and `run_events`, the rows in the order of their
appends. -/
structure EventTables where
  counters : Table EventCounter
  events : List RunEvent

/-- `INSERT … ON CONFLICT DO NOTHING`, then `UPDATE … SET next_value = next_value + count RETURNING
next_value`. -/
def reserveSequences (t : EventTables) (runId : RunId) (count : Nat) : Nat × EventTables :=
  let row := (t.counters.get? runId).getD ⟨runId, 1⟩
  let postIncrementValue := row.nextValue + count
  (postIncrementValue - count, { t with counters := t.counters.put ⟨runId, postIncrementValue⟩ })

def appendInTransaction (t : EventTables) (runId : RunId) (now : Time) (specs : List EventSpec) :
    EventTables :=
  let (start, t) := reserveSequences t runId specs.length
  { t with events := t.events ++ numbered runId now start specs }

def listAfterSequence (events : List RunEvent) (runId : RunId) (afterSequence limit : Nat) :
    List RunEvent :=
  ((events.filter fun e => e.runId = runId && afterSequence < e.sequence).insertionSort
    (·.sequence ≤ ·.sequence)).take limit

/-- `int` is Python's, on text; `none` is the answer 422. -/
def parseLastEventId (int : String → Option Int) : Option String → Option Nat
  | none => some 0
  | some value => (int value).bind fun parsed => if parsed < 0 then none else some parsed.toNat

/-! ## The system -/

structure RunEventStream where
  runId : RunId
  /-- Where the client asked to go on. -/
  start : Nat
  lastSeen : Nat
  /-- What is left of the page that was read. -/
  page : List RunEvent
  emitted : List RunEvent

structure EventState where
  stored : EventTables
  /-- The transaction with the write lock, and the tables as it sees them. -/
  writer : Option (Nat × EventTables)
  stream : Option RunEventStream

inductive EventAction where
  | append (transaction : Nat) (runId : RunId) (now : Time) (specs : List EventSpec)
  | commit (transaction : Nat)
  | rollback (transaction : Nat)
  | connect (runId : RunId) (lastEventId : Option String)
  | poll
  | yield

def RunEventStream.poll (st : RunEventStream) (events : List RunEvent) : RunEventStream :=
  { st with page := listAfterSequence events st.runId st.lastSeen 100 }

/-- One round of the inner loop. -/
def RunEventStream.yield (st : RunEventStream) (e : RunEvent) (rest : List RunEvent) :
    RunEventStream :=
  if e.sequence ≤ st.lastSeen then { st with page := rest }
  else { st with lastSeen := e.sequence, page := rest, emitted := st.emitted ++ [e] }

def eventStep (int : String → Option Int) (s : EventState) : EventAction → Option EventState
  | .append transaction runId now specs =>
    match s.writer with
    | none => some { s with writer := some (transaction, appendInTransaction s.stored runId now specs) }
    | some (holder, t) =>
      if holder = transaction then some { s with writer := some (holder, appendInTransaction t runId now specs) } else none
  | .commit transaction =>
    match s.writer with
    | some (holder, t) => if holder = transaction then some { s with stored := t, writer := none } else none
    | none => none
  | .rollback transaction =>
    match s.writer with
    | some (holder, _) => if holder = transaction then some { s with writer := none } else none
    | none => none
  | .connect runId lastEventId =>
    (parseLastEventId int lastEventId).map fun k => { s with stream := some ⟨runId, k, k, [], []⟩ }
  | .poll =>
    match s.stream with
    | some st => if st.page.isEmpty then some { s with stream := some (st.poll s.stored.events) } else none
    | none => none
  | .yield =>
    match s.stream with
    | some st =>
      match st.page with
      | e :: rest => some { s with stream := some (st.yield e rest) }
      | [] => none
    | none => none

/-- Every interleaving, from empty tables. -/
def streamSystem (int : String → Option Int) : System EventState EventAction :=
  .ofStep (fun s => s = ⟨⟨.empty, []⟩, none, none⟩) (eventStep int) (fun _ _ => True)

/-! ## Numbers -/

/-- The counter row of a run is one more than the number of its events, and these are 1, 2, 3, … -/
structure EventTables.Counted (t : EventTables) : Prop where
  sequence : InSequence t.events
  next : ∀ k, ((t.counters.get? k).getD ⟨k, 1⟩).nextValue = t.events.countP (·.runId = k) + 1

/-- On counted tables the append is the one of the database model. -/
theorem appendInTransaction_events {t : EventTables} (h : t.Counted) (runId : RunId) (now : Time)
    (specs : List EventSpec) :
    (appendInTransaction t runId now specs).events = appendEvents t.events runId now specs := by
  show t.events ++ numbered runId now (((t.counters.get? runId).getD ⟨runId, 1⟩).nextValue +
    specs.length - specs.length) specs = _
  rw [Nat.add_sub_cancel, h.next runId, appendEvents]

theorem length_numbered (runId : RunId) (now : Time) : ∀ (start : Nat) (specs : List EventSpec),
    (numbered runId now start specs).length = specs.length
  | _, [] => rfl
  | start, _ :: specs => by rw [numbered, List.length_cons, length_numbered, List.length_cons]

theorem countP_appendEvents (events : List RunEvent) (runId k : RunId) (now : Time)
    (specs : List EventSpec) : (appendEvents events runId now specs).countP (·.runId = k) =
      events.countP (·.runId = k) + if runId = k then specs.length else 0 := by
  rw [appendEvents, List.countP_append]
  split
  · next hk =>
    rw [List.countP_eq_length.2 fun e he => decide_eq_true ((numbered_runId he).trans hk), length_numbered]
  · next hk =>
    rw [List.countP_eq_zero.2 fun e he h => hk ((numbered_runId he).symm.trans (of_decide_eq_true h))]

theorem EventTables.Counted.append {t : EventTables} (h : t.Counted) (runId : RunId) (now : Time)
    (specs : List EventSpec) : (appendInTransaction t runId now specs).Counted where
  sequence := by
    rw [appendInTransaction_events h]
    exact h.sequence.append runId now specs
  next k := by
    rw [appendInTransaction_events h, countP_appendEvents]
    show (((t.counters.put ⟨runId, _⟩).get? k).getD ⟨k, 1⟩).nextValue = _
    rw [Table.get?_put, key_counter]
    by_cases hk : runId = k
    · subst hk
      rw [if_pos rfl, if_pos rfl, Option.getD_some, h.next runId, Nat.add_right_comm]
    · rw [if_neg hk, if_neg hk, h.next k]

/-! ## Pages -/

/-- Of rows numbered without gaps, those after a number are what is left when so many are
dropped. -/
theorem filter_after {a : Nat} : ∀ {start : Nat} {l : List RunEvent}, l.map (·.sequence) = List.range' start l.length →
    (l.filter fun e => a < e.sequence) = l.drop (a + 1 - start)
  | _, [], _ => by simp
  | start, e :: l, h => by
    rw [List.map_cons, List.length_cons, List.range'_succ] at h
    obtain ⟨hhead, htail⟩ := List.cons.inj h
    have ih := filter_after (a := a) htail
    by_cases hlt : a < e.sequence
    · have hdrop : a + 1 - start = 0 := by omega
      have hdrop' : a + 1 - (start + 1) = 0 := by omega
      rw [List.filter_cons_of_pos (by simpa using hlt), ih, hdrop, hdrop', List.drop_zero, List.drop_zero]
    · have hdrop : a + 1 - start = (a + 1 - (start + 1)) + 1 := by omega
      rw [List.filter_cons_of_neg (by simpa using hlt), ih, hdrop, List.drop_succ_cons]

variable {events : List RunEvent}

/-- A page is the next events of the run. -/
theorem listAfterSequence_eq (h : InSequence events) (runId : RunId) (afterSequence limit : Nat) :
    listAfterSequence events runId afterSequence limit =
      ((events.filter (·.runId = runId)).drop afterSequence).take limit := by
  have hfilter : (events.filter fun e => e.runId = runId && afterSequence < e.sequence) =
      (events.filter (·.runId = runId)).drop afterSequence := by
    have hafter := filter_after (a := afterSequence) (h runId)
    rw [Nat.add_sub_cancel, List.filter_filter] at hafter
    rw [← hafter]
    exact List.filter_congr fun e _ => by rw [Bool.and_comm]
  have hsorted : (((events.filter (·.runId = runId)).drop afterSequence).map (·.sequence)).Pairwise (· ≤ ·) := by
    rw [List.map_drop, h runId]
    exact (List.pairwise_le_range' 1).drop
  rw [listAfterSequence, hfilter, (List.pairwise_map.1 hsorted).insertionSort_eq]

/-! ## What every interleaving keeps -/

/-- What was emitted and what is left of the page are the events after `start`, one after the
other. -/
structure RunEventStream.InOrder (st : RunEventStream) (events : List RunEvent) : Prop where
  lastSeen : st.lastSeen = st.start + st.emitted.length
  next : st.emitted ++ st.page <+: (events.filter (·.runId = st.runId)).drop st.start

structure EventState.Good (s : EventState) : Prop where
  counted : s.stored.Counted
  writer : ∀ p, s.writer = some p → p.2.Counted ∧ s.stored.events <+: p.2.events
  stream : ∀ st, s.stream = some st → st.InOrder s.stored.events

theorem appendInTransaction_extends (t : EventTables) (runId : RunId) (now : Time)
    (specs : List EventSpec) : t.events <+: (appendInTransaction t runId now specs).events :=
  List.prefix_append _ _

variable {st : RunEventStream}

/-- Later commits only add events behind the ones that are there. -/
theorem RunEventStream.InOrder.mono {events' : List RunEvent} (h : st.InOrder events)
    (hext : events <+: events') : st.InOrder events' := by
  refine ⟨h.lastSeen, h.next.trans ?_⟩
  obtain ⟨batch, rfl⟩ := hext
  rw [List.filter_append, List.drop_append]
  exact List.prefix_append _ _

/-- Events that follow `start` are numbered on from there. -/
theorem sequences_of_prefix {l : List RunEvent} {runId : RunId} {start : Nat}
    (hseq : InSequence events) (h : l <+: (events.filter (·.runId = runId)).drop start) :
    l.map (·.sequence) = List.range' (start + 1) l.length := by
  have hext := h.map (·.sequence)
  have hlength := h.length_le
  rw [List.map_drop, hseq runId, List.drop_range', Nat.mul_one, Nat.add_comm 1] at hext
  rw [List.length_drop] at hlength
  -- a front part of a range is a range
  obtain ⟨k, hk⟩ := Nat.exists_eq_add_of_le hlength
  rw [hk, ← List.range'_append_1] at hext
  rw [List.prefix_iff_eq_take.1 hext, List.take_left' (by rw [List.length_map, List.length_range'])]

/-- The next event of the page is never skipped. -/
theorem RunEventStream.InOrder.yield_eq (h : st.InOrder events)
    (hseq : InSequence events) {e : RunEvent} {rest : List RunEvent} (hpage : st.page = e :: rest) :
    st.yield e rest = { st with lastSeen := st.lastSeen + 1, page := rest, emitted := st.emitted ++ [e] } := by
  have hnumbers := sequences_of_prefix hseq h.next
  rw [hpage, List.map_append, List.map_cons, List.length_append, List.length_cons,
    ← List.range'_append_1, List.range'_succ] at hnumbers
  have hsequence : e.sequence = st.lastSeen + 1 := by
    have hparts := (List.append_inj hnumbers (by rw [List.length_map, List.length_range'])).2
    rw [h.lastSeen, (List.cons.inj hparts).1]
    omega
  rw [RunEventStream.yield, if_neg (by omega), hsequence]

theorem RunEventStream.InOrder.yield (h : st.InOrder events)
    (hseq : InSequence events) {e : RunEvent} {rest : List RunEvent} (hpage : st.page = e :: rest) :
    (st.yield e rest).InOrder events := by
  rw [h.yield_eq hseq hpage]
  constructor
  · show st.lastSeen + 1 = st.start + (st.emitted ++ [e]).length
    rw [h.lastSeen, List.length_append, List.length_singleton, Nat.add_assoc]
  · show st.emitted ++ [e] ++ rest <+: _
    rw [List.append_assoc, List.singleton_append, ← hpage]
    exact h.next

/-- A page read when the last one is used up goes on where it ended. -/
theorem RunEventStream.InOrder.poll (h : st.InOrder events) (hseq : InSequence events)
    (hpage : st.page = []) : st.emitted ++ (st.poll events).page =
      ((events.filter (·.runId = st.runId)).drop st.start).take (st.emitted.length + 100) := by
  have hemitted := h.next
  rw [hpage, List.append_nil] at hemitted
  show st.emitted ++ listAfterSequence events st.runId st.lastSeen 100 = _
  rw [listAfterSequence_eq hseq, h.lastSeen, ← List.drop_drop, List.take_add,
    ← List.prefix_iff_eq_take.1 hemitted]

theorem streamSystem_step {int : String → Option Int} {s s' : EventState} {a : EventAction} (hgood : s.Good)
    (h : (streamSystem int).next s a s') : s'.Good ∧ s.stored.events <+: s'.stored.events := by
  have hstep : eventStep int s a = some s' := h.1
  cases a with
  | append transaction runId now specs =>
    dsimp only [eventStep] at hstep
    split at hstep
    · obtain rfl := Option.some.inj hstep
      refine ⟨⟨hgood.counted, ?_, hgood.stream⟩, List.prefix_refl _⟩
      rintro p ⟨⟩
      exact ⟨hgood.counted.append runId now specs, appendInTransaction_extends s.stored runId now specs⟩
    · next holder t hwriter =>
      split at hstep
      · obtain rfl := Option.some.inj hstep
        obtain ⟨hcounted, hext⟩ := hgood.writer _ hwriter
        refine ⟨⟨hgood.counted, ?_, hgood.stream⟩, List.prefix_refl _⟩
        rintro p ⟨⟩
        exact ⟨hcounted.append runId now specs, hext.trans (appendInTransaction_extends t runId now specs)⟩
      · cases hstep
  | commit transaction =>
    dsimp only [eventStep] at hstep
    split at hstep
    · next holder t hwriter =>
      split at hstep
      · obtain rfl := Option.some.inj hstep
        obtain ⟨hcounted, hext⟩ := hgood.writer _ hwriter
        exact ⟨⟨hcounted, nofun, fun st hst => (hgood.stream st hst).mono hext⟩, hext⟩
      · cases hstep
    · cases hstep
  | rollback transaction =>
    dsimp only [eventStep] at hstep
    split at hstep
    · split at hstep
      · obtain rfl := Option.some.inj hstep
        exact ⟨⟨hgood.counted, nofun, hgood.stream⟩, List.prefix_refl _⟩
      · cases hstep
    · cases hstep
  | connect runId lastEventId =>
    obtain ⟨k, -, rfl⟩ := Option.map_eq_some_iff.1 hstep
    refine ⟨⟨hgood.counted, hgood.writer, ?_⟩, List.prefix_refl _⟩
    rintro st ⟨⟩
    exact ⟨rfl, List.nil_prefix⟩
  | poll =>
    dsimp only [eventStep] at hstep
    split at hstep
    · next st hst =>
      split at hstep
      · next hempty =>
        obtain rfl := Option.some.inj hstep
        refine ⟨⟨hgood.counted, hgood.writer, ?_⟩, List.prefix_refl _⟩
        rintro _ ⟨⟩
        have hinorder := hgood.stream st hst
        refine ⟨hinorder.lastSeen, ?_⟩
        show st.emitted ++ (st.poll s.stored.events).page <+: _
        rw [hinorder.poll hgood.counted.sequence (List.isEmpty_iff.1 hempty)]
        exact List.take_prefix _ _
      · cases hstep
    · cases hstep
  | yield =>
    dsimp only [eventStep] at hstep
    split at hstep
    · next st hst =>
      split at hstep
      · next e rest hpage =>
        obtain rfl := Option.some.inj hstep
        refine ⟨⟨hgood.counted, hgood.writer, ?_⟩, List.prefix_refl _⟩
        rintro _ ⟨⟩
        exact (hgood.stream st hst).yield hgood.counted.sequence hpage
      · cases hstep
    · cases hstep

theorem streamSystem_good {int : String → Option Int} {s : EventState}
    (h : (streamSystem int).Reachable s) : s.Good :=
  h.invariant EventState.Good
    (fun s hinit => by
      obtain rfl : s = ⟨⟨.empty, []⟩, none, none⟩ := hinit
      exact ⟨⟨fun _ => rfl, fun _ => rfl⟩, nofun, nofun⟩)
    (fun _ _ _ _ hgood hnext => (streamSystem_step hgood hnext).1)

/-- So many rounds of the inner loop emit so many events of the page. -/
theorem run_yield (int : String → Option Int) : ∀ (n : Nat) {s : EventState} {st : RunEventStream},
    s.Good → s.stream = some st →
      ∃ st', (System.run (eventStep int) s (List.replicate n .yield)).stream = some st' ∧
      st'.emitted = st.emitted ++ st.page.take n
  | 0, s, st, _, hst => ⟨st, hst, by rw [List.take_zero, List.append_nil]⟩
  | n + 1, s, st, hgood, hst => by
    rw [List.replicate_succ, System.run]
    cases hpage : st.page with
    | nil =>
      have hskip : eventStep int s .yield = none := by simp only [eventStep, hst, hpage]
      obtain ⟨st', hst', hemitted⟩ := run_yield int n hgood hst
      rw [hpage, List.take_nil] at hemitted
      exact ⟨st', by rw [hskip]; exact hst', by rw [hemitted, List.take_nil]⟩
    | cons e rest =>
      have hstep : eventStep int s .yield = some { s with stream := some (st.yield e rest) } := by
        simp only [eventStep, hst, hpage]
      have hnext : (streamSystem int).next s .yield _ := ⟨hstep, trivial⟩
      have hgood' := (streamSystem_step hgood hnext).1
      obtain ⟨st', hst', hemitted⟩ := run_yield int n hgood' rfl
      rw [(hgood.stream st hst).yield_eq hgood.counted.sequence hpage] at hemitted
      refine ⟨st', by rw [hstep]; exact hst', ?_⟩
      rw [hemitted, List.take_succ_cons, List.append_assoc, List.singleton_append]

/-- **Event streams are gap-free and delivered exactly once.** The committed events of every run are
numbered 1, 2, …, n in the order of the commits; whatever the interleaving of commits, polls and
yields, a stream has emitted the events after the id it started with, one after the other; and a
round of its loop emits all that was there at the poll, up to 100. -/
theorem event_stream_exactly_once (int : String → Option Int) {s : EventState} (hs : (streamSystem int).Reachable s) :
    (∀ runId, (s.stored.events.filter (·.runId = runId)).map (·.sequence) =
      List.range' 1 (s.stored.events.filter (·.runId = runId)).length) ∧
    (∀ a s', (streamSystem int).next s a s' → ∃ batch, s'.stored.events = s.stored.events ++ batch) ∧
    ∀ st, s.stream = some st →
      st.emitted <+: (s.stored.events.filter (·.runId = st.runId)).drop st.start ∧
      st.emitted.map (·.sequence) = List.range' (st.start + 1) st.emitted.length ∧
      (st.page = [] →
        ((System.run (eventStep int) s (.poll :: List.replicate 100 .yield)).stream.map (·.emitted)) =
          some (((s.stored.events.filter (·.runId = st.runId)).drop st.start).take (st.emitted.length + 100))) := by
  have hgood := streamSystem_good hs
  refine ⟨hgood.counted.sequence, fun a s' hnext => ?_, fun st hst => ?_⟩
  · obtain ⟨batch, hbatch⟩ := (streamSystem_step hgood hnext).2
    exact ⟨batch, hbatch.symm⟩
  · have hinorder := hgood.stream st hst
    have hemitted : st.emitted <+: (s.stored.events.filter (·.runId = st.runId)).drop st.start :=
      (List.prefix_append _ _).trans hinorder.next
    refine ⟨hemitted, sequences_of_prefix hgood.counted.sequence hemitted, fun hpage => ?_⟩
    have hstep : eventStep int s .poll = some { s with stream := some (st.poll s.stored.events) } := by
      simp only [eventStep, hst, hpage, List.isEmpty_nil, if_true]
    have hnext : (streamSystem int).next s .poll _ := ⟨hstep, trivial⟩
    have hgood' := (streamSystem_step hgood hnext).1
    obtain ⟨st', hst', hround⟩ := run_yield int 100 hgood' rfl
    rw [System.run, hstep, Option.getD_some, hst', Option.map_some, hround]
    have hlimit : (st.poll s.stored.events).page.length ≤ 100 := List.length_take_le _ _
    rw [List.take_of_length_le hlimit]
    exact congrArg some (hinorder.poll hgood.counted.sequence hpage)

/-- A rollback between two commits, and a client that has seen the first event. -/
def sampleEventActions : List EventAction :=
  let specs (n : Nat) : List EventSpec := List.replicate n ⟨.runStarted, .null, none⟩
  [.append 1 5 0 (specs 2), .commit 1, .append 2 5 1 (specs 3), .rollback 2, .connect 5 (some "1"),
    .poll, .append 3 5 2 (specs 1), .yield, .commit 3]

def sampleEventState : EventState :=
  System.run (eventStep fun _ => some 1) ⟨⟨.empty, []⟩, none, none⟩ sampleEventActions

theorem event_stream_exactly_once_rollback :
    (sampleEventState.stored.events.map (·.sequence) = [1, 2, 3] ∧
      sampleEventState.stream.map (·.emitted.map (·.sequence)) = some [2]) ∧
    (sampleEventState.stored.events.filter (·.runId = 5)).map (·.sequence) =
      List.range' 1 (sampleEventState.stored.events.filter (·.runId = 5)).length :=
  ⟨by decide +kernel,
    (event_stream_exactly_once (fun _ => some 1) (.steps (.of_init rfl) (.run (by decide +kernel)))).1 5⟩

end Friday.Runs
