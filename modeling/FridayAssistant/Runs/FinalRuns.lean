import FridayAssistant.Runs.Overwrites
/-!
# A terminal run stays terminal

Ending a run is checked on the row that was read and written by primary key. In one transaction
nothing comes between the two; when a call reads before another commits, the later commit writes
its own end over the first one, with a second terminal event. Only the two outcome appliers are
fenced, by the claim their commit deletes.

So the property holds as long as no commit finds that the run it is about has ended since it was
read (`RunOpen`).
-/
namespace Friday.Runs
open Tables PyJson Queue Transition Split Replay

/-! ## Ends, in the log and in the row -/

/-- How often the stream of a run tells its end. -/
def terminalEvents (events : List RunEvent) (k : RunId) : Nat :=
  events.countP fun e => e.runId = k && e.type.isTerminal

theorem terminalEvents_eq (events : List RunEvent) (k : RunId) :
    terminalEvents events k = (lifecycleLog events k).countP (·.isTerminal) := by
  have hlifecycle : ∀ t : RunEventType, (t.isTerminal && t.isLifecycle) = t.isTerminal := by
    intro t
    cases t <;> rfl
  unfold terminalEvents lifecycleLog
  rw [List.countP_filter, List.countP_map, List.countP_filter]
  refine List.countP_congr fun e _ => ?_
  simp only [Function.comp_apply, hlifecycle]
  rw [Bool.and_comm]

namespace Journal

def ends (j : Journal) (k : RunId) : Nat := terminalEvents j.events k

/-- 1 for a run that has ended. -/
def finished (j : Journal) (k : RunId) : Nat := ((j.status k).any (·.isTerminal)).toNat

theorem ends_append (j : Journal) (runId k : RunId) (now : Time) (specs : List EventSpec) :
    (j.append runId now specs).ends k = j.ends k + if runId = k then (marks specs).countP (·.isTerminal) else 0 := by
  unfold ends
  rw [terminalEvents_eq, terminalEvents_eq]
  show ((j.append runId now specs).log k).countP _ = (j.log k).countP _ + _
  rw [log_append, List.countP_append]
  split <;> rfl

end Journal

/-- Ended runs keep their status, and what is told of ends is what happens. -/
structure Final (R : RunId → Prop) (j j' : Journal) : Prop where
  status : ∀ k s, j.status k = some s → s.isTerminal = true → j'.status k = some s
  once : ∀ k, j'.ends k + j.finished k ≤ j.ends k + j'.finished k
  told : ∀ k, ¬R k → j.ends k + j'.finished k ≤ j'.ends k + j.finished k

variable {specs : List EventSpec} {r : Run} {now : Time}

namespace Final
variable {R : RunId → Prop} {F A : Prop} {j j' j'' : Journal}

theorem of_eq (hstatus : ∀ k, j'.status k = j.status k) (hends : ∀ k, j'.ends k = j.ends k) :
    Final R j j' := by
  have hfinished : ∀ k, j'.finished k = j.finished k := fun k => by
    rw [Journal.finished, hstatus]; rfl
  refine ⟨fun k s hs _ => (hstatus k).trans hs, fun k => ?_, fun k _ => ?_⟩ <;>
    rw [hends, hfinished]

theorem refl (j : Journal) : Final R j j := .of_eq (fun _ => rfl) fun _ => rfl

theorem trans (h : Final R j j') (h' : Final R j' j'') : Final R j j'' := by
  refine ⟨fun k s hs ht => h'.status k s (h.status k s hs ht) ht, fun k => ?_, fun k hk => ?_⟩
  · have := h.once k
    have := h'.once k
    omega
  · have := h.told k hk
    have := h'.told k hk
    omega

/-- A run is written with the events that tell it, or fail to tell it when `R` allows that. -/
theorem write (hstatus : ∀ s, j.status r.id = some s → s.isTerminal = true → r.status = s)
    (honce : (marks specs).countP (·.isTerminal) + j.finished r.id ≤ r.status.isTerminal.toNat)
    (htold : ¬R r.id → r.status.isTerminal.toNat ≤ (marks specs).countP (·.isTerminal) + j.finished r.id) :
    Final R j ((j.withRun r).append r.id now specs) := by
  have hends : ∀ k, ((j.withRun r).append r.id now specs).ends k =
      j.ends k + if r.id = k then (marks specs).countP (·.isTerminal) else 0 := fun k => Journal.ends_append _ _ k _ _
  have hfinished : ∀ k, ((j.withRun r).append r.id now specs).finished k =
      if r.id = k then r.status.isTerminal.toNat else j.finished k := fun k => by
    unfold Journal.finished
    rw [Journal.status_append, Journal.status_withRun]
    split <;> rfl
  refine ⟨fun k s hs ht => ?_, fun k => ?_, fun k hk => ?_⟩
  · rw [Journal.status_append, Journal.status_withRun]
    split
    · next e => rw [hstatus s (by rw [e]; exact hs) ht]
    · exact hs
  · rw [hends, hfinished]
    split
    · next e =>
      rw [e] at honce
      omega
    · exact Nat.le_refl _
  · rw [hends, hfinished]
    split
    · next e =>
      rw [e] at htold
      have := htold hk
      omega
    · exact Nat.le_refl _

end Final

/-! ## Entries -/

variable {s : RunStatus} {db db' : Db} {cfg : Config}

theorem replay_ends {s' : RunStatus} {log : List RunEventType} (h : replay fire (some s) log = some (some s')) :
    log.countP (·.isTerminal) + s.isTerminal.toNat = s'.isTerminal.toNat ∧ (s.isTerminal = true → s' = s) := by
  induction log generalizing s with
  | nil =>
    cases h
    exact ⟨Nat.zero_add _, fun _ => rfl⟩
  | cons e log ih =>
    obtain ⟨t, ht, h⟩ := Option.bind_eq_some_iff.1 h
    cases t with
    | none => cases s <;> cases e <;> cases ht
    | some t =>
      -- the machine tells the end once, when it happens
      obtain ⟨he, hs⟩ : e.isTerminal = t.isTerminal ∧ s.isTerminal = false := by
        cases s <;> cases e <;> first | (cases ht; exact ⟨rfl, rfl⟩) | cases ht
      obtain ⟨hcount, -⟩ := ih h
      refine ⟨?_, fun hterminal => by rw [hs] at hterminal; cases hterminal⟩
      rw [List.countP_cons, he, hs, ← hcount]
      cases t.isTerminal <;> rfl

section
variable {R : RunId → Prop} {F A : Prop} {j j' : Journal}

theorem finished_of_get? {k : RunId} (h : j.runs.get? k = some r) :
    j.finished k = r.status.isTerminal.toNat := by
  rw [Journal.finished, status_of_get? h]
  rfl

theorem finished_of_fresh {k : RunId} (h : j.runs.get? k = none) : j.finished k = 0 := by
  rw [Journal.finished, status_of_fresh h]
  rfl

/-- A new run. -/
theorem Final.create (fresh : j.runs.get? r.id = none)
    (queued : r.status = .queued) (told : marks specs = [.runCreated]) :
    Final R j ((j.withRun r).append r.id now specs) := by
  have hzero : (marks specs).countP (·.isTerminal) + j.finished r.id = 0 := by
    rw [told, finished_of_fresh fresh]; rfl
  refine .write (fun s hs => ?_) (by rw [hzero]; exact Nat.zero_le _) fun _ => by
    rw [queued]; exact Nat.zero_le _
  rw [status_of_fresh fresh] at hs
  cases hs

/-- A run that was stored is written with events that replay. -/
theorem Final.save {r' : Run} (hr : j.runs.get? r.id = some r)
    (same : SameAttempt r r')
    (told : replay fire (some r.status) (marks specs) = some (some r'.status)) :
    Final R j ((j.withRun r').append r.id now specs) := by
  obtain ⟨hcount, hstays⟩ := replay_ends told
  rw [← same.id] at hr ⊢
  rw [← finished_of_get? hr] at hcount
  refine .write (fun s hs ht => ?_) hcount.le fun _ => hcount.ge
  rw [status_of_get? hr] at hs
  cases hs
  exact hstays ht

/-- A live run is written, whatever it was by then. -/
theorem Final.finished {r' : Run} (hr : j.runs.get? r.id = some r)
    (live : r.status.isTerminal = false) (same : SameAttempt r r')
    (told : (marks specs).countP (·.isTerminal) = r'.status.isTerminal.toNat) :
    Final R j ((j.withRun r').append r.id now specs) := by
  rw [← same.id] at hr ⊢
  have hzero : j.finished r'.id = 0 := by rw [finished_of_get? hr, live]; rfl
  refine .write (fun s hs ht => ?_) (by rw [hzero, told]; exact Nat.le_refl _) fun _ => by
    rw [hzero, told]; exact Nat.le_refl _
  rw [status_of_get? hr] at hs
  cases hs
  rw [live] at ht
  cases ht

theorem Entry.final (he : Entry R F A j j') : Final R j j' := by
  cases he with
  | note silent =>
    refine .of_eq (fun _ => rfl) fun k => ?_
    rw [Journal.ends_append, silent, List.countP_nil, ite_self]
    rfl
  | create fresh queued _ _ _ told | retry _ fresh queued _ _ _ _ _ told =>
    exact .create fresh queued told
  | save hr same told _ _ => exact .save hr same told
  | @failRetry r r' n now now' specs specs' hr _ same _ told _ _ fresh queued _ _ told' =>
    exact (Final.save hr same told).trans (.create (Table.fresh_put (same.id ▸ hr) fresh) queued told')
  | @root r r' hr same owner live =>
    have hwritten : Final R j ((j.withRun r').append r'.id 0 []) := by
      rw [← same.id] at hr
      have hzero : j.finished r'.id = 0 := by rw [finished_of_get? hr, live]; rfl
      refine .write (fun s hs ht => ?_) (by rw [hzero]; exact Nat.zero_le _) fun hnot => absurd (same.id ▸ owner) hnot
      rw [status_of_get? hr] at hs
      cases hs
      rw [live] at ht
      cases ht
    exact hwritten.trans (.of_eq (fun _ => rfl) fun k => by rw [Journal.ends_append, marks_nil, List.countP_nil, ite_self]; rfl)
  | newTask | task | request | settle => exact .of_eq (fun _ => rfl) fun _ => rfl
  | @wake e q l p p' outcome spec now hq _ _ _ hp _ waiting same running silent =>
    have hsettled : Final R j (j.withRequest (Core.finalized q outcome now)) :=
      .of_eq (fun _ => rfl) fun _ => rfl
    refine hsettled.trans (.save hp same ?_)
    rw [marks_settledSpecs silent, waiting, running]
    rfl

theorem Entries.final (h : Entries R F A j j') : Final R j j' := by
  induction h with
  | refl => exact .refl j
  | tail _ hstep ih => exact ih.trans hstep.final

end

/-! ## Commits -/

/-- No commit finds that the run it writes has ended since it was read. A commit that has lost its
claim writes nothing. -/
def RunOpen (db : Db) (call : RunCall) : Prop :=
  call.passes db = true → ∀ run ∈ call.writes, ∀ r ∈ db.runs.get? run.id,
    r.status.isTerminal = false
  deriving Decidable

theorem endEvent_marks {e : RunEventType} (h : endEvent s = some e) :
    [e].countP (·.isTerminal) = s.isTerminal.toNat := by
  cases s <;> cases h <;> rfl

variable {N : Run → Prop}

theorem Overwrite.final {R : RunId → Prop} {S : ApprovalRequestId → Prop} {db db' : Db}
    (h : Overwrite (fun r => r.status.isTerminal = false) N S db db') :
    Final R db.journal db'.journal := by
  cases h with
  | ended stored live same told tells cancelled core journal =>
    refine Final.trans ?_ (journal R True True).final
    exact .finished stored live same (by rw [tells]; exact endEvent_marks told)
  | @retried r r' n specs specs' at₁ now stored live same failed tells fresh queued task execution next tells' core journal =>
    rw [journal]
    refine (Final.finished stored live same (by rw [tells, failed]; rfl)).trans (.create ?_ queued tells')
    exact Table.fresh_put (same.id ▸ stored) fresh
  | resumed stored live same running settles final id core journal =>
    rw [journal]
    exact .finished stored live same (by rw [running]; rfl)
  | resolved settles final core journal =>
    rcases journal with journal | ⟨runId, now, b, journal⟩
    · rw [journal]
      exact .refl _
    · rw [journal]
      exact Entry.final (R := R) (F := True) (A := True) (.note rfl)

theorem Overwrite.roots {P : Run → Prop} {S : ApprovalRequestId → Prop}
    (h : Overwrite P N S db db') : db'.workflowExecutions = db.workflowExecutions := by
  cases h with
  | ended stored known same told tells cancelled core journal =>
    rw [core, Core.settle_executions]
    rfl
  | retried stored known same failed tells fresh queued task execution next tells' core journal
  | resumed stored known same running settles final id core journal =>
    rw [core]
    rfl
  | resolved settles final core journal => rw [core]

/-- The second half of a call over a run that has not ended. -/
theorem writeRun_open {call : RunCall} {held : HeldRows}
    (hstored : StillStored (fun _ => True) db call) (hopen : RunOpen db call)
    (hnext : ∀ n ∈ call.next, N n) (h : writeRun cfg db call held = .ok db') :
    Overwrite (fun r => r.status.isTerminal = false) N (fun _ => True) db db' := by
  refine writeRun_overwrite (fun run hrun => ?_) hnext (fun _ _ => trivial) h
  obtain ⟨current, hcurrent, hsame, -⟩ := hstored run hrun
  exact ⟨current, hcurrent, hsame, hopen (writeRun_passes h) run hrun current hcurrent⟩

/-! ## Every run of the system -/

/-- What is told of ends is what happened. -/
structure EndsTold (db : Db) : Prop where
  once : ∀ k, db.journal.ends k ≤ db.journal.finished k
  told : ∀ k, ¬db.Roots k → db.journal.finished k ≤ db.journal.ends k

theorem EndsTold.step (h : EndsTold db) (hroots : ∀ k, db.Roots k → db'.Roots k)
    (hfinal : Final db'.Roots db.journal db'.journal) : EndsTold db' := by
  refine ⟨fun k => ?_, fun k hk => ?_⟩
  · have := h.once k
    have := hfinal.once k
    omega
  · have := h.told k fun hroot => hk (hroots k hroot)
    have := hfinal.told k hk
    omega

theorem commit_final {a : RunAction} (htells : tellsElsewhere db a)
    (h : commit cfg db a = some db') : (∀ k, db.Roots k → db'.Roots k) ∧ Final db'.Roots db.journal db'.journal := by
  have hact := toOption_eq_some.1 h
  refine ⟨fun k hk => Moves.roots hk (act_moves (g := .free) (allowed_free db a)
    (fun _ _ _ => trivial) hact), ?_⟩
  exact (act_entries (F := True) (A := True) htells (fun _ _ _ _ => .inl trivial)
    (fun _ => trivial) hact).final

theorem write_final {call : RunCall} {held : HeldRows}
    (hstored : StillStored (fun _ => True) db call) (hopen : RunOpen db call)
    (h : writeRun cfg db call held = .ok db') :
    (∀ k, db.Roots k → db'.Roots k) ∧ Final db'.Roots db.journal db'.journal := by
  have hfinished := writeRun_open (N := fun _ => True) hstored hopen (fun _ _ => trivial) h
  refine ⟨fun k hk => ?_, hfinished.final⟩
  unfold Core.Roots at *
  rw [hfinished.roots]
  exact hk

/-- Runs of the system in which every commit finds its run open. -/
abbrev openRuns (cfg : Config) : System (State Db RunCall) CallStep :=
  (splitRuns cfg).restrict (AtCommit RunOpen)

theorem openRuns_inv {s : State Db RunCall} (h : (openRuns cfg).Reachable s) :
    EndsTold s.db ∧ ∀ call ∈ s.calls, StillStored (fun _ => True) s.db call := by
  refine reachable_stored EndsTold (fun db hinit => ?_) (fun hI hg ha => ?_)
    (fun hI hQ hC hw => ?_) h
  · obtain ⟨hcore, hevents⟩ := hinit
    have hnone : ∀ k, db.journal.finished k = 0 := fun k => finished_of_fresh (by rw [Db.journal, hcore]; rfl)
    refine ⟨fun k => ?_, fun k _ => by rw [hnone]; exact Nat.zero_le _⟩
    rw [Journal.ends, Db.journal, hevents]
    exact Nat.zero_le _
  · obtain ⟨hroots, hfinal⟩ := commit_final hg ha
    exact hI.step hroots hfinal
  · obtain ⟨hroots, hfinal⟩ := write_final hQ hC hw
    exact hI.step hroots hfinal

/-- **A terminal run stays terminal** in every run of the system in which no commit finds that the
run it writes has ended since it was read: the status never changes again, and the stream tells one
end of it; the root of a workflow, which ends with the workflow, is told of at most once. -/
theorem terminal_run_stays_terminal (cfg : Config) (s s' : State Db RunCall)
    (hs : (openRuns cfg).Reachable s) (h : (openRuns cfg).Steps s s') (k : RunId) (r : Run)
    (hr : s.db.runs.get? k = some r) (hterminal : r.status.isTerminal = true) :
    (∃ later, s'.db.runs.get? k = some later ∧ later.status = r.status) ∧
      terminalEvents s'.db.events k ≤ 1 ∧ ((∀ x ∈ s'.db.workflowExecutions.rows, x.rootRunId ≠ k) →
        terminalEvents s'.db.events k = 1) := by
  have hkept : ∀ k t, s.db.journal.status k = some t → t.isTerminal = true → s'.db.journal.status k = some t := by
    refine Steps.split EndsTold (StillStored fun _ => True)
      (fun db db' => ∀ k t, db.journal.status k = some t → t.isTerminal = true → db'.journal.status k = some t)
      (fun _ _ _ ht _ => ht) (fun h h' k t ht hterm => h' k t (h k t ht hterm) hterm) openRuns_inv
      (fun _ hg ha => (commit_final hg ha).2.status) (fun _ hQ hC hw => (write_final hQ hC (toOption_eq_some.1 hw)).2.status) hs h
  obtain ⟨htold, -⟩ := openRuns_inv (hs.steps h)
  have hstatus := hkept k r.status (status_of_get? hr) hterminal
  obtain ⟨later, hlater, hsame⟩ := Option.map_eq_some_iff.1 hstatus
  have hfinished : s'.db.journal.finished k = 1 := by
    rw [Journal.finished, hstatus, Option.any_some, hterminal]; rfl
  refine ⟨⟨later, hlater, hsame⟩, hfinished ▸ htold.once k, fun hroot => ?_⟩
  refine Nat.le_antisymm (hfinished ▸ htold.once k) (hfinished ▸ htold.told k ?_)
  rintro ⟨x, hx, hxk⟩
  exact hroot x hx hxk

theorem splitRuns_guarded {s : State Db RunCall} {a : CallStep}
    (h : Protocol.Guarded (fun _ a => a.isSpelledOut = true) s a) :
    Protocol.Guarded tellsElsewhere s a := by
  cases a with
  | atomic a => exact tellsElsewhere_of_spelledOut h
  | _ => trivial

theorem sample_splitRuns_init : (splitRuns sampleConfig).init ⟨sampleDb, []⟩ := ⟨⟨rfl, rfl⟩, rfl⟩

/-- A claimed run is read by `CancelRun` and by the worker's success, and cancelled. -/
def cancelFirst : List CallStep :=
  [.atomic (.createTask 1 "title" "" 0), .atomic (.startRun 1 2 1),
    .atomic (.claimNextRun sampleClaim 2), .read (.cancelRun 2 3),
    .read (.applySucceededOutcome 2 ⟨"worker", "token", 1⟩ none 4), .commit 0 ⟨true, true, true⟩]

def cancelledFirst : State Db RunCall := runSample ⟨sampleDb, []⟩ cancelFirst

/-- The worker's commit has lost its claim. -/
def thenSucceeds : List CallStep := [.commit 0 ⟨true, true, true⟩]

def succeededLate : State Db RunCall := runSample cancelledFirst thenSucceeds

theorem terminal_run_stays_terminal_fenced :
    (cancelledFirst.db.runs.get? 2).map (·.status) = some .cancelled ∧
      (∃ later, succeededLate.db.runs.get? 2 = some later ∧ later.status = .cancelled) ∧
      terminalEvents succeededLate.db.events 2 ≤ 1 ∧
      ((∀ x ∈ succeededLate.db.workflowExecutions.rows, x.rootRunId ≠ 2) →
        terminalEvents succeededLate.db.events 2 = 1) := by
  have hstatus : (cancelledFirst.db.runs.get? 2).map (·.status) = some .cancelled := by
    decide +kernel
  obtain ⟨r, hr, hs⟩ := Option.map_eq_some_iff.1 hstatus
  have hlegal : System.Legal (runCalls sampleConfig).step
      (fun s a => Protocol.Guarded (fun _ a => a.isSpelledOut = true) s a ∧ AtCommit RunOpen s a) ⟨sampleDb, []⟩
      cancelFirst := by decide +kernel
  have hlater : System.Legal (runCalls sampleConfig).step
      (fun s a => Protocol.Guarded (fun _ a => a.isSpelledOut = true) s a ∧ AtCommit RunOpen s a) cancelledFirst
      thenSucceeds := by decide +kernel
  have hreach : (openRuns sampleConfig).Reachable cancelledFirst :=
    .steps (.of_init sample_splitRuns_init) (.run_restrict (hlegal.mono fun _ _ _ h => ⟨splitRuns_guarded h.1, h.2⟩))
  have hstays := terminal_run_stays_terminal sampleConfig cancelledFirst succeededLate hreach
    (.run_restrict (hlater.mono fun _ _ _ h => ⟨splitRuns_guarded h.1, h.2⟩)) 2 r hr
    (by rw [hs]; rfl)
  rw [hs] at hstays
  exact ⟨hstatus, hstays⟩

/-! ## A cancellation over a success -/

/-- A claimed run is read by `CancelRun`, and the worker's success commits. -/
def succeedFirst : List CallStep :=
  [.atomic (.createTask 1 "title" "" 0), .atomic (.startRun 1 2 1),
    .atomic (.claimNextRun sampleClaim 2), .read (.cancelRun 2 3),
    .atomic (.applySucceededOutcome 2 ⟨"worker", "token", 1⟩ none 4)]

def succeededFirst : State Db RunCall := runSample ⟨sampleDb, []⟩ succeedFirst

/-- Then the cancellation commits. -/
def cancelledLate (held : HeldRows) : State Db RunCall :=
  runSample succeededFirst [.commit 0 held]

/-- The SUCCEEDED run becomes CANCELLED, with a second terminal event. -/
theorem succeeded_run_is_cancelled :
    (splitRuns sampleConfig).Reachable succeededFirst ∧
      (splitRuns sampleConfig).Steps succeededFirst (cancelledLate ⟨true, true, true⟩) ∧
      (succeededFirst.db.runs.get? 2).map (·.status) = some .succeeded ∧
      terminalEvents succeededFirst.db.events 2 = 1 ∧
      ((cancelledLate ⟨true, true, true⟩).db.runs.get? 2).map (·.status) = some .cancelled ∧
      terminalEvents (cancelledLate ⟨true, true, true⟩).db.events 2 = 2 := by
  have hlegal : System.Legal (runCalls sampleConfig).step (Protocol.Guarded fun _ a =>
      a.isSpelledOut = true) ⟨sampleDb, []⟩ succeedFirst := by decide +kernel
  have hcommit : System.Legal (runCalls sampleConfig).step (Protocol.Guarded fun _ a =>
      a.isSpelledOut = true) succeededFirst [.commit 0 ⟨true, true, true⟩] := by decide +kernel
  refine ⟨.steps (.of_init sample_splitRuns_init)
    (.run (hlegal.mono fun _ _ _ => splitRuns_guarded)),
    .run (hcommit.mono fun _ _ _ => splitRuns_guarded), by decide +kernel, by decide +kernel, ?_⟩
  decide +kernel

end Friday.Runs
