import FridayAssistant.Runs.WorkflowEffects
/-!
# No lost work

A run that is QUEUED or RUNNING has one row in `run_work_items`, a run that waits has none. The
invariant needs no side condition and no other invariant: each move that changes a status also
writes the item that goes with it. Ended runs are free: `CancelTask` leaves their item behind.
-/
namespace Friday.Runs
open Tables Table Queue Relation Transition

variable {g : Guard} {c : Core}

/-- A live run has a work item exactly when it does not wait. -/
def WorkOk (c : Core) : Prop :=
  ∀ k r, c.runs.get? k = some r → r.status.isTerminal = false →
    (c.workQueue.get? k).isSome = !r.status.isWaiting

/-! ## What each kind of write keeps -/

variable {r : Run}

/-- A run is saved and its item written. -/
theorem WorkOk.enqueued {at₁ at₂ : Time} (h : WorkOk c) (hr : r.status = .queued ∨
    r.status = .running) : WorkOk ((c.withRun r).addItem r.id at₁ at₂) := by
  intro k x hx hlive
  have hx' : (c.withRun r).runs.get? k = some x := hx
  rw [Core.get?_withRun] at hx'
  split at hx'
  · next hk =>
    cases hx'
    subst hk
    have hitem : (((c.withRun r).addItem r.id at₁ at₂).workQueue.get? r.id).isSome = true := isSome_enqueue_self
    rw [hitem]
    rcases hr with hs | hs <;> rw [hs] <;> rfl
  · next hk =>
    have hitem : ((c.withRun r).addItem r.id at₁ at₂).workQueue.get? k = c.workQueue.get? k := get?_enqueue_ne hk
    rw [hitem]
    exact h k x hx' hlive

/-- A run that waits or has ended is saved and its item removed. -/
theorem WorkOk.parked (h : WorkOk c) (hr : r.status.isTerminal = true ∨ r.status.isWaiting = true) :
    WorkOk ((c.withRun r).dropItem r.id) := by
  intro k x hx hlive
  have hx' : (c.withRun r).runs.get? k = some x := hx
  rw [Core.get?_withRun] at hx'
  rw [Core.get?_dropItem]
  split at hx'
  · next hk =>
    cases hx'
    rw [if_pos hk]
    rcases hr with hs | hs
    · rw [hs] at hlive; cases hlive
    · rw [hs]; rfl
  · next hk =>
    rw [if_neg hk]
    exact h k x hx' hlive

/-- A run is saved with a status that needs the same item, or none. -/
theorem WorkOk.saved {r' : Run} (h : WorkOk c) (hr : c.runs.get? r.id = some r) (hid : r'.id = r.id)
    (hstatus : r'.status.isTerminal = true ∨
      r.status.isTerminal = false ∧ r'.status.isWaiting = r.status.isWaiting) : WorkOk (c.withRun r') := by
  intro k x hx hlive
  rw [Core.get?_withRun] at hx
  split at hx
  · next hk =>
    cases hx
    rcases hstatus with hs | ⟨hl, hs⟩
    · rw [hs] at hlive; cases hlive
    · rw [hs]
      exact h k r (by rw [← hk, hid]; exact hr) hl
  · exact h k x hx hlive

theorem WorkOk.wake {q : DelegationRequest} {now : Time} (h : WorkOk c) :
    WorkOk (c.wake q now) := by
  unfold Core.wake
  split
  · exact h
  · split
    · exact h.enqueued (.inr rfl)
    · exact h

theorem WorkOk.settle {executionId : RunId} {now : Time} (h : WorkOk c) :
    WorkOk (c.settle executionId now) := by
  unfold Core.settle
  split
  · exact h
  · split
    · exact h
    · split
      · exact h
      · exact WorkOk.wake h

/-! ## Moves and runs -/

theorem WorkOk.move {c' : Core} (h : WorkOk c) (hm : Move g c c') : WorkOk c' := by
  cases hm with
  | create _ queued _ | retry _ _ _ _ queued _ _ _ => exact h.enqueued (.inl queued)
  | start hr queued same running =>
    exact h.saved hr same.id (.inr (by rw [queued, running]; exact ⟨rfl, rfl⟩))
  | queue kept =>
    intro k r hr hlive
    rcases kept k with hk | ⟨hnone, hstale⟩
    · exact hk.trans (h k r hr hlive)
    · -- only an item of a waiting run can have gone
      have hr' : c.runs.get? k = some r := hr
      rw [hr'] at hstale
      have hwaiting : r.status.isWaiting = true := by simpa [isStale, hlive] using hstale
      rw [hnone, hwaiting]
      rfl
  | park hr _ _ _ _ _ same waiting _ | startWorkflow hr _ _ _ _ _ same waiting _ =>
    rw [← same.id]
    exact WorkOk.parked h (.inr (by rw [waiting]; rfl))
  | resolve | approval | request | bind | unbind | endWorkflow => exact h
  | resume ha _ _ _ _ hr _ _ _ same running =>
    rw [← same.id]
    exact WorkOk.enqueued h (.inr running)
  | @dispatch p p' child q at₁ at₂ _ _ _ queued _ _ _ _ _ _ _ same waiting _ =>
    rw [← same.id]
    have hchild : WorkOk (({ c with delegationRequests := c.delegationRequests.put q }.withRun
      child).addItem child.id at₁ at₂) := WorkOk.enqueued h (.inl queued)
    exact hchild.parked (.inr (by rw [waiting]; rfl))
  | finish hr _ same ended =>
    rw [← same.id]
    exact (h.parked (.inl (isTerminal_of_ended ended))).settle
  | finishRetry hr _ same ended _ queued _ _ _ =>
    rw [← same.id]
    exact (h.parked (.inl (by rw [ended]; rfl))).enqueued (.inl queued)
  | @cancel r r' approvals now hr _ _ same cancelled _ =>
    rw [← same.id]
    have h' : WorkOk { c with approvals := approvals } := h
    exact (h'.parked (.inl (by rw [cancelled]; rfl))).settle
  | viaTask hr _ _ _ same cancelled => exact h.saved hr same.id (.inl (by rw [cancelled]; rfl))
  | finishWorkflow _ _ _ _ hr _ _ _ same terminal =>
    rw [← same.id]
    exact WorkOk.parked h (.inl terminal)

theorem workOk_empty : WorkOk .empty := fun _ _ hr => by cases hr

theorem workOk_reachable {cfg : Config} {db : Db} (h : (runSystem cfg).Reachable db) :
    WorkOk db.toCore :=
  reachable_keep cfg (fun _ hinit => hinit)
    (fun db a _ hnext => ⟨allowed_free db a, fun _ _ _ => trivial, runSystem_next hnext⟩)
    workOk_empty WorkOk.move h

/-- **No lost work.** In every state the committed use cases can reach, a QUEUED or RUNNING run has
exactly one work item and a waiting run has none. -/
theorem no_lost_work (cfg : Config) (db : Db) (h : (runSystem cfg).Reachable db) (r : Run) (hr : r ∈ db.runs.rows) :
    (r.status = .queued ∨ r.status = .running → db.workQueue.rows.countP (·.runId = r.id) = 1) ∧
    (r.status.isWaiting = true → db.workQueue.rows.countP (·.runId = r.id) = 0) := by
  have hitem := workOk_reachable h r.id r (Table.mem_rows.1 hr)
  have hcount : db.workQueue.rows.countP (·.runId = r.id) = if (db.workQueue.get? r.id).isSome then 1 else 0 :=
    countP_key db.workQueue r.id
  rw [hcount]
  constructor
  · rintro (hs | hs) <;> rw [hitem (by rw [hs]; rfl), hs] <;> rfl
  · intro hw
    have hlive : r.status.isTerminal = false := by cases hs : r.status <;> rw [hs] at hw <;> first | rfl | cases hw
    rw [hitem hlive, hw]
    rfl

/-- Two runs of one task: the first was claimed and waits for an approval, the second is queued. -/
theorem no_lost_work_sample :
    let db := System.run (commit sampleConfig) sampleDb [.createTask 1 "title" "" 0, .startRun 1 2 1,
      .claimNextRun sampleClaim 2, .startRun 1 3 3,
      .requestApproval ⟨2, .other, "summary", "", "action", .null, none, none, none⟩ 10 4]
    (db.runs.get? 2).map (·.status) = some .waitingForApproval ∧
      db.workQueue.rows.countP (·.runId = 2) = 0 ∧ (db.runs.get? 3).map (·.status) = some .queued ∧
      db.workQueue.rows.countP (·.runId = 3) = 1 := by
  intro db
  have hreach : (runSystem sampleConfig).Reachable db := sample_reachable (by decide +kernel)
  have h₂ : (db.runs.get? 2).map (·.status) = some .waitingForApproval := by decide +kernel
  have h₃ : (db.runs.get? 3).map (·.status) = some .queued := by decide +kernel
  obtain ⟨r₂, hr₂, hs₂⟩ := Option.map_eq_some_iff.1 h₂
  obtain ⟨r₃, hr₃, hs₃⟩ := Option.map_eq_some_iff.1 h₃
  have hid₂ : r₂.id = 2 := key_of_get? hr₂
  have hid₃ : r₃.id = 3 := key_of_get? hr₃
  refine ⟨h₂, ?_, h₃, ?_⟩
  · rw [← hid₂]
    exact (no_lost_work sampleConfig db hreach r₂ (mem_of_get? hr₂)).2 (by rw [hs₂]; rfl)
  · rw [← hid₃]
    exact (no_lost_work sampleConfig db hreach r₃ (mem_of_get? hr₃)).1 (.inl hs₃)

end Friday.Runs
