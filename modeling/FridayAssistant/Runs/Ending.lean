import FridayAssistant.Runs.Lineage
/-!
# When the parts of an ending go through

Every use case that ends a run shares three parts: live steps and tool invocations are cancelled,
the skill ledger is written (skill_usage.py) and, except in `CancelTask`, the delegation the run
was a child of is settled (delegation_reconciliation.py). This file says for each part exactly when
it goes through and what it leaves behind; every condition is one on the state before.

The loops over steps and tools are sweeps of their tables (`Tables.Table.Sweep`): ending a row
twice is ending it once, and a row that is not due raises whoever meets it first. So the order in
which several runs are ended does not matter.
-/
namespace Friday
open Tables Table
open ToolInvocations (listForRun)

namespace ToolInvocation

/-- What `cancel_tools` makes of an invocation; an ended one is skipped. -/
def ended (now : Time) (v : ToolInvocation) : ToolInvocation :=
  if v.status.isTerminal then v else { v with completedAt := some now, status := .cancelled }

/-- Nothing stops the cancellation: it has ended, or it did not start after `now`. -/
def canEnd (now : Time) (v : ToolInvocation) : Bool :=
  v.status.isTerminal || v.startedAt.getD v.requestedAt ≤ now

theorem cancel_eq_ok {v v' : ToolInvocation} {now : Time} (hlive : v.status.isTerminal = false) :
    v.cancel now = .ok v' ↔ v.canEnd now = true ∧ v' = v.ended now := by
  have hstatus : v.requireStatus [.requested, .running] .cancelled = .ok () := by
    simp only [requireStatus, require_eq_ok]
    cases hs : v.status <;> rw [hs] at hlive <;> first | rfl | cases hlive
  simp only [cancel, bind_eq_ok, hstatus, validatedEnd, require_eq_ok, pure_eq_ok]
  simp [canEnd, ended, hlive]

def sweep (now : Time) : Table.Sweep ToolInvocation where
  image := ended now
  allows := canEnd now
  key_image v := by unfold ended; split <;> rfl
  image_image v := by unfold ended; split <;> simp_all [ToolInvocationStatus.isTerminal]
  allows_image v := by unfold ended; split <;> simp_all [canEnd, ToolInvocationStatus.isTerminal]

theorem ended_runId (now : Time) (v : ToolInvocation) : (v.ended now).runId = v.runId := by
    unfold ended; split <;> rfl

theorem ended_stepId (now : Time) (v : ToolInvocation) : (v.ended now).stepId = v.stepId := by
  unfold ended; split <;> rfl

end ToolInvocation

namespace RunStep

/-- What the cascade makes of a step; an ended one is skipped. -/
def ended (now : Time) (s : RunStep) : RunStep :=
  if s.status.isTerminal then s
  else { s with endedAt := some now, approvalRequestId := none, status := .cancelled }

def canEnd (now : Time) (s : RunStep) : Bool :=
  s.status.isTerminal || s.startedAt.getD s.createdAt ≤ now

theorem cancel_eq_ok {s s' : RunStep} {now : Time} (hlive : s.status.isTerminal = false) :
    s.cancel now = .ok s' ↔ s.canEnd now = true ∧ s' = s.ended now := by
  have hstatus : s.requireStatus [.pending, .running, .waitingForApproval] .cancelled = .ok () := by
    simp only [requireStatus, require_eq_ok]
    cases hs : s.status <;> rw [hs] at hlive <;> first | rfl | cases hlive
  simp only [cancel, bind_eq_ok, hstatus, validatedEnd, require_eq_ok, pure_eq_ok]
  simp [canEnd, ended, hlive]

def sweep (now : Time) : Table.Sweep RunStep where
  image := ended now
  allows := canEnd now
  key_image s := by unfold ended; split <;> rfl
  image_image s := by unfold ended; split <;> simp_all [RunStepStatus.isTerminal]
  allows_image s := by unfold ended; split <;> simp_all [canEnd, RunStepStatus.isTerminal]

theorem ended_runId (now : Time) (s : RunStep) : (s.ended now).runId = s.runId := by
    unfold ended; split <;> rfl

end RunStep

namespace Runs
open Queue Relation

/-! ## Tools and steps -/

section
variable {now : Time}

variable {db db' : Db} {specs : List EventSpec} {runId k : RunId}

theorem cancelTool_eq_ok {v : ToolInvocation}
    (hv : v ∈ db.toolInvocations.rows) (h : cancelTool db v now = .ok (specs, db')) :
    Table.Swept (ToolInvocation.sweep now) (fun k => v.id = k) db.toolInvocations db'.toolInvocations := by
  unfold cancelTool at h
  split at h
  · next hended =>
    cases h
    exact .skip hv (if_pos hended) (by simp [ToolInvocation.sweep, ToolInvocation.canEnd, hended])
  · next hlive =>
    obtain ⟨v', hc, h⟩ := bind_ok h
    cases h
    obtain ⟨hok, rfl⟩ := (ToolInvocation.cancel_eq_ok (Bool.eq_false_of_not_eq_true hlive)).1 hc
    exact .one hv hok

theorem cancelTool_ok (db : Db) (v : ToolInvocation) : (∃ x, cancelTool db v now = .ok x) ↔
    v.canEnd now = true := by
  unfold cancelTool
  split
  · next hended => exact ⟨fun _ => by simp [ToolInvocation.canEnd, hended], fun _ => ⟨_, rfl⟩⟩
  · next hlive =>
    have hlive := Bool.eq_false_of_not_eq_true hlive
    rw [exists_bind_ok]
    refine ⟨fun ⟨v', hc, _⟩ => ((ToolInvocation.cancel_eq_ok hlive).1 hc).1, fun hok => ?_⟩
    exact ⟨_, (ToolInvocation.cancel_eq_ok hlive).2 ⟨hok, rfl⟩, _, rfl⟩

theorem cancelTools_eq_ok : ∀ {tools : List ToolInvocation} {db db' : Db} {specs : List EventSpec},
    cancelTools now db tools = .ok (specs, db') → (∀ v ∈ tools, v ∈ db.toolInvocations.rows) →
    (tools.map ToolInvocation.id).Nodup →
    Table.Swept (ToolInvocation.sweep now) (fun k => tools.any (·.id = k)) db.toolInvocations db'.toolInvocations
  | [], _, _, _, h, _, _ => by cases h; exact .refl
  | v :: tools, db, db', _, h, hin, hnodup => by
    obtain ⟨hnotin, hnodup⟩ := List.nodup_cons.1 hnodup
    obtain ⟨⟨_, db₁⟩, h₁, h⟩ := bind_ok h
    obtain ⟨⟨_, db₂⟩, h₂, h⟩ := bind_ok h
    cases h
    have hfirst := cancelTool_eq_ok (hin v List.mem_cons_self) h₁
    refine hfirst.trans (cancelTools_eq_ok h₂ (fun x hx => ?_) hnodup)
    -- the visit has left the invocations to come as they were
    have hne : v.id ≠ x.id := fun e => hnotin (e ▸ List.mem_map_of_mem hx)
    rw [hfirst.rows]
    exact List.mem_map.2 ⟨x, hin x (List.mem_cons_of_mem _ hx), if_neg (by simpa using hne)⟩

theorem cancelTools_ok : ∀ (db : Db) (tools : List ToolInvocation),
    (∃ x, cancelTools now db tools = .ok x) ↔ tools.all (·.canEnd now) = true
  | _, [] => ⟨fun _ => rfl, fun _ => ⟨_, rfl⟩⟩
  | db, v :: tools => by
    rw [cancelTools, exists_bind_ok, List.all_cons, Bool.and_eq_true, ← cancelTool_ok db]
    constructor
    · rintro ⟨⟨_, db₁⟩, h₁, hrest⟩
      obtain ⟨x, hx, -⟩ := exists_bind_ok.1 hrest
      exact ⟨⟨_, h₁⟩, (cancelTools_ok db₁ tools).1 ⟨x, hx⟩⟩
    · rintro ⟨⟨⟨_, db₁⟩, h₁⟩, hrest⟩
      obtain ⟨x, hx⟩ := (cancelTools_ok db₁ tools).2 hrest
      exact ⟨_, h₁, exists_bind_ok.2 ⟨x, hx, _, rfl⟩⟩

theorem cancelTools_steps : ∀ {tools : List ToolInvocation} {db db' : Db} {specs : List EventSpec},
    cancelTools now db tools = .ok (specs, db') → db'.steps = db.steps
  | [], _, _, _, h => by cases h; rfl
  | v :: tools, db, _, _, h => by
    obtain ⟨⟨_, db₁⟩, h₁, h⟩ := bind_ok h
    obtain ⟨⟨_, db₂⟩, h₂, h⟩ := bind_ok h
    cases h
    have hfirst : db₁.steps = db.steps := by
      unfold cancelTool at h₁
      split at h₁
      · cases h₁; rfl
      · obtain ⟨_, h₁⟩ := bind_rest h₁
        cases h₁; rfl
    rw [cancelTools_steps h₂, hfirst]

theorem nodup_insertionSort_select {ρ κ : Type} [Keyed ρ κ] {t : Table ρ} {p : ρ → Bool}
    {order : ρ → ρ → Prop} [DecidableRel order] :
    (((t.select p).insertionSort order).map key).Nodup := by
  have hperm := (List.perm_insertionSort order (t.select p)).map (key : ρ → κ)
  exact hperm.nodup_iff.2 (t.nodup.sublist (List.filter_sublist.map key))

theorem all_insertionSort {α : Type} {order : α → α → Prop} [DecidableRel order] {l : List α}
    {p : α → Bool} : (l.insertionSort order).all p = l.all p :=
  (List.perm_insertionSort order l).all_eq

theorem cancelStep_tools {s : RunStep} (h : cancelStep db s now = .ok (specs, db')) :
    ∃ P, Table.Swept (ToolInvocation.sweep now) P db.toolInvocations db'.toolInvocations := by
  unfold cancelStep at h
  split at h
  · cases h; exact ⟨_, .refl⟩
  · obtain ⟨s', -, ⟨_, db₁⟩, htools, h⟩ := bind_ok₂ h
    cases h
    have hswept := cancelTools_eq_ok htools (fun v hv => mem_of_get? (mem_select.1 ((List.mem_insertionSort _).1 hv)).1) nodup_insertionSort_select
    exact ⟨_, hswept⟩

theorem cancelStep_eq_ok {s : RunStep} (hs : s ∈ db.steps.rows) (h : cancelStep db s now = .ok (specs, db')) :
    Table.Swept (RunStep.sweep now) (fun k => s.id = k) db.steps db'.steps := by
  unfold cancelStep at h
  split at h
  · next hended =>
    cases h
    exact .skip hs (if_pos hended) (by simp [RunStep.sweep, RunStep.canEnd, hended])
  · next hlive =>
    obtain ⟨s', hc, ⟨_, db₁⟩, htools, h⟩ := bind_ok₂ h
    cases h
    obtain ⟨hok, rfl⟩ := (RunStep.cancel_eq_ok (Bool.eq_false_of_not_eq_true hlive)).1 hc
    have hsteps : db'.steps = db.steps.put (s.ended now) := cancelTools_steps htools
    rw [hsteps]
    exact .one hs hok

/-- The step and, if it still lives, its tools can end. -/
def stepTimely (db : Db) (now : Time) (s : RunStep) : Bool :=
  s.canEnd now && (s.status.isTerminal || (toolsForStep db s.id).all (·.canEnd now))

theorem cancelStep_ok (db : Db) (s : RunStep) : (∃ x, cancelStep db s now = .ok x) ↔
    stepTimely db now s = true := by
  unfold cancelStep stepTimely
  split
  · next hended => exact ⟨fun _ => by simp [RunStep.canEnd, hended], fun _ => ⟨_, rfl⟩⟩
  · next hlive =>
    have hlive := Bool.eq_false_of_not_eq_true hlive
    rw [exists_bind_ok, Bool.and_eq_true, hlive, Bool.false_or]
    constructor
    · rintro ⟨s', hc, hrest⟩
      obtain ⟨x, hx, -⟩ := exists_bind_ok.1 hrest
      exact ⟨((RunStep.cancel_eq_ok hlive).1 hc).1, (cancelTools_ok _ _).1 ⟨x, hx⟩⟩
    · rintro ⟨hok, htools⟩
      obtain ⟨x, hx⟩ := (cancelTools_ok { db with steps := db.steps.put (s.ended now) } (toolsForStep db s.id)).2 htools
      exact ⟨_, (RunStep.cancel_eq_ok hlive).2 ⟨hok, rfl⟩, exists_bind_ok.2 ⟨x, hx, _, rfl⟩⟩

theorem stepTimely_swept {P : ToolInvocationId → Bool} (s : RunStep)
    (h : Table.Swept (ToolInvocation.sweep now) P db.toolInvocations db'.toolInvocations) :
    stepTimely db' now s = stepTimely db now s := by
  have htools := h.all_select (p := fun v => v.stepId = some s.id) fun v => by
    rw [show ((ToolInvocation.sweep now).image v).stepId = v.stepId from v.ended_stepId now]
  rw [stepTimely, stepTimely, toolsForStep, toolsForStep, all_insertionSort, all_insertionSort]
  exact congrArg (fun b => s.canEnd now && (s.status.isTerminal || b)) htools

theorem cancelSteps_tools : ∀ {steps : List RunStep} {db db' : Db} {specs : List EventSpec},
    cancelSteps now db steps = .ok (specs, db') →
    ∃ P, Table.Swept (ToolInvocation.sweep now) P db.toolInvocations db'.toolInvocations
  | [], _, _, _, h => by cases h; exact ⟨_, .refl⟩
  | s :: steps, db, _, _, h => by
    obtain ⟨⟨_, db₁⟩, h₁, h⟩ := bind_ok h
    obtain ⟨⟨_, db₂⟩, h₂, h⟩ := bind_ok h
    cases h
    obtain ⟨_, hfirst⟩ := cancelStep_tools h₁
    obtain ⟨_, hrest⟩ := cancelSteps_tools h₂
    exact ⟨_, hfirst.trans hrest⟩

theorem cancelSteps_eq_ok : ∀ {steps : List RunStep} {db db' : Db} {specs : List EventSpec},
    cancelSteps now db steps = .ok (specs, db') → (∀ s ∈ steps, s ∈ db.steps.rows) → (steps.map RunStep.id).Nodup →
    Table.Swept (RunStep.sweep now) (fun k => steps.any (·.id = k)) db.steps db'.steps
  | [], _, _, _, h, _, _ => by cases h; exact .refl
  | s :: steps, db, _, _, h, hin, hnodup => by
    obtain ⟨hnotin, hnodup⟩ := List.nodup_cons.1 hnodup
    obtain ⟨⟨_, db₁⟩, h₁, h⟩ := bind_ok h
    obtain ⟨⟨_, db₂⟩, h₂, h⟩ := bind_ok h
    cases h
    have hfirst := cancelStep_eq_ok (hin s List.mem_cons_self) h₁
    refine hfirst.trans (cancelSteps_eq_ok h₂ (fun x hx => ?_) hnodup)
    have hne : s.id ≠ x.id := fun e => hnotin (e ▸ List.mem_map_of_mem hx)
    rw [hfirst.rows]
    exact List.mem_map.2 ⟨x, hin x (List.mem_cons_of_mem _ hx), if_neg (by simpa using hne)⟩

theorem cancelSteps_ok : ∀ (db : Db) (steps : List RunStep),
    (∃ x, cancelSteps now db steps = .ok x) ↔ steps.all (stepTimely db now) = true
  | _, [] => ⟨fun _ => rfl, fun _ => ⟨_, rfl⟩⟩
  | db, s :: steps => by
    -- ending the tools of one step does not change what the later steps meet
    have hlater : ∀ {x : List EventSpec × Db}, cancelStep db s now = .ok x →
        steps.all (stepTimely x.2 now) = steps.all (stepTimely db now) := by
      intro x hx
      obtain ⟨_, hswept⟩ := cancelStep_tools hx
      exact congrArg steps.all (funext fun s => stepTimely_swept s hswept)
    rw [cancelSteps, exists_bind_ok, List.all_cons, Bool.and_eq_true, ← cancelStep_ok db]
    constructor
    · rintro ⟨⟨_, db₁⟩, h₁, hrest⟩
      obtain ⟨x, hx, -⟩ := exists_bind_ok.1 hrest
      exact ⟨⟨_, h₁⟩, hlater h₁ ▸ (cancelSteps_ok db₁ steps).1 ⟨x, hx⟩⟩
    · rintro ⟨⟨⟨_, db₁⟩, h₁⟩, hrest⟩
      obtain ⟨x, hx⟩ := (cancelSteps_ok db₁ steps).2 ((hlater h₁).trans hrest)
      exact ⟨_, h₁, exists_bind_ok.2 ⟨x, hx, _, rfl⟩⟩

/-- Nothing a run has under way started after `now`. -/
def descendantsTimely (db : Db) (runId : RunId) (now : Time) : Bool :=
  (db.steps.listForRun runId).all (stepTimely db now) &&
    (db.toolInvocations.listForRun runId).all (·.canEnd now)

/-- What the cascade of a run does to steps and tools: all of the run's have ended, and the steps of
other runs are as they were. -/
structure Cascaded (now : Time) (runId : RunId) (db db' : Db) : Prop where
  steps : ∃ P, Table.Swept (RunStep.sweep now) P db.steps db'.steps
  tools : ∃ P, Table.Swept (ToolInvocation.sweep now) P db.toolInvocations db'.toolInvocations
  stepsEnded : ∀ s ∈ db'.steps.select (·.runId = runId), s.ended now = s
  toolsEnded : ∀ v ∈ db'.toolInvocations.select (·.runId = runId), v.ended now = v
  others : ∀ k ≠ runId, db'.steps.select (·.runId = k) = db.steps.select (·.runId = k)

theorem step_image_runId (k : RunId) (s : RunStep) :
    decide (((RunStep.sweep now).image s).runId = k) = decide (s.runId = k) := by
  rw [show ((RunStep.sweep now).image s).runId = s.runId from s.ended_runId now]

theorem tool_image_runId (k : RunId) (v : ToolInvocation) :
    decide (((ToolInvocation.sweep now).image v).runId = k) = decide (v.runId = k) := by
  rw [show ((ToolInvocation.sweep now).image v).runId = v.runId from v.ended_runId now]

theorem cancelDescendants_ok (db : Db) (runId : RunId) :
    (∃ x, cancelDescendants db runId now = .ok x) ↔ descendantsTimely db runId now = true := by
  have hlater : ∀ {x : List EventSpec × Db}, cancelSteps now db (db.steps.listForRun runId) = .ok x →
      (x.2.toolInvocations.listForRun runId).all (·.canEnd now) =
        (db.toolInvocations.listForRun runId).all (·.canEnd now) := by
    intro x hx
    obtain ⟨_, hswept⟩ := cancelSteps_tools hx
    rw [listForRun, listForRun, all_insertionSort, all_insertionSort]
    exact hswept.all_select (tool_image_runId runId)
  rw [cancelDescendants, exists_bind_ok, descendantsTimely, Bool.and_eq_true, ← cancelSteps_ok]
  constructor
  · rintro ⟨⟨_, db₁⟩, h₁, hrest⟩
    obtain ⟨x, hx, -⟩ := exists_bind_ok.1 hrest
    exact ⟨⟨_, h₁⟩, hlater h₁ ▸ (cancelTools_ok _ _).1 ⟨x, hx⟩⟩
  · rintro ⟨⟨⟨_, db₁⟩, h₁⟩, hrest⟩
    obtain ⟨x, hx⟩ := (cancelTools_ok db₁ _).2 ((hlater h₁).trans hrest)
    exact ⟨_, h₁, exists_bind_ok.2 ⟨x, hx, _, rfl⟩⟩

theorem cancelDescendants_eq_ok
    (h : cancelDescendants db runId now = .ok (specs, db')) : Cascaded now runId db db' := by
  obtain ⟨⟨_, db₁⟩, h₁, h⟩ := bind_ok h
  obtain ⟨⟨_, db₂⟩, h₂, h⟩ := bind_ok h
  cases h
  have hlist : ∀ {s : RunStep}, s ∈ db.steps.listForRun runId ↔ s ∈ db.steps.rows ∧ s.runId = runId := by
    intro s
    rw [RunSteps.listForRun, List.mem_insertionSort, mem_select, ← mem_rows, decide_eq_true_iff]
  have htools : ∀ {v : ToolInvocation}, v ∈ db₁.toolInvocations.listForRun runId ↔
      v ∈ db₁.toolInvocations.rows ∧ v.runId = runId := by
    intro v
    rw [listForRun, List.mem_insertionSort, mem_select, ← mem_rows, decide_eq_true_iff]
  have hsteps := cancelSteps_eq_ok h₁ (fun s hs => (hlist.1 hs).1) nodup_insertionSort_select
  have hrest := cancelTools_eq_ok h₂ (fun v hv => (htools.1 hv).1) nodup_insertionSort_select
  obtain ⟨_, hfirst⟩ := cancelSteps_tools h₁
  have hsame := cancelTools_steps h₂
  rw [← hsame] at hsteps
  refine ⟨⟨_, hsteps⟩, ⟨_, hfirst.trans hrest⟩, ?_, ?_, fun k hk => ?_⟩
  · refine hsteps.fixed (step_image_runId runId) fun s hs => .inl ?_
    obtain ⟨hin, hof⟩ := List.mem_filter.1 hs
    exact List.any_eq_true.2 ⟨s, hlist.2 ⟨hin, of_decide_eq_true hof⟩, decide_eq_true rfl⟩
  · refine hrest.fixed (tool_image_runId runId) fun v hv => .inl ?_
    obtain ⟨hin, hof⟩ := List.mem_filter.1 hv
    exact List.any_eq_true.2 ⟨v, htools.2 ⟨hin, of_decide_eq_true hof⟩, decide_eq_true rfl⟩
  · -- the steps that were visited are of the run
    rw [hsteps.select (step_image_runId k)]
    refine (List.map_congr_left fun s hs => ?_).trans (List.map_id _)
    obtain ⟨hin, hof⟩ := List.mem_filter.1 hs
    refine if_neg fun hvisited => hk ?_
    obtain ⟨x, hx, hid⟩ := List.any_eq_true.1 hvisited
    obtain ⟨hxin, hxof⟩ := hlist.1 hx
    rw [← of_decide_eq_true hof, ← hxof, eq_of_key hin hxin (of_decide_eq_true hid).symm]

section
variable (h : Cascaded now runId db db')
include h

/-- The cascade of one run changes nothing for the cascade of another. -/
theorem Cascaded.timely (hk : k ≠ runId) :
    descendantsTimely db' k now = descendantsTimely db k now := by
  obtain ⟨_, htools⟩ := h.tools
  have hsteps : db'.steps.listForRun k = db.steps.listForRun k :=
    congrArg (List.insertionSort RunStep.stepOrder) (h.others k hk)
  rw [descendantsTimely, descendantsTimely, hsteps, show stepTimely db' now = stepTimely db now from
    funext fun s => stepTimely_swept s htools, listForRun, listForRun,
    all_insertionSort, all_insertionSort]
  exact congrArg (_ && ·) (htools.all_select (tool_image_runId k))

/-- Everything the run had under way has ended. -/
def AllEnded (now : Time) (k : RunId) (db : Db) : Prop :=
  (∀ s ∈ db.steps.select (·.runId = k), s.ended now = s) ∧
    ∀ v ∈ db.toolInvocations.select (·.runId = k), v.ended now = v

/-- The run's steps and tools would end in the same rows. -/
def EndsAlike (now : Time) (k : RunId) (db db' : Db) : Prop :=
  (db'.steps.select (·.runId = k)).map (·.ended now) = (db.steps.select (·.runId = k)).map (·.ended now) ∧
    (db'.toolInvocations.select (·.runId = k)).map (·.ended now) =
      (db.toolInvocations.select (·.runId = k)).map (·.ended now)

theorem Cascaded.endsAlike (k : RunId) :
    EndsAlike now k db db' := by
  obtain ⟨_, hsteps⟩ := h.steps
  obtain ⟨_, htools⟩ := h.tools
  exact ⟨hsteps.map_select (step_image_runId k), htools.map_select (tool_image_runId k)⟩

theorem Cascaded.allEnded : AllEnded now runId db' :=
  ⟨h.stepsEnded, h.toolsEnded⟩

theorem Cascaded.keep_allEnded (hended : AllEnded now k db) : AllEnded now k db' := by
  obtain ⟨_, hsteps⟩ := h.steps
  obtain ⟨_, htools⟩ := h.tools
  exact ⟨hsteps.fixed (step_image_runId k) fun s hs => .inr (hended.1 s hs),
    htools.fixed (tool_image_runId k) fun v hv => .inr (hended.2 v hv)⟩

end

/-- Two ways to end everything a run had under way leave the same rows. -/
theorem descendants_eq {db₁ db₂ : Db} (h₁ : EndsAlike now k db db₁) (h₂ : EndsAlike now k db db₂)
    (hended₁ : AllEnded now k db₁) (hended₂ : AllEnded now k db₂) :
    db₁.steps.listForRun k = db₂.steps.listForRun k ∧
      db₁.toolInvocations.listForRun k = db₂.toolInvocations.listForRun k := by
  have hfixed : ∀ {α : Type} {f : α → α} {l₁ l₂ : List α}, (∀ x ∈ l₁, f x = x) →
      (∀ x ∈ l₂, f x = x) → l₁.map f = l₂.map f → l₁ = l₂ := by
    intro α f l₁ l₂ hf₁ hf₂ h
    rwa [List.map_congr_left hf₁, List.map_congr_left hf₂, List.map_id', List.map_id'] at h
  exact ⟨congrArg (List.insertionSort RunStep.stepOrder)
    (hfixed hended₁.1 hended₂.1 (h₁.1.trans h₂.1.symm)),
    congrArg (List.insertionSort ToolInvocation.requestOrder)
    (hfixed hended₁.2 hended₂.2 (h₁.2.trans h₂.2.symm))⟩

end
/-! ## The skill ledger -/

theorem one_le_ordinal {t : RunTable} {r : Run} (hr : t.get? r.id = some r) :
    1 ≤ t.ordinalForExecution r.id := by
  have hmem : r ∈ t.listForExecution r.executionId := RunTable.mem_listForExecution.2 ⟨hr, rfl⟩
  have hidx : ((t.listForExecution r.executionId).findIdx? (·.id = r.id)).isSome = true := by
    rw [List.findIdx?_isSome]
    exact List.any_eq_true.2 ⟨r, hmem, decide_eq_true rfl⟩
  obtain ⟨i, hi⟩ := Option.isSome_iff_exists.1 hidx
  simp [RunTable.ordinalForExecution, hr, hi]

/-- The outcome of an ended run is one the ledger accepts. -/
def usageOk (r : Run) : Bool :=
  if r.status = .failed then r.failure.any fun f => SkillUsageRecord.isUsageCode f.code else r.failure.isNone

/-- A frozen skill of an ended run gets its record: it has one, or can get one. -/
def bindingOk (db : Db) (r : Run) (b : RunSkillBinding) : Bool :=
  (db.skillUsageRecords.get? (r.id, b.skillId)).isSome ||
    (usageOk r && 1 ≤ b.position && b.position ≤ 16)

def ledgerOk (db : Db) (r : Run) : Bool :=
  (db.runSkillResolutions.get? r.id).isNone ||
    (db.runSkillBindings.listForRun r.id).all (bindingOk db r)

/-- A run that has ended, and not before it started. -/
structure EndedRun (now : Time) (r : Run) : Prop where
  terminal : r.status.isTerminal = true
  started : r.startedAt.all (· ≤ r.endedAt.getD now) = true

section
variable {now : Time} {r : Run} {resolution : RunSkillResolution} {attempt : Nat}

/-- Only records of the run are added. -/
theorem recordUsage_records : ∀ {bindings : List RunSkillBinding} {db db' : Db},
    recordUsage r resolution attempt now db bindings = .ok db' → ∀ k, k.1 ≠ r.id →
    db'.skillUsageRecords.get? k = db.skillUsageRecords.get? k
  | [], _, _, h, _, _ => by cases h; rfl
  | b :: bindings, db, _, h, k, hk => by
    unfold recordUsage at h
    split at h
    · exact recordUsage_records h k hk
    · obtain ⟨_, h⟩ := bind_rest h
      obtain ⟨records, hadd, h⟩ := bind_ok h
      rw [recordUsage_records h k hk]
      obtain ⟨_, hadd⟩ := bind_rest hadd
      cases hadd
      cases hins : db.skillUsageRecords.insert? (usageRecord db r resolution attempt b now) with
      | none => rfl
      | some t =>
        obtain ⟨-, rfl⟩ := insert?_eq_some.1 hins
        exact get?_put_ne fun e => hk (congrArg Prod.fst e).symm

theorem usageRecord_duration (db : Db) (b : RunSkillBinding) (hr : EndedRun now r) :
    (usageRecord db r resolution attempt b now).durationMs.all (0 ≤ ·) = true := by
  show (r.startedAt.map fun started => (r.endedAt.getD now - started).tdiv 1000).all (0 ≤ ·) = true
  cases hs : r.startedAt with
  | none => rfl
  | some started =>
    have hle : started ≤ r.endedAt.getD now := by simpa [hs] using hr.started
    simpa using Int.tdiv_nonneg (Int.sub_nonneg_of_le hle) (by decide)

theorem usageOutcome_failed (s : RunStatus) : usageOutcome s = .failed ↔ s = .failed := by
  cases s <;> simp [usageOutcome]

theorem ne_empty_of_isUsageCode {s : String} (h : SkillUsageRecord.isUsageCode s = true) :
    s ≠ "" := by
  rintro rfl
  cases h

/-- The row asks for more than the aggregate does. -/
theorem validate_of_rowOk {u : SkillUsageRecord} (h : u.rowOk = true) : u.validate = .ok () := by
  simp only [SkillUsageRecord.rowOk, Bool.and_eq_true, Bool.or_eq_true, decide_eq_true_iff] at h
  obtain ⟨⟨⟨hattempt, hduration⟩, hposition, -⟩, houtcome⟩ := h
  simp only [SkillUsageRecord.validate, bind_eq_ok, require_eq_ok, Bool.and_eq_true,
    Bool.or_eq_true, decide_eq_true_iff]
  refine ⟨(), ⟨hposition, hattempt⟩, (), hduration, (), ?_, houtcome.imp And.left And.right⟩
  rcases houtcome with ⟨-, hcode⟩ | ⟨hne, -⟩
  · obtain ⟨code, hsome, husage⟩ := (Option.any_eq_true _ _).1 hcode
    exact .inr ((Option.any_eq_true _ _).2 ⟨code, hsome, decide_eq_true (ne_empty_of_isUsageCode husage)⟩)
  · exact .inl hne

variable (resolution) in
theorem usageRecord_rowOk (db : Db) (b : RunSkillBinding) (hr : EndedRun now r)
    (hattempt : 1 ≤ attempt) : (usageRecord db r resolution attempt b now).rowOk =
    (usageOk r && 1 ≤ b.position && b.position ≤ 16) := by
  have hcode : ((usageOutcome r.status = .failed && (r.failure.map (·.code)).any SkillUsageRecord.isUsageCode) ||
      (usageOutcome r.status ≠ .failed && (r.failure.map (·.code)).isNone)) = usageOk r := by
    by_cases hs : r.status = .failed
    · cases hf : r.failure <;> simp [usageOk, usageOutcome_failed, hs, hf]
    · simp [usageOk, usageOutcome_failed, hs]
  have hpos : decide (0 < attempt) = true := decide_eq_true hattempt
  rw [SkillUsageRecord.rowOk, usageRecord_duration db b hr, ← hcode]
  show (decide (0 < attempt) && true && (decide (1 ≤ b.position) && decide (b.position ≤ 16)) &&
    _) = _
  rw [hpos, Bool.true_and, Bool.true_and, Bool.and_assoc _ (decide (1 ≤ b.position)), Bool.and_comm]
  rfl

variable (resolution) in
/-- The checks of the aggregate and of the row, together. -/
theorem usageRecord_ok (db : Db) (b : RunSkillBinding) (hr : EndedRun now r)
    (hattempt : 1 ≤ attempt) (t : SkillUsageRecords) :
    ((usageRecord db r resolution attempt b now).validate = .ok () ∧
      ∃ t', t.add (usageRecord db r resolution attempt b now) = .ok t') ↔
    (usageOk r && 1 ≤ b.position && b.position ≤ 16) = true := by
  have hrow : (∃ t', t.add (usageRecord db r resolution attempt b now) = .ok t') ↔
      (usageRecord db r resolution attempt b now).rowOk = true := by
    rw [SkillUsageRecords.add, exists_bind_ok]
    exact ⟨fun ⟨_, h, _⟩ => require_eq_ok.1 h, fun h => ⟨(), require_eq_ok.2 h, _, rfl⟩⟩
  rw [hrow, ← usageRecord_rowOk resolution db b hr hattempt]
  exact ⟨And.right, fun h => ⟨validate_of_rowOk h, h⟩⟩

variable {db : Db}

/-- Whether a record exists for a skill of the list is not changed by the records of the others. -/
theorem bindingOk_add {b x : RunSkillBinding} {t : SkillUsageRecords} (hne : b.skillId ≠ x.skillId)
    (h : db.skillUsageRecords.add (usageRecord db r resolution attempt b now) = .ok t) :
    bindingOk { db with skillUsageRecords := t } r x = bindingOk db r x := by
  obtain ⟨_, h⟩ := bind_rest h
  cases h
  cases hins : db.skillUsageRecords.insert? (usageRecord db r resolution attempt b now) with
  | none => rfl
  | some t =>
    obtain ⟨-, rfl⟩ := insert?_eq_some.1 hins
    have hget : (db.skillUsageRecords.put (usageRecord db r resolution attempt b now)).get? (r.id, x.skillId) =
        db.skillUsageRecords.get? (r.id, x.skillId) := get?_put_ne fun e => hne (congrArg Prod.snd e)
    simp [bindingOk, hget]

theorem recordUsage_ok (hr : EndedRun now r) (hattempt : 1 ≤ attempt) :
    ∀ (db : Db) (bindings : List RunSkillBinding), (bindings.map (·.skillId)).Nodup →
    ((∃ db', recordUsage r resolution attempt now db bindings = .ok db') ↔ bindings.all (bindingOk db r) = true)
  | _, [], _ => ⟨fun _ => rfl, fun _ => ⟨_, rfl⟩⟩
  | db, b :: bindings, hnodup => by
    obtain ⟨hnotin, hnodup⟩ := List.nodup_cons.1 hnodup
    rw [recordUsage, List.all_cons, Bool.and_eq_true]
    split
    · next hsome =>
      rw [recordUsage_ok hr hattempt db bindings hnodup, bindingOk, hsome, Bool.true_or]
      simp
    · next hnone =>
      have hb : bindingOk db r b = (usageOk r && 1 ≤ b.position && b.position ≤ 16) := by
        rw [bindingOk, Bool.eq_false_of_not_eq_true hnone, Bool.false_or]
      have hlater : ∀ {t : SkillUsageRecords},
          db.skillUsageRecords.add (usageRecord db r resolution attempt b now) = .ok t →
          bindings.all (bindingOk { db with skillUsageRecords := t } r) = bindings.all (bindingOk db r) := by
        intro t ht
        rw [Bool.eq_iff_iff, List.all_eq_true, List.all_eq_true]
        refine forall₂_congr fun x hx => ?_
        rw [bindingOk_add (fun e => hnotin (List.mem_map.2 ⟨x, hx, e.symm⟩)) ht]
      simp only [exists_bind_ok]
      rw [hb, ← usageRecord_ok resolution db b hr hattempt db.skillUsageRecords]
      constructor
      · rintro ⟨_, hvalid, t, ht, hrest⟩
        refine ⟨⟨hvalid, t, ht⟩, ?_⟩
        rw [← hlater ht]
        exact (recordUsage_ok hr hattempt _ bindings hnodup).1 hrest
      · rintro ⟨⟨hvalid, t, ht⟩, hrest⟩
        exact ⟨(), hvalid, t, ht, (recordUsage_ok hr hattempt _ bindings hnodup).2 ((hlater ht).trans hrest)⟩

theorem nodup_skills (t : RunSkillBindings) (runId : RunId) :
    ((t.listForRun runId).map (·.skillId)).Nodup := by
  have hkeys : ((t.listForRun runId).map key).Nodup := nodup_insertionSort_select
  refine (List.nodup_map_iff_inj_on (hkeys.of_map)).2 fun x hx y hy he => ?_
  have hof : ∀ z ∈ t.listForRun runId, z.runId = runId := fun z hz =>
    of_decide_eq_true (mem_select.1 ((List.mem_insertionSort _).1 hz)).2
  refine List.inj_on_of_nodup_map hkeys hx hy ?_
  exact Prod.ext ((hof x hx).trans (hof y hy).symm) he

theorem materializeSkillUsage_ok (hget : db.runs.get? r.id = some r) (hr : EndedRun now r) :
    (∃ db', materializeSkillUsage db r.id now = .ok db') ↔ ledgerOk db r = true := by
  have hrun : getRun db r.id = .ok r := found_eq_ok.2 hget
  simp only [materializeSkillUsage, exists_bind_ok, hrun, hr.terminal, require_eq_ok,
    Except.ok.injEq, exists_eq_left', exists_const, true_and]
  rw [ledgerOk]
  cases hres : db.runSkillResolutions.get? r.id with
  | none => exact ⟨fun _ => rfl, fun _ => ⟨db, rfl⟩⟩
  | some resolution =>
    have hone := one_le_ordinal hget
    simp only [exists_bind_ok, require_eq_ok, decide_eq_true hone, exists_const, true_and,
      Option.isNone_some, Bool.false_or]
    exact recordUsage_ok hr hone db _ (nodup_skills _ _)

theorem materializeSkillUsage_records {db' : Db} {k : RunId × SkillId}
    (h : materializeSkillUsage db r.id now = .ok db') (hk : k.1 ≠ r.id) :
    db'.skillUsageRecords.get? k = db.skillUsageRecords.get? k := by
  obtain ⟨run, hrun, h⟩ := bind_ok h
  have hid := (getRun_eq_ok hrun).2
  obtain ⟨_, h⟩ := bind_rest h
  split at h
  · cases h; rfl
  · obtain ⟨_, h⟩ := bind_rest h
    exact recordUsage_records h k (by rw [hid]; exact hk)

theorem ledgerOk_congr {db' : Db} {x x' : Run} (hid : x'.id = x.id) (husage : usageOk x' = usageOk x)
    (hresolutions : db'.runSkillResolutions = db.runSkillResolutions) (hbindings : db'.runSkillBindings = db.runSkillBindings)
    (hrecords : ∀ k, k.1 = x.id → db'.skillUsageRecords.get? k = db.skillUsageRecords.get? k) :
    ledgerOk db' x' = ledgerOk db x := by
  have hok : bindingOk db' x' = bindingOk db x := by
    funext b
    rw [bindingOk, bindingOk, hid, husage, hrecords (x.id, b.skillId) rfl]
  rw [ledgerOk, ledgerOk, hid, hresolutions, hbindings, hok]

theorem SameButDescendants.ledgerOk {db db' : Db} (h : SameButDescendants db db') (x : Run) :
    ledgerOk db' x = ledgerOk db x := by
  rw [show db' = _ from h]
  rfl

end

/-! ## Settling a delegation -/

section
variable {now : Time} {db : Db} {r : Run}

/-- The code that the end of an attempt would give a delegation request is one it accepts. -/
def codeBounded (l : Run) : Bool :=
  l.status ≠ .failed ||
    DelegationRequest.isBounded DelegationRequest.maxFailureCodeLength
    ((l.failure.map (·.code)).getD "child_run_failed")

/-- No DISPATCHED request of the execution stands in the way of its end. -/
def settleable (requests : DelegationRequests) (runs : RunTable) (executionId : RunId) : Bool :=
  (requests.getForChildExecution runs executionId).all fun q =>
    q.status ≠ .dispatched || (runs.getLatestForExecution executionId).all codeBounded

theorem settleRequest_ok {q : DelegationRequest} {l : Run}
    {outcome : DelegationStatus × RunEventType × Option String} (hq : q.status = .dispatched)
    (ho : settlement l = some outcome) :
    (∃ q', settleRequest q outcome.1 now outcome.2.2 = .ok q') ↔ codeBounded l = true := by
  have hdispatched : ∀ target, q.requireStatus [.dispatched] target = .ok () := fun target => by
    simp [DelegationRequest.requireStatus, hq]
  unfold settlement at ho
  split at ho
  · next hs =>
    cases ho
    simp [settleRequest, DelegationRequest.succeed, hdispatched, codeBounded, hs]
  · next hs =>
    cases ho
    simp only [settleRequest, DelegationRequest.fail, exists_bind_ok, found_eq_ok,
      Option.some.injEq, exists_eq_left', hdispatched, require_eq_ok, codeBounded, hs]
    simp [pure, Except.pure]
  · next hs =>
    cases ho
    have hboth : q.requireStatus [.requested, .dispatched] "cancelled" = .ok () := by
      simp [DelegationRequest.requireStatus, hq]
    simp [settleRequest, DelegationRequest.cancel, hboth, codeBounded, hs]
  · cases ho

theorem wakeParent_ok (db : Db) (q : DelegationRequest) (spec : EventSpec) (now : Time) :
    ∃ db', wakeParent db q spec now = .ok db' := by
  unfold wakeParent
  split
  · exact ⟨_, rfl⟩
  · split
    · next hw =>
      rw [exists_bind_ok]
      exact ⟨_, Run.resumeFromDelegation_eq_ok.2 ⟨hw.1, rfl⟩, _, rfl⟩
    · exact ⟨_, rfl⟩

theorem settlement_eq_none {l : Run} (h : settlement l = none) : codeBounded l = true := by
  unfold settlement at h
  unfold codeBounded
  cases hs : l.status <;> rw [hs] at h <;> first | cases h; rfl | cases h

theorem reconcileChildTerminal_ok (db : Db) (run : Run) :
    (∃ db', reconcileChildTerminal db run now = .ok db') ↔
      settleable db.delegationRequests db.runs run.executionId = true := by
  rcases reconcile_cases db run now with ⟨heq, hnone⟩ | ⟨q, l, outcome, spec, hq, hs, hl,
    ho, -, heq⟩
  · refine ⟨fun _ => ?_, fun _ => ⟨db, heq⟩⟩
    simp only [settleable, Option.all_eq_true, Bool.or_eq_true, decide_eq_true_eq]
    intro q hq
    by_cases hs : q.status = .dispatched
    · exact .inr fun l hl => settlement_eq_none (hnone q l hq hs hl)
    · exact .inl hs
  · rw [heq, exists_bind_ok]
    simp only [wakeParent_ok, and_true, settleRequest_ok hs ho, settleable, hq, hl, Option.all_some]
    simp [hs]

variable {t : RunTable} {r' : Run}

/-- Saving an attempt again does not change the order of the attempts. -/
theorem listForExecution_put (hr : t.get? r.id = some r) (same : SameAttempt r r')
    (executionId : RunId) : RunTable.listForExecution (t.put r') executionId =
      (t.listForExecution executionId).map fun x => if r.id = x.id then r' else x := by
  have hin := mem_of_get? hr
  have hsame : ∀ x ∈ t.rows, SameAttempt x (if r.id = x.id then r' else x) := fun x hx => by
    split
    · next hk => rw [← eq_of_key hin hx hk]; exact same
    · exact .refl x
  refine insertionSort_select_put hin same.id (fun x hx => ?_) fun x hx y hy => ?_
  · exact congrArg (fun k => decide (k = executionId)) (hsame x hx).executionId
  · have hx' := hsame x hx
    have hy' := hsame y hy
    simp only [key_run, Run.creationOrder, hx'.createdAt, hy'.createdAt, hx'.id, hy'.id]

theorem ordinalForExecution_put (hr : t.get? r.id = some r) (same : SameAttempt r r') :
    RunTable.ordinalForExecution (t.put r') r.id = t.ordinalForExecution r.id := by
  have hget : Table.get? (t.put r') r.id = some r' := by
    rw [← same.id]
    exact get?_put_self t r'
  have hsame : ∀ x, (if r.id = x.id then r' else x).id = x.id := fun x => by
    split
    · next hk => rw [same.id, hk]
    · rfl
  simp only [RunTable.ordinalForExecution, hget, hr, same.executionId, listForExecution_put hr same,
    List.findIdx?_map, Function.comp_def, hsame]

/-- The delegation of a run can be settled when the run has become `r'`. -/
def settles (db : Db) (r r' : Run) : Bool :=
  (db.delegationRequests.getForChildExecution db.runs r.executionId).all fun q =>
    q.status ≠ .dispatched || (db.runs.getLatestForExecution r.executionId).all fun l =>
      codeBounded (if r.id = l.id then r' else l)

theorem settleable_put (hr : db.runs.get? r.id = some r) (same : SameAttempt r r') :
    settleable db.delegationRequests (db.runs.put r') r.executionId = settles db r r' := by
  rw [settleable, DelegationRequests.getForChildExecution_put r.executionId hr same.id
    same.executionId, RunTable.getLatestForExecution, listForExecution_put hr same,
    List.getLast?_map, settles, RunTable.getLatestForExecution]
  simp only [Option.all_map]

end

end Runs
end Friday
