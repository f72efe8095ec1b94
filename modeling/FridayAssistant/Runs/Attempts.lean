import FridayAssistant.Runs.Moves
/-!
# How the table of runs grows

Of a move only what it does to the runs: a live run is written, a first attempt is added, or a
further attempt of an execution is. A further attempt follows a live one (`next`) or is added when
nothing of the task is live (`again`), so two executions of one task never become live together.
-/
namespace Friday.Runs
open Tables Table

inductive AttemptStep (t : RunTable) : RunTable → Prop where
  | save {r r' : Run} (hr : t.get? r.id = some r) (live : r.status.isTerminal = false) (same : SameAttempt r r') :
      AttemptStep t (t.put r')
  | first {n : Run} (fresh : t.get? n.id = none) (root : n.executionId = n.id) : AttemptStep t (t.put n)
  | again {source n : Run} (hsource : t.get? source.id = some source)
      (ended : ∀ x, t.get? x.id = some x → x.taskId = source.taskId → x.status.isTerminal = true)
      (fresh : t.get? n.id = none) (task : n.taskId = source.taskId)
      (execution : n.executionId = source.executionId) : AttemptStep t (t.put n)
  | next {r r' n : Run} (hr : t.get? r.id = some r) (live : r.status.isTerminal = false) (same : SameAttempt r r')
      (fresh : t.get? n.id = none) (task : n.taskId = r.taskId)
      (execution : n.executionId = r.executionId) : AttemptStep t ((t.put r').put n)

abbrev AttemptSteps : RunTable → RunTable → Prop := Relation.ReflTransGen AttemptStep

theorem settle_attempts (c : Core) (executionId : RunId) (now : Time) :
    AttemptSteps c.runs (c.settle executionId now).runs := by
  rcases c.settle_runs executionId now with h | ⟨p, hp, hwaiting, h⟩
  · rw [h]
  · rw [h]
    exact .single (.save hp (by rw [hwaiting]; rfl) ⟨rfl, rfl, rfl, rfl⟩)

variable {c : Core}

theorem Move.attempts {g : Guard} {c' : Core} (h : Move g c c') : AttemptSteps c.runs c'.runs := by
  cases h with
  | create fresh _ root => exact .single (.first fresh root)
  | retry hsource ended _ fresh _ task execution _ =>
    exact .single (.again hsource ended fresh task execution)
  | start hr live same _ | park hr live _ _ _ _ same _ _ | startWorkflow hr live _ _ _ _ same _ _
  | resume _ _ _ _ _ hr _ live _ same _ | finishWorkflow _ _ _ _ hr _ live _ same _ =>
    exact .single (.save hr (by rw [live]; rfl) same)
  | @dispatch p p' child q at₁ at₂ hp running fresh _ root _ _ _ _ _ _ same _ _ =>
    exact .head (.first fresh root) (.single (.save (get?_put_fresh fresh hp) (by rw [running]; rfl) same))
  | @finish r r' now hr may same _ =>
    exact .head (.save hr may.live same) (settle_attempts ((c.withRun r').dropItem r.id) _ _)
  | finishRetry hr may same _ fresh _ task execution _ =>
    exact .single (.next hr may.live same fresh task execution)
  | @cancel r r' approvals now hr live _ same _ _ =>
    exact .head (.save hr live same)
      (settle_attempts (({ c with approvals := approvals }.withRun r').dropItem r.id) _ _)
  | viaTask hr live _ _ same _ => exact .single (.save hr live same)
  | _ => exact .refl

theorem Moves.attempts {g : Guard} {c' : Core} (h : Moves g c c') :
    AttemptSteps c.runs c'.runs := by
  induction h with
  | refl => exact .refl
  | tail _ hstep ih => exact ih.trans hstep.attempts

/-! ## Executions -/

/-- Every attempt has a first one, of the same task. -/
def Rooted (t : RunTable) : Prop :=
  ∀ r ∈ t.rows, ∃ root, t.get? r.executionId = some root ∧ root.executionId = r.executionId ∧
    root.taskId = r.taskId

/-- An attempt of the execution is not terminal. -/
def LiveExecution (t : RunTable) (e : RunId) : Prop := ∃ r ∈ t.rows, r.executionId = e ∧
    r.status.isTerminal = false

section
variable {t t' : RunTable}

variable (h : AttemptStep t t')
include h

/-- Every attempt is still there, and is the same attempt. -/
theorem AttemptStep.keeps (k : RunId) (r : Run) (hr : t.get? k = some r) :
    ∃ r', t'.get? k = some r' ∧ SameAttempt r r' := by
  cases h with
  | save hx _ same => exact same.kept hx hr
  | first fresh _ | again _ _ fresh _ _ => exact ⟨r, get?_put_fresh fresh hr, .refl r⟩
  | next hx _ same fresh _ _ =>
    obtain ⟨r', hr', hsame⟩ := same.kept hx hr
    exact ⟨r', (get?_put_ne (ne_of_fresh hr fresh).symm).trans hr', hsame⟩

/-- An attempt that has ended is not written again. -/
theorem AttemptStep.keeps_ended {k : RunId} {r : Run} (hr : t.get? k = some r)
    (ended : r.status.isTerminal = true) : t'.get? k = some r := by
  have hsave : ∀ {x x' : Run}, t.get? x.id = some x → x.status.isTerminal = false →
      SameAttempt x x' → (t.put x').get? k = some r := by
    intro x x' hx live same
    refine (get?_put_ne fun hk => ?_).trans hr
    rw [key_run, same.id] at hk
    rw [hk, hr] at hx
    cases hx
    exact Bool.false_ne_true (live.symm.trans ended)
  cases h with
  | save hx live same => exact hsave hx live same
  | first fresh _ | again _ _ fresh _ _ => exact get?_put_fresh fresh hr
  | next hx live same fresh _ _ =>
    exact (get?_put_ne (ne_of_fresh hr fresh).symm).trans (hsave hx live same)

/-- A row of the new table is the same attempt as one before, or a new one. -/
theorem AttemptStep.cases_mem {x : Run} (hx : x ∈ t'.rows) :
    (∃ r, t.get? r.id = some r ∧ SameAttempt r x ∧ (x.status.isTerminal = false → r.status.isTerminal = false)) ∨
    (t.get? x.id = none ∧ (x.executionId = x.id ∨ ∃ r, t.get? r.id = some r ∧ x.taskId = r.taskId ∧
      x.executionId = r.executionId ∧ (r.status.isTerminal = false ∨
        ∀ y, t.get? y.id = some y → y.taskId = r.taskId → y.status.isTerminal = true))) := by
  have hold : x ∈ t.rows → ∃ r, t.get? r.id = some r ∧ SameAttempt r x ∧
      (x.status.isTerminal = false → r.status.isTerminal = false) :=
    fun hx => ⟨x, get?_of_mem hx, .refl x, id⟩
  cases h with
  | save hr live same =>
    rcases mem_put.1 hx with rfl | ⟨hx, -⟩
    · exact .inl ⟨_, hr, same, fun _ => live⟩
    · exact .inl (hold hx)
  | first fresh root =>
    rcases mem_put.1 hx with rfl | ⟨hx, -⟩
    · exact .inr ⟨fresh, .inl root⟩
    · exact .inl (hold hx)
  | again hsource ended fresh task execution =>
    rcases mem_put.1 hx with rfl | ⟨hx, -⟩
    · exact .inr ⟨fresh, .inr ⟨_, hsource, task, execution, .inr ended⟩⟩
    · exact .inl (hold hx)
  | next hr live same fresh task execution =>
    rcases mem_put.1 hx with rfl | ⟨hx, -⟩
    · exact .inr ⟨fresh, .inr ⟨_, hr, task, execution, .inl live⟩⟩
    · rcases mem_put.1 hx with rfl | ⟨hx, -⟩
      · exact .inl ⟨_, hr, same, fun _ => live⟩
      · exact .inl (hold hx)

theorem AttemptStep.rooted (hroot : Rooted t) : Rooted t' := by
  have hlater : ∀ {e : RunId} {task : TaskId}, (∃ root, t.get? e = some root ∧ root.executionId = e ∧ root.taskId = task) →
      ∃ root, t'.get? e = some root ∧ root.executionId = e ∧ root.taskId = task := by
    rintro e task ⟨root, hget, hexec, htask⟩
    obtain ⟨root', hget', hsame⟩ := h.keeps e root hget
    exact ⟨root', hget', hsame.executionId.trans hexec, hsame.taskId.trans htask⟩
  intro x hx
  rcases h.cases_mem hx with ⟨r, hr, hsame, -⟩ | ⟨-, hself | ⟨r, hr, htask, hexec, -⟩⟩
  · rw [hsame.executionId, hsame.taskId]
    exact hlater (hroot r (mem_of_get? hr))
  · exact ⟨x, by rw [hself]; exact get?_of_mem hx, rfl, rfl⟩
  · rw [htask, hexec]
    exact hlater (hroot r (mem_of_get? hr))

/-- At most one attempt is new. -/
theorem AttemptStep.fresh_unique {x y : Run} (hx : x ∈ t'.rows) (hy : y ∈ t'.rows)
    (hxf : t.get? x.id = none) (hyf : t.get? y.id = none) : x = y := by
  -- a row that was there, or replaces one that was, is not new
  have hold : ∀ z : Run, t.get? z.id = none → z ∉ t.rows := by
    intro z hz hin
    rw [show t.get? z.id = some z from get?_of_mem hin] at hz
    cases hz
  have hsaved : ∀ {r r' : Run}, t.get? r.id = some r → SameAttempt r r' →
      ∀ z : Run, t.get? z.id = none → z ∉ (t.put r').rows := by
    intro r r' hr same z hz hin
    rcases mem_put.1 hin with rfl | ⟨hin, -⟩
    · rw [same.id, hr] at hz; cases hz
    · exact hold z hz hin
  have hadded : ∀ {u : RunTable} {n : Run}, (∀ z : Run, t.get? z.id = none → z ∉ u.rows) →
      x ∈ (u.put n).rows → y ∈ (u.put n).rows → x = y := by
    intro u n hu hx hy
    rcases mem_put.1 hx with rfl | ⟨hx, -⟩
    · rcases mem_put.1 hy with rfl | ⟨hy, -⟩
      · rfl
      · exact absurd hy (hu y hyf)
    · exact absurd hx (hu x hxf)
  cases h with
  | save hr _ same => exact absurd hx (hsaved hr same x hxf)
  | first | again => exact hadded hold hx hy
  | next hr _ same => exact hadded (hsaved hr same) hx hy

/-- Two executions of one task that are both live were both live before. -/
theorem AttemptStep.live_pair (hroot : Rooted t) {e₁ e₂ : RunId} {r₁ r₂ : Run}
    (h₁ : t.get? e₁ = some r₁) (h₂ : t.get? e₂ = some r₂) (htask : r₁.taskId = r₂.taskId)
    (hne : e₁ ≠ e₂) (hl₁ : LiveExecution t' e₁) (hl₂ : LiveExecution t' e₂) : LiveExecution t e₁ ∧
      LiveExecution t e₂ := by
  -- the task of an attempt is that of its root
  have htaskOf : ∀ {e : RunId} {root x : Run}, t.get? e = some root → x ∈ t.rows →
      x.executionId = e → x.taskId = root.taskId := by
    intro e root x hget hx hexec
    obtain ⟨root', hget', -, ht⟩ := hroot x hx
    rw [hexec, hget] at hget'
    cases hget'
    exact ht.symm
  -- an execution becomes live by its new attempt, when nothing of its task was
  have hcase : ∀ {e : RunId} {root : Run}, t.get? e = some root → LiveExecution t' e →
      LiveExecution t e ∨ (∃ x ∈ t'.rows, t.get? x.id = none ∧ x.executionId = e) ∧
        ∀ y ∈ t.rows, y.taskId = root.taskId → y.status.isTerminal = true := by
    rintro e root hget ⟨x, hx, hexec, hlive⟩
    rcases h.cases_mem hx with ⟨r, hr, hsame, hkeep⟩ | ⟨hfresh, hself | ⟨r, hr, -, hre, hlive' | hended⟩⟩
    · exact .inl ⟨r, mem_of_get? hr, hsame.executionId.symm.trans hexec, hkeep hlive⟩
    · rw [← hself, hexec, hget] at hfresh
      cases hfresh
    · exact .inl ⟨r, mem_of_get? hr, hre.symm.trans hexec, hlive'⟩
    · have hrtask := htaskOf hget (mem_of_get? hr) (hre.symm.trans hexec)
      exact .inr ⟨⟨x, hx, hfresh, hexec⟩, fun y hy hyt => hended y (get?_of_mem hy) (hyt.trans hrtask.symm)⟩
  have hended : ∀ {e : RunId} {root : Run} {task : TaskId}, t.get? e = some root → root.taskId = task →
      (∀ y ∈ t.rows, y.taskId = task → y.status.isTerminal = true) → ¬LiveExecution t e := by
    rintro e root task hget hof hall ⟨x, hx, hexec, hlive⟩
    rw [hall x hx ((htaskOf hget hx hexec).trans hof)] at hlive
    cases hlive
  rcases hcase h₁ hl₁ with hold₁ | ⟨⟨x, hx, hxf, hxe⟩, hall₁⟩
  · rcases hcase h₂ hl₂ with hold₂ | ⟨-, hall₂⟩
    · exact ⟨hold₁, hold₂⟩
    · exact absurd hold₁ (hended h₁ htask hall₂)
  · rcases hcase h₂ hl₂ with hold₂ | ⟨⟨y, hy, hyf, hye⟩, -⟩
    · exact absurd hold₂ (hended h₂ htask.symm hall₁)
    · rw [h.fresh_unique hx hy hxf hyf, hye] at hxe
      exact absurd hxe.symm hne

end

namespace AttemptSteps
variable {t t' : RunTable}

theorem keeps (h : AttemptSteps t t') {k : RunId} {r : Run} (hr : t.get? k = some r) :
    ∃ r', t'.get? k = some r' ∧ SameAttempt r r' := by
  induction h with
  | refl => exact ⟨r, hr, .refl r⟩
  | tail _ hstep ih =>
    obtain ⟨r₁, hr₁, hsame⟩ := ih
    obtain ⟨r₂, hr₂, hsame'⟩ := hstep.keeps k r₁ hr₁
    exact ⟨r₂, hr₂, hsame.trans hsame'⟩

theorem keeps_ended (h : AttemptSteps t t') {k : RunId} {r : Run} (hr : t.get? k = some r)
    (ended : r.status.isTerminal = true) : t'.get? k = some r := by
  induction h with
  | refl => exact hr
  | tail _ hstep ih => exact hstep.keeps_ended ih ended

theorem rooted (hroot : Rooted t) (h : AttemptSteps t t') : Rooted t' := by
  induction h with
  | refl => exact hroot
  | tail _ hstep ih => exact hstep.rooted ih

theorem live_pair (hroot : Rooted t) (h : AttemptSteps t t') {e₁ e₂ : RunId} {r₁ r₂ : Run}
    (h₁ : t.get? e₁ = some r₁) (h₂ : t.get? e₂ = some r₂) (htask : r₁.taskId = r₂.taskId)
    (hne : e₁ ≠ e₂) (hl₁ : LiveExecution t' e₁) (hl₂ : LiveExecution t' e₂) : LiveExecution t e₁ ∧
      LiveExecution t e₂ := by
  induction h with
  | refl => exact ⟨hl₁, hl₂⟩
  | tail hs hstep ih =>
    obtain ⟨x₁, hx₁, hsame₁⟩ := keeps hs h₁
    obtain ⟨x₂, hx₂, hsame₂⟩ := keeps hs h₂
    have hpair := hstep.live_pair (rooted hroot hs) hx₁ hx₂ (by rw [hsame₁.taskId, hsame₂.taskId, htask]) hne hl₁ hl₂
    exact ih hpair.1 hpair.2

end AttemptSteps

theorem KeepsAttempts.of_moves {g : Guard} {c' : Core} (h : Moves g c c') : KeepsAttempts c c' :=
  fun _ _ hr => h.attempts.keeps hr

end Friday.Runs
