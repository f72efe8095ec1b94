import Mathlib
/-!
# Replaying a log through a state machine

A state machine is a partial function on states and events; `replay` feeds it a log and is `none`
as soon as one event is not allowed. The lemmas say what a log that can be replayed looks like:
an event into a state that allows nothing is the last one (`replay_last`), and an event after
which the machine stays where the event is not allowed occurs at most once (`count_le_one`).
-/
namespace Replay
variable {σ ε : Type} {fire : σ → ε → Option σ}

def replay (fire : σ → ε → Option σ) : σ → List ε → Option σ
  | s, [] => some s
  | s, e :: es => (fire s e).bind fun s' => replay fire s' es

@[simp] theorem replay_singleton (s : σ) (e : ε) : replay fire s [e] = fire s e := by
  rw [replay]
  cases fire s e <;> rfl

theorem replay_append (s : σ) (es es' : List ε) :
    replay fire s (es ++ es') = (replay fire s es).bind fun s' => replay fire s' es' := by
  induction es generalizing s with
  | nil => rfl
  | cons e es ih =>
    rw [List.cons_append, replay, replay]
    cases fire s e with
    | none => rfl
    | some s' => exact ih s'

/-- An event that leads to a state which allows nothing is the last one. -/
theorem replay_last {s t : σ} {front back : List ε} {e : ε} (h : replay fire s (front ++ e :: back) = some t)
    (stuck : ∀ s s', fire s e = some s' → ∀ e', fire s' e' = none) : back = [] := by
  rw [replay_append] at h
  obtain ⟨mid, -, h⟩ := Option.bind_eq_some_iff.1 h
  obtain ⟨after, he, h⟩ := Option.bind_eq_some_iff.1 h
  cases back with
  | nil => rfl
  | cons e' back =>
    rw [replay, stuck mid after he e'] at h
    cases h

/-- An event that is only allowed before `later`, and leads there, occurs at most once. -/
theorem count_le_one [DecidableEq ε] (later : σ → Prop) {e : ε}
    (closed : ∀ s x s', later s → fire s x = some s' → later s') (once : ∀ s s', later s → fire s e ≠ some s')
    (enters : ∀ s s', fire s e = some s' → later s') {s t : σ} {es : List ε}
    (h : replay fire s es = some t) : es.count e ≤ 1 := by
  have hnone : ∀ {es : List ε} {s : σ}, later s → replay fire s es = some t → es.count e = 0 := by
    intro es
    induction es with
    | nil => intro s _ _; rfl
    | cons x es ih =>
      intro s hs h
      obtain ⟨s', hx, h⟩ := Option.bind_eq_some_iff.1 h
      have hne : x ≠ e := fun hxe => once s s' hs (hxe ▸ hx)
      rw [List.count_cons_of_ne hne]
      exact ih (closed s x s' hs hx) h
  induction es generalizing s with
  | nil => simp
  | cons x es ih =>
    obtain ⟨s', hx, h⟩ := Option.bind_eq_some_iff.1 h
    by_cases hxe : x = e
    · subst hxe
      have hone : (x :: es).count x = 1 := by rw [List.count_cons_self, hnone (enters s s' hx) h]
      exact Nat.le_of_eq hone
    · rw [List.count_cons_of_ne hxe]
      exact ih h

end Replay
