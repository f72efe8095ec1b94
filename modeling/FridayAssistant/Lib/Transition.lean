import Mathlib
/-!
# Transition systems and their invariants

A system is a set of initial states and a labelled step relation; `Reachable` states are those
at the end of a finite run. `Reachable.invariant` is the induction every safety proof of the
development goes through, `Steps.stable` its form for "once true, true for ever", and
`restrict` is the system whose runs take only the steps that meet a condition.
-/
namespace Transition

/-- Initial states and steps labelled with the action that made them. -/
structure System (σ α : Type) where
  init : σ → Prop
  next : σ → α → σ → Prop

namespace System
variable {σ α : Type} (S : System σ α)

def Step (s s' : σ) : Prop := ∃ a, S.next s a s'

/-- Any finite number of steps, in any order. -/
def Steps : σ → σ → Prop := Relation.ReflTransGen S.Step

def Reachable (s : σ) : Prop := ∃ s₀, S.init s₀ ∧ S.Steps s₀ s

/-- The same system when every step taken meets `c` in the state before it. -/
def restrict (c : σ → α → Prop) : System σ α where
  init := S.init
  next s a s' := c s a ∧ S.next s a s'

/-- The system of a partial step function whose actions are guarded. -/
def ofStep (init : σ → Prop) (step : σ → α → Option σ) (guard : σ → α → Prop) : System σ α where
  init := init
  next s a s' := step s a = some s' ∧ guard s a

/-- The state after a list of actions; an action that cannot be taken is skipped. -/
def run (step : σ → α → Option σ) (s : σ) : List α → σ
  | [] => s
  | a :: as => run step ((step s a).getD s) as

/-- Every action of the list can be taken, and its guard holds. -/
def Legal (step : σ → α → Option σ) (guard : σ → α → Prop) (s : σ) : List α → Prop
  | [] => True
  | a :: as => ((step s a).isSome ∧ guard s a) ∧ Legal step guard ((step s a).getD s) as

instance decidableLegal {step : σ → α → Option σ} {guard : σ → α → Prop}
    [∀ s a, Decidable (guard s a)] (s : σ) : ∀ as : List α, Decidable (Legal step guard s as)
  | [] => isTrue trivial
  | a :: as =>
    have : Decidable (Legal step guard ((step s a).getD s) as) := decidableLegal ((step s a).getD s) as
    inferInstanceAs (Decidable (((step s a).isSome ∧ guard s a) ∧ Legal step guard ((step s a).getD s) as))

variable {S}

theorem Reachable.of_init {s : σ} (h : S.init s) : S.Reachable s := ⟨s, h, .refl⟩

theorem Reachable.steps {s s' : σ} (h : S.Reachable s) (hs : S.Steps s s') : S.Reachable s' := by
  obtain ⟨s₀, h₀, h⟩ := h
  exact ⟨s₀, h₀, h.trans hs⟩

variable {step : σ → α → Option σ} {guard : σ → α → Prop}

/-- A weaker guard allows the same actions. -/
theorem Legal.mono {guard' : σ → α → Prop} : ∀ {as : List α} {s : σ},
    Legal step guard s as → (∀ a ∈ as, ∀ s, guard s a → guard' s a) → Legal step guard' s as
  | [], _, _, _ => trivial
  | a :: as, s, h, hguard => by
    obtain ⟨⟨hsome, hg⟩, hrest⟩ := h
    exact ⟨⟨hsome, hguard a List.mem_cons_self s hg⟩,
      Legal.mono hrest fun a ha => hguard a (List.mem_cons_of_mem _ ha)⟩

/-- A legal list of actions is a run. -/
theorem Steps.run {init : σ → Prop} :
    ∀ {as : List α} {s : σ}, Legal step guard s as → (ofStep init step guard).Steps s (System.run step s as)
  | [], _, _ => .refl
  | a :: as, s, hl => by
    obtain ⟨⟨hsome, hguard⟩, hrest⟩ := hl
    obtain ⟨s', hs'⟩ := Option.isSome_iff_exists.1 hsome
    rw [hs', Option.getD_some] at hrest
    simp only [System.run, hs', Option.getD_some]
    exact .head ⟨a, hs', hguard⟩ (Steps.run hrest)

/-- A legal list of actions that all meet a condition is a run of the restricted system. -/
theorem Steps.run_restrict {init : σ → Prop} {c : σ → α → Prop} {as : List α} {s : σ}
    (hl : Legal step (fun s a => guard s a ∧ c s a) s as) :
    ((ofStep init step guard).restrict c).Steps s (System.run step s as) := by
  have hsteps : (ofStep init step fun s a => guard s a ∧ c s a).Steps s (System.run step s as) :=
    .run hl
  exact Relation.ReflTransGen.mono (fun _ _ ⟨a, hs, hg, hc⟩ => ⟨a, hc, hs, hg⟩) _ _ hsteps

/-- What holds initially and is kept by every step taken from a reachable state holds in every
reachable state. -/
theorem Reachable.invariant (I : σ → Prop) (init : ∀ s, S.init s → I s)
    (step : ∀ s a s', S.Reachable s → I s → S.next s a s' → I s') {s : σ} (h : S.Reachable s) :
    I s := by
  obtain ⟨s₀, h₀, hs⟩ := h
  induction hs with
  | refl => exact init s₀ h₀
  | @tail b c hb hc ih =>
    obtain ⟨a, hn⟩ := hc
    exact step b a c ⟨s₀, h₀, hb⟩ ih hn

theorem Reachable.of_restrict {c : σ → α → Prop} {s : σ} (h : (S.restrict c).Reachable s) :
    S.Reachable s := by
  obtain ⟨s₀, h₀, hsteps⟩ := h
  refine ⟨s₀, h₀, ?_⟩
  induction hsteps with
  | refl => exact .refl
  | tail _ hstep ih =>
    obtain ⟨a, -, hnext⟩ := hstep
    exact ih.tail ⟨a, hnext⟩

/-- A property every step from a reachable state keeps is kept for ever. -/
theorem Steps.stable (P : σ → Prop) (step : ∀ s a s', S.Reachable s → P s → S.next s a s' → P s')
    {s s' : σ} (hr : S.Reachable s) (hs : S.Steps s s') (h : P s) : P s' := by
  induction hs with
  | refl => exact h
  | @tail b c hb hc ih =>
    obtain ⟨a, hn⟩ := hc
    exact step b a c (hr.steps hb) ih hn

end System
end Transition
