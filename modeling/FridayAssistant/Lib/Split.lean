import FridayAssistant.Lib.Transition
/-!
# Transactions that read before they lock

A store whose reads take no lock: a call reads at one instant and commits what it made of it at a
later one, all its writes at once, whatever was committed in between. Any number of calls may be
between the two, beside transactions that do both at one instant.

`Reachable.split` and `Steps.split` are the rules: what atomic transactions keep, and a write keeps
when it finds the store as the condition says, holds along every run whose commits meet the
condition.
-/
namespace Split
open Transition

/-- `γ` is a call with what it has read; a commit may depend on a choice `π` of the store. -/
structure Protocol (σ κ γ π α : Type) where
  atomic : σ → α → Option σ
  /-- `none`: nothing will be written. -/
  read : σ → κ → Option γ
  /-- `none`: rolled back. -/
  write : σ → γ → π → Option σ

structure State (σ γ : Type) where
  db : σ
  calls : List γ

inductive Action (κ π α : Type) where
  | atomic (action : α)
  | read (command : κ)
  | commit (call : Nat) (choice : π)

variable {σ κ γ π α : Type}

namespace Protocol

def step (P : Protocol σ κ γ π α) (s : State σ γ) : Action κ π α → Option (State σ γ)
  | .atomic a => (P.atomic s.db a).map fun db => { s with db := db }
  | .read c => (P.read s.db c).map fun g => { s with calls := s.calls ++ [g] }
  | .commit i choice =>
    s.calls[i]?.map fun g => ⟨(P.write s.db g choice).getD s.db, s.calls.eraseIdx i⟩

/-- The guard is about atomic transactions. -/
def Guarded (guard : σ → α → Prop) (s : State σ γ) : Action κ π α → Prop
  | .atomic a => guard s.db a
  | _ => True

instance {guard : σ → α → Prop} [∀ db a, Decidable (guard db a)] (s : State σ γ)
    (a : Action κ π α) : Decidable (Guarded guard s a) :=
  match a with
  | .atomic a => inferInstanceAs (Decidable (guard s.db a))
  | .read _ => isTrue trivial
  | .commit _ _ => isTrue trivial

def system (P : Protocol σ κ γ π α) (init : σ → Prop) (guard : σ → α → Prop) :
    System (State σ γ) (Action κ π α) :=
  .ofStep (fun s => init s.db ∧ s.calls = []) P.step (Guarded guard)

end Protocol

/-- Every commit finds the store as `C` says. -/
def AtCommit (C : σ → γ → Prop) (s : State σ γ) : Action κ π α → Prop
  | .commit i _ => ∀ g ∈ s.calls[i]?, C s.db g
  | _ => True

instance {C : σ → γ → Prop} [∀ db g, Decidable (C db g)] (s : State σ γ) (a : Action κ π α) :
    Decidable (AtCommit C s a) :=
  match a with
  | .commit i _ => inferInstanceAs (Decidable (∀ g ∈ s.calls[i]?, C s.db g))
  | .atomic _ => isTrue trivial
  | .read _ => isTrue trivial

section
variable {P : Protocol σ κ γ π α} {init : σ → Prop} {guard : σ → α → Prop} {C : σ → γ → Prop}

/-- What one step does to the store and to the calls. -/
theorem next_cases {s s' : State σ γ} {a : Action κ π α} (h : ((P.system init guard).restrict (AtCommit C)).next s a s') :
    (∃ b, guard s.db b ∧ P.atomic s.db b = some s'.db ∧ s'.calls = s.calls) ∨
    (∃ c g, P.read s.db c = some g ∧ s'.db = s.db ∧ s'.calls = s.calls ++ [g]) ∨
    ∃ g ∈ s.calls, (∀ x ∈ s'.calls, x ∈ s.calls) ∧
      (s'.db = s.db ∨ ∃ choice, C s.db g ∧ P.write s.db g choice = some s'.db) := by
  obtain ⟨hcond, hstep, hguard⟩ := h
  cases a with
  | atomic b =>
    obtain ⟨db, hdb, rfl⟩ := Option.map_eq_some_iff.1 hstep
    exact .inl ⟨b, hguard, hdb, rfl⟩
  | read c =>
    obtain ⟨g, hg, rfl⟩ := Option.map_eq_some_iff.1 hstep
    exact .inr (.inl ⟨c, g, hg, rfl, rfl⟩)
  | commit i choice =>
    obtain ⟨g, hg, rfl⟩ := Option.map_eq_some_iff.1 hstep
    refine .inr (.inr ⟨g, List.mem_of_getElem? hg, fun x hx => List.mem_of_mem_eraseIdx hx, ?_⟩)
    cases hw : P.write s.db g choice with
    | none => exact .inl rfl
    | some db => exact .inr ⟨choice, hcond g hg, hw⟩

/-- An invariant `I` of the store, and `Q` of the store and what a call has read, which lasts. -/
theorem Reachable.split (I : σ → Prop) (Q : σ → γ → Prop) (hinit : ∀ db, init db → I db)
    (hatomic : ∀ {db a db'}, I db → guard db a → P.atomic db a = some db' → I db' ∧ ∀ g, Q db g → Q db' g)
    (hread : ∀ {db c g}, I db → P.read db c = some g → Q db g)
    (hwrite : ∀ {db g choice db'}, I db → Q db g → C db g → P.write db g choice = some db' →
      I db' ∧ ∀ g', Q db g' → Q db' g') {s : State σ γ}
    (h : ((P.system init guard).restrict (AtCommit C)).Reachable s) : I s.db ∧ ∀ g ∈ s.calls, Q s.db g := by
  refine h.invariant (fun s => I s.db ∧ ∀ g ∈ s.calls, Q s.db g) (fun s h₀ => ?_)
    (fun s a s' _ hI hnext => ?_)
  · obtain ⟨hdb, hcalls⟩ := h₀
    rw [hcalls]
    exact ⟨hinit _ hdb, nofun⟩
  · obtain ⟨hdb, hcalls⟩ := hI
    rcases next_cases hnext with ⟨b, hg, hb, hsame⟩ | ⟨c, g, hg, hsame, hadd⟩ | ⟨g, hg, hsub, hsame | ⟨choice, hc, hw⟩⟩
    · obtain ⟨hdb', hkeep⟩ := hatomic hdb hg hb
      rw [hsame]
      exact ⟨hdb', fun x hx => hkeep x (hcalls x hx)⟩
    · rw [hsame, hadd]
      refine ⟨hdb, fun x hx => ?_⟩
      rcases List.mem_append.1 hx with hx | hx
      · exact hcalls x hx
      · rw [List.mem_singleton.1 hx]
        exact hread hdb hg
    · rw [hsame]
      exact ⟨hdb, fun x hx => hcalls x (hsub x hx)⟩
    · obtain ⟨hdb', hkeep⟩ := hwrite hdb (hcalls g hg) hc hw
      exact ⟨hdb', fun x hx => hkeep x (hcalls x (hsub x hx))⟩

/-- A relation that every transaction keeps relates every two states of a run. -/
theorem Steps.split (I : σ → Prop) (Q : σ → γ → Prop) (T : σ → σ → Prop) (hrefl : ∀ db, T db db)
    (htrans : ∀ {a b c}, T a b → T b c → T a c) (hinv : ∀ {s : State σ γ},
      ((P.system init guard).restrict (AtCommit C)).Reachable s → I s.db ∧ ∀ g ∈ s.calls, Q s.db g)
    (hatomic : ∀ {db a db'}, I db → guard db a → P.atomic db a = some db' → T db db')
    (hwrite : ∀ {db g choice db'}, I db → Q db g → C db g → P.write db g choice = some db' → T db db')
    {s s' : State σ γ} (hs : ((P.system init guard).restrict (AtCommit C)).Reachable s)
    (h : ((P.system init guard).restrict (AtCommit C)).Steps s s') : T s.db s'.db := by
  induction h with
  | refl => exact hrefl _
  | @tail b c hb hc ih =>
    obtain ⟨a, hnext⟩ := hc
    obtain ⟨hdb, hcalls⟩ := hinv (hs.steps hb)
    refine htrans ih ?_
    rcases next_cases hnext with ⟨x, hg, hx, -⟩ | ⟨_, _, -, hsame, -⟩ | ⟨g, hg, -, hsame | ⟨choice, hcond, hw⟩⟩
    · exact hatomic hdb hg hx
    · rw [hsame]
      exact hrefl _
    · rw [hsame]
      exact hrefl _
    · exact hwrite hdb (hcalls g hg) hcond hw

end

end Split
