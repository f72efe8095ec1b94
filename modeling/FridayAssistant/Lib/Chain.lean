import Mathlib
/-!
# Chains of parents

A forest given by its parent function `up`: the chain of a node is the node, its parent and so on
up to a root. When every node carries a depth and a root that agree with its parent's, they are
the length and the end of its chain (`exists_chain`); that is how a rule that only ever looks one
level up fixes the whole path.
-/
namespace Chain
variable {α ρ : Type} (up : α → Option α)

/-- The path from a node up to its root. -/
inductive IsChain : α → List α → Prop where
  | root {a : α} (top : up a = none) : IsChain a [a]
  | nested {a b : α} {l : List α} (parent : up a = some b) (rest : IsChain b l) : IsChain a (a :: l)

variable {up}

/-- Labels that agree with the parent's are the length of the chain and its end. -/
theorem exists_chain (node : α → Prop) (depth : α → Nat) (root name : α → ρ)
    (top : ∀ a, node a → up a = none → depth a = 1 ∧ root a = name a)
    (nested : ∀ a b, node a → up a = some b → node b ∧ depth a = depth b + 1 ∧ root a = root b) :
    ∀ a, node a → ∃ l, IsChain up a l ∧ l.length = depth a ∧ l.getLast?.map name = some (root a) := by
  intro a ha
  -- the depth falls on the way up, so the induction is on it
  induction hn : depth a generalizing a with
  | zero =>
    cases hup : up a with
    | none => have := (top a ha hup).1; omega
    | some b => have := (nested a b ha hup).2.1; omega
  | succ n ih =>
    cases hup : up a with
    | none =>
      obtain ⟨hd, hr⟩ := top a ha hup
      exact ⟨[a], .root hup, by simp; omega, by simp [hr]⟩
    | some b =>
      obtain ⟨hb, hd, hr⟩ := nested a b ha hup
      obtain ⟨l, hl, hlen, hlast⟩ := ih b hb (by omega)
      refine ⟨a :: l, .nested hup hl, by simp [hlen], ?_⟩
      cases l with
      | nil => cases hl
      | cons x l => rw [List.getLast?_cons_cons, hlast, hr]

end Chain
