import Mathlib
/-!
# Selecting the smallest

One pass over a list that keeps the `n` entries with the smallest keys: a full selection gives up
its largest entry for a smaller one. If the keys are distinct this is the start of the sorted list,
in whatever order the entries came.
-/
namespace Selection
open List

section
variable {ρ ν : Type} [LinearOrder ν] (key : ρ → ν)

/-- Where the first of the largest keys is. -/
def largest : List ρ → Nat
  | [] => 0
  | x :: xs => if xs.all (key · ≤ key x) then 0 else largest xs + 1

/-- One more entry is seen. -/
def keep (n : Nat) (kept : List ρ) (x : ρ) : List ρ :=
  if kept.length < n then kept ++ [x]
  else if kept[largest key kept]?.any (key x < key ·) then kept.set (largest key kept) x
  else kept

def sortByKey (l : List ρ) : List ρ := l.insertionSort (key · ≤ key ·)

/-- What has been seen is the selection and what was passed over, which is nothing until the
selection is full. -/
structure Selected (n : Nat) (seen kept rest : List ρ) : Prop where
  perm : seen ~ kept ++ rest
  le : ∀ k ∈ kept, ∀ r ∈ rest, key k ≤ key r
  length : kept.length ≤ n
  full : rest = [] ∨ kept.length = n

variable {key} {n : Nat} {seen kept rest : List ρ}

variable (key) in
theorem exists_largest : ∀ {l : List ρ}, l ≠ [] → ∃ m rest, l[largest key l]? = some m ∧
    (∀ k ∈ l, key k ≤ key m) ∧ l ~ m :: rest ∧ ∀ y, l.set (largest key l) y ~ y :: rest
  | x :: xs, _ => by
    by_cases hx : xs.all (key · ≤ key x) = true
    · refine ⟨x, xs, ?_, ?_, .refl _, fun y => ?_⟩
      · simp [largest, hx]
      · simpa using hx
      · simp [largest, hx]
    · obtain ⟨k, hk, hlt⟩ : ∃ k ∈ xs, key x < key k := by simpa using hx
      obtain ⟨m, rest, hm, hle, hperm, hset⟩ := exists_largest (List.ne_nil_of_mem hk)
      refine ⟨m, x :: rest, ?_, ?_, (hperm.cons x).trans (.swap m x rest), fun y => ?_⟩
      · simpa [largest, hx] using hm
      · exact List.forall_mem_cons.2 ⟨hlt.le.trans (hle k hk), hle⟩
      · simpa [largest, hx] using ((hset y).cons x).trans (.swap y x rest)

theorem Selected.keep (hn : 0 < n) (h : Selected key n seen kept rest) (x : ρ) :
    ∃ rest', Selected key n (x :: seen) (keep key n kept x) rest' := by
  unfold Selection.keep
  have hlength := h.length
  split
  · next hroom =>
    obtain rfl : rest = [] := h.full.resolve_right hroom.ne
    refine ⟨[], ?_, by simp, ?_, .inl rfl⟩
    · have hperm := h.perm.cons x
      rw [List.append_nil] at hperm ⊢
      exact hperm.trans (List.perm_append_singleton x kept).symm
    · rw [List.length_append, List.length_singleton]
      omega
  · next hroom =>
    have hfull : kept.length = n := by omega
    obtain ⟨m, others, hm, hmax, hperm, hset⟩ := exists_largest key (List.ne_nil_of_length_pos (hfull ▸ hn))
    have hrest : ∀ r ∈ rest, key m ≤ key r := h.le m (hperm.mem_iff.2 List.mem_cons_self)
    rw [hm, Option.any_some]
    split
    · next hlt =>
      -- the largest is passed over from now on
      have hlt : key x < key m := of_decide_eq_true hlt
      refine ⟨m :: rest, ?_, fun k hk r hr => ?_, by rw [List.length_set]; exact h.length, .inr (by rw [List.length_set, hfull])⟩
      · calc x :: seen ~ x :: (kept ++ rest) := h.perm.cons x
          _ ~ x :: (m :: others ++ rest) := (hperm.append_right rest).cons x
          _ ~ (x :: others) ++ m :: rest := (List.perm_middle.symm).cons x
          _ ~ kept.set (largest key kept) x ++ m :: rest := (hset x).symm.append_right _
      · have hkm : key k ≤ key m := by
          rcases List.mem_cons.1 ((hset x).mem_iff.1 hk) with rfl | hk
          · exact hlt.le
          · exact hmax k (hperm.mem_iff.2 (List.mem_cons_of_mem m hk))
        rcases List.mem_cons.1 hr with rfl | hr
        · exact hkm
        · exact hkm.trans (hrest r hr)
    · next hle =>
      have hle : key m ≤ key x := by simpa using hle
      refine ⟨x :: rest, (h.perm.cons x).trans List.perm_middle.symm, fun k hk r hr => ?_, h.length, .inr hfull⟩
      rcases List.mem_cons.1 hr with rfl | hr
      · exact (hmax k hk).trans hle
      · exact h.le k hk r hr

theorem Selected.foldl (hn : 0 < n) : ∀ (l : List ρ) {seen kept rest : List ρ}, Selected key n seen kept rest →
    ∃ rest', Selected key n (l ++ seen) (l.foldl (Selection.keep key n) kept) rest'
  | [], _, _, _, h => ⟨_, h⟩
  | x :: l, seen, _, _, h => by
    obtain ⟨_, hx⟩ := h.keep hn x
    obtain ⟨rest', hl⟩ := Selected.foldl hn l hx
    exact ⟨rest', { hl with perm := List.perm_middle.symm.trans hl.perm }⟩

/-- The pass selects the start of the sorted list. -/
theorem sortByKey_foldl_keep (hn : 0 < n) {l : List ρ} (hnodup : (l.map key).Nodup) :
    sortByKey key (l.foldl (keep key n) []) = (sortByKey key l).take n := by
  have hstart : Selected key n [] [] [] := ⟨.refl _, by simp, Nat.zero_le n, .inl rfl⟩
  obtain ⟨rest, h⟩ := hstart.foldl hn l
  rw [List.append_nil] at h
  have : IsTrans ρ (key · ≤ key ·) := ⟨fun _ _ _ => le_trans⟩
  have : Std.Total (fun a b : ρ => key a ≤ key b) := ⟨fun _ _ => le_total _ _⟩
  have hsort : ∀ m : List ρ, (sortByKey key m).Pairwise (key · ≤ key ·) :=
    fun m => List.pairwise_insertionSort _ m
  have hperm : ∀ m : List ρ, sortByKey key m ~ m := List.perm_insertionSort _
  have hboth := (hperm (l.foldl (keep key n) [])).append (hperm rest)
  have hsplit : sortByKey key l = sortByKey key (l.foldl (keep key n) []) ++ sortByKey key rest := by
    refine List.Perm.eq_of_pairwise (fun a b ha hb hab hba => ?_) (hsort l) ?_ ((hperm l).trans (h.perm.trans hboth.symm))
    · have hb : b ∈ l := h.perm.mem_iff.2 (hboth.mem_iff.1 hb)
      exact List.inj_on_of_nodup_map hnodup ((hperm l).mem_iff.1 ha) hb (le_antisymm hab hba)
    · refine List.pairwise_append.2 ⟨hsort _, hsort _, fun k hk r hr => ?_⟩
      exact h.le k ((hperm _).mem_iff.1 hk) r ((hperm _).mem_iff.1 hr)
  have hlength := (hperm (l.foldl (keep key n) [])).length_eq
  rw [hsplit]
  rcases h.full with rfl | hfull
  · rw [show sortByKey key ([] : List ρ) = [] from rfl, List.append_nil]
    exact (List.take_of_length_le (hlength.trans_le h.length)).symm
  · exact (List.take_left' (hlength.trans hfull)).symm

end
end Selection
