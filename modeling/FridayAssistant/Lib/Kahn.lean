import Mathlib
/-!
# Kahn's algorithm

A graph is its list of edges. The algorithm visits a node once all its predecessors are visited: it
keeps the number of edges into each node that come from nodes not visited yet, and a queue of the
nodes for which that number is zero.

`Inv` is what one visit preserves, in whatever order the queue is kept. `visits` is the loop, for
any way of sorting the queue: it visits every node exactly when the graph has no cycle
(`visits_eq_iff`).
-/
namespace Kahn
variable {α : Type} [DecidableEq α] {edges : List (α × α)} {ids v q : List α} {d : α → Nat}

/-- The edges into `x` that come from outside `v`. -/
def openEdges (edges : List (α × α)) (v : List α) (x : α) : Nat :=
  edges.countP fun e => e.2 = x ∧ e.1 ∉ v

/-- The targets of the edges that leave `x`. -/
def targets (edges : List (α × α)) (x : α) : List α := (edges.filter (·.1 = x)).map (·.2)

/-- Newest first: whatever an edge of the graph leads to stands before its source. -/
def Ordered (edges : List (α × α)) : List α → Prop
  | [] => True
  | x :: v => (∀ e ∈ edges, e.2 = x → e.1 ∈ v) ∧ Ordered edges v

/-- `v` visited, `q` queued, `d` edges still open. -/
structure Inv (edges : List (α × α)) (ids v q : List α) (d : α → Nat) : Prop where
  degree : ∀ x, d x = openEdges edges v x
  nodup : (v ++ q).Nodup
  known : ∀ x ∈ v ++ q, x ∈ ids
  ready : ∀ x ∈ v ++ q, d x = 0
  ordered : Ordered edges v

theorem mem_targets {x t : α} : t ∈ targets edges x ↔ (x, t) ∈ edges := by
  simp only [targets, List.mem_map, List.mem_filter, decide_eq_true_iff]
  constructor
  · rintro ⟨⟨a, b⟩, ⟨he, rfl⟩, rfl⟩
    exact he
  · exact fun h => ⟨(x, t), ⟨h, rfl⟩, rfl⟩

theorem nodup_targets (h : edges.Nodup) (x : α) : (targets edges x).Nodup := by
  refine (h.filter _).map_on fun a ha b hb hab => ?_
  rw [List.mem_filter, decide_eq_true_iff] at ha hb
  exact Prod.ext (ha.2.trans hb.2.symm) hab

theorem openEdges_nil (x : α) : openEdges edges [] x = edges.countP (·.2 = x) := by simp [openEdges]

/-- Visiting a node closes the edges that leave it. -/
theorem openEdges_cons {x : α} (hx : x ∉ v) (t : α) : ∀ edges : List (α × α),
    openEdges edges v t = openEdges edges (x :: v) t + edges.count (x, t)
  | [] => rfl
  | e :: edges => by
    have ih := openEdges_cons hx t edges
    unfold openEdges at ih ⊢
    rw [List.countP_cons, List.countP_cons, List.count_cons, ih]
    obtain ⟨a, b⟩ := e
    by_cases ha : a = x
    · subst ha
      by_cases hb : b = t
      · simp [hb, hx]
        omega
      · simp [hb]
    · simp [ha]
      omega

/-- The start: the nodes without incoming edge are queued. -/
theorem Inv.start (hids : ids.Nodup) (hd : ∀ x, d x = edges.countP (·.2 = x))
    (hq : q.Perm (ids.filter (d · = 0))) : Inv edges ids [] q d := by
  refine ⟨fun x => (hd x).trans (openEdges_nil x).symm, ?_, fun x hx => ?_, fun x hx => ?_, trivial⟩
  · exact (hq.nodup_iff).2 (hids.filter _)
  · exact (List.mem_filter.1 (hq.mem_iff.1 hx)).1
  · exact of_decide_eq_true (List.mem_filter.1 (hq.mem_iff.1 hx)).2

/-- One visit: every target loses an edge and is queued, in any order, when it has none left. -/
theorem Inv.visit {x : α} (h : Inv edges ids v (x :: q) d) (hnodup : edges.Nodup)
    (hknown : ∀ e ∈ edges, e.2 ∈ ids) {d' : α → Nat} {q' : List α}
    (hd : ∀ t, d' t = if t ∈ targets edges x then d t - 1 else d t)
    (hq : q'.Perm (q ++ (targets edges x).filter (d · - 1 = 0))) :
    Inv edges ids (x :: v) q' d' := by
  have hxv : x ∉ v := fun hx => (List.nodup_append.1 h.nodup).2.2 x hx x List.mem_cons_self rfl
  have hclosed : ∀ t, d t = openEdges edges (x :: v) t + if t ∈ targets edges x then 1 else 0 := fun t => by
    rw [h.degree, openEdges_cons hxv t, hnodup.count]
    simp only [mem_targets]
  -- a target has an open edge, so it was neither visited nor queued
  have hfresh : ∀ t ∈ targets edges x, t ∉ v ++ x :: q := fun t ht hin => by
    have := hclosed t
    rw [h.ready t hin, if_pos ht] at this
    omega
  have hperm : (x :: v ++ q').Perm (v ++ x :: q ++ (targets edges x).filter (d · - 1 = 0)) := by
    rw [List.append_assoc]
    refine List.Perm.trans ?_ List.perm_middle.symm
    exact (hq.append_left (x :: v))
  have hmem : ∀ t, t ∈ x :: v ++ q' ↔ t ∈ v ++ x :: q ∨ t ∈ (targets edges x).filter (d · - 1 = 0) := fun t => by
    rw [hperm.mem_iff, List.mem_append]
  refine ⟨fun t => ?_, ?_, fun t ht => ?_, fun t ht => ?_, fun e he hex => ?_, h.ordered⟩
  · rw [hd, hclosed t]
    split <;> omega
  · rw [hperm.nodup_iff, List.nodup_append]
    refine ⟨h.nodup, (nodup_targets hnodup x).filter _, fun a ha b hb => ?_⟩
    rintro rfl
    exact hfresh a (List.mem_filter.1 hb).1 ha
  · rcases (hmem t).1 ht with hin | hnew
    · exact h.known t hin
    · exact hknown _ (mem_targets.1 (List.mem_filter.1 hnew).1)
  · rcases (hmem t).1 ht with hin | hnew
    · rw [hd, if_neg fun htarget => hfresh t htarget hin]
      exact h.ready t hin
    · obtain ⟨htarget, hzero⟩ := List.mem_filter.1 hnew
      rw [hd, if_pos htarget]
      exact of_decide_eq_true hzero
  · have hzero : openEdges edges v x = 0 := (h.degree x).symm.trans (h.ready x (by simp))
    by_contra hv
    exact absurd (List.countP_eq_zero.1 hzero e he) (by simp [hex, hv])

/-- The place of a node in the order of visits. -/
def place : List α → α → Nat
  | [], _ => 0
  | x :: v, y => if y = x then v.length else place v y

theorem place_lt_length : ∀ {v : List α} {x : α}, x ∈ v → place v x < v.length
  | [], _, h => by cases h
  | y :: v, x, h => by
    rw [place]
    split
    · exact Nat.lt_succ_self _
    · next hne => exact Nat.lt_succ_of_lt (place_lt_length ((List.mem_cons.1 h).resolve_left hne))

omit [DecidableEq α] in
theorem Ordered.mem : ∀ {v : List α}, Ordered edges v → ∀ {e : α × α}, e ∈ edges → e.2 ∈ v → e.1 ∈ v
  | [], _, _, _, h => by cases h
  | x :: v, ho, e, he, h => by
    rcases List.mem_cons.1 h with hx | hv
    · exact List.mem_cons_of_mem _ (ho.1 e he hx)
    · exact List.mem_cons_of_mem _ (ho.2.mem he hv)

theorem Ordered.place_lt : ∀ {v : List α}, Ordered edges v → v.Nodup → ∀ {e : α × α}, e ∈ edges →
    e.2 ∈ v → place v e.1 < place v e.2
  | [], _, _, _, _, h => by cases h
  | x :: v, ho, hn, e, he, h => by
    obtain ⟨hx, hn⟩ := List.nodup_cons.1 hn
    have hsource : ∀ {y}, y ∈ v → y ≠ x := fun hy e => hx (e ▸ hy)
    rcases List.mem_cons.1 h with htarget | hv
    · have hpre := ho.1 e he htarget
      rw [place, place, if_neg (hsource hpre), if_pos htarget]
      exact place_lt_length hpre
    · rw [place, place, if_neg (hsource (ho.2.mem he hv)), if_neg (hsource hv)]
      exact ho.2.place_lt hn he hv

theorem Inv.subperm (h : Inv edges ids v q d) : v.Subperm ids :=
  (List.nodup_append.1 h.nodup).1.subperm fun x hx => h.known x (List.mem_append_left _ hx)

theorem Inv.length_le (h : Inv edges ids v q d) : v.length ≤ ids.length := h.subperm.length_le

/-- When all nodes are visited, there is a rank that grows along every edge. -/
theorem Inv.rank (h : Inv edges ids v q d) (hall : ids.length ≤ v.length)
    (hknown : ∀ e ∈ edges, e.2 ∈ ids) : ∃ rank : α → Nat, ∀ e ∈ edges, rank e.1 < rank e.2 := by
  have hv : v.Nodup := (List.nodup_append.1 h.nodup).1
  have hperm : v.Perm ids := h.subperm.perm_of_length_le hall
  exact ⟨place v, fun e he => h.ordered.place_lt hv he (hperm.mem_iff.2 (hknown e he))⟩

/-! ## The loop -/

/-- No edge closes a cycle. -/
def Acyclic (edges : List (α × α)) : Prop :=
  ∀ x, ¬ Relation.TransGen (fun a b => (a, b) ∈ edges) x x

omit [DecidableEq α] in
theorem acyclic_of_rank {rank : α → Nat} (h : ∀ e ∈ edges, rank e.1 < rank e.2) :
    Acyclic edges := by
  have hlt : ∀ {x y}, Relation.TransGen (fun a b => (a, b) ∈ edges) x y → rank x < rank y := by
    intro x y hxy
    induction hxy with
    | single he => exact h _ he
    | tail _ he ih => exact ih.trans (h _ he)
  exact fun x hx => lt_irrefl _ (hlt hx)

/-- Every node without open edge has been visited or is queued. -/
def Full (ids v q : List α) (d : α → Nat) : Prop := ∀ x ∈ ids, d x = 0 → x ∈ v ++ q

theorem Full.visit {x : α} (h : Full ids v (x :: q) d) {d' : α → Nat} {q' : List α}
    (hd : ∀ t, d' t = if t ∈ targets edges x then d t - 1 else d t)
    (hq : q'.Perm (q ++ (targets edges x).filter (d · - 1 = 0))) : Full ids (x :: v) q' d' := by
  intro t ht hzero
  rw [hd] at hzero
  by_cases htarget : t ∈ targets edges x
  · simp only [htarget, if_true] at hzero
    exact List.mem_append_right _ (hq.mem_iff.2 (by simp [htarget, hzero]))
  · simp only [htarget, if_false] at hzero
    have hold := h t ht hzero
    simp only [List.mem_append, List.mem_cons] at hold ⊢
    rw [hq.mem_iff, List.mem_append]
    tauto

/-- With nothing queued, a graph without cycles has been visited whole: an unvisited node has an
unvisited predecessor, and there is no infinite way back. -/
theorem Inv.all_visited (h : Inv edges ids v [] d) (hfull : Full ids v [] d)
    (hknown : ∀ e ∈ edges, e.1 ∈ ids) (hacyclic : Acyclic edges) : ids ⊆ v := by
  let before : {x // x ∈ ids} → {x // x ∈ ids} → Prop :=
    fun a b => Relation.TransGen (fun a b => (a, b) ∈ edges) a b
  have : IsTrans _ before := ⟨fun _ _ _ => .trans⟩
  have : Std.Irrefl before := ⟨fun a => hacyclic a⟩
  have hwf : WellFounded before := Finite.wellFounded_of_trans_of_irrefl before
  have hall : ∀ x : {x // x ∈ ids}, x.1 ∈ v := by
    intro x
    induction x using hwf.induction with
    | h x ih =>
      have hzero : d x = 0 := by
        rw [h.degree, openEdges, List.countP_eq_zero]
        rintro ⟨a, b⟩ he
        simp only [decide_eq_true_eq, not_and, not_not]
        rintro rfl
        exact ih ⟨a, hknown _ he⟩ (.single he)
      simpa using hfull x x.2 hzero
  exact fun x hx => hall ⟨x, hx⟩

section
variable {sort : List α → List α}

/-- Each target loses one edge and joins the queue, sorted anew, when it has none left. -/
def release (sort : List α → List α) (d : α → Nat) (q : List α) : List α → (α → Nat) × List α
  | [] => (d, q)
  | t :: ts =>
    let d' := fun x => if x = t then d t - 1 else d x
    release sort d' (if d' t = 0 then sort (q ++ [t]) else q) ts

/-- `while queue`: how many nodes are visited, in at most `fuel` rounds. -/
def visits (sort : List α → List α) (edges : List (α × α)) : Nat → (α → Nat) → List α → Nat
  | 0, _, _ => 0
  | _ + 1, _, [] => 0
  | fuel + 1, d, x :: q =>
    let next := release sort d q (sort (targets edges x))
    visits sort edges fuel next.1 next.2 + 1

/-- `release` takes one edge from each target and queues those that have none left. -/
theorem release_eq (hsort : ∀ l, (sort l).Perm l) : ∀ {ts : List α} (d : α → Nat) (q : List α),
    ts.Nodup → (∀ x, (release sort d q ts).1 x = if x ∈ ts then d x - 1 else d x) ∧
      (release sort d q ts).2.Perm (q ++ ts.filter (d · - 1 = 0))
  | [], d, q, _ => ⟨fun x => by simp [release], by simp [release]⟩
  | t :: ts, d, q, h => by
    obtain ⟨ht, hts⟩ := List.nodup_cons.1 h
    -- the other targets keep their count while `t` is released
    have hsame : ∀ x ∈ ts, (if x = t then d t - 1 else d x) = d x := fun x hx => by
      rw [if_neg]
      rintro rfl
      exact ht hx
    obtain ⟨hdegree, hqueue⟩ := release_eq hsort (fun x => if x = t then d t - 1 else d x)
      (if (if t = t then d t - 1 else d t) = 0 then sort (q ++ [t]) else q) hts
    refine ⟨fun x => ?_, ?_⟩
    · rw [release, hdegree x]
      by_cases hx : x = t
      · subst hx
        simp [ht]
      · simp [hx]
    · rw [release]
      refine hqueue.trans ?_
      rw [List.filter_congr fun x hx => by rw [hsame x hx], if_pos rfl, List.filter_cons]
      by_cases hzero : d t - 1 = 0
      · rw [if_pos hzero, if_pos (decide_eq_true hzero)]
        refine ((hsort _).append_right _).trans ?_
        rw [List.append_assoc]
        rfl
      · rw [if_neg hzero, if_neg (by simpa using hzero)]

variable (hsort : ∀ l, (sort l).Perm l) (hnodup : edges.Nodup)
  (hknown : ∀ e ∈ edges, e.1 ∈ ids ∧ e.2 ∈ ids)
include hsort hnodup hknown

/-- One round of the loop is one visit. -/
theorem Inv.next {x : α} (h : Inv edges ids v (x :: q) d) :
    Inv edges ids (x :: v) (release sort d q (sort (targets edges x))).2
      (release sort d q (sort (targets edges x))).1 ∧ (Full ids v (x :: q) d →
        Full ids (x :: v) (release sort d q (sort (targets edges x))).2 (release sort d q (sort (targets edges x))).1) := by
  have hsorted := hsort (targets edges x)
  obtain ⟨hdegree, hqueue⟩ := release_eq hsort d q (hsorted.nodup_iff.2 (nodup_targets hnodup x))
  simp only [hsorted.mem_iff] at hdegree
  have hqueue := hqueue.trans ((hsorted.filter _).append_left q)
  exact ⟨h.visit hnodup (fun e he => (hknown e he).2) hdegree hqueue,
    fun hfull => hfull.visit hdegree hqueue⟩

/-- If the loop visits all nodes there is a rank. -/
theorem visits_rank : ∀ (fuel : Nat) {v q : List α} {d : α → Nat}, Inv edges ids v q d →
    ids.length ≤ v.length + visits sort edges fuel d q → ∃ rank : α → Nat, ∀ e ∈ edges, rank e.1 < rank e.2
  | 0, v, q, d, hinv, hall => hinv.rank hall fun e he => (hknown e he).2
  | fuel + 1, v, [], d, hinv, hall => hinv.rank hall fun e he => (hknown e he).2
  | fuel + 1, v, x :: q, d, hinv, hall => by
    rw [visits] at hall
    exact visits_rank fuel (hinv.next hsort hnodup hknown).1 (by rw [List.length_cons]; omega)

/-- Without a cycle the loop visits all nodes. -/
theorem visits_of_acyclic (hids : ids.Nodup) (hacyclic : Acyclic edges) :
    ∀ (fuel : Nat) {v q : List α} {d : α → Nat}, Inv edges ids v q d → Full ids v q d →
    ids.length ≤ v.length + fuel → v.length + visits sort edges fuel d q = ids.length
  | 0, v, q, d, hinv, _, hfuel => by
    have hle := hinv.length_le
    simp only [visits]
    omega
  | fuel + 1, v, [], d, hinv, hfull, _ => by
    have hle := hinv.length_le
    have hall := hinv.all_visited hfull (fun e he => (hknown e he).1) hacyclic
    have hge := (hids.subperm hall).length_le
    simp only [visits]
    omega
  | fuel + 1, v, x :: q, d, hinv, hfull, hfuel => by
    obtain ⟨hnext, hfull'⟩ := hinv.next hsort hnodup hknown
    have ih := visits_of_acyclic hids hacyclic fuel hnext (hfull' hfull) (by rw [List.length_cons]; omega)
    rw [List.length_cons] at ih
    rw [visits]
    omega

/-- The whole algorithm, from the number of edges into each node. -/
theorem visits_eq_iff (hids : ids.Nodup) (hd : ∀ x, d x = edges.countP (·.2 = x)) :
    visits sort edges ids.length d (sort (ids.filter (d · = 0))) = ids.length ↔ Acyclic edges := by
  have hstart : Inv edges ids [] (sort (ids.filter (d · = 0))) d := .start hids hd (hsort _)
  constructor
  · intro hall
    obtain ⟨rank, hrank⟩ := visits_rank hsort hnodup hknown ids.length hstart (by simp [hall])
    exact acyclic_of_rank hrank
  · intro hacyclic
    have hfull : Full ids [] (sort (ids.filter (d · = 0))) d := by
      intro x hx hzero
      simpa [(hsort _).mem_iff] using ⟨hx, hzero⟩
    simpa using visits_of_acyclic hsort hnodup hknown hids hacyclic ids.length hstart hfull (by simp)

end

theorem exists_rank (hids : ids.Nodup) (hnodup : edges.Nodup) (hknown : ∀ e ∈ edges, e.1 ∈ ids ∧ e.2 ∈ ids)
    (hacyclic : Acyclic edges) : ∃ rank : α → Nat, ∀ e ∈ edges, rank e.1 < rank e.2 := by
  have hsort : ∀ l : List α, (id l).Perm l := fun l => .refl l
  have hall := (visits_eq_iff (d := fun x => edges.countP (·.2 = x)) hsort hnodup hknown hids
    fun _ => rfl).2 hacyclic
  exact visits_rank hsort hnodup hknown ids.length (.start hids (fun _ => rfl) (hsort _))
    (by rw [hall]; simp)

end Kahn
