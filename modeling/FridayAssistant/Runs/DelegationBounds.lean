import FridayAssistant.Lib.Chain
import FridayAssistant.Runs.SplitDispatch
/-!
# Delegation trees stay within their bounds

Depth and root of a request are fixed before the write fence, from the request the parent's
execution is a child of; the budgets are counted after it. The first may be stale and still
holds at the commit: which request an execution is a child of never changes, because a child run
is a fresh row when its request is written. `Bounds` therefore says nothing about statuses, so
that a stale parent row written back cannot break it.
-/
namespace Friday.Runs
open Tables Table PyJson Queue Transition

/-- Settling a request leaves the edge it stands for. -/
structure SameEdge (q q' : DelegationRequest) : Prop where
  id : q'.id = q.id
  parentRunId : q'.parentRunId = q.parentRunId
  childRunId : q'.childRunId = q.childRunId
  rootDelegationId : q'.rootDelegationId = q.rootDelegationId
  depth : q'.depth = q.depth

theorem SameEdge.refl (q : DelegationRequest) : SameEdge q q := ⟨rfl, rfl, rfl, rfl, rfl⟩

theorem SameEdge.trans {a b c : DelegationRequest} (h : SameEdge a b) (h' : SameEdge b c) :
    SameEdge a c :=
  ⟨h'.id.trans h.id, h'.parentRunId.trans h.parentRunId, h'.childRunId.trans h.childRunId,
    h'.rootDelegationId.trans h.rootDelegationId, h'.depth.trans h.depth⟩

/-- The same requests, settled or not. -/
structure SameEdges (t t' : DelegationRequests) : Prop where
  forth : ∀ q ∈ t.rows, ∃ q' ∈ t'.rows, SameEdge q q'
  back : ∀ q' ∈ t'.rows, ∃ q ∈ t.rows, SameEdge q q'

variable {q : DelegationRequest}

namespace SameEdges
variable {t t' t'' : DelegationRequests} {g : Guard} {c c' : Core}

theorem refl (t : DelegationRequests) : SameEdges t t :=
  ⟨fun q hq => ⟨q, hq, .refl q⟩, fun q hq => ⟨q, hq, .refl q⟩⟩

theorem trans (h : SameEdges t t') (h' : SameEdges t' t'') : SameEdges t t'' where
  forth q hq := by
    obtain ⟨q', hq', hs⟩ := h.forth q hq
    obtain ⟨q'', hq'', hs'⟩ := h'.forth q' hq'
    exact ⟨q'', hq'', hs.trans hs'⟩
  back q hq := by
    obtain ⟨q', hq', hs⟩ := h'.back q hq
    obtain ⟨q'', hq'', hs'⟩ := h.back q' hq'
    exact ⟨q'', hq'', hs'.trans hs⟩

theorem put {q' : DelegationRequest} (hq : q ∈ t.rows) (same : SameEdge q q') :
    SameEdges t (t.put q') where
  forth x hx := by
    by_cases hid : x.id = q.id
    · exact ⟨q', mem_put.2 (.inl rfl), eq_of_key hx hq hid ▸ same⟩
    · exact ⟨x, mem_put.2 (.inr ⟨hx, by rw [key_delegation, key_delegation, same.id]; exact hid⟩), .refl x⟩
  back x hx := by
    rcases mem_put.1 hx with rfl | ⟨hx, -⟩
    · exact ⟨q, hq, same⟩
    · exact ⟨x, hx, .refl x⟩

theorem settle (c : Core) (executionId : RunId) (now : Time) :
    SameEdges c.delegationRequests (c.settle executionId now).delegationRequests := by
  rcases c.settle_cases executionId now with ⟨h, -⟩ | ⟨q, outcome, hq, -, -, h⟩
  · rw [h]
    exact refl _
  · have hmem := mem_of_get? (DelegationRequests.getForChildExecution_some hq).1
    have hput : SameEdges c.delegationRequests (c.delegationRequests.put (Core.finalized q outcome now)) :=
      put hmem ⟨rfl, rfl, rfl, rfl, rfl⟩
    rw [h]
    rcases Core.wake_cases { c with delegationRequests := c.delegationRequests.put (Core.finalized q outcome now) } q now
      with ⟨hw, -⟩ | ⟨p, -, -, -, -, hw⟩
    · rw [hw]; exact hput
    · rw [hw]; exact hput

/-- Only the two use cases that record a request add one. -/
theorem of_move (hno : ¬g.request) (h : Move g c c') :
    SameEdges c.delegationRequests c'.delegationRequests := by
  cases h with
  | request _ _ _ _ allowed | dispatch _ _ _ _ _ _ _ _ _ _ _ _ _ _ allowed =>
    exact absurd allowed hno
  | @finish r r' now => exact settle ((c.withRun r').dropItem r.id) _ now
  | @cancel r r' approvals now =>
    exact settle (({ c with approvals := approvals }.withRun r').dropItem r.id) _ now
  | _ => exact refl _

theorem of_moves (hno : ¬g.request) (h : Moves g c c') :
    SameEdges c.delegationRequests c'.delegationRequests := by
  induction h with
  | refl => exact refl _
  | tail _ hstep ih => exact ih.trans (of_move hno hstep)

end SameEdges

/-! ## Executions have a first attempt -/

def Founded (runs : RunTable) : Prop := ∀ r ∈ runs.rows, (runs.get? r.executionId).isSome = true

namespace Founded
variable {runs : RunTable} {g : Guard} {c c' : Core}

theorem put {r : Run} (h : Founded runs) (hr : r.executionId = r.id ∨ ∃ x ∈ runs.rows,
    x.executionId = r.executionId) : Founded (runs.put r) := by
  have hkeep : ∀ k, (runs.get? k).isSome = true → ((runs.put r).get? k).isSome = true := by
    intro k hk
    rw [get?_put]
    split
    · rfl
    · exact hk
  refine forall_put ?_ fun y hy => hkeep _ (h y hy)
  rcases hr with he | ⟨x, hx, he⟩
  · rw [he, show (runs.put r).get? r.id = some r from get?_put_self runs r]
    rfl
  · exact hkeep _ (he ▸ h x hx)

theorem save {x x' : Run} (h : Founded runs) (hx : runs.get? x.id = some x)
    (same : SameAttempt x x') : Founded (runs.put x') :=
  h.put (.inr ⟨x, mem_of_get? hx, same.executionId.symm⟩)

theorem step {runs' : RunTable} (h : Founded runs) (hs : AttemptStep runs runs') :
    Founded runs' := by
  cases hs with
  | save hr _ same => exact h.save hr same
  | first _ root => exact h.put (.inl root)
  | again hsource _ _ _ execution => exact h.put (.inr ⟨_, mem_of_get? hsource, execution.symm⟩)
  | next hr _ same _ _ execution =>
    exact (h.save hr same).put (.inr ⟨_, mem_put.2 (.inl rfl), same.executionId.trans execution.symm⟩)

theorem steps {runs' : RunTable} (h : Founded runs) (hs : AttemptSteps runs runs') :
    Founded runs' := by
  induction hs with
  | refl => exact h
  | tail _ hstep ih => exact ih.step hstep

theorem moves (h : Founded c.runs) (hm : Moves g c c') : Founded c'.runs := h.steps hm.attempts

end Founded

/-! ## The bounds -/

/-- What a dispatch for a parent of execution `e` writes: root and depth follow the request `e` is
a child of. -/
def Placed (requests : DelegationRequests) (e : RunId) (root : Option DelegationRequestId)
    (depth : Nat) : Prop :=
  (∃ u ∈ requests.rows, u.childRunId = some e ∧ root = some u.rootDelegationId ∧
    depth = u.depth + 1) ∨ (∀ u ∈ requests.rows, u.childRunId ≠ some e) ∧ root = none ∧ depth = 1

structure Bounds (limits : DelegationLimits) (runs : RunTable) (requests : DelegationRequests) :
    Prop where
  founded : Founded runs
  parent : ∀ q ∈ requests.rows, (runs.get? q.parentRunId).isSome = true
  child : ∀ q ∈ requests.rows, ∀ k, q.childRunId = some k → ∃ x, runs.get? k = some x ∧
    x.executionId = k
  unique : ∀ q ∈ requests.rows, ∀ q' ∈ requests.rows, ∀ k, q.childRunId = some k →
    q'.childRunId = some k → q = q'
  bare : ∀ q ∈ requests.rows, q.childRunId = none → q.depth = 1 ∧ q.rootDelegationId = q.id
  root : ∀ q ∈ requests.rows, ∃ t ∈ requests.rows, t.id = q.rootDelegationId ∧
    (q.childRunId.isSome = true → t.childRunId.isSome = true)
  placed : ∀ q ∈ requests.rows, q.childRunId.isSome = true → ∀ p, runs.get? q.parentRunId = some p →
    ∃ root, Placed requests p.executionId root q.depth ∧ q.rootDelegationId = root.getD q.id
  depth : ∀ q ∈ requests.rows, q.depth ≤ limits.maxDelegationDepth
  perRun : ∀ k, requests.countMaterializedForRun k ≤ limits.maxDelegationsPerRun
  perTree : ∀ k, (requests.select (·.rootDelegationId = k)).length ≤ limits.maxDelegationsPerTree

variable {depth : Nat} {root : Option DelegationRequestId}

section
variable {limits : DelegationLimits} {runs runs' : RunTable}
  {requests requests' : DelegationRequests}

theorem bounds_empty (limits : DelegationLimits) : Bounds limits .empty .empty where
  founded _ h := by cases h
  parent _ h := by cases h
  child _ h := by cases h
  unique _ h := by cases h
  bare _ h := by cases h
  root _ h := by cases h
  placed _ h := by cases h
  depth _ h := by cases h
  perRun _ := Nat.zero_le _
  perTree _ := Nat.zero_le _

variable {e : RunId}

theorem Placed.sameEdges
    (h : Placed requests e root depth) (hs : SameEdges requests requests') :
    Placed requests' e root depth := by
  rcases h with ⟨u, hu, hc, hr, hd⟩ | ⟨hnone, hr, hd⟩
  · obtain ⟨u', hu', same⟩ := hs.forth u hu
    exact .inl ⟨u', hu', same.childRunId.trans hc, by rw [hr, same.rootDelegationId], by rw [hd, same.depth]⟩
  · refine .inr ⟨fun u hu hc => ?_, hr, hd⟩
    obtain ⟨u', hu', same⟩ := hs.back u hu
    exact hnone u' hu' (same.childRunId.symm.trans hc)

/-- A request whose child is not `e` changes nothing for parents of execution `e`. -/
theorem Placed.put
    (h : Placed requests e root depth) (hfresh : requests.get? q.id = none)
    (hq : q.childRunId ≠ some e) : Placed (requests.put q) e root depth := by
  rcases h with ⟨u, hu, hrest⟩ | ⟨hnone, hrest⟩
  · exact .inl ⟨u, (mem_put_fresh hfresh).2 (.inr hu), hrest⟩
  · exact .inr ⟨forall_put hq hnone, hrest⟩

variable (h : Bounds limits runs requests)
include h

theorem Bounds.getForChildExecution :
    requests.getForChildExecution runs e = some q ↔ q ∈ requests.rows ∧ q.childRunId = some e :=
  DelegationRequests.getForChildExecution_iff h.child h.unique

/-- What `lineage` answers is where a new request belongs. -/
theorem Bounds.placed_of_lineage {cfg : Config} (hcfg : cfg.limits = limits)
    (hl : lineage cfg (requests.getForChildExecution runs e) = .ok (root, depth)) :
    Placed requests e root depth ∧ depth ≤ limits.maxDelegationDepth := by
  cases hin : requests.getForChildExecution runs e with
  | none =>
    rw [hin] at hl
    cases hl
    refine ⟨.inr ⟨fun u hu hc => ?_, rfl, rfl⟩, limits.depth_pos⟩
    rw [h.getForChildExecution.2 ⟨hu, hc⟩] at hin
    cases hin
  | some u =>
    rw [hin] at hl
    obtain ⟨_, hdepth, hl⟩ := bind_ok hl
    cases hl
    obtain ⟨hu, hc⟩ := h.getForChildExecution.1 hin
    refine ⟨.inl ⟨u, hu, hc, rfl, rfl⟩, ?_⟩
    rw [← hcfg]
    exact of_require hdepth

/-- Nothing but statuses of requests, and new attempts. -/
theorem Bounds.kept (hfounded : Founded runs')
    (hruns : ∀ k r, runs.get? k = some r → ∃ r', runs'.get? k = some r' ∧ SameAttempt r r')
    (hs : SameEdges requests requests') : Bounds limits runs' requests' where
  founded := hfounded
  parent q hq := by
    obtain ⟨q₀, hq₀, same⟩ := hs.back q hq
    obtain ⟨p, hp⟩ := Option.isSome_iff_exists.1 (h.parent q₀ hq₀)
    obtain ⟨p', hp', -⟩ := hruns _ p hp
    rw [same.parentRunId, hp']
    rfl
  child q hq k hk := by
    obtain ⟨q₀, hq₀, same⟩ := hs.back q hq
    obtain ⟨x, hx, he⟩ := h.child q₀ hq₀ k (same.childRunId.symm.trans hk)
    obtain ⟨x', hx', hsame⟩ := hruns k x hx
    exact ⟨x', hx', hsame.executionId.trans he⟩
  unique q hq q' hq' k hk hk' := by
    obtain ⟨q₀, hq₀, same⟩ := hs.back q hq
    obtain ⟨q₀', hq₀', same'⟩ := hs.back q' hq'
    have heq := h.unique q₀ hq₀ q₀' hq₀' k (same.childRunId.symm.trans hk) (same'.childRunId.symm.trans hk')
    exact eq_of_key hq hq' (by rw [key_delegation, key_delegation, same.id, same'.id, heq])
  bare q hq hc := by
    obtain ⟨q₀, hq₀, same⟩ := hs.back q hq
    obtain ⟨hd, hr⟩ := h.bare q₀ hq₀ (same.childRunId.symm.trans hc)
    exact ⟨same.depth.trans hd, by rw [same.rootDelegationId, hr, same.id]⟩
  root q hq := by
    obtain ⟨q₀, hq₀, same⟩ := hs.back q hq
    obtain ⟨t, ht, hid, hc⟩ := h.root q₀ hq₀
    obtain ⟨t', ht', same'⟩ := hs.forth t ht
    exact ⟨t', ht', by rw [same'.id, hid, same.rootDelegationId], by rw [same.childRunId, same'.childRunId]; exact hc⟩
  placed q hq hc p hp := by
    obtain ⟨q₀, hq₀, same⟩ := hs.back q hq
    obtain ⟨p₀, hp₀⟩ := Option.isSome_iff_exists.1 (h.parent q₀ hq₀)
    obtain ⟨p', hp', hsame⟩ := hruns _ p₀ hp₀
    rw [same.parentRunId, hp'] at hp
    cases hp
    obtain ⟨root, hplaced, hroot⟩ := h.placed q₀ hq₀ (by rw [← same.childRunId]; exact hc) p₀ hp₀
    refine ⟨root, ?_, by rw [same.rootDelegationId, hroot, same.id]⟩
    rw [hsame.executionId, same.depth]
    exact hplaced.sameEdges hs
  depth q hq := by
    obtain ⟨q₀, hq₀, same⟩ := hs.back q hq
    rw [same.depth]
    exact h.depth q₀ hq₀
  perRun k := by
    refine (length_select_le fun q hq hp => ?_).trans (h.perRun k)
    obtain ⟨q₀, hq₀, same⟩ := hs.back q hq
    rw [same.parentRunId, same.childRunId] at hp
    exact ⟨q₀, hq₀, hp, same.id.symm⟩
  perTree k := by
    refine (length_select_le fun q hq hp => ?_).trans (h.perTree k)
    obtain ⟨q₀, hq₀, same⟩ := hs.back q hq
    rw [same.rootDelegationId] at hp
    exact ⟨q₀, hq₀, hp, same.id.symm⟩

/-- A new tree has no members yet. -/
theorem Bounds.noMembers {k : DelegationRequestId} (hk : requests.get? k = none) :
    (requests.select (·.rootDelegationId = k)).length = 0 := by
  refine List.length_eq_zero_iff.2 (List.filter_eq_nil_iff.2 fun u hu hr => ?_)
  obtain ⟨t, ht, hid, -⟩ := h.root u hu
  rw [← of_decide_eq_true hr, ← hid, show requests.get? t.id = some t from get?_of_mem ht] at hk
  cases hk

/-- Every member of a tree that has been dispatched into is counted. -/
theorem Bounds.members_le {u : DelegationRequest} (hu : u ∈ requests.rows)
    (hc : u.childRunId.isSome = true) : (requests.select (·.rootDelegationId = u.rootDelegationId)).length ≤
      requests.countMaterializedForTree u.rootDelegationId := by
  refine length_select_le fun x hx hr => ⟨x, hx, ?_, rfl⟩
  rw [hr, Bool.true_and]
  -- a record without a child is its own root, and the root of this tree has a child
  cases hxc : x.childRunId with
  | some k => rfl
  | none =>
    obtain ⟨t, ht, hid, htc⟩ := h.root u hu
    have hxt : x = t := eq_of_key hx ht (by
      rw [key_delegation, key_delegation, hid, ← of_decide_eq_true hr, (h.bare x hx hxc).2])
    rw [← hxt, hxc] at htc
    exact htc hc

/-- A request is recorded for `p`; if it has a child, the child is new and the budgets have been
counted. -/
theorem Bounds.add {p : Run}
    (root : Option DelegationRequestId) (hfresh : requests.get? q.id = none) (hp : runs.get? q.parentRunId = some p)
    (hroot : q.rootDelegationId = root.getD q.id) (hdepth : q.depth ≤ limits.maxDelegationDepth)
    (hbare : q.childRunId = none → q.depth = 1 ∧ root = none)
    (hchild : ∀ k, q.childRunId = some k → (∃ x, runs.get? k = some x ∧ x.executionId = k) ∧
      (∀ u ∈ requests.rows, u.childRunId ≠ some k) ∧
      (∀ u, u = q ∨ u ∈ requests.rows → ∀ x, runs.get? u.parentRunId = some x → x.executionId ≠ k) ∧
      Placed requests p.executionId root q.depth)
    (hrun : q.childRunId.isSome = true → requests.countMaterializedForRun q.parentRunId < limits.maxDelegationsPerRun)
    (htree : ∀ r, root = some r → requests.countMaterializedForTree r < limits.maxDelegationsPerTree) :
    Bounds limits runs (requests.put q) := by
  have hmem : ∀ {x : DelegationRequest}, x ∈ (requests.put q).rows ↔ x = q ∨ x ∈ requests.rows :=
    mem_put_fresh hfresh
  constructor
  case founded => exact h.founded
  case parent => exact forall_put (by rw [hp]; rfl) h.parent
  case child => exact forall_put (fun k hk => (hchild k hk).1) h.child
  case unique =>
    intro x hx y hy k hxk hyk
    rcases hmem.1 hx with hxq | hxold <;> rcases hmem.1 hy with hyq | hyold
    · rw [hxq, hyq]
    · exact absurd hyk ((hchild k (hxq ▸ hxk)).2.1 y hyold)
    · exact absurd hxk ((hchild k (hyq ▸ hyk)).2.1 x hxold)
    · exact h.unique x hxold y hyold k hxk hyk
  case bare =>
    refine forall_put (fun hc => ?_) h.bare
    obtain ⟨hd, hr⟩ := hbare hc
    exact ⟨hd, by rw [hroot, hr]; rfl⟩
  case root =>
    intro x hx
    rcases hmem.1 hx with rfl | hx
    · cases hc : x.childRunId with
      | none => exact ⟨x, hmem.2 (.inl rfl), by rw [hroot, (hbare hc).2]; rfl, nofun⟩
      | some k =>
        rcases (hchild k hc).2.2.2 with ⟨u, hu, huc, hr, -⟩ | ⟨-, hr, -⟩
        · obtain ⟨t, ht, hid, htc⟩ := h.root u hu
          exact ⟨t, hmem.2 (.inr ht), by rw [hroot, hr, hid]; rfl, fun _ => htc (by rw [huc]; rfl)⟩
        · exact ⟨x, hmem.2 (.inl rfl), by rw [hroot, hr]; rfl, fun _ => by rw [hc]; rfl⟩
    · obtain ⟨t, ht, hrest⟩ := h.root x hx
      exact ⟨t, hmem.2 (.inr ht), hrest⟩
  case placed =>
    intro x hx hc px hpx
    -- nobody's parent belongs to the execution that has just been opened
    have hother : ∀ k, q.childRunId = some k → px.executionId ≠ k := fun k hk => (hchild k hk).2.2.1 x (hmem.1 hx) px hpx
    have hne : q.childRunId ≠ some px.executionId := fun e => hother _ e rfl
    rcases hmem.1 hx with rfl | hx
    · obtain ⟨k, hk⟩ := Option.isSome_iff_exists.1 hc
      rw [hp] at hpx
      cases hpx
      exact ⟨root, (hchild k hk).2.2.2.put hfresh hne, hroot⟩
    · obtain ⟨r, hplaced, hr⟩ := h.placed x hx hc px hpx
      exact ⟨r, hplaced.put hfresh hne, hr⟩
  case depth => exact forall_put hdepth h.depth
  case perRun =>
    intro k
    cases hq : (q.parentRunId = k && q.childRunId.isSome : Bool) with
    | false => exact (length_select_put_of_not hfresh hq).le.trans (h.perRun k)
    | true =>
      obtain ⟨hk, hc⟩ := Bool.and_eq_true_iff.1 hq
      have hlt := hrun hc
      rw [of_decide_eq_true hk] at hlt
      exact (length_select_put_le hfresh).trans hlt
  case perTree =>
    intro k
    by_cases hk : q.rootDelegationId = k
    · refine (length_select_put_le hfresh).trans ?_
      cases hr : root with
      | none =>
        rw [hr] at hroot
        rw [h.noMembers (k := k) (by rw [← hk, hroot]; exact hfresh)]
        exact limits.perTree_pos
      | some r =>
        have hlt := htree r hr
        rw [hr] at hroot
        have hkr : k = r := hk.symm.trans hroot
        cases hc : q.childRunId with
        | none => have := (hbare hc).2; rw [hr] at this; cases this
        | some c =>
          rcases (hchild c hc).2.2.2 with ⟨u, hu, huc, hru, -⟩ | ⟨-, hnone, -⟩
          · rw [hr] at hru
            cases hru
            have hle := h.members_le hu (by rw [huc]; rfl)
            rw [hkr]
            omega
          · rw [hr] at hnone; cases hnone
    · exact (length_select_put_of_not hfresh (decide_eq_false hk)).le.trans (h.perTree k)

end

/-! ## What each commit does -/

/-- What `materialize` writes to the two tables, and what it has counted. -/
structure Materialized (limits : DelegationLimits) (db db' : Db) (c : DispatchCommand)
    (parent : Run) (root : Option DelegationRequestId) (depth : Nat) (q : DelegationRequest)
    (current saved : Run) : Prop where
  loaded : db.runs.get? parent.id = some current
  same : SameAttempt current saved
  freshRun : db.runs.get? c.ids.childRunId = none
  freshRequest : db.delegationRequests.get? q.id = none
  parentRunId : q.parentRunId = c.intent.parentRunId
  childRunId : q.childRunId = some c.ids.childRunId
  rootDelegationId : q.rootDelegationId = root.getD q.id
  depth : q.depth = depth
  perRun : db.delegationRequests.countMaterializedForRun parent.id < limits.maxDelegationsPerRun
  perTree : ∀ r, root = some r →
    db.delegationRequests.countMaterializedForTree r < limits.maxDelegationsPerTree
  runs : db'.runs = (db.runs.put (Run.new c.ids.childRunId c.ids.childTaskId c.now none)).put saved
  requests : db'.delegationRequests = db.delegationRequests.put q

variable {parent : Run}

theorem materialize_spec {cfg : Config} {db db' : Db} {c : DispatchCommand}
    (h : c.materialize cfg db parent root depth = .ok (q, db')) :
    ∃ current saved, Materialized cfg.limits db db' c parent root depth q current saved := by
  obtain ⟨_, h⟩ := bind_rest h
  obtain ⟨current, hcurrent, _, hbudget, h⟩ := bind_ok₂ h
  obtain ⟨_, _, h⟩ := bind_rest₂ h
  obtain ⟨agent, -, request, hnew, h⟩ := bind_ok₂ h
  obtain ⟨db₁, hchild, dispatched, hdis, h⟩ := bind_ok₂ h
  obtain ⟨requests, hadd, waiting, hwait, h⟩ := bind_ok₂ h
  obtain ⟨items, -, h⟩ := bind_ok h
  cases h
  obtain ⟨hget, hid⟩ := getRun_eq_ok hcurrent
  obtain ⟨_, hbudget⟩ := bind_rest hbudget
  obtain ⟨_, hrun, htree⟩ := bind_ok hbudget
  obtain ⟨hrid, hparent, -⟩ := DelegationRequest.new_eq_ok hnew
  obtain ⟨hroot, hdepth⟩ := DelegationRequest.new_edge hnew
  obtain ⟨hfreshRequest, rfl⟩ := DelegationRequests.add_eq_ok hadd
  obtain ⟨hfresh, hcore⟩ := startChild_core hchild
  have hsame : SameAttempt parent waiting := by
    obtain ⟨-, -, rfl⟩ := Run.waitForDelegation_eq_ok.1 hwait
    exact ⟨rfl, rfl, rfl, rfl⟩
  have hrequests : db₁.delegationRequests = db.delegationRequests :=
    (congrArg Core.delegationRequests hcore).trans rfl
  have hruns : db₁.runs = db.runs.put (Run.new c.ids.childRunId c.ids.childTaskId c.now none) :=
    (congrArg Core.runs hcore).trans rfl
  rw [hrequests] at hfreshRequest
  obtain rfl := DelegationRequest.dispatch_eq_ok hdis
  refine ⟨current, flushRun cfg.failureEq parent waiting current, ?_⟩
  constructor
  case loaded => rw [← hid]; exact hget
  case same => exact flushRun_same _ hsame current
  case freshRun => exact hfresh
  case freshRequest => exact hfreshRequest
  case parentRunId => exact hparent
  case childRunId => rfl
  case rootDelegationId => exact hroot.trans (by rw [← hrid]; rfl)
  case depth => exact hdepth
  case perRun => exact of_require hrun
  case perTree =>
    intro r hr
    have hall := require_eq_ok.1 htree
    rw [hr] at hall
    exact of_decide_eq_true hall
  case runs => rw [← hruns]; rfl
  case requests => rw [← hrequests]; rfl

/-- The bounds hold again, and whatever a worker has read stays true. -/
structure Grows (limits : DelegationLimits) (c c' : Core) : Prop where
  bounds : Bounds limits c'.runs c'.delegationRequests
  attempts : KeepsAttempts c c'
  placed : ∀ e root depth, (c.runs.get? e).isSome = true →
    Placed c.delegationRequests e root depth → Placed c'.delegationRequests e root depth

section
variable {cfg : Config} {db db' : Db}

/-- The parent of a dispatch as it was read: the same attempt is still there. -/
def Loaded (db : Db) (c : DispatchCommand) (parent : Run) : Prop :=
  parent.id = c.intent.parentRunId ∧ ∃ current, db.runs.get? parent.id = some current ∧
    SameAttempt parent current

theorem materialize_grows {c : DispatchCommand}
    (h : Bounds cfg.limits db.runs db.delegationRequests) (hloaded : Loaded db c parent)
    (hplaced : Placed db.delegationRequests parent.executionId root depth)
    (hdepth : depth ≤ cfg.limits.maxDelegationDepth)
    (hm : c.materialize cfg db parent root depth = .ok (q, db')) :
    Grows cfg.limits db.toCore db'.toCore := by
  obtain ⟨current, saved, m⟩ := materialize_spec hm
  obtain ⟨hid, current', hcurrent, hsame⟩ := hloaded
  obtain rfl : current = current' := Option.some.inj (m.loaded.symm.trans hcurrent)
  let child := Run.new c.ids.childRunId c.ids.childTaskId c.now none
  have hcid : current.id = parent.id := hsame.id
  have hne : child.id ≠ saved.id := fun e => by
    have hfresh := m.freshRun
    rw [show c.ids.childRunId = parent.id from (e.trans m.same.id).trans hcid, m.loaded] at hfresh
    cases hfresh
  have hin : (db.toCore.withRun child).runs.get? current.id = some current := by
    rw [Core.get?_withRun, if_neg fun e => hne (e.trans m.same.id.symm), hcid]
    exact m.loaded
  -- the runs only grow
  have hattempts : KeepsAttempts db.toCore ((db.toCore.withRun child).withRun saved) :=
    (KeepsAttempts.create m.freshRun).trans (.save hin m.same)
  have hfounded : Founded ((db.runs.put child).put saved) := by
    have hchild : Founded (db.runs.put child) := h.founded.put (.inl rfl)
    exact hchild.save (x := current) hin m.same
  have hgrown := h.kept hfounded hattempts (.refl _)
  -- an execution that had a run is not the new one
  have hother : ∀ e, (db.runs.get? e).isSome = true → e ≠ c.ids.childRunId := by
    rintro e he rfl
    rw [m.freshRun] at he
    cases he
  have hparent : ((db.runs.put child).put saved).get? q.parentRunId = some saved := by
    rw [m.parentRunId, ← hid, ← hcid, ← m.same.id]
    exact get?_put_self _ saved
  have hexec : saved.executionId = parent.executionId := m.same.executionId.trans hsame.executionId
  have hadd := hgrown.add (q := q) (p := saved) root m.freshRequest hparent m.rootDelegationId
    (m.depth ▸ hdepth) (fun hc => by rw [m.childRunId] at hc; cases hc) (fun k hk => ?_)
    (fun _ => by rw [m.parentRunId, ← hid]; exact m.perRun) m.perTree
  · constructor
    · rw [m.runs, m.requests]; exact hadd
    · intro k r hr
      rw [m.runs]
      exact hattempts k r hr
    · intro e root depth he hp
      rw [m.requests]
      refine hp.put m.freshRequest fun hk => ?_
      rw [m.childRunId] at hk
      exact hother e he (Option.some.inj hk).symm
  · rw [m.childRunId] at hk
    cases hk
    refine ⟨⟨child, ?_, rfl⟩, ?_, ?_, ?_⟩
    · rw [get?_put_ne (Ne.symm hne)]
      exact get?_put_self _ child
    · intro u hu hc
      obtain ⟨x, hx, -⟩ := h.child u hu _ hc
      exact hother _ (by rw [hx]; rfl) rfl
    · intro u hu x hx
      obtain ⟨x₀, hx₀⟩ : ∃ x₀, db.runs.get? u.parentRunId = some x₀ := by
        rcases hu with rfl | hu
        · exact ⟨current, by rw [m.parentRunId, ← hid]; exact m.loaded⟩
        · exact Option.isSome_iff_exists.1 (h.parent u hu)
      obtain ⟨x', hx', hsame'⟩ := hattempts _ x₀ hx₀
      obtain rfl : x' = x := Option.some.inj (hx'.symm.trans hx)
      rw [hsame'.executionId]
      exact hother _ (h.founded x₀ (mem_of_get? hx₀))
    · rw [hexec, m.depth]
      exact hplaced

theorem createDelegationRequest_grows {i : DelegationIntent} {target : AgentId}
    {id : DelegationRequestId} {now : Time} (h : Bounds cfg.limits db.runs db.delegationRequests)
    (hc : createDelegationRequest cfg db i target id now = .ok (q, db')) :
    Grows cfg.limits db.toCore db'.toCore := by
  obtain ⟨p, hp, hc⟩ := bind_ok hc
  obtain ⟨_, _, _, hc⟩ := bind_rest₃ hc
  obtain ⟨request, hnew, requests, hadd, hc⟩ := bind_ok₂ hc
  cases hc
  obtain ⟨hpget, hpid⟩ := getRun_eq_ok hp
  obtain ⟨hrid, hparent, -, -, hnone⟩ := DelegationRequest.new_eq_ok hnew
  obtain ⟨hroot, hdepth⟩ := DelegationRequest.new_edge hnew
  obtain ⟨hfresh, rfl⟩ := DelegationRequests.add_eq_ok hadd
  constructor
  · refine h.add (p := p) none hfresh ?_ (hroot.trans hrid.symm)
      (hdepth.trans_le cfg.limits.depth_pos) (fun _ => ⟨hdepth, rfl⟩)
      (fun k hk => by rw [hnone] at hk; cases hk) (fun hk => by rw [hnone] at hk; cases hk) nofun
    rw [hparent, show (i.draft id target none 1 now).parentRunId = p.id from hpid.symm]
    exact hpget
  · exact .refl _
  · exact fun e root depth _ hp => hp.put hfresh (by rw [hnone]; nofun)

/-- No side condition, except that nothing is recorded. -/
def Guard.noRequests : Guard := { Guard.free with request := False }

theorem load_eq_ok {c : DispatchCommand} (h : c.load db = .ok parent) : Loaded db c parent := by
  obtain ⟨p, hp, h⟩ := bind_ok h
  obtain ⟨_, h⟩ := bind_rest h
  cases h
  obtain ⟨hget, hid⟩ := getRun_eq_ok hp
  exact ⟨hid, parent, hget, .refl parent⟩

theorem act_grows {a : RunAction} (h : Bounds cfg.limits db.runs db.delegationRequests)
    (hact : act cfg db a = .ok db') : Grows cfg.limits db.toCore db'.toCore := by
  by_cases hallowed : Allowed .noRequests db a
  · -- every other use case records no request
    have hmoves : Moves .noRequests db.toCore db'.toCore := act_moves hallowed (fun _ _ _ => trivial) hact
    have hedges := SameEdges.of_moves (fun h => h) hmoves
    exact ⟨h.kept (h.founded.moves hmoves) (KeepsAttempts.of_moves hmoves) hedges, .of_moves hmoves,
      fun _ _ _ _ hp => hp.sameEdges hedges⟩
  · cases a with
    | createDelegationRequest intent target id now =>
      obtain ⟨_, hact⟩ := map_snd_eq_ok.1 hact
      exact createDelegationRequest_grows h hact
    | dispatchDelegation intent targetKey ids claim now =>
      obtain ⟨q, hact⟩ := map_snd_eq_ok.1 hact
      rw [dispatchDelegation_eq cfg db ⟨intent, targetKey, ids, claim, now⟩] at hact
      obtain ⟨_, hact⟩ := bind_rest hact
      obtain ⟨parent, hload, ⟨root, depth⟩, hplace, hact⟩ := bind_ok₂ hact
      obtain ⟨hplaced, hdepth⟩ := h.placed_of_lineage rfl hplace
      exact materialize_grows h (load_eq_ok hload) hplaced hdepth hact
    | _ => exact absurd (by unfold Allowed; simp [Guard.noRequests, Guard.free]) hallowed

end

/-! ## Every interleaving -/

/-- What a worker has read still holds. -/
def Standing (cfg : Config) (db : Db) : DispatchCommand × DispatchPhase → Prop
  | (_, .claimed) => True
  | (c, .loaded parent) => Loaded db c parent
  | (c, .placed parent root depth) => Loaded db c parent ∧
    Placed db.delegationRequests parent.executionId root depth ∧
    depth ≤ cfg.limits.maxDelegationDepth

section
variable {cfg : Config}

variable {db' : Db} {w : DispatchCommand × DispatchPhase} {s : DispatchState}

theorem Loaded.grows {db : Db} {c : DispatchCommand} (h : Loaded db c parent)
    (hg : KeepsAttempts db.toCore db'.toCore) : Loaded db' c parent := by
  obtain ⟨hid, current, hcurrent, hsame⟩ := h
  obtain ⟨current', hcurrent', hsame'⟩ := hg _ current hcurrent
  exact ⟨hid, current', hcurrent', hsame.trans hsame'⟩

theorem Standing.grows {db : Db} (h : Standing cfg db w)
    (hb : Bounds cfg.limits db.runs db.delegationRequests)
    (hg : Grows cfg.limits db.toCore db'.toCore) : Standing cfg db' w := by
  obtain ⟨c, phase⟩ := w
  cases phase with
  | claimed => trivial
  | loaded parent => exact Loaded.grows h hg.attempts
  | placed parent root depth =>
    obtain ⟨hloaded, hplaced, hdepth⟩ := h
    refine ⟨hloaded.grows hg.attempts, hg.placed _ root depth ?_ hplaced, hdepth⟩
    obtain ⟨-, current, hcurrent, hsame⟩ := hloaded
    rw [← hsame.executionId]
    exact hb.founded current (mem_of_get? hcurrent)

/-- The bounds hold, and so does what every worker has read. -/
structure DispatchOk (cfg : Config) (s : DispatchState) : Prop where
  bounds : Bounds cfg.limits s.db.runs s.db.delegationRequests
  standing : ∀ w ∈ s.workers, Standing cfg s.db w

theorem DispatchOk.grows {workers : List (DispatchCommand × DispatchPhase)}
    (h : DispatchOk cfg s) (hg : Grows cfg.limits s.db.toCore db'.toCore)
    (hsub : workers ⊆ s.workers) : DispatchOk cfg ⟨db', workers⟩ :=
  ⟨hg.bounds, fun w hw => (h.standing w (hsub hw)).grows h.bounds hg⟩

/-- A worker reads on: what it has read holds now. -/
theorem DispatchOk.reads {i : Nat} (h : DispatchOk cfg s) (hw : Standing cfg s.db w) :
    DispatchOk cfg { s with workers := s.workers.set i w } := by
  refine ⟨h.bounds, fun x hx => ?_⟩
  rcases List.mem_or_eq_of_mem_set hx with hx | rfl
  · exact h.standing x hx
  · exact hw

theorem advanceDispatch_ok {s' : DispatchState} {i : Nat}
    (h : DispatchOk cfg s) (hw : w ∈ s.workers) (hstep : advanceDispatch cfg s i w = .ok s') :
    DispatchOk cfg s' := by
  obtain ⟨c, phase⟩ := w
  have hstands := h.standing _ hw
  cases phase with
  | claimed =>
    obtain ⟨parent, hload, hstep⟩ := bind_ok hstep
    cases hstep
    exact h.reads (load_eq_ok hload)
  | loaded parent =>
    obtain ⟨⟨root, depth⟩, hplace, hstep⟩ := bind_ok hstep
    cases hstep
    exact h.reads ⟨hstands, h.bounds.placed_of_lineage rfl hplace⟩
  | placed parent root depth =>
    obtain ⟨⟨q, db'⟩, hm, hstep⟩ := bind_ok hstep
    cases hstep
    obtain ⟨hloaded, hplaced, hdepth⟩ := hstands
    exact h.grows (materialize_grows h.bounds hloaded hplaced hdepth hm) List.eraseIdx_subset

theorem dispatchOk_of_reachable (h : (dispatchSystem cfg).Reachable s) : DispatchOk cfg s := by
  refine h.invariant (DispatchOk cfg) ?_ ?_
  · rintro ⟨db, workers⟩ ⟨hdb, rfl⟩
    refine ⟨?_, fun _ hw => absurd hw List.not_mem_nil⟩
    rw [show db.runs = .empty from congrArg Core.runs hdb,
      show db.delegationRequests = .empty from congrArg Core.delegationRequests hdb]
    exact bounds_empty _
  · rintro s a s' - hok ⟨hstep, -⟩
    cases a with
    | commit a =>
      obtain ⟨db', hcommit, rfl⟩ := Option.map_eq_some_iff.1 hstep
      exact hok.grows (act_grows hok.bounds (runSystem_next ⟨hcommit, trivial⟩)) (List.Subset.refl _)
    | begin c =>
      obtain ⟨_, -, rfl⟩ := Option.map_eq_some_iff.1 hstep
      refine ⟨hok.bounds, fun w hw => ?_⟩
      rcases List.mem_append.1 hw with hw | hw
      · exact hok.standing w hw
      · rw [List.mem_singleton.1 hw]; trivial
    | advance i =>
      obtain ⟨w, hw, hstep⟩ := Option.bind_eq_some_iff.1 hstep
      exact advanceDispatch_ok hok (List.mem_of_getElem? hw) (toOption_eq_some.1 hstep)

end

/-! ## The tree a request is in -/

/-- The request whose child execution dispatched this one. A row without a child is a contract
record only and hangs below nothing. -/
def parentRequest (db : Db) (q : DelegationRequest) : Option DelegationRequest :=
  if q.childRunId.isNone then none
  else (db.runs.get? q.parentRunId).bind fun p =>
    db.delegationRequests.getForChildExecution db.runs p.executionId

theorem Bounds.chain {limits : DelegationLimits} {db : Db}
    (h : Bounds limits db.runs db.delegationRequests) (hq : q ∈ db.delegationRequests.rows) :
      ∃ chain, Chain.IsChain (parentRequest db) q chain ∧ chain.length = q.depth ∧
      chain.getLast?.map DelegationRequest.id = some q.rootDelegationId := by
  refine Chain.exists_chain (· ∈ db.delegationRequests.rows) DelegationRequest.depth
    DelegationRequest.rootDelegationId DelegationRequest.id ?_ ?_ q hq
  · intro q hq htop
    cases hc : q.childRunId with
    | none => exact h.bare q hq hc
    | some k =>
      obtain ⟨p, hp⟩ := Option.isSome_iff_exists.1 (h.parent q hq)
      obtain ⟨root, hplaced, hroot⟩ := h.placed q hq (by rw [hc]; rfl) p hp
      rw [parentRequest, hc, hp, if_neg (by simp), Option.bind_some] at htop
      rcases hplaced with ⟨u, hu, huc, -⟩ | ⟨-, hr, hd⟩
      · rw [h.getForChildExecution.2 ⟨hu, huc⟩] at htop
        cases htop
      · exact ⟨hd, by rw [hroot, hr]; rfl⟩
  · intro q u hq hup
    cases hc : q.childRunId with
    | none => rw [parentRequest, hc, if_pos (by simp)] at hup; cases hup
    | some k =>
      obtain ⟨p, hp⟩ := Option.isSome_iff_exists.1 (h.parent q hq)
      obtain ⟨root, hplaced, hroot⟩ := h.placed q hq (by rw [hc]; rfl) p hp
      rw [parentRequest, hc, hp, if_neg (by simp), Option.bind_some] at hup
      obtain ⟨hu, huc⟩ := h.getForChildExecution.1 hup
      refine ⟨hu, ?_⟩
      rcases hplaced with ⟨u', hu', huc', hr, hd⟩ | ⟨hnone, -⟩
      · rw [h.unique u hu u' hu' _ huc huc']
        exact ⟨hd, by rw [hroot, hr]; rfl⟩
      · exact absurd huc (hnone u hu)

/-- **Delegation bounds hold under concurrency.** However workers that dispatch interleave with
each other and with every other use case, in every committed state a request's depth is within
the limit and is the length of its chain of parents, its root is the end of that chain, and no
run and no tree has more requests than its budget. -/
theorem delegation_bounds (cfg : Config) (s : DispatchState) (h : (dispatchSystem cfg).Reachable s) :
    (∀ q ∈ s.db.delegationRequests.rows, q.depth ≤ cfg.limits.maxDelegationDepth ∧
      ∃ chain, Chain.IsChain (parentRequest s.db) q chain ∧ q.depth = chain.length ∧
        chain.getLast?.map DelegationRequest.id = some q.rootDelegationId) ∧
      (∀ runId, s.db.delegationRequests.countMaterializedForRun runId ≤ cfg.limits.maxDelegationsPerRun) ∧
      ∀ root, (s.db.delegationRequests.select (·.rootDelegationId = root)).length ≤ cfg.limits.maxDelegationsPerTree := by
  obtain ⟨hb, -⟩ := dispatchOk_of_reachable h
  refine ⟨fun q hq => ⟨hb.depth q hq, ?_⟩, hb.perRun, hb.perTree⟩
  obtain ⟨chain, hchain, hlength, hroot⟩ := hb.chain hq
  exact ⟨chain, hchain, hlength.symm, hroot⟩

/-- Digests that tell texts of different lengths apart. -/
def lengthConfig : Config :=
  { sampleConfig with sha256 := fun text => String.ofList (hexDigits 64 text.utf8ByteSize) }

def dispatchStart : DispatchState := ⟨sampleDb, []⟩

/-- Run 2 delegates (request 10, child run 12). While the worker of run 12 stands before its own
fence another task is created; then it delegates too (request 20, child run 22). -/
def nestedDispatch : List DispatchAction :=
  [.commit (.createTask 1 "t" "" 0), .commit (.startRun 1 2 1), .commit (.claimNextRun sampleClaim 2),
    .begin ⟨⟨2, "o", .obj [], "c", none⟩, "helper", ⟨10, 11, 12⟩, ⟨"worker", "token", 1⟩, 3⟩,
    .advance 0, .advance 0, .advance 0, .commit (.claimNextRun sampleClaim 4),
    .begin ⟨⟨12, "oo", .obj [], "c", none⟩, "helper", ⟨20, 21, 22⟩, ⟨"worker", "token", 1⟩, 5⟩,
    .advance 0, .advance 0, .commit (.createTask 3 "other" "" 6), .advance 0]

def nestedState : DispatchState :=
  System.run (dispatchStep lengthConfig) dispatchStart nestedDispatch

theorem delegation_bounds_nested :
    (nestedState.db.delegationRequests.rows.map fun q => (q.id, q.rootDelegationId, q.depth)) =
      [(10, 10, 1), (20, 10, 2)] ∧
    ∀ root, (nestedState.db.delegationRequests.select (·.rootDelegationId = root)).length ≤
      lengthConfig.limits.maxDelegationsPerTree := by
  have hrun : System.Legal (dispatchStep lengthConfig) (fun _ _ => True) dispatchStart nestedDispatch ∧
      (nestedState.db.delegationRequests.rows.map fun q => (q.id, q.rootDelegationId, q.depth)) =
        [(10, 10, 1), (20, 10, 2)] := by decide +kernel
  have hinit : (dispatchSystem lengthConfig).init dispatchStart := ⟨rfl, rfl⟩
  have hreach : (dispatchSystem lengthConfig).Reachable nestedState :=
    .steps (.of_init hinit) (.run hrun.1)
  exact ⟨hrun.2, (delegation_bounds lengthConfig nestedState hreach).2.2⟩

end Friday.Runs
