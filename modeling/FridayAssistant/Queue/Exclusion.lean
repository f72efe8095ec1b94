import FridayAssistant.Queue.WorkQueue
import FridayAssistant.Lib.Transition
/-!
# Run claims exclude each other and never come back

The statements of the work queue, in any order and from any number of workers, on any number
of runs. A claim is a triple; it is active while the row of its run carries it and the lease
lies in the future. `claim_generation` starts at 0 again when a row is removed and enqueued
anew, so it does not identify a claim: what does is the token, which each `try_claim` draws
fresh, together with the lease, which only a claim that is still active can extend.

`RowEffect` says what one statement can do to the row of one run; `Dead` is the invariant of a
claim that has ceased to be active.
-/
namespace Friday.Queue
open Tables Table Transition

/-- The table, the clock, and every token a `try_claim` was ever called with. -/
structure QueueState where
  items : WorkItems
  clock : Time
  usedTokens : List String

/-- One statement with its arguments, or the passing of time. -/
inductive QueueAction where
  | enqueue (runId : RunId) (availableAt enqueuedAt : Time)
  | tryClaim (runId : RunId) (workerId claimToken : String) (now leaseExpiresAt : Time)
  | renewLease (runId : RunId) (c : ClaimTriple) (now leaseExpiresAt : Time)
  | releaseClaim (runId : RunId) (c : ClaimTriple) (now : Time)
  | requeueClaimed (runId : RunId) (c : ClaimTriple) (availableAt enqueuedAt now : Time)
  | removeIfClaimed (runId : RunId) (c : ClaimTriple) (now : Time)
  | clearExpiredClaim (runId : RunId) (now : Time)
  | removeIfLeaseExpired (runId : RunId) (now : Time)
  | remove (runId : RunId)
  | tick (now : Time)
  deriving DecidableEq

def QueueAction.time? : QueueAction → Option Time
  | .tryClaim _ _ _ now _ | .renewLease _ _ now _ | .releaseClaim _ _ now | .requeueClaimed _ _ _ _ now
  | .removeIfClaimed _ _ now | .clearExpiredClaim _ now | .removeIfLeaseExpired _ now | .tick now =>
    some now
  | .enqueue _ _ _ | .remove _ => none

def QueueAction.token? : QueueAction → Option String
  | .tryClaim _ _ token _ _ => some token
  | _ => none

/-- The table after a statement. -/
def QueueAction.statement (t : WorkItems) : QueueAction → WorkItems
  | .enqueue runId availableAt enqueuedAt => Queue.enqueue t runId availableAt enqueuedAt
  | .tryClaim runId workerId token now lease => (Queue.tryClaim t runId workerId token now lease).2
  | .renewLease runId c now lease => (Queue.renewLease t runId c now lease).2
  | .releaseClaim runId c now => (Queue.releaseClaim t runId c now).2
  | .requeueClaimed runId c availableAt enqueuedAt now =>
    (Queue.requeueClaimed t runId c availableAt enqueuedAt now).2
  | .removeIfClaimed runId c now => (Queue.removeIfClaimed t runId c now).2
  | .clearExpiredClaim runId now => (Queue.clearExpiredClaim t runId now).2
  | .removeIfLeaseExpired runId now => (Queue.removeIfLeaseExpired t runId now).2
  | .remove runId => Queue.remove t runId
  | .tick _ => t

def QueueState.act (s : QueueState) (a : QueueAction) : QueueState :=
  { items := a.statement s.items, clock := a.time?.getD s.clock, usedTokens := a.token?.toList ++ s.usedTokens }

/-- The clock does not go back, and a claim token is one that was never used. -/
def QueueAction.Ok (s : QueueState) (a : QueueAction) : Prop :=
  (∀ now ∈ a.time?, s.clock ≤ now) ∧ ∀ token ∈ a.token?, token ∉ s.usedTokens
  deriving Decidable

/-- The work queue from an empty table. -/
def workQueue : System QueueState QueueAction :=
  .ofStep (fun s => s.items = .empty ∧ s.usedTokens = []) (fun s a => some (s.act a)) QueueAction.Ok

/-- Claim `c` of run `runId` is active now. -/
def QueueState.Active (s : QueueState) (runId : RunId) (c : ClaimTriple) : Prop :=
  isClaimActive s.items runId c s.clock = true

/-! ## What a statement does to one row -/

/-- The claim columns of two rows agree. -/
structure SameClaim (r x : RunWorkItem) : Prop where
  claimedBy : x.claimedBy = r.claimedBy
  claimToken : x.claimToken = r.claimToken
  claimGeneration : x.claimGeneration = r.claimGeneration

/-- How the row of one run can change at `now`: not at all, away, to a row without a claim, to
one whose claim is the old one (its lease extended only if it had not run out), or to one
claimed with a fresh token. -/
inductive RowEffect (now : Time) (fresh : String → Prop) : Option RunWorkItem → Option RunWorkItem →
    Prop where
  | gone {r : Option RunWorkItem} : RowEffect now fresh r none
  | cleared {r : Option RunWorkItem} {x : RunWorkItem} (token : x.claimToken = none) : RowEffect now fresh r (some x)
  | kept {r x : RunWorkItem} (claim : SameClaim r x) (lease : x.leaseExpiresAt = r.leaseExpiresAt) :
      RowEffect now fresh (some r) (some x)
  | renewed {r x : RunWorkItem} (claim : SameClaim r x) (leased : r.leased now = true) :
      RowEffect now fresh (some r) (some x)
  | taken {r : Option RunWorkItem} {x : RunWorkItem} {token : String} (new : fresh token)
      (claim : x.claimToken = some token) : RowEffect now fresh r (some x)

variable {now : Time} {t : WorkItems} {runId : RunId} {r : RunWorkItem} {c : ClaimTriple}

variable {fresh : String → Prop}

theorem RowEffect.refl : ∀ {r : Option RunWorkItem}, RowEffect now fresh r r
  | none => .gone
  | some _ => .kept ⟨rfl, rfl, rfl⟩ rfl

/-- An `UPDATE` affects each row as its `SET` clause affects the row it matches. -/
theorem rowEffect_update {p : RunWorkItem → Bool} {f : RunWorkItem → RunWorkItem} (hkey : ∀ r, (f r).runId = r.runId)
    (hf : ∀ r, p r = true → RowEffect now fresh (some r) (some (f r))) (k : RunId) :
    RowEffect now fresh (t.get? k) ((t.update runId p f).2.get? k) := by
  cases hu : t.update runId p f with
  | mk b t' =>
    cases b with
    | true =>
      obtain ⟨r, hr, hp, rfl⟩ := update_eq_true hu
      have hid : (f r).runId = runId := (hkey r).trans (key_of_get? hr)
      rw [get?_put, key_item, hid]
      split
      · next hk => rw [← hk, hr]; exact hf r hp
      · exact .refl
    | false =>
      rw [(update_eq_false hu).1]
      exact .refl

theorem rowEffect_erase (runId k : RunId) :
    RowEffect now fresh (t.get? k) ((t.erase runId).get? k) := by
  rw [get?_erase]
  split
  · exact .gone
  · exact .refl

theorem rowEffect_deleteIf {p : RunWorkItem → Bool}
    (k : RunId) : RowEffect now fresh (t.get? k) ((t.deleteIf runId p).2.get? k) := by
  unfold Table.deleteIf
  split
  · exact rowEffect_erase runId k
  · exact .refl

/-- **One statement, seen from one run.** -/
theorem rowEffect_statement (t : WorkItems) (a : QueueAction) (clock : Time) (k : RunId) :
    RowEffect (a.time?.getD clock) (fun token => a.token? = some token) (t.get? k) ((a.statement t).get? k) := by
  cases a with
  | enqueue runId availableAt enqueuedAt =>
    simp only [QueueAction.statement, enqueue]
    cases hr : t.get? runId with
    | none =>
      rw [get?_put]
      split
      · exact .cleared rfl
      · exact .refl
    | some r =>
      have hid : r.runId = runId := key_of_get? hr
      rw [get?_put, key_item, hid]
      split
      · next hk => rw [← hk, hr]; exact .kept ⟨rfl, rfl, rfl⟩ rfl
      · exact .refl
  | tryClaim runId workerId token now lease =>
    refine rowEffect_update ?_ ?_ k
    · exact fun _ => rfl
    · exact fun _ _ => .taken rfl rfl
  | renewLease runId c now lease =>
    refine rowEffect_update ?_ ?_ k
    · exact fun _ => rfl
    · exact fun r hp => .renewed ⟨rfl, rfl, rfl⟩ (Bool.and_eq_true _ _ ▸ hp).2
  | releaseClaim runId c now | requeueClaimed runId c availableAt enqueuedAt now | clearExpiredClaim runId now =>
    refine rowEffect_update ?_ ?_ k
    · exact fun _ => rfl
    · exact fun _ _ => .cleared rfl
  | removeIfClaimed runId c now | removeIfLeaseExpired runId now => exact rowEffect_deleteIf k
  | remove runId => exact rowEffect_erase runId k
  | tick now => exact .refl

/-! ## Dead claims -/

/-- A claim whose token has been used and that is not active. -/
structure Dead (s : QueueState) (runId : RunId) (c : ClaimTriple) : Prop where
  used : c.claimToken ∈ s.usedTokens
  inactive : ∀ r, s.items.get? runId = some r → r.carries c = true → r.leased s.clock = false

theorem carries_iff :
    r.carries c = true ↔ r.claimedBy = some c.workerId ∧ r.claimToken = some c.claimToken ∧
      r.claimGeneration = c.claimGeneration := by
  simp [RunWorkItem.carries, and_assoc]

theorem SameClaim.carries {x : RunWorkItem} (h : SameClaim r x) (hx : x.carries c = true) :
    r.carries c = true := by
  rw [carries_iff, h.claimedBy, h.claimToken, h.claimGeneration] at hx
  exact carries_iff.2 hx

theorem leased_mono {later : Time} (hle : now ≤ later) (h : r.leased later = true) :
    r.leased now = true := by
  cases hl : r.leaseExpiresAt with
  | none => simp [RunWorkItem.leased, hl] at h
  | some e =>
    simp only [RunWorkItem.leased, hl, Option.any_some, decide_eq_true_eq] at h ⊢
    exact lt_of_le_of_lt hle h

variable {s : QueueState} {a : QueueAction}

theorem clock_le_act (ha : a.Ok s) : s.clock ≤ (s.act a).clock := by
  cases ht : a.time? with
  | none => simp [QueueState.act, ht]
  | some now => simpa [QueueState.act, ht] using ha.1 now (by simp [ht])

/-- A dead claim stays dead, whatever statement comes next. -/
theorem Dead.act (h : Dead s runId c) (ha : a.Ok s) : Dead (s.act a) runId c := by
  refine ⟨List.mem_append_right _ h.used, fun x hx hcx => ?_⟩
  rw [Bool.eq_false_iff]
  intro hlx
  have hclock := clock_le_act ha
  have hold : ∀ r, s.items.get? runId = some r → r.carries c = true → r.leased (s.act a).clock ≠ true := by
    intro r hr hc hl
    simpa [h.inactive r hr hc] using leased_mono hclock hl
  have he := rowEffect_statement s.items a s.clock runId
  rw [show (a.statement s.items).get? runId = some x from hx] at he
  generalize hr : s.items.get? runId = row at he
  cases he with
  | cleared token => rw [carries_iff, token] at hcx; exact absurd hcx.2.1 nofun
  | @kept r _ claim lease =>
    refine hold r hr (claim.carries hcx) ?_
    rwa [RunWorkItem.leased, ← lease]
  | @renewed r _ claim leased => exact hold r hr (claim.carries hcx) leased
  | taken new claim =>
    rw [carries_iff, claim] at hcx
    obtain rfl := Option.some.inj hcx.2.1
    exact ha.2 _ new h.used

/-- The tokens in the table have all been used. -/
def TokensUsed (s : QueueState) : Prop :=
  ∀ k r token, s.items.get? k = some r → r.claimToken = some token → token ∈ s.usedTokens

theorem TokensUsed.act (h : TokensUsed s) : TokensUsed (s.act a) := by
  intro k x token hx htok
  have he := rowEffect_statement s.items a s.clock k
  rw [show (a.statement s.items).get? k = some x from hx] at he
  generalize hr : s.items.get? k = row at he
  cases he with
  | cleared token => rw [token] at htok; cases htok
  | @kept r _ claim _ | @renewed r _ claim _ =>
    exact List.mem_append_right _ (h k r token hr (claim.claimToken ▸ htok))
  | taken new claim =>
    rw [claim] at htok
    cases htok
    exact List.mem_append_left _ (by simp [new])

theorem reachable_tokensUsed (h : workQueue.Reachable s) : TokensUsed s := by
  refine h.invariant TokensUsed ?_ ?_
  · rintro s ⟨hi, -⟩ k r token hr
    rw [hi] at hr
    simp at hr
  · rintro s a s' - hi ⟨hs', -⟩
    cases hs'
    exact hi.act

theorem active_iff :
    s.Active runId c ↔ ∃ r, s.items.get? runId = some r ∧ r.carries c = true ∧ r.leased s.clock = true := by
  simp [QueueState.Active, isClaimActive, holds, Option.any_eq_true]

/-- A claim that was active and has ceased to be is dead. -/
theorem dead_of_ceased {s₁ : QueueState} (h : workQueue.Reachable s)
    (hc : s.Active runId c) (hs : workQueue.Steps s s₁) (hn : ¬ s₁.Active runId c) :
    Dead s₁ runId c := by
  obtain ⟨r, hr, hcar, -⟩ := active_iff.1 hc
  have hused : c.claimToken ∈ s.usedTokens :=
    reachable_tokensUsed h runId r _ hr (carries_iff.1 hcar).2.1
  refine ⟨System.Steps.stable (fun s => c.claimToken ∈ s.usedTokens) ?_ h hs hused,
    fun x hx hcx => ?_⟩
  · rintro s a s' - hu ⟨hs', -⟩
    cases hs'
    exact List.mem_append_right _ hu
  · rw [Bool.eq_false_iff]
    exact fun hl => hn (active_iff.2 ⟨x, hx, hcx, hl⟩)

theorem Dead.steps {s' : QueueState} (hd : Dead s runId c)
    (h : workQueue.Reachable s) (hs : workQueue.Steps s s') : Dead s' runId c := by
  refine System.Steps.stable (fun s => Dead s runId c) ?_ h hs hd
  rintro s a s' - hd ⟨hs', hok⟩
  cases hs'
  exact hd.act hok

theorem Dead.not_active (h : Dead s runId c) :
    ¬ s.Active runId c := by
  intro ha
  obtain ⟨x, hx, hcx, hlx⟩ := active_iff.1 ha
  simp [h.inactive x hx hcx] at hlx

/-- A row carries one triple. -/
theorem active_unique {c' : ClaimTriple} (hc : s.Active runId c) (hc' : s.Active runId c') :
    c = c' := by
  obtain ⟨r, hr, hcar, -⟩ := active_iff.1 hc
  obtain ⟨r', hr', hcar', -⟩ := active_iff.1 hc'
  rw [hr] at hr'
  cases hr'
  rw [carries_iff] at hcar hcar'
  obtain ⟨w, t, g⟩ := c
  obtain ⟨w', t', g'⟩ := c'
  simp_all

/-- **Run claims.** In every reachable state at most one claim of a run is active; and a claim
that was active in some state and is not in a later one is active in no state after that. -/
theorem run_claims_exclusive_without_resurrection (s : QueueState) (h : workQueue.Reachable s)
    (runId : RunId) : (∀ c c', s.Active runId c → s.Active runId c' → c = c') ∧
    ∀ c, s.Active runId c → ∀ s₁, workQueue.Steps s s₁ → ¬ s₁.Active runId c →
      ∀ s₂, workQueue.Steps s₁ s₂ → ¬ s₂.Active runId c :=
  ⟨fun _ _ => active_unique, fun _ hc _ hs₁ hn _ hs₂ =>
    ((dead_of_ceased h hc hs₁ hn).steps (h.steps hs₁) hs₂).not_active⟩

/-- A claim whose row was removed and enqueued again: the new row is back at generation 0, the
next claim has the same generation 1, and the old claim stays inactive in every later state. -/
theorem run_claims_exclusive_without_resurrection_sample :
    let start : QueueState := ⟨.empty, 0, []⟩
    let s := System.run (fun s a => some (s.act a)) start [.enqueue 1 0 0, .tryClaim 1 "a" "t" 1 9]
    let s₁ := System.run (fun s a => some (s.act a)) s [.remove 1, .enqueue 1 2 2, .tryClaim 1 "a" "u" 3 9]
    s.Active 1 ⟨"a", "t", 1⟩ ∧ s₁.Active 1 ⟨"a", "u", 1⟩ ∧
      ∀ s₂, workQueue.Steps s₁ s₂ → ¬ s₂.Active 1 ⟨"a", "t", 1⟩ := by
  intro start s s₁
  have hs : workQueue.Steps start s := by
    refine System.Steps.run ⟨⟨rfl, nofun, nofun⟩, ⟨rfl, ?_, ?_⟩, trivial⟩
    · rintro now ⟨⟩; decide
    · rintro token ⟨⟩; decide
  have hs₁ : workQueue.Steps s s₁ := by
    refine System.Steps.run ⟨⟨rfl, nofun, nofun⟩, ⟨rfl, nofun, nofun⟩, ⟨rfl, ?_, ?_⟩, trivial⟩
    · rintro now ⟨⟩; decide
    · rintro token ⟨⟩; decide
  have hr : workQueue.Reachable s := .steps (.of_init ⟨rfl, rfl⟩) hs
  have hact : s.Active 1 ⟨"a", "t", 1⟩ := by show isClaimActive _ _ _ _ = true; decide
  have hact₁ : s₁.Active 1 ⟨"a", "u", 1⟩ := by show isClaimActive _ _ _ _ = true; decide
  have hnot : ¬ s₁.Active 1 ⟨"a", "t", 1⟩ := by show ¬ isClaimActive _ _ _ _ = true; decide
  exact ⟨hact, hact₁, (run_claims_exclusive_without_resurrection s hr 1).2 _ hact s₁ hs₁ hnot⟩

end Friday.Queue
