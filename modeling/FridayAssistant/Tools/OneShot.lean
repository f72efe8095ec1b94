import FridayAssistant.Tools.Execute
/-!
# Protected tool actions are one-shot

An approval is consumed by an unconditional save over what Txn A read, so two workers can
consume the same one. What keeps the gateway from being called twice is the claim check after
the commit: a worker that passes it held its claim at that instant, so every other claim of the
run is either dead or not made yet. A dead one never passes the check; one made later reads the
committed invocation and is turned away by `_find_replay`.

That fails when a resolution was read while the approval was pending and commits after the call:
it clears `consumed_at`, and `_find_replay` no longer sees the invocation
(`stale_resolution_repeats_call`). So the runs considered are those in which a resolution finds its
approval still pending when it commits.

`Use` is a call that was made or that a worker is about to make, and `OneShot` the invariant. It
needs the texts hashed so far to have different digests; two fingerprints that agree then
belong to one run.
-/
namespace Friday.Tools
open Tables Table Transition Queue PyJson

variable {sha256 : String → String}

/-! ## Specs -/

variable {x' : ApprovalRequest} {now : Time} {db : ToolDb} {a : ToolAction} {v v' : ToolInvocation}
  {q q' : QueueState} {s s' : ToolState} {w : Nat → ToolPc} {l : List ToolEvent} {i : Nat}
  {pc : ToolPc}

theorem consume_ok {x : ApprovalRequest} (h : x.consume now = .ok x') :
    x.status = .approved ∧ x' = { x with consumedAt := some now } := by
  simp only [ApprovalRequest.consume, bind_eq_ok, require_eq_ok, decide_eq_true_eq] at h
  obtain ⟨_, hs, _, -, h⟩ := h
  exact ⟨hs, (Except.ok.inj h).symm⟩

/-- No replay: no invocation was made under a consumed approval of this fingerprint. -/
theorem findReplay_none {invocations : ToolInvocations} {approvals : List ApprovalRequest}
    {fp legacy : String} (h : findReplay invocations approvals fp legacy = .ok none) :
    ∀ x ∈ approvals, isConsumedFor fp legacy x = true → priorInvocations invocations legacy x = [] := by
  intro x hx hc
  unfold findReplay at h
  split at h
  · next he =>
    rw [List.flatMap_eq_nil_iff] at he
    exact he x (List.mem_filter.2 ⟨hx, hc⟩)
  · next v _ _ => cases hv : replayOf v <;> simp [hv, Except.map] at h

variable {approval : Option ApprovalRequest}

/-- What `authorize` has checked when it lets an action proceed. -/
theorem authorize_proceed (h : authorize sha256 db a now = .ok (.proceed approval)) :
    isClaimActive db.items a.runId a.claim now = true ∧
    (a.risk.approvalRequired = false ∧ approval = none ∨
     a.risk.approvalRequired = true ∧
      findReplay db.invocations (db.approvals.listForRun a.runId) (a.fingerprint sha256)
        (a.legacyFingerprint sha256) = .ok none ∧
      ∃ x, db.approvals.get? x.id = some x ∧ x.runId = some a.runId ∧ x.status = .approved ∧
        x.authorizationFingerprint = some (a.fingerprint sha256) ∧
        approval = some { x with consumedAt := some now }) := by
  simp only [authorize, requireClaim, bind_eq_ok, require_eq_ok] at h
  obtain ⟨_, hactive, run, -, _, -, h⟩ := h
  refine ⟨hactive, ?_⟩
  split at h
  · next hreq =>
    right
    simp only [authorizeProtected, bind_eq_ok] at h
    obtain ⟨replay, hreplay, h⟩ := h
    split at h
    · simp [pure, Except.pure] at h
    · split at h
      · simp [pure, Except.pure] at h
      · next x hx =>
        simp only [bind_eq_ok] at h
        obtain ⟨x', hx', h⟩ := h
        obtain ⟨hs, rfl⟩ := consume_ok hx'
        have hmem := List.mem_of_find?_eq_some hx
        have hfind := List.find?_some hx
        simp only [Bool.and_eq_true, decide_eq_true_eq] at hfind
        rw [Approvals.listForRun, List.mem_insertionSort, mem_select] at hmem
        refine ⟨hreq, hreplay, x, hmem.1, of_decide_eq_true hmem.2, hs, hfind.1.2, ?_⟩
        simpa [pure, Except.pure] using h.symm
  · next hreq =>
    left
    refine ⟨by simpa using hreq, ?_⟩
    simpa [pure, Except.pure] using h.symm

variable {id : ToolInvocationId}

/-- A transition of an invocation keeps what it was made for. -/
structure SameInvocation (v v' : ToolInvocation) : Prop where
  id : v'.id = v.id
  runId : v'.runId = v.runId
  approvalRequestId : v'.approvalRequestId = v.approvalRequestId

theorem sameInvocation_move {m : InvocationMove} (h : m.apply v now = .ok v') :
    SameInvocation v v' := by
  cases m <;>
    simp only [InvocationMove.apply, ToolInvocation.start, ToolInvocation.succeed,
      ToolInvocation.fail, ToolInvocation.cancel, ToolInvocation.requireStatus,
      ToolInvocation.validatedEnd, bind_eq_ok, require_eq_ok, pure, Except.pure,
      Except.ok.injEq] at h
  · obtain ⟨_, -, rfl⟩ := h; exact ⟨rfl, rfl, rfl⟩
  all_goals obtain ⟨_, -, _, -, rfl⟩ := h; exact ⟨rfl, rfl, rfl⟩

theorem sameInvocation_result {r : ToolExecutionResult} (h : r.apply v now = .ok v') :
    SameInvocation v v' := by
  cases r with
  | succeeded output => exact sameInvocation_move (m := .succeed output) h
  | failed failure output => exact sameInvocation_move (m := .fail failure) h

/-- What Txn A writes. -/
theorem record_ok {db' : ToolDb} (h : record db a approval id now = .ok (v, db')) :
    db.invocations.get? id = none ∧ v.id = id ∧ v.runId = a.runId ∧ v.approvalRequestId = approval.map (·.id) ∧
    db'.approvals = approval.elim db.approvals db.approvals.put ∧
    ∀ k, db'.invocations.get? k = if id = k then some v else db.invocations.get? k := by
  simp only [record, bind_eq_ok] at h
  obtain ⟨v₀, hnew, started, hstart, h⟩ := h
  obtain ⟨hid, hrun, hap⟩ : v₀.id = id ∧ v₀.runId = a.runId ∧ v₀.approvalRequestId = approval.map (·.id) := by
    obtain ⟨_, hnew⟩ := bind_rest hnew
    cases hnew
    exact ⟨rfl, rfl, rfl⟩
  have hsame : SameInvocation v₀ started := sameInvocation_move (m := .start) hstart
  split at h
  · cases h
  · next t ht =>
    obtain ⟨hfresh, rfl⟩ := insert?_eq_some.1 ht
    obtain ⟨rfl, rfl⟩ := Prod.mk.inj (Except.ok.inj h)
    refine ⟨hid ▸ hfresh, hsame.id.trans hid, hsame.runId.trans hrun,
      hsame.approvalRequestId.trans hap, rfl, fun k => ?_⟩
    show ((db.invocations.put v₀).put started).get? k = _
    rw [get?_put, get?_put, key_invocation, key_invocation, hsame.id, hid]
    split <;> rfl

theorem persistResult_ok {db' : ToolDb} {r : ToolExecutionResult}
    (h : persistResult db a id r now = .ok db') : ∃ v v', db.invocations.get? id = some v ∧
      SameInvocation v v' ∧ db' = { db with invocations := db.invocations.put v' } := by
  simp only [persistResult, bind_eq_ok] at h
  obtain ⟨_, -, _, -, h⟩ := h
  split at h
  · next v hv =>
    simp only [bind_eq_ok] at h
    obtain ⟨_, -, v', hv', h⟩ := h
    exact ⟨v, v', hv, sameInvocation_result hv', (Except.ok.inj h).symm⟩
  · cases h

/-! ## What a step does -/

/-- The queue as it was, or after one statement. -/
def QueueMoves (q q' : QueueState) : Prop := q' = q ∨ ∃ a : QueueAction, a.Ok q ∧ q' = q.act a

theorem QueueMoves.dead {r : RunId} {c : ClaimTriple} (h : QueueMoves q q') (hd : Dead q r c) :
    Dead q' r c := by
  obtain rfl | ⟨a, ha, rfl⟩ := h
  · exact hd
  · exact hd.act ha

theorem QueueMoves.used {token : String} (h : QueueMoves q q') (hu : token ∈ q.usedTokens) :
    token ∈ q'.usedTokens := by
  obtain rfl | ⟨a, -, rfl⟩ := h
  · exact hu
  · exact List.mem_append_right _ hu

/-- An approval that was granted keeps what it authorizes, its grant and its consumption. -/
structure SameGrant (x x' : ApprovalRequest) : Prop where
  authorizationFingerprint : x'.authorizationFingerprint = x.authorizationFingerprint
  runId : x'.runId = x.runId
  approved : x'.status = .approved
  consumed : x.isConsumed = true → x'.isConsumed = true

def SameApproval (x x' : ApprovalRequest) : Prop := x.status = .approved → SameGrant x x'

theorem SameApproval.refl (x : ApprovalRequest) : SameApproval x x := fun h => ⟨rfl, rfl, h, id⟩

/-- No row is lost, and each keeps what it stands for. -/
structure Kept (s s' : ToolState) : Prop where
  approvals : ∀ k x, s.approvals.get? k = some x → ∃ x', s'.approvals.get? k = some x' ∧
    SameApproval x x'
  invocations : ∀ k v, s.invocations.get? k = some v → ∃ v', s'.invocations.get? k = some v' ∧
    SameInvocation v v'

/-- A save keeps the rows of a table if it keeps the row it replaces, if there is one. -/
theorem kept_put {ρ : Type} [Keyed ρ Uuid] {t : Table ρ} {r : ρ} {same : ρ → ρ → Prop}
    (refl : ∀ x, same x x) (h : ∀ x, t.get? (key r) = some x → same x r) (k : Uuid) (x : ρ)
    (hx : t.get? k = some x) : ∃ x', (t.put r).get? k = some x' ∧ same x x' := by
  rw [get?_put]
  split
  · next he => exact ⟨r, rfl, h x (he ▸ hx)⟩
  · exact ⟨x, hx, refl x⟩

theorem SameInvocation.refl (v : ToolInvocation) : SameInvocation v v := ⟨rfl, rfl, rfl⟩

variable {rs : List (ApprovalRequest × Runs.Resolution × Time)}

theorem Kept.refl {runs : Table Run} {m : List String} :
    Kept s ⟨q, runs, s.approvals, s.invocations, w, rs, m, l⟩ :=
  ⟨fun _ x hx => ⟨x, hx, .refl x⟩, fun _ v hv => ⟨v, hv, .refl v⟩⟩

theorem Kept.put_approval (h : ∀ x, s.approvals.get? x'.id = some x → SameApproval x x') :
    Kept s ⟨q, s.runs, s.approvals.put x', s.invocations, w, rs, s.hashed, l⟩ :=
  ⟨kept_put .refl h, fun _ v hv => ⟨v, hv, .refl v⟩⟩

theorem Kept.put_invocation (h : ∀ v, s.invocations.get? v'.id = some v → SameInvocation v v') :
    Kept s ⟨q, s.runs, s.approvals, s.invocations.put v', w, rs, s.hashed, l⟩ :=
  ⟨fun _ x hx => ⟨x, hx, .refl x⟩, kept_put .refl h⟩

/-- A worker leaves `execute`, or crashes. -/
def Rests (pc pc' : ToolPc) : Prop := pc' = .idle ∨ ∃ r c, pc' = .holding r c ∧
    pc.holder = some (r, c)

/-- What one step can do: something that touches no action under way except to end it, or one
of the phases of an action. -/
inductive ToolEffect (sha256 : String → String) (s : ToolState) : ToolState → Prop where
  | calm {s' : ToolState} (queue : QueueMoves s.queue s'.queue) (kept : Kept s s')
      (workers : ∀ j, s'.workers j = s.workers j ∨ Rests (s.workers j) (s'.workers j))
      (history : s'.history = s.history) (hashed : s.hashed ⊆ s'.hashed) : ToolEffect sha256 s s'
  | claim {i : Nat} {runId : RunId} {c : ClaimTriple} {q' : QueueState} (queue : QueueMoves s.queue q')
      (fresh : c.claimToken ∉ s.queue.usedTokens) (used : c.claimToken ∈ q'.usedTokens) :
      ToolEffect sha256 s ({ s with queue := q' }.goto i (.holding runId c))
  | begin {i : Nat} {a : ToolAction} {approval : Option ApprovalRequest} {now : Time} {q' : QueueState}
      (holder : (s.workers i).holder = some (a.runId, a.claim)) (queue : QueueMoves s.queue q')
      (active : q'.Active a.runId a.claim) (ok : authorize sha256 ⟨q'.items, s.runs, s.approvals, s.invocations⟩ a now =
        .ok (.proceed approval)) :
      ToolEffect sha256 s (({ s with queue := q' }.hash a).goto i (.authorized a approval now))
  | commit {i : Nat} {a : ToolAction} {approval : Option ApprovalRequest} {now : Time} {id : ToolInvocationId}
      {v : ToolInvocation} {db : ToolDb} (pc : s.workers i = .authorized a approval now)
      (ok : record s.db a approval id now = .ok (v, db)) :
      ToolEffect sha256 s ({ s with approvals := db.approvals, invocations := db.invocations,
                                    history := .committed a approval v :: s.history }.goto i (.recorded a id))
  | recheck {i : Nat} {a : ToolAction} {id : ToolInvocationId} {q' : QueueState} (pc : s.workers i = .recorded a id)
      (queue : QueueMoves s.queue q') (active : q'.Active a.runId a.claim) :
      ToolEffect sha256 s ({ s with queue := q' }.goto i (.checked a id))
  | call {i : Nat} {a : ToolAction} {id : ToolInvocationId} {result : Option ToolExecutionResult}
      (pc : s.workers i = .checked a id) :
      ToolEffect sha256 s ({ s with history := .called a id :: s.history }.goto i
        (result.elim (.holding a.runId a.claim) (.settling a id)))

theorem goto_workers (h : Rests (s.workers i) pc) (j : Nat) :
    (s.goto i pc).workers j = s.workers j ∨ Rests (s.workers j) ((s.goto i pc).workers j) := by
  by_cases hj : j = i
  · subst hj
    right
    simpa [ToolState.goto] using h
  · left
    simp [ToolState.goto, hj]

section
variable {runs : Table Run} {ap : Approvals} {iv : ToolInvocations}

theorem ToolEffect.still (queue : QueueMoves s.queue q)
    (kept : Kept s ⟨q, runs, ap, iv, s.workers, rs, s.hashed, s.history⟩) :
    ToolEffect sha256 s ⟨q, runs, ap, iv, s.workers, rs, s.hashed, s.history⟩ :=
  .calm queue kept (fun _ => .inl rfl) rfl (List.Subset.refl _)

theorem ToolEffect.leaves {r : RunId} {c : ClaimTriple} (queue : QueueMoves s.queue q)
    (kept : Kept s (ToolState.goto ⟨q, runs, ap, iv, s.workers, rs, s.hashed, s.history⟩ i (.holding r c)))
    (holder : (s.workers i).holder = some (r, c)) :
    ToolEffect sha256 s
      (ToolState.goto ⟨q, runs, ap, iv, s.workers, rs, s.hashed, s.history⟩ i (.holding r c)) :=
  .calm queue kept (goto_workers (.inr ⟨r, c, rfl, holder⟩)) rfl (List.Subset.refl _)

end

/-- A resolution is written where its approval was read. -/
theorem saveLoadedApproval_put (held : Bool) (t : Approvals) {x : ApprovalRequest}
    {target : ApprovalStatus} {resolver note : Option String}
    (h : Runs.transitionApproval x target now resolver note = .ok x') : ∃ y : ApprovalRequest,
      y.id = x.id ∧ Runs.saveLoadedApproval held t x x' = t.put y := by
  unfold Runs.saveLoadedApproval
  split
  · next current hcurrent =>
    refine ⟨_, Eq.trans ?_ (key_of_get? hcurrent), rfl⟩
    cases held <;> rfl
  · exact ⟨x', (Runs.transitionApproval_same h).2.1, rfl⟩

/-- The workers, with resolutions that find their approvals still pending. -/
def pendingResolutions (sha256 : String → String) : System ToolState ToolStep :=
  (toolWorkers sha256).restrict fun s a => a.StillPending s

theorem next_effect {a : ToolStep} (h : (pendingResolutions sha256).next s a s') :
    ToolEffect sha256 s s' := by
  obtain ⟨hpending, hact, hok⟩ := h
  cases a with
  | queue q =>
    cases hact
    exact .still (.inr ⟨q, hok q rfl, rfl⟩) .refl
  | claim i runId workerId token now lease =>
    have hq : QueueMoves s.queue (s.queue.act (.tryClaim runId workerId token now lease)) :=
      .inr ⟨_, hok _ rfl, rfl⟩
    simp only [ToolState.act] at hact
    split at hact
    · split at hact
      · cases hact
        exact .claim hq ((hok _ rfl).2 token rfl) (List.mem_append_left _ (List.mem_singleton.2 rfl))
      · cases hact
        exact .still hq .refl
    · cases hact
  | begin i stepId call risk now =>
    have hq : QueueMoves s.queue (s.queue.act (.tick now)) := .inr ⟨_, hok _ rfl, rfl⟩
    simp only [ToolState.act] at hact
    split at hact
    · next runId claim hpc =>
      have hcalm : ToolEffect sha256 s ({ s with queue := s.queue.act (.tick now) }.hash ⟨runId, stepId, call, risk, claim⟩) :=
        .calm hq .refl (fun _ => .inl rfl) rfl fun m hm =>
          List.mem_cons_of_mem _ (List.mem_append_right _ hm)
      split at hact
      · next approval hok =>
        cases hact
        exact .begin (by rw [hpc]; rfl) hq (authorize_proceed hok).1 hok
      · cases hact; exact hcalm
      · cases hact; exact hcalm
    · cases hact
  | commit i id =>
    simp only [ToolState.act] at hact
    split at hact
    · next a approval now hpc =>
      split at hact
      · next v db hrec =>
        cases hact
        exact .commit hpc hrec
      · cases hact
        exact .leaves (.inl rfl) .refl (by rw [hpc]; rfl)
    · cases hact
  | rollback i =>
    simp only [ToolState.act] at hact
    split at hact
    · next a approval now hpc =>
      cases hact
      exact .leaves (.inl rfl) .refl (by rw [hpc]; rfl)
    · cases hact
  | recheck i now =>
    have hq : QueueMoves s.queue (s.queue.act (.tick now)) := .inr ⟨_, hok _ rfl, rfl⟩
    simp only [ToolState.act] at hact
    split at hact
    · next a id hpc =>
      split at hact
      · next hclaim =>
        cases hact
        exact .recheck hpc hq (require_eq_ok.1 hclaim)
      · cases hact
        exact .leaves hq .refl (by rw [hpc]; rfl)
    · cases hact
  | call i result =>
    simp only [ToolState.act] at hact
    split at hact
    · next a id hpc =>
      cases hact
      exact .call hpc
    · cases hact
  | settle i now =>
    have hq : QueueMoves s.queue (s.queue.act (.tick now)) := .inr ⟨_, hok _ rfl, rfl⟩
    simp only [ToolState.act] at hact
    split at hact
    · next a id result hpc =>
      split at hact
      · next db hdb =>
        cases hact
        obtain ⟨v, v', hv, hsame, rfl⟩ := persistResult_ok hdb
        refine .leaves hq (.put_invocation fun w hw => ?_) (by rw [hpc]; rfl)
        rw [hsame.id, show v.id = id from key_of_get? hv, show s.invocations.get? id = some v from hv] at hw
        cases hw
        exact hsame
      · cases hact
        exact .leaves hq .refl (by rw [hpc]; rfl)
    · cases hact
  | crash i =>
    cases hact
    exact .calm (.inl rfl) .refl (goto_workers (.inl rfl)) rfl (List.Subset.refl _)
  | saveRun run =>
    cases hact
    exact .still (.inl rfl) .refl
  | requestApproval draft =>
    simp only [ToolState.act] at hact
    split at hact
    · next x hx =>
      obtain ⟨t, ht, rfl⟩ := Option.map_eq_some_iff.1 hact
      obtain ⟨hfresh, rfl⟩ := insert?_eq_some.1 ht
      refine .still (.inl rfl) (.put_approval fun y hy => ?_)
      rw [show s.approvals.get? x.id = none from hfresh] at hy
      cases hy
    · cases hact
  | resolve id by_ now =>
    simp only [ToolState.act] at hact
    split at hact
    · split at hact
      · cases hact
        exact .still (.inl rfl) .refl
      · cases hact
    · cases hact
  | commitResolution k held =>
    simp only [ToolState.act] at hact
    split at hact
    · next x by_ now hk =>
      split at hact
      · next x' hx' =>
        cases hact
        obtain ⟨y, hid, hsaved⟩ := saveLoadedApproval_put held s.approvals hx'
        rw [hsaved]
        refine .still (.inl rfl) (.put_approval fun z hz happroved => ?_)
        have hstored : z ∈ ToolStep.overwritten s (.commitResolution k held) := by
          rw [hid] at hz
          simp [ToolStep.overwritten, hk, hz]
        cases (hpending z hstored).symm.trans happroved
      · cases hact
        exact .still (.inl rfl) .refl
    · cases hact
  | addInvocation v =>
    obtain ⟨t, ht, rfl⟩ := Option.map_eq_some_iff.1 hact
    obtain ⟨hfresh, rfl⟩ := insert?_eq_some.1 ht
    refine .still (.inl rfl) (.put_invocation fun w hw => ?_)
    rw [show s.invocations.get? v.id = none from hfresh] at hw
    cases hw
  | moveInvocation loaded move now =>
    simp only [ToolState.act] at hact
    split at hact
    · next v v' hv hv' =>
      split at hact
      · next hloaded =>
        cases hact
        have hsame := sameInvocation_move hv'
        refine .still (.inl rfl) (.put_invocation fun w hw => ?_)
        rw [hsame.id, hv] at hw
        cases hw
        exact ⟨hsame.id.trans (key_of_get? hv).symm, hsame.runId.trans hloaded.1.symm,
          hsame.approvalRequestId.trans hloaded.2.symm⟩
      · cases hact
    · cases hact

/-! ## The invariant -/

/-- The call needs an approval. -/
def ToolAction.Guarded (a : ToolAction) : Prop := a.risk.approvalRequired = true

/-- The action was committed as invocation `id` under a consumed approval of its fingerprint, and
both rows are there. -/
structure Recorded (sha256 : String → String) (s : ToolState) (a : ToolAction)
    (id : ToolInvocationId) : Prop where
  hashed : a.material ∈ s.hashed
  rows : ∃ k x v, s.approvals.get? k = some x ∧ x.status = .approved ∧ x.isConsumed = true ∧
    x.authorizationFingerprint = some (a.fingerprint sha256) ∧ x.runId = some a.runId ∧
    s.invocations.get? id = some v ∧ v.runId = a.runId ∧ v.approvalRequestId = some k

/-- Txn A is about to save a consumed approval of the action's fingerprint; the row it read may
have changed since, but not in its grant and in what it authorizes. -/
structure Grant (sha256 : String → String) (s : ToolState) (a : ToolAction)
    (approval : Option ApprovalRequest) : Prop where
  hashed : a.material ∈ s.hashed
  row : ∃ x y, approval = some x ∧ x.status = .approved ∧ x.isConsumed = true ∧
    x.authorizationFingerprint = some (a.fingerprint sha256) ∧ x.runId = some a.runId ∧
    s.approvals.get? x.id = some y ∧ y.status = .approved ∧
    y.authorizationFingerprint = x.authorizationFingerprint ∧ y.runId = x.runId

/-- A transaction in `l` consumed an approval of the action's fingerprint and created `id`. -/
def Committed (sha256 : String → String) (l : List ToolEvent) (a : ToolAction)
    (id : ToolInvocationId) : Prop :=
  ∃ approval v, .committed a (some approval) v ∈ l ∧ approval.status = .approved ∧
    approval.isConsumed = true ∧ approval.authorizationFingerprint = some (a.fingerprint sha256) ∧
    v.id = id ∧ v.approvalRequestId = some approval.id

/-- The fingerprint of a call that needed an approval. -/
def guardedCall (sha256 : String → String) : ToolEvent → Option String
  | .called a _ => if a.risk.approvalRequired then some (a.fingerprint sha256) else none
  | .committed _ _ _ => none

theorem guardedCall_pos (h : a.Guarded) :
    guardedCall sha256 (.called a id) = some (a.fingerprint sha256) := if_pos h

theorem guardedCall_neg (h : ¬ a.Guarded) :
    guardedCall sha256 (.called a id) = none := if_neg h

/-- The gateway was called for this fingerprint, or a worker is about to. -/
def Use (sha256 : String → String) (s : ToolState) (fingerprint : String) : Prop :=
  ∃ a id, a.Guarded ∧ a.fingerprint sha256 = fingerprint ∧
    (.called a id ∈ s.history ∨ ∃ i, s.workers i = .checked a id)

/-- The action of a worker between its read and its claim check. -/
def ToolPc.pending : ToolPc → Option ToolAction
  | .authorized a _ _ | .recorded a _ => some a
  | _ => none

/-- Every guarded call in the history comes after its commit. -/
def Preceded (sha256 : String → String) (l : List ToolEvent) : Prop :=
  ∀ l₁ a id l₂, l = l₁ ++ .called a id :: l₂ → a.Guarded → Committed sha256 l₂ a id

/-- Workers act under claims whose tokens were drawn, each under its own. -/
structure Holders (s : ToolState) : Prop where
  used : ∀ i p, (s.workers i).holder = some p → p.2.claimToken ∈ s.queue.usedTokens
  distinct : ∀ i j p p', (s.workers i).holder = some p → (s.workers j).holder = some p' →
    p.2.claimToken = p'.2.claimToken → i = j

/-- The claim of the action is dead, or nobody called for its fingerprint or is about to. -/
def Barred (sha256 : String → String) (s : ToolState) (a : ToolAction) : Prop :=
  Dead s.queue a.runId a.claim ∨ ¬ Use sha256 s (a.fingerprint sha256)

/-- What is known of a worker in each phase of an action. -/
def Phase (sha256 : String → String) (s : ToolState) : ToolPc → Prop
  | .authorized a approval _ =>
    (¬ a.Guarded → approval = none) ∧ (a.Guarded → Grant sha256 s a approval ∧ Barred sha256 s a)
  | .recorded a id =>
    a.Guarded → (Recorded sha256 s a id ∧ Committed sha256 s.history a id) ∧ Barred sha256 s a
  | .checked a id => a.Guarded → (Recorded sha256 s a id ∧ Committed sha256 s.history a id) ∧
      a.fingerprint sha256 ∉ s.history.filterMap (guardedCall sha256)
  | _ => True

structure OneShot (sha256 : String → String) (s : ToolState) : Prop where
  phase : ∀ i, Phase sha256 s (s.workers i)
  called : ∀ a id, .called a id ∈ s.history → a.Guarded → Recorded sha256 s a id
  nodup : (s.history.filterMap (guardedCall sha256)).Nodup
  alone : ∀ i j a b id id', s.workers i = .checked a id → s.workers j = .checked b id' → a.Guarded →
    b.Guarded → a.fingerprint sha256 = b.fingerprint sha256 → i = j
  preceded : Preceded sha256 s.history

/-- The texts hashed so far have different digests. -/
def DistinctDigests (sha256 : String → String) (texts : List String) : Prop :=
  ∀ m ∈ texts, ∀ m' ∈ texts, sha256 m = sha256 m' → m = m'

variable {s s' : ToolState}

theorem Recorded.kept (h : Recorded sha256 s a id)
    (hk : Kept s s') (hh : s.hashed ⊆ s'.hashed) : Recorded sha256 s' a id := by
  obtain ⟨k, x, v, hx, hs, hc, hfp, hrun, hv, hvrun, hvap⟩ := h.rows
  obtain ⟨x', hx', sx⟩ := hk.approvals k x hx
  obtain ⟨v', hv', sv⟩ := hk.invocations id v hv
  have sx := sx hs
  exact ⟨hh h.hashed, k, x', v', hx', sx.approved, sx.consumed hc,
    sx.authorizationFingerprint.trans hfp, sx.runId.trans hrun, hv', sv.runId.trans hvrun,
    sv.approvalRequestId.trans hvap⟩

theorem Grant.kept
    (h : Grant sha256 s a approval) (hk : Kept s s') (hh : s.hashed ⊆ s'.hashed) :
    Grant sha256 s' a approval := by
  obtain ⟨x, y, hap, hs, hc, hfp, hrun, hy, hys, hyfp, hyrun⟩ := h.row
  obtain ⟨y', hy', sy⟩ := hk.approvals _ y hy
  have sy := sy hys
  exact ⟨hh h.hashed, x, y', hap, hs, hc, hfp, hrun, hy', sy.approved,
    sy.authorizationFingerprint.trans hyfp, sy.runId.trans hyrun⟩

theorem Committed.mono {l' : List ToolEvent} (h : Committed sha256 l a id) (hl : l ⊆ l') :
    Committed sha256 l' a id := by
  obtain ⟨x, v, hm, h⟩ := h
  exact ⟨x, v, hl hm, h⟩

/-- A worker that stays where it is keeps its phase, if its action stays barred and uncalled. -/
theorem Phase.kept (h : Phase sha256 s pc) (hk : Kept s s') (hh : s.hashed ⊆ s'.hashed) (hl : s.history ⊆ s'.history)
    (hbarred : ∀ a, pc.pending = some a → a.Guarded → Barred sha256 s a → Barred sha256 s' a)
    (hcalls : ∀ a id, pc = .checked a id → a.Guarded →
      a.fingerprint sha256 ∉ s.history.filterMap (guardedCall sha256) →
      a.fingerprint sha256 ∉ s'.history.filterMap (guardedCall sha256)) : Phase sha256 s' pc := by
  cases pc with
  | authorized a approval now =>
    refine ⟨h.1, fun hg => ?_⟩
    obtain ⟨hgrant, hb⟩ := h.2 hg
    exact ⟨hgrant.kept hk hh, hbarred a rfl hg hb⟩
  | recorded a id =>
    intro hg
    obtain ⟨⟨hr, hc⟩, hb⟩ := h hg
    exact ⟨⟨hr.kept hk hh, hc.mono hl⟩, hbarred a rfl hg hb⟩
  | checked a id =>
    intro hg
    obtain ⟨⟨hr, hc⟩, hfp⟩ := h hg
    exact ⟨⟨hr.kept hk hh, hc.mono hl⟩, hcalls a id rfl hg hfp⟩
  | _ => trivial

theorem OneShot.at (hi : OneShot sha256 s) (h : s.workers i = pc) : Phase sha256 s pc :=
  h ▸ hi.phase i

theorem OneShot.recorded_of_use {fingerprint : String} (hi : OneShot sha256 s) (h : Use sha256 s fingerprint) :
    ∃ b id, b.fingerprint sha256 = fingerprint ∧ Recorded sha256 s b id := by
  obtain ⟨b, id, hg, hfp, hu | ⟨j, hj⟩⟩ := h
  · exact ⟨b, id, hfp, hi.called b id hu hg⟩
  · exact ⟨b, id, hfp, (hi.at hj hg).1.1⟩

theorem Preceded.cons {e : ToolEvent} (h : Preceded sha256 l)
    (he : ∀ a id, e = .called a id → a.Guarded → Committed sha256 l a id) :
    Preceded sha256 (e :: l) := by
  intro l₁ a id l₂ hl hg
  cases l₁ with
  | nil =>
    obtain ⟨rfl, rfl⟩ := List.cons.inj hl
    exact he a id rfl hg
  | cons e' l₁ => exact h l₁ a id l₂ (List.cons.inj hl).2 hg

/-- Guarded actions with one fingerprint act for one run. -/
theorem run_of_fingerprint {texts : List String} {b : ToolAction}
    (hd : DistinctDigests sha256 texts) (ha : a.material ∈ texts) (hb : b.material ∈ texts)
    (h : a.fingerprint sha256 = b.fingerprint sha256) : a.runId = b.runId :=
  run_of_material (hd _ ha _ hb h)

/-- A recorded action is found again by `_find_replay`. -/
theorem Recorded.not_findReplay_none {b : ToolAction}
    (h : Recorded sha256 s a id) (hfp : a.fingerprint sha256 = b.fingerprint sha256)
    (hrun : a.runId = b.runId) (hlegacy : b.fingerprint sha256 ≠ b.legacyFingerprint sha256) :
    findReplay s.invocations (s.approvals.listForRun b.runId) (b.fingerprint sha256)
      (b.legacyFingerprint sha256) ≠ .ok none := by
  intro hnone
  obtain ⟨k, x, v, hx, hs, hc, hxfp, hxrun, hv, hvrun, hvap⟩ := h.rows
  obtain rfl : x.id = k := key_of_get? hx
  obtain rfl : v.id = id := key_of_get? hv
  rw [hfp] at hxfp
  rw [hrun] at hxrun hvrun
  have hmem : x ∈ s.approvals.listForRun b.runId := by
    rw [Approvals.listForRun, List.mem_insertionSort, mem_select]
    exact ⟨hx, decide_eq_true hxrun⟩
  have hnil := findReplay_none hnone x hmem (by simp [isConsumedFor, hs, hc, hxfp])
  have hprior : v ∈ priorInvocations s.invocations (b.legacyFingerprint sha256) x := by
    simp only [priorInvocations, hxrun, ToolInvocations.listForRun, List.mem_filter,
      List.mem_insertionSort, mem_select, hxfp, Option.some.injEq, hlegacy]
    exact ⟨⟨hv, decide_eq_true hvrun⟩, by simp [hvap]⟩
  rw [hnil] at hprior
  cases hprior

theorem goto_apply (s : ToolState) (i j : Nat) (pc : ToolPc) :
    (s.goto i pc).workers j = if j = i then pc else s.workers j := by
  simp [ToolState.goto, Function.update_apply]

/-! ## Holders -/

/-- Workers that keep their claims or lose them. -/
theorem Holders.mono (h : Holders s) (hq : QueueMoves s.queue s'.queue)
    (hw : ∀ j p, (s'.workers j).holder = some p → (s.workers j).holder = some p) : Holders s' :=
  ⟨fun i p hp => hq.used (h.used i p (hw i p hp)),
   fun i j p p' hp hp' => h.distinct i j p p' (hw i p hp) (hw j p' hp')⟩

theorem Holders.goto {r : RunId} {c : ClaimTriple}
    {ap : Approvals} {iv : ToolInvocations} {m : List String} (h : Holders s)
    (hq : QueueMoves s.queue q) (hi : (s.workers i).holder = some (r, c))
    (hpc : pc.holder = some (r, c)) :
    Holders (ToolState.goto ⟨q, s.runs, ap, iv, s.workers, rs, m, l⟩ i pc) := by
  refine h.mono hq fun j p hp => ?_
  rw [goto_apply] at hp
  split at hp
  · next hj => rw [hj, hi, ← hpc, hp]
  · exact hp

theorem Holders.effect (h : Holders s) (he : ToolEffect sha256 s s') : Holders s' := by
  cases he with
  | calm queue kept workers history hashed =>
    refine h.mono queue fun j p hp => ?_
    rcases workers j with hj | hj | ⟨r, c, hj, hold⟩
    · rwa [hj] at hp
    · rw [hj] at hp; cases hp
    · rw [hj] at hp; rw [hold, ← hp]; rfl
  | @claim i runId c q' queue fresh used =>
    have other : ∀ j p, ((ToolState.goto { s with queue := q' } i (.holding runId c)).workers
        j).holder = some p → j = i ∧ p = (runId, c) ∨ (s.workers j).holder = some p := by
      intro j p hp
      rw [goto_apply] at hp
      split at hp
      · next hj => exact .inl ⟨hj, (Option.some.inj hp).symm⟩
      · exact .inr hp
    refine ⟨fun j p hp => ?_, fun j k p p' hp hp' htok => ?_⟩
    · rcases other j p hp with ⟨-, rfl⟩ | hp
      · exact used
      · exact queue.used (h.used j p hp)
    · -- the new token is one that no other holder has
      rcases other j p hp with ⟨hj, rfl⟩ | hold <;> rcases other k p' hp' with ⟨hk, rfl⟩ | hold'
      · exact hj.trans hk.symm
      · exact absurd (htok ▸ h.used k p' hold') fresh
      · exact absurd (htok ▸ h.used j p hold) fresh
      · exact h.distinct j k p p' hold hold' htok
  | begin holder queue active ok => exact h.goto queue holder rfl
  | commit pc ok => exact h.goto (.inl rfl) (by rw [pc]; rfl) rfl
  | recheck pc queue active => exact h.goto queue (by rw [pc]; rfl) rfl
  | @call i a id result pc =>
    refine h.goto (.inl rfl) (r := a.runId) (c := a.claim) (by rw [pc]; rfl) ?_
    cases result <;> rfl

/-! ## The steps -/

theorem hashed_effect (he : ToolEffect sha256 s s') : s.hashed ⊆ s'.hashed := by
  cases he with
  | calm queue kept workers history hashed => exact hashed
  | begin holder queue active ok =>
    exact fun m hm => List.mem_cons_of_mem _ (List.mem_append_right _ hm)
  | _ => exact List.Subset.refl _

/-- Whatever the step, tables and texts only grow. -/
theorem OneShot.frame (hi : OneShot sha256 s) (he : ToolEffect sha256 s s') :
    QueueMoves s.queue s'.queue ∧ Kept s s' ∧ s.hashed ⊆ s'.hashed := by
  rw [← and_assoc]
  refine ⟨?_, hashed_effect he⟩
  cases he with
  | calm queue kept workers history hashed => exact ⟨queue, kept⟩
  | claim queue fresh used | begin holder queue active ok | recheck pc queue active =>
    exact ⟨queue, .refl⟩
  | @commit i a approval now id v db pc ok =>
    refine ⟨.inl rfl, ?_⟩
    obtain ⟨hfresh, -, -, -, hap, hinv⟩ := record_ok ok
    refine ⟨fun k x hx => ?_, fun k w hw => ?_⟩
    · show ∃ x', db.approvals.get? k = some x' ∧ _
      rw [hap]
      by_cases hg : a.Guarded
      · obtain ⟨x', y, rfl, hs, hc, hfp, hrun, hy, -, hyfp, hyrun⟩ := ((hi.at pc).2 hg).1.row
        -- the stale aggregate is written back over the row it was read from
        refine kept_put .refl (fun z hz => ?_) k x hx
        rw [key_approval, show s.db.approvals.get? x'.id = some y from hy] at hz
        cases hz
        exact fun _ => ⟨hyfp.symm, hyrun.symm, hs, fun _ => hc⟩
      · rw [(hi.at pc).1 hg]
        exact ⟨x, hx, .refl x⟩
    · refine ⟨w, ?_, .refl w⟩
      show db.invocations.get? k = some w
      rw [hinv, if_neg (ne_of_fresh (t := s.invocations) hw hfresh).symm]
      exact hw
  | call pc => exact ⟨.inl rfl, .refl⟩

/-- A worker that is outside the critical phases. -/
def ToolPc.Quiet : ToolPc → Prop
  | .idle | .holding _ _ | .settling _ _ _ => True
  | _ => False

theorem Rests.quiet {pc' : ToolPc} (h : Rests pc pc') : pc'.Quiet := by
  obtain rfl | ⟨r, c, rfl, -⟩ := h
  · exact trivial
  · exact trivial

theorem ToolPc.Quiet.ne_checked (h : pc.Quiet) : pc ≠ .checked a id := by
  rintro rfl
  exact h

theorem Phase.of_quiet (h : pc.Quiet) : Phase sha256 s pc := by
  cases pc <;> first | exact trivial | cases h

/-- A step that calls nobody and puts no worker behind its claim check: only the workers that moved
have to be looked at. -/
theorem OneShot.calm (hi : OneShot sha256 s) (he : ToolEffect sha256 s s')
    (hl : s'.history = s.history ∨ ∃ a approval v, s'.history = .committed a approval v :: s.history)
    (hw : ∀ j, s'.workers j = s.workers j ∨ (∀ a id, s'.workers j ≠ .checked a id) ∧
      ((∀ fp, Use sha256 s' fp → Use sha256 s fp) → Phase sha256 s' (s'.workers j))) : OneShot sha256 s' := by
  obtain ⟨hq, hk, hh⟩ := hi.frame he
  have hgrows : s.history ⊆ s'.history := by
    rcases hl with hl | ⟨b, approval, v, hl⟩ <;> simp [hl]
  have hcalled : ∀ a id, .called a id ∈ s'.history → .called a id ∈ s.history := by
    intro a id
    rcases hl with hl | ⟨b, approval, v, hl⟩ <;> simp [hl]
  have hcalls : s'.history.filterMap (guardedCall sha256) = s.history.filterMap (guardedCall sha256) := by
    rcases hl with hl | ⟨b, approval, v, hl⟩
    · rw [hl]
    · rw [hl]; rfl
  have hchecked : ∀ j a id, s'.workers j = .checked a id → s.workers j = .checked a id := by
    intro j a id hj
    rcases hw j with h | ⟨hne, -⟩
    · rw [← h, hj]
    · exact absurd hj (hne a id)
  have huse : ∀ fp, Use sha256 s' fp → Use sha256 s fp := by
    rintro fp ⟨a, id, hg, hfp, hu⟩
    refine ⟨a, id, hg, hfp, hu.imp (hcalled a id) ?_⟩
    rintro ⟨j, hj⟩
    exact ⟨j, hchecked j a id hj⟩
  refine ⟨fun j => ?_, fun a id hm hg => (hi.called a id (hcalled a id hm) hg).kept hk hh,
    hcalls ▸ hi.nodup, fun j k a b id id' hj hk' => hi.alone j k a b id id' (hchecked j a id hj)
    (hchecked k b id' hk'), ?_⟩
  · rcases hw j with h | ⟨-, hphase⟩
    · rw [h]
      exact (hi.phase j).kept hk hh hgrows (fun a _ _ hb => hb.imp hq.dead fun hn hu =>
        hn (huse _ hu)) fun _ _ _ _ hfp => hcalls ▸ hfp
    · exact hphase huse
  · rcases hl with hl | ⟨b, approval, v, hl⟩
    · exact hl ▸ hi.preceded
    · rw [hl]
      exact hi.preceded.cons fun _ _ h => by cases h

variable {i : Nat}

/-- Txn A reads: the claim is active and no call was made or is about to be made for this
fingerprint, or the read would have found its invocation. -/
theorem OneShot.begin (hi : OneShot sha256 s) (hd : DistinctDigests sha256 (s.hash a).hashed)
    (ok : authorize sha256 ⟨q'.items, s.runs, s.approvals, s.invocations⟩ a now = .ok (.proceed approval))
    (he : ToolEffect sha256 s (({ s with queue := q' }.hash a).goto i (.authorized a approval now))) :
    OneShot sha256 (({ s with queue := q' }.hash a).goto i (.authorized a approval now)) := by
  have hh := (hi.frame he).2.2
  set s' := ({ s with queue := q' }.hash a).goto i (.authorized a approval now) with hs'
  have hw : ∀ j, s'.workers j = if j = i then .authorized a approval now else s.workers j :=
    fun j => goto_apply _ i j _
  have ha : a.material ∈ s'.hashed := List.mem_cons_self
  obtain ⟨-, hdec⟩ := authorize_proceed ok
  have hfree : a.Guarded → ¬ Use sha256 s (a.fingerprint sha256) := by
    intro hg hu
    obtain ⟨b, id, hfp, hrec⟩ := hi.recorded_of_use hu
    obtain ⟨hpl, -⟩ | ⟨-, hreplay, -⟩ := hdec
    · exact absurd (hg.symm.trans hpl) nofun
    · have hlegacy : legacyMaterial a.runId a.stepId a.call ∈ s'.hashed := by
        refine List.mem_cons_of_mem _ (List.mem_append_left _ ?_)
        rw [show a.risk.approvalRequired = true from hg, if_pos rfl]
        exact List.mem_singleton.2 rfl
      refine hrec.not_findReplay_none hfp (run_of_fingerprint hd (hh hrec.hashed) ha hfp) ?_ hreplay
      intro hsame
      exact material_ne_legacyMaterial _ _ _ _ _ _ _ (hd _ ha _ hlegacy hsame)
  refine hi.calm he (.inl rfl) fun j => ?_
  rw [hw]
  split
  · refine .inr ⟨fun _ _ e => ToolPc.noConfusion e, fun huse => ?_⟩
    obtain ⟨hpl, hap⟩ | ⟨hg, -, x, hx, hrun, hst, hfp, rfl⟩ := hdec
    · exact ⟨fun _ => hap, fun hg => absurd (hg.symm.trans hpl) nofun⟩
    · exact ⟨absurd hg, fun hg => ⟨⟨ha, _, x, rfl, hst, rfl, hfp, hrun, hx, hst, rfl, rfl⟩,
        .inr fun hu => hfree hg (huse _ hu)⟩⟩
  · exact .inl rfl

theorem holder_of_pending (h : pc.pending = some a) :
    pc.holder = some (a.runId, a.claim) := by
  cases pc <;> simp_all [ToolPc.pending, ToolPc.holder]

theorem OneShot.hashed_of_pending (hi : OneShot sha256 s)
    (h : (s.workers i).pending = some a) (hg : a.Guarded) : a.material ∈ s.hashed := by
  have hphase := hi.phase i
  cases hpc : s.workers i with
  | authorized b approval now =>
    rw [hpc] at h hphase
    cases h
    exact (hphase.2 hg).1.hashed
  | recorded b id =>
    rw [hpc] at h hphase
    cases h
    exact (hphase hg).1.1.hashed
  | _ => rw [hpc] at h; cases h

theorem use_of_mem_calls {fp : String} (h : fp ∈ s.history.filterMap (guardedCall sha256)) :
    Use sha256 s fp := by
  obtain ⟨e, he, hfp⟩ := List.mem_filterMap.1 h
  cases e with
  | committed a approval v => cases hfp
  | called a id =>
    simp only [guardedCall] at hfp
    split at hfp
    · next hg => exact ⟨a, id, hg, Option.some.inj hfp, .inl he⟩
    · cases hfp

/-- Txn A commits. The action stays barred exactly as it was. -/
theorem OneShot.commit (hi : OneShot sha256 s)
    (pc : s.workers i = .authorized a approval now)
    (ok : record s.db a approval id now = .ok (v, db))
    (hs' : s' = { s with approvals := db.approvals, invocations := db.invocations,
                         history := .committed a approval v :: s.history }.goto i (.recorded a id))
    (he : ToolEffect sha256 s s') : OneShot sha256 s' := by
  obtain ⟨hq, hk, hh⟩ := hi.frame he
  have hl : s'.history = .committed a approval v :: s.history := by rw [hs']; rfl
  have hw : ∀ j, s'.workers j = if j = i then .recorded a id else s.workers j := fun j => by
    rw [hs']; exact goto_apply _ i j _
  refine hi.calm he (.inr ⟨a, approval, v, hl⟩) fun j => ?_
  rw [hw]
  split
  · refine .inr ⟨fun _ _ e => ToolPc.noConfusion e, fun huse hg => ?_⟩
    obtain ⟨-, hvid, hvrun, hvap, hap, hinv⟩ := record_ok ok
    obtain ⟨hgrant, hbarred⟩ := (hi.at pc).2 hg
    obtain ⟨x, y, rfl, hst, hc, hfp, hrun, hy, -⟩ := hgrant.row
    refine ⟨⟨⟨hh hgrant.hashed, x.id, x, v, ?_, hst, hc, hfp, hrun, ?_, hvrun, hvap⟩, x, v, ?_, hst,
      hc, hfp, hvid, hvap⟩, hbarred.imp hq.dead fun hn hu => hn (huse _ hu)⟩
    · rw [hs']
      show db.approvals.get? x.id = some x
      rw [hap]
      exact get?_put_self _ x
    · rw [hs']
      show db.invocations.get? id = some v
      rw [hinv, if_pos rfl]
    · rw [hl]
      exact List.mem_cons_self
  · exact .inl rfl

/-- The claim check. The claim is active, so the action was not barred: nobody called for its
fingerprint. Every other action of this fingerprint is one of the same run under another claim,
which is dead now. -/
theorem OneShot.recheck (hi : OneShot sha256 s) (hold : Holders s')
    (hd : DistinctDigests sha256 s.hashed) (pc : s.workers i = .recorded a id)
    (active : q'.Active a.runId a.claim) (hs' : s' = { s with queue := q' }.goto i (.checked a id))
    (he : ToolEffect sha256 s s') : OneShot sha256 s' := by
  obtain ⟨hq, hk, hh⟩ := hi.frame he
  have hl : s'.history = s.history := by rw [hs']; rfl
  have hqueue : s'.queue = q' := by rw [hs']; rfl
  have hw : ∀ j, s'.workers j = if j = i then .checked a id else s.workers j := fun j => by
    rw [hs']; exact goto_apply _ i j _
  have hfree : a.Guarded → ¬ Use sha256 s (a.fingerprint sha256) := by
    intro hg
    refine (hi.at pc hg).2.resolve_left fun hdead => ?_
    exact (hq.dead hdead).not_active (hqueue ▸ active)
  have hchecked : ∀ j b id', s'.workers j = .checked b id' →
      j = i ∧ b = a ∧ id' = id ∨ s.workers j = .checked b id' := by
    intro j b id' hj
    rw [hw] at hj
    split at hj
    · next h => cases hj; exact .inl ⟨h, rfl, rfl⟩
    · exact .inr hj
  refine ⟨fun j => ?_, fun b id' hm hg => (hi.called b id' (hl ▸ hm) hg).kept hk hh, hl ▸ hi.nodup,
    fun j k b c id' id'' hj hk' hg hg' hfp => ?_, hl ▸ hi.preceded⟩
  · rw [hw]
    split
    · intro hg
      obtain ⟨⟨hr, hc⟩, -⟩ := hi.at pc hg
      exact ⟨⟨hr.kept hk hh, hl ▸ hc⟩, fun hm => hfree hg (use_of_mem_calls (hl ▸ hm))⟩
    next hne =>
    refine (hi.phase j).kept hk hh (by rw [hl]; exact List.Subset.refl _) (fun b hj hg hb => ?_)
      fun _ _ _ _ hfp => hl ▸ hfp
    refine hb.elim (fun hdead => .inl (hq.dead hdead)) fun hn => ?_
    by_cases hfp : b.fingerprint sha256 = a.fingerprint sha256 ∧ a.Guarded
    · -- the two claims are of one run, and this one is active
      left
      have hjold : (s'.workers j).holder = some (b.runId, b.claim) := by
        rw [hw, if_neg hne]
        exact holder_of_pending hj
      have hiold : (s'.workers i).holder = some (a.runId, a.claim) := by rw [hw, if_pos rfl]; rfl
      have ham : a.material ∈ s.hashed := (hi.at pc hfp.2).1.1.hashed
      have hbm : b.material ∈ s.hashed := hi.hashed_of_pending hj hg
      have hrun := run_of_fingerprint hd hbm ham hfp.1
      have hinactive : ¬ s'.queue.Active b.runId b.claim := by
        intro hact
        rw [hrun, hqueue] at hact
        have hclaim := active_unique hact active
        exact hne (hold.distinct j i _ _ hjold hiold (by rw [hclaim]))
      exact ⟨hold.used j _ hjold, fun r hr hcar => Bool.eq_false_iff.2 fun hle =>
        hinactive (active_iff.2 ⟨r, hr, hcar, hle⟩)⟩
    · right
      rintro ⟨c, id', hcg, hcfp, hu⟩
      rcases hu with hu | ⟨k, hk'⟩
      · exact hn ⟨c, id', hcg, hcfp, .inl (hl ▸ hu)⟩
      · rcases hchecked k c id' hk' with ⟨-, rfl, -⟩ | hk'
        · exact hfp ⟨hcfp.symm, hcg⟩
        · exact hn ⟨c, id', hcg, hcfp, .inr ⟨k, hk'⟩⟩
  · rcases hchecked j b id' hj with ⟨rfl, rfl, -⟩ | hj <;> rcases hchecked k c id'' hk' with ⟨rfl, rfl, -⟩ | hk'
    · rfl
    · exact absurd ⟨c, id'', hg', hfp.symm, .inr ⟨k, hk'⟩⟩ (hfree hg)
    · exact absurd ⟨b, id', hg, hfp, .inr ⟨j, hj⟩⟩ (hfree hg')
    · exact hi.alone j k b c id' id'' hj hk' hg hg' hfp

/-- The gateway is called: what was about to be a use is one now. -/
theorem OneShot.call {pc' : ToolPc} (hi : OneShot sha256 s) (pc : s.workers i = .checked a id)
    (hpc' : pc'.Quiet) (hs' : s' = { s with history := .called a id :: s.history }.goto i pc')
    (he : ToolEffect sha256 s s') : OneShot sha256 s' := by
  obtain ⟨hq, hk, hh⟩ := hi.frame he
  have hl : s'.history = .called a id :: s.history := by rw [hs']; rfl
  have hw : ∀ j, s'.workers j = if j = i then pc' else s.workers j := fun j => by
    rw [hs']; exact goto_apply _ i j _
  have hchecked : ∀ j b id', s'.workers j = .checked b id' → s.workers j = .checked b id' := by
    intro j b id' hj
    rw [hw] at hj
    split at hj
    · exact absurd hj hpc'.ne_checked
    · exact hj
  have huse : ∀ fp, Use sha256 s' fp → Use sha256 s fp := by
    rintro fp ⟨b, id', hg, hfp, hu⟩
    refine ⟨b, id', hg, hfp, ?_⟩
    rcases hu with hu | ⟨j, hj⟩
    · rw [hl, List.mem_cons] at hu
      rcases hu with hu | hu
      · cases hu
        exact .inr ⟨i, pc⟩
      · exact .inl hu
    · exact .inr ⟨j, hchecked j b id' hj⟩
  refine ⟨fun j => ?_, fun b id' hm hg => ?_, ?_, fun j k b c id' id'' hj hk' => ?_, ?_⟩
  · rw [hw]
    split
    · exact .of_quiet hpc'
    next hne =>
    refine (hi.phase j).kept hk hh (by rw [hl]; exact List.subset_cons_self _ _)
      (fun b _ _ hb => hb.imp hq.dead fun hn hu => hn (huse _ hu)) fun b id' hj hg hold => ?_
    rw [hl, List.filterMap_cons]
    by_cases hga : a.Guarded
    · rw [guardedCall_pos hga]
      intro hm
      rcases List.mem_cons.1 hm with hfp | hm
      · exact hne (hi.alone j i b a id' id hj pc hg hga hfp)
      · exact hold hm
    · rw [guardedCall_neg hga]
      exact hold
  · rw [hl, List.mem_cons] at hm
    rcases hm with hm | hm
    · cases hm
      exact (hi.at pc hg).1.1.kept hk hh
    · exact (hi.called b id' hm hg).kept hk hh
  · rw [hl, List.filterMap_cons]
    by_cases hg : a.Guarded
    · rw [guardedCall_pos hg]
      exact List.nodup_cons.2 ⟨(hi.at pc hg).2, hi.nodup⟩
    · rw [guardedCall_neg hg]
      exact hi.nodup
  · exact hi.alone j k b c id' id'' (hchecked j b id' hj) (hchecked k c id'' hk')
  · rw [hl]
    refine hi.preceded.cons fun b id' hb hg => ?_
    cases hb
    exact (hi.at pc hg).1.2

theorem OneShot.effect (hold : Holders s') (hd : DistinctDigests sha256 s'.hashed)
    (hi : OneShot sha256 s) (he : ToolEffect sha256 s s') : OneShot sha256 s' := by
  cases he with
  | calm queue kept workers history hashed =>
    exact hi.calm (.calm queue kept workers history hashed) (.inl history) fun j =>
      (workers j).imp_right fun h => ⟨fun _ _ => h.quiet.ne_checked, fun _ => .of_quiet h.quiet⟩
  | @claim i runId c q' queue fresh used =>
    refine hi.calm (.claim queue fresh used) (.inl rfl) fun j => ?_
    rw [goto_apply]
    split
    · exact .inr ⟨fun _ _ e => ToolPc.noConfusion e, fun _ => trivial⟩
    · exact .inl rfl
  | begin holder queue active ok => exact hi.begin hd ok (.begin holder queue active ok)
  | commit pc ok => exact hi.commit pc ok rfl (.commit pc ok)
  | recheck pc queue active => exact hi.recheck hold hd pc active rfl (.recheck pc queue active)
  | @call i a id result pc =>
    refine hi.call pc ?_ rfl (.call pc)
    cases result <;> exact trivial

/-- The invariant of every run whose hashed texts have different digests. -/
theorem reachable_oneShot (h : (pendingResolutions sha256).Reachable s) :
    Holders s ∧ (DistinctDigests sha256 s.hashed → OneShot sha256 s) := by
  refine h.invariant
    (fun s => Holders s ∧ (DistinctDigests sha256 s.hashed → OneShot sha256 s)) ?_ ?_
  · rintro s ⟨-, -, -, -, hidle, -, -, hhist⟩
    refine ⟨⟨fun i p hp => ?_, fun i j p p' hp => ?_⟩, fun _ => ⟨fun i => ?_, fun a id hm => ?_, ?_,
      fun i j a b id id' hi => ?_, fun l₁ a id l₂ hl => ?_⟩⟩
    · rw [hidle] at hp; cases hp
    · rw [hidle] at hp; cases hp
    · rw [hidle]; trivial
    · rw [hhist] at hm; cases hm
    · rw [hhist]; exact List.nodup_nil
    · rw [hidle] at hi; cases hi
    · rw [hhist] at hl; simp at hl
  · rintro s a s' - ⟨hold, hi⟩ hn
    have he := next_effect hn
    have hold' := hold.effect he
    refine ⟨hold', fun hd => ?_⟩
    have hsub : s.hashed ⊆ s'.hashed := hashed_effect he
    exact (hi fun m hm m' hm' => hd m (hsub hm) m' (hsub hm')).effect hold' hd he

/-- **Protected tool actions are one-shot** if every resolution finds its approval still pending
when it commits. In every state reached so, if the texts hashed so far have different digests: the
gateway was called at most once for each fingerprint of a call that needs an approval, and before
each such call a transaction was committed that consumed an APPROVED approval with exactly that
fingerprint and created the invocation passed to the gateway. -/
theorem protected_actions_one_shot (sha256 : String → String) (s : ToolState)
    (h : (pendingResolutions sha256).Reachable s) (hsha : DistinctDigests sha256 s.hashed) :
    (∀ fingerprint, (s.history.filterMap (guardedCall sha256)).count fingerprint ≤ 1) ∧
    ∀ later a id earlier, s.history = later ++ .called a id :: earlier →
      a.risk.approvalRequired = true → ∃ approval v, .committed a (some approval) v ∈ earlier ∧
        approval.status = .approved ∧ approval.isConsumed = true ∧
        approval.authorizationFingerprint = some (a.fingerprint sha256) ∧ v.id = id ∧
        v.approvalRequestId = some approval.id := by
  have hi := (reachable_oneShot h).2 hsha
  exact ⟨List.nodup_iff_count_le_one.1 hi.nodup, hi.preceded⟩

/-! ### A run

Worker 0 claims run 1, its call is approved, recorded, checked and made. -/

def sampleCall : ToolCall := ⟨"workspace.write_text", [("path", .str "a")], by decide⟩

def sampleRisk : ToolRiskAssessment :=
  { tool := "workspace.write_text", readOnly := false, approvalRequired := true, category := .filesystemWrite,
    summary := "write a", authorizationScope := none, provenance := none,
    summary_ok := by decide, scope_ok := nofun }

/-- A digest that tells the two fingerprint versions apart. -/
def sampleHash (m : String) : String := String.ofList (List.replicate 64 (m.toList.headD '0'))

def sampleDraft : ApprovalRequest.Draft :=
  { id := 5, runId := some 1, category := .filesystemWrite, summary := "write a", reason := "",
    requestedAction := "workspace.write_text", requestedInput := .obj [("path", .str "a")],
    requestedAt := 1, stepId := none, expiresAt := none,
    authorizationFingerprint := some (computeAuthorizationFingerprint sampleHash 1 none sampleCall none),
    subjectKind := .run, subjectId := none }

def sampleToolStart : ToolState :=
  ⟨⟨.empty, 0, []⟩, .empty, .empty, .empty, fun _ => .idle, [], [], []⟩

/-- The operator approves twice; both requests read before one of them commits. -/
def sampleApprovals : List ToolStep :=
  [.saveRun { Run.new 1 2 0 none with status := .running }, .queue (.enqueue 1 0 0),
   .claim 0 1 "worker" "token" 1 100, .requestApproval sampleDraft,
   .resolve 5 (.approve "operator" none) 2, .resolve 5 (.approve "operator" none) 2,
   .commitResolution 0 false]

/-- The whole of `execute`, from the time `now` on. -/
def sampleExecution (id : ToolInvocationId) (now : Time) : List ToolStep :=
  [.begin 0 none sampleCall sampleRisk now, .commit 0 id, .recheck 0 now,
   .call 0 (some (.succeeded .null)), .settle 0 now]

def sampleToolState : ToolState :=
  System.run (ToolState.act sampleHash) sampleToolStart (sampleApprovals ++ sampleExecution 7 3)

theorem protected_actions_one_shot_sample :
    sampleToolState.history.filterMap (guardedCall sampleHash) =
      [computeAuthorizationFingerprint sampleHash 1 none sampleCall none] ∧
    (∀ fingerprint, (sampleToolState.history.filterMap (guardedCall sampleHash)).count fingerprint ≤ 1) ∧
    Preceded sampleHash sampleToolState.history := by
  have hsteps : (pendingResolutions sampleHash).Steps sampleToolStart sampleToolState :=
    .run_restrict (by decide +kernel)
  have hreach : (pendingResolutions sampleHash).Reachable sampleToolState :=
    .steps (.of_init ⟨rfl, rfl, rfl, rfl, fun _ => rfl, rfl, rfl, rfl⟩) hsteps
  exact ⟨by decide +kernel, protected_actions_one_shot sampleHash sampleToolState hreach
    (by unfold DistinctDigests; decide +kernel)⟩

/-- The second request commits after the call; the worker calls again. -/
def repeatedCall : ToolState :=
  System.run (ToolState.act sampleHash) sampleToolState (.commitResolution 0 false ::
    sampleExecution 8 4)

/-- A resolution that commits late clears the consumption: the gateway is called twice for one
fingerprint. -/
theorem stale_resolution_repeats_call :
    (toolWorkers sampleHash).Reachable repeatedCall ∧ DistinctDigests sampleHash repeatedCall.hashed ∧
      repeatedCall.history.filterMap (guardedCall sampleHash) =
        List.replicate 2 (computeAuthorizationFingerprint sampleHash 1 none sampleCall none) := by
  have hfirst : (toolWorkers sampleHash).Steps sampleToolStart sampleToolState :=
    .run (by decide +kernel)
  have hsecond : (toolWorkers sampleHash).Steps sampleToolState repeatedCall :=
    .run (by decide +kernel)
  refine ⟨?_, by unfold DistinctDigests; decide +kernel, by decide +kernel⟩
  exact .steps (.steps (.of_init ⟨rfl, rfl, rfl, rfl, fun _ => rfl, rfl, rfl, rfl⟩) hfirst) hsecond

end Friday.Tools
