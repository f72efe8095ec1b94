import FridayAssistant.Delivery.Dispatch
/-!
# What a delivery transaction can do to the tables

Every committed transaction is a sequence of `Move`s on single deliveries, possibly followed
by one claim (`ClaimNextDelivery.execute_spec`):

* `release`: a `SENDING` delivery before the boundary goes back to `QUEUED` or ends;
* `begin`: the boundary is set, and the ledger row is opened, by the holder of an active claim;
* `settle`: a `SENDING` delivery past the boundary ends, and its open ledger row is closed with
  the matching outcome.

All invariants are proved from these three cases.
-/
namespace Friday.Delivery
open Tables Table

/-- `_AUTHORITY_FIELDS` are the same. -/
structure SameAuthority (d d' : OutboundDelivery) : Prop where
  id : d'.id = d.id
  sourceKind : d'.sourceKind = d.sourceKind
  sourceRunId : d'.sourceRunId = d.sourceRunId
  sourceToolInvocationId : d'.sourceToolInvocationId = d.sourceToolInvocationId
  sourceScheduleFireId : d'.sourceScheduleFireId = d.sourceScheduleFireId
  routeId : d'.routeId = d.routeId
  routeFingerprint : d'.routeFingerprint = d.routeFingerprint
  subject : d'.subject = d.subject
  body : d'.body = d.body
  bodySha256 : d'.bodySha256 = d.bodySha256

theorem SameAuthority.refl (d : OutboundDelivery) : SameAuthority d d := by constructor <;> rfl

theorem SameAuthority.trans {a b c : OutboundDelivery} (h : SameAuthority a b)
    (h' : SameAuthority b c) : SameAuthority a c :=
  ⟨h'.id.trans h.id, h'.sourceKind.trans h.sourceKind, h'.sourceRunId.trans h.sourceRunId,
    h'.sourceToolInvocationId.trans h.sourceToolInvocationId,
    h'.sourceScheduleFireId.trans h.sourceScheduleFireId, h'.routeId.trans h.routeId,
    h'.routeFingerprint.trans h.routeFingerprint, h'.subject.trans h.subject, h'.body.trans h.body,
    h'.bodySha256.trans h.bodySha256⟩

/-- The columns that no write changes once the delivery exists (route, fingerprint, subject,
body, source, creation), and the three that only a claim and `mark_dispatch_started` change. -/
structure Frame (d d' : OutboundDelivery) : Prop extends SameAuthority d d' where
  createdAt : d'.createdAt = d.createdAt
  attemptCount : d'.attemptCount = d.attemptCount
  claimGeneration : d'.claimGeneration = d.claimGeneration
  dispatchStartedAt : d'.dispatchStartedAt = d.dispatchStartedAt

theorem Frame.refl (d : OutboundDelivery) : Frame d d := ⟨.refl d, rfl, rfl, rfl, rfl⟩

/-- `UPDATE delivery_attempts` of the open row of a generation. -/
def closeOpen (t : Table DeliveryAttempt) (id : DeliveryId) (claimGeneration : Nat) (now : Time)
    (outcome : DeliveryAttemptOutcome) (failureCode : Option String) :
    Nat × Table DeliveryAttempt :=
  t.updateWhere (isOpen id claimGeneration)
    (fun a => { a with outcome := outcome, finishedAt := some now, failureCode := failureCode })
    (fun a => Eq.refl a.id)

/-- The ledger row `begin_for_claim` opens. -/
def openAttempt (attemptId : DeliveryAttemptId) (d : OutboundDelivery) (now : Time) :
    DeliveryAttempt :=
  { id := attemptId, deliveryId := d.id, claimGeneration := d.claimGeneration, startedAt := now,
    finishedAt := none, outcome := .inProgress, failureCode := none }

inductive Move (now : Time) (db : DeliveryDb) : DeliveryDb → Prop where
  | release {d d' : OutboundDelivery} (row : db.deliveries.get? d.id = some d) (sending : d.status = .sending)
      (unopened : d.dispatchStartedAt = none) (frame : Frame d d') (left : d'.status ≠ .sending) :
      Move now db { db with deliveries := db.deliveries.put d' }
  | begin {d : OutboundDelivery} {workerId claimToken : String} {attemptId : DeliveryAttemptId}
      (row : db.deliveries.get? d.id = some d)
      (active : activeClaim workerId claimToken d.claimGeneration now d = true)
      (unopened : d.dispatchStartedAt = none)
      (fresh : db.attempts.get? attemptId = none) (positive : d.claimGeneration ≠ 0) :
      Move now db { deliveries := db.deliveries.put { d with dispatchStartedAt := some now, updatedAt := now },
                    attempts := db.attempts.put (openAttempt attemptId d now) }
  | settle {d d' : OutboundDelivery} {outcome : DeliveryAttemptOutcome} {failureCode : Option String}
      (row : db.deliveries.get? d.id = some d) (sending : d.status = .sending)
      (opened : d.dispatchStartedAt.isSome) (frame : Frame d d')
      (ended : attemptOutcome d'.status = some outcome)
      (one : (closeOpen db.attempts d.id d.claimGeneration now outcome failureCode).1 = 1) :
      Move now db { deliveries := db.deliveries.put d',
                    attempts := (closeOpen db.attempts d.id d.claimGeneration now outcome failureCode).2 }

/-- Any number of moves at one clock reading. -/
abbrev Moves (now : Time) : DeliveryDb → DeliveryDb → Prop := Relation.ReflTransGen (Move now)

/-! ## Reading the store functions -/

variable {generation : Nat} {now : Time} {db db' : DeliveryDb} {outcome : DeliveryAttemptOutcome}
  {code : Option String} {fence : OutboundDelivery → Bool} {b : Bool}

variable {d : OutboundDelivery} {workerId : String}

@[simp] theorem activeClaim_iff {claimToken : String} :
    activeClaim workerId claimToken generation now d = true ↔
      d.status = .sending ∧ d.claimOwner = some workerId ∧ d.claimToken = some claimToken ∧
        d.claimGeneration = generation ∧ leaseLive d now = true := by
  simp [activeClaim, and_assoc]

@[simp] theorem expiredClaim_iff :
    expiredClaim generation now d = true ↔
      d.status = .sending ∧ d.claimGeneration = generation ∧ leaseExpired d now = true := by
  simp [expiredClaim, and_assoc]

variable {id : DeliveryId}

theorem closeAttempt_held (hd : db.deliveries.get? id = some d) (hf : fence d = true) :
    closeAttempt db id generation now outcome code fence =
      ((closeOpen db.attempts id generation now outcome code).1 == 1,
        { db with attempts := (closeOpen db.attempts id generation now outcome code).2 }) := by
  simp only [closeAttempt, closeOpen, hd, Option.any_some, hf, Bool.and_true]

/-- A ledger close whose fence fails writes nothing. -/
theorem closeAttempt_fenced (h : ∀ d, db.deliveries.get? id = some d → fence d = false) :
    closeAttempt db id generation now outcome code fence = (false, db) := by
  have hany : (db.deliveries.get? id).any fence = false := by
    cases hd : db.deliveries.get? id with
    | none => rfl
    | some d => exact h d hd
  have hmap : db.attempts.rows.map (fun a => a) = db.attempts.rows := List.map_id' _
  simp only [closeAttempt, hany, Bool.and_false, Table.updateWhere, Bool.false_eq_true,
    if_false, hmap]
  simp

theorem closeAttempt_eq_true (h : closeAttempt db id generation now outcome code fence = (true, db')) :
    (closeOpen db.attempts id generation now outcome code).1 = 1 ∧
      db' = { db with attempts := (closeOpen db.attempts id generation now outcome code).2 } ∧
      ∃ d, db.deliveries.get? id = some d ∧ fence d = true := by
  by_cases hf : ∃ d, db.deliveries.get? id = some d ∧ fence d = true
  · obtain ⟨d, hd, hfd⟩ := hf
    rw [closeAttempt_held hd hfd] at h
    simp only [Prod.mk.injEq, beq_iff_eq] at h
    exact ⟨h.1, h.2.symm, d, hd, hfd⟩
  · rw [closeAttempt_fenced fun d hd => by simpa using fun hfd => hf ⟨d, hd, hfd⟩] at h
    simp at h

theorem insertAttempt_eq_ok {t t' : Table DeliveryAttempt} {a : DeliveryAttempt}
    (h : insertAttempt t a = .ok t') :
    a.claimGeneration ≠ 0 ∧ t.get? a.id = none ∧ t' = t.put a := by
  unfold insertAttempt at h
  split at h
  · simp at h
  · next hc =>
    split at h
    · next t'' ht =>
      obtain ⟨hg, rfl⟩ := insert?_eq_some.1 ht
      simp only [Bool.or_eq_true, decide_eq_true_eq, not_or] at hc
      cases h
      exact ⟨hc.1, hg, rfl⟩
    · simp at h

theorem insertAttempt_error {t : Table DeliveryAttempt} {a : DeliveryAttempt} {e : AppError}
    (h : insertAttempt t a = .error e) : e = .integrity := by
  unfold insertAttempt at h
  split at h
  · cases h; rfl
  · split at h
    · cases h
    · cases h; rfl

/-! ## One spec per use case -/

theorem endWithFailure_spec {target : DeliveryStatus} {boundary : Bool} {d' : OutboundDelivery}
    {code message : String} (h : d.endWithFailure target boundary now code message = .ok d') :
    d.status = .sending ∧ d'.status = target ∧ Frame d d' := by
  simp only [OutboundDelivery.endWithFailure, OutboundDelivery.requireStatus, bind_eq_ok,
    require_eq_ok, decide_eq_true_eq] at h
  obtain ⟨_, hs, _, -, _, -, _, -, h⟩ := h
  cases h
  exact ⟨hs, rfl, by repeat' constructor⟩

/-- Whatever the outcome, the transition leaves `SENDING` for a status that ends an attempt. -/
theorem transition_spec {d' : OutboundDelivery} {o : Outcome} (h : o.transition d now = .ok d') :
    d.status = .sending ∧ (∃ r, attemptOutcome d'.status = some r) ∧ Frame d d' := by
  cases o with
  | deliver provider =>
    simp only [Outcome.transition, OutboundDelivery.deliver, OutboundDelivery.requireStatus,
      bind_eq_ok, require_eq_ok, decide_eq_true_eq] at h
    obtain ⟨_, hs, _, -, _, -, h⟩ := h
    cases h
    exact ⟨hs, ⟨_, rfl⟩, by repeat' constructor⟩
  | fail code message =>
    obtain ⟨hs, ht, hf⟩ := endWithFailure_spec h
    exact ⟨hs, ⟨.failed, by rw [ht]; rfl⟩, hf⟩
  | markAmbiguous code message | markRouteAmbiguous code message =>
    obtain ⟨hs, ht, hf⟩ := endWithFailure_spec h
    exact ⟨hs, ⟨.ambiguous, by rw [ht]; rfl⟩, hf⟩

theorem ne_sending_of_ended {s : DeliveryStatus} {r : DeliveryAttemptOutcome}
    (h : attemptOutcome s = some r) : s ≠ .sending := by rintro rfl; cases h

/-- The write of an expired claim before the boundary: nothing, or a `release`. -/
theorem update_expired_spec
    {f : OutboundDelivery → OutboundDelivery} (hf : ∀ d, Frame d (f d) ∧ (f d).status ≠ .sending)
    (h : db.update id (fun d => expiredClaim generation now d && d.dispatchStartedAt.isNone) f = (b, db')) :
    Moves now db db' := by
  cases b with
  | true =>
    obtain ⟨d, hd, hp, rfl⟩ := DeliveryDb.update_eq_true h
    simp only [Bool.and_eq_true, expiredClaim_iff, Option.isNone_iff_eq_none] at hp
    obtain rfl : d.id = id := key_of_get? hd
    exact .single (.release hd hp.1.1 hp.2 (hf d).1 (hf d).2)
  | false => rw [DeliveryDb.update_eq_false h]

/-- A ledger close followed by the delivery's own write, both fenced: a `settle`. -/
theorem settle_move {db₁ db₂ : DeliveryDb} {p : OutboundDelivery → Bool}
    {f : OutboundDelivery → OutboundDelivery} (hc : closeAttempt db id generation now outcome code fence = (true, db₁))
    (hu : db₁.update id p f = (true, db₂))
    (hfence : ∀ d, fence d = true → d.status = .sending ∧ d.claimGeneration = generation)
    (hopen : ∀ d, db.deliveries.get? id = some d → fence d = true → d.dispatchStartedAt.isSome)
    (hf : ∀ d, Frame d (f d) ∧ attemptOutcome (f d).status = some outcome) : Move now db db₂ := by
  obtain ⟨hone, rfl, d, hd, hx⟩ := closeAttempt_eq_true hc
  obtain ⟨d₁, hd₁, -, rfl⟩ := DeliveryDb.update_eq_true hu
  obtain rfl : d = d₁ := Option.some.inj (hd.symm.trans hd₁)
  obtain rfl : d.id = id := key_of_get? hd
  obtain ⟨hs, rfl⟩ := hfence d hx
  exact .settle hd hs (hopen d hd hx) (hf d).1 (hf d).2 hone

/-- `_recover_one` is at most one move. -/
theorem recoverOne_spec {policy : RetryPolicy}
    (h : recoverOne policy now db d = .ok (b, db')) : Moves now db db' := by
  unfold recoverOne at h
  split at h
  · simp only [bind_eq_ok, require_eq_ok, closeExpiredAsAmbiguous] at h
    obtain ⟨⟨closed, db₁⟩, ⟨code, -, hc⟩, _, rfl, _, hp, h⟩ := h
    cases h
    refine .single (settle_move (Except.ok.inj hc) (Prod.ext hp rfl) ?_ ?_ ?_)
    · intro d₀ hx
      simp only [Bool.and_eq_true, expiredClaim_iff] at hx
      exact ⟨hx.1.1, hx.1.2.1⟩
    · intro d₀ _ hx
      exact (Bool.and_eq_true _ _ ▸ hx).2
    · exact fun d₀ => ⟨by repeat' constructor, rfl⟩
  · split at h
    · simp only [bind_eq_ok] at h
      obtain ⟨delay, -, h⟩ := h
      exact update_expired_spec (fun d => ⟨by repeat' constructor, by simp⟩) (Except.ok.inj h)
    · exact update_expired_spec (fun d => ⟨by repeat' constructor, by simp [closeExpired]⟩) (Except.ok.inj h)

theorem recoverAll_spec {policy : RetryPolicy} {now : Time} :
    ∀ {ds : List OutboundDelivery} {n m : Nat} {db db' : DeliveryDb},
      recoverAll policy now ds n db = .ok (m, db') → Moves now db db'
  | [], _, _, _, _, h => by cases h; exact .refl
  | d :: ds, n, m, db, db', h => by
    simp only [recoverAll, bind_eq_ok] at h
    obtain ⟨⟨b, db₁⟩, h₁, h⟩ := h
    exact (recoverOne_spec h₁).trans (recoverAll_spec h)

/-- The tables after claim `c`: a due `QUEUED` delivery is now `SENDING` under the triple of
`c`, one generation later. -/
def Claims (now : Time) (db : DeliveryDb) (c : DeliveryClaim) (db' : DeliveryDb) : Prop :=
  ∃ d, db.deliveries.get? c.deliveryId = some d ∧ d.status = .queued ∧ d.availableAt ≤ now ∧
    c.claimGeneration = d.claimGeneration + 1 ∧
    db' = { db with deliveries := db.deliveries.put (claimedRow c.workerId c.claimToken now c.leaseExpiresAt d) }

theorem tryClaim_spec {claimToken : String} {exp : Time} :
    (∀ g, tryClaim db id workerId claimToken now exp = (some g, db') →
      Claims now db ⟨id, workerId, claimToken, g, now, exp⟩ db') ∧
    (tryClaim db id workerId claimToken now exp = (none, db') → db' = db) := by
  unfold tryClaim
  cases hu : db.update id _ _ with
  | mk b db₁ =>
    cases b with
    | true =>
      obtain ⟨d, hd, hp, rfl⟩ := DeliveryDb.update_eq_true hu
      obtain rfl : d.id = id := key_of_get? hd
      have hget : (db.deliveries.put (claimedRow workerId claimToken now exp d)).get? d.id =
          some (claimedRow workerId claimToken now exp d) := get?_put_self _ _
      simp only [Bool.and_eq_true, decide_eq_true_eq] at hp
      simp only [hget, Option.map_some, Prod.mk.injEq, Option.some.injEq, reduceCtorEq, false_and,
        false_implies, and_true]
      rintro g ⟨rfl, rfl⟩
      exact ⟨d, hd, hp.1, hp.2, rfl, rfl⟩
    | false => simp [DeliveryDb.update_eq_false hu, eq_comm]

theorem claimFirst_spec {now exp : Time} {tokens : Nat → String} :
    ∀ {ds : List OutboundDelivery} {k : Nat} {db db' : DeliveryDb} {r : Option DeliveryClaim},
      claimFirst workerId now exp tokens ds k db = (r, db') →
      (r = none ∧ db' = db) ∨
        ∃ c, r = some c ∧ Claims now db c db' ∧ c.workerId = workerId ∧ c.leaseExpiresAt = exp ∧
          ∃ j, c.claimToken = tokens j
  | [], _, _, _, _, h => by cases h; exact .inl ⟨rfl, rfl⟩
  | d :: ds, k, db, db', r, h => by
    simp only [claimFirst] at h
    cases ht : tryClaim db d.id workerId (tokens k) now exp with
    | mk g db₁ =>
      rw [ht] at h
      cases g with
      | none =>
        obtain rfl := tryClaim_spec.2 ht
        exact claimFirst_spec h
      | some g =>
        cases h
        exact .inr ⟨_, rfl, tryClaim_spec.1 g ht, rfl, rfl, k, rfl⟩

/-- **`ClaimNextDelivery.execute`**: some expired claims are resolved, and then nothing is
claimed or one due delivery is, with a token this call drew. -/
theorem ClaimNextDelivery.execute_spec {u : ClaimNextDelivery} {tokens : Nat → String}
    {r : Option DeliveryClaim} (h : u.execute tokens db now = .ok (r, db')) :
      ∃ db₁, Moves now db db₁ ∧ ((r = none ∧ db' = db₁) ∨
        ∃ c, r = some c ∧ Claims now db₁ c db' ∧ c.workerId = u.workerId ∧
          c.leaseExpiresAt = now + u.leaseDuration ∧ ∃ j, c.claimToken = tokens j) := by
  simp only [ClaimNextDelivery.execute, bind_eq_ok] at h
  obtain ⟨⟨n, db₁⟩, h₁, h⟩ := h
  exact ⟨db₁, recoverAll_spec h₁, claimFirst_spec (Except.ok.inj h)⟩

/-- `BeginDeliveryAttempt.execute` is `ClaimLost`, or the insert of the ledger row next to the
boundary it has just set. -/
theorem beginDeliveryAttempt_eq (db : DeliveryDb) (c : DeliveryClaim) (attemptId : DeliveryAttemptId) (now : Time) :
    (∃ m, beginDeliveryAttempt db c attemptId now = .error (.claimLost m)) ∨
    ∃ d, db.deliveries.get? c.deliveryId = some d ∧ d.dispatchStartedAt = none ∧
      activeClaim c.workerId c.claimToken c.claimGeneration now d = true ∧
      beginDeliveryAttempt db c attemptId now = do
        let t ← insertAttempt db.attempts (openAttempt attemptId d now)
        return (now, ⟨db.deliveries.put { d with dispatchStartedAt := some now, updatedAt := now }, t⟩) := by
  unfold beginDeliveryAttempt
  cases hm : markDispatchStarted db c.deliveryId c.workerId c.claimToken c.claimGeneration now with
  | mk marked db₁ =>
    cases marked with
    | false => exact .inl ⟨_, rfl⟩
    | true =>
      obtain ⟨d, hd, hp, rfl⟩ := DeliveryDb.update_eq_true hm
      simp only [Bool.and_eq_true, Option.isNone_iff_eq_none] at hp
      obtain ⟨hact, hnone⟩ := hp
      have hget : (db.deliveries.put { d with dispatchStartedAt := some now, updatedAt := now }).get? c.deliveryId =
          some { d with dispatchStartedAt := some now, updatedAt := now } := by
        rw [← show d.id = c.deliveryId from key_of_get? hd]
        exact get?_put_self _ _
      have hact' : activeClaim c.workerId c.claimToken c.claimGeneration now
          { d with dispatchStartedAt := some now, updatedAt := now } = true := hact
      refine .inr ⟨d, hd, hnone, hact, ?_⟩
      simp only [if_true, beginForClaim, hget, hact', decide_true, Bool.and_self, openAttempt]
      cases insertAttempt db.attempts _ <;> rfl

/-- **`BeginDeliveryAttempt.execute`** succeeds only for the holder of an active claim whose
delivery has no boundary yet; it sets the boundary and opens the ledger row. -/
theorem beginDeliveryAttempt_spec {c : DeliveryClaim} {attemptId : DeliveryAttemptId}
    {t : Time} (h : beginDeliveryAttempt db c attemptId now = .ok (t, db')) :
    ∃ d, db.deliveries.get? c.deliveryId = some d ∧ d.dispatchStartedAt = none ∧
      activeClaim c.workerId c.claimToken c.claimGeneration now d = true ∧ Move now db db' ∧
      db'.deliveries = db.deliveries.put { d with dispatchStartedAt := some now, updatedAt := now } := by
  rcases beginDeliveryAttempt_eq db c attemptId now with ⟨m, hm⟩ | ⟨d, hd, hnone, hact, heq⟩
  · rw [hm] at h
    cases h
  · rw [heq, bind_eq_ok] at h
    obtain ⟨t', hins, h⟩ := h
    cases h
    obtain ⟨hpos, hfresh, rfl⟩ := insertAttempt_eq_ok hins
    have hid : d.id = c.deliveryId := key_of_get? hd
    have hgen : d.claimGeneration = c.claimGeneration := (activeClaim_iff.1 hact).2.2.2.1
    refine ⟨d, hd, hnone, hact, ?_, rfl⟩
    rw [← hgen] at hact
    exact .begin (hid ▸ hd) hact hnone hfresh hpos

theorem frame_savedRow (e d : OutboundDelivery) : Frame d (savedRow e d) := by repeat' constructor

/-- **`PersistDeliveryOutcome._apply`** succeeds only under an active claim; it is one move, of
the claimed delivery, and writes lifecycle columns only. -/
theorem persistDeliveryOutcome_spec {c : DeliveryClaim} {o : Outcome}
    (h : persistDeliveryOutcome db c o now = .ok db') :
    ∃ d e, db.deliveries.get? c.deliveryId = some d ∧
      activeClaim c.workerId c.claimToken c.claimGeneration now d = true ∧ Move now db db' ∧
      db'.deliveries = db.deliveries.put (savedRow e d) := by
  unfold persistDeliveryOutcome at h
  split at h
  · simp at h
  · next d hget =>
    rw [Option.filter_eq_some_iff] at hget
    obtain ⟨hd, -⟩ := hget
    simp only [bind_eq_ok, require_eq_ok] at h
    obtain ⟨e, he, db₁, hc, _, hsaved, h⟩ := h
    obtain rfl : (saveClaimedLifecycle db₁ e c.workerId c.claimToken c.claimGeneration now).2 = db' :=
      Except.ok.inj h
    obtain ⟨hs, ⟨r, hr⟩, hfr⟩ := transition_spec he
    have hid : d.id = c.deliveryId := key_of_get? hd
    have hsave : db₁.update c.deliveryId (saveFence e c.workerId c.claimToken c.claimGeneration now) (savedRow e) =
        (true, (saveClaimedLifecycle db₁ e c.workerId c.claimToken c.claimGeneration now).2) := by
      rw [← hid, ← hfr.id]
      exact Prod.ext hsaved rfl
    unfold completeAttempt at hc
    split at hc
    · next hopen =>
      -- past the boundary: the ledger row is closed in the same transaction
      rw [hr] at hc
      simp only [completeForClaim, bind_eq_ok, require_eq_ok] at hc
      obtain ⟨⟨completed, db₂⟩, ⟨code, -, hcl⟩, _, rfl, hdb⟩ := hc
      cases hdb
      obtain ⟨-, rfl, d₁, hd₁, hact⟩ := closeAttempt_eq_true (Except.ok.inj hcl)
      obtain rfl : d = d₁ := Option.some.inj (hd.symm.trans hd₁)
      refine ⟨d, e, hd, hact, settle_move (Except.ok.inj hcl) hsave ?_ ?_ ?_, ?_⟩
      · exact fun d₀ hx => ⟨(activeClaim_iff.1 hx).1, (activeClaim_iff.1 hx).2.2.2.1⟩
      · intro d₀ hd₀ _
        obtain rfl : d = d₀ := Option.some.inj (hd.symm.trans hd₀)
        rwa [hfr.dispatchStartedAt] at hopen
      · exact fun d₀ => ⟨frame_savedRow e d₀, hr⟩
      · obtain ⟨d₂, hd₂, -, hu⟩ := DeliveryDb.update_eq_true hsave
        obtain rfl : d = d₂ := Option.some.inj (hd.symm.trans hd₂)
        exact congrArg DeliveryDb.deliveries hu
    · next hclosed =>
      cases hc
      obtain ⟨d₁, hd₁, hp, hu⟩ := DeliveryDb.update_eq_true hsave
      obtain rfl : d = d₁ := Option.some.inj (hd.symm.trans hd₁)
      have hact := (Bool.and_eq_true _ _ ▸ hp).1
      refine ⟨d, e, hd, hact, ?_, congrArg DeliveryDb.deliveries hu⟩
      have hnone : d.dispatchStartedAt = none := by
        rw [← hfr.dispatchStartedAt]; simpa using hclosed
      rw [hu]
      exact .release (hid ▸ hd) hs hnone (frame_savedRow e d) (ne_sending_of_ended hr)

end Friday.Delivery
