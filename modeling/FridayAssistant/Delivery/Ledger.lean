import FridayAssistant.Delivery.Effects
/-!
# The delivery row and its attempt ledger agree

A delivery without a dispatch boundary has no attempt at all. A delivery with one has exactly
one: of its current generation, started at the boundary, in progress while the delivery is
`SENDING` and closed with the outcome of its status afterwards. `Ledger` is that invariant;
`Move`, a claim and the insert of a new delivery keep it.
-/
namespace Friday.Delivery
open Tables Table Transition

/-- The outcome of the attempt of a delivery past its boundary. -/
def ledgerOutcome : DeliveryStatus → Option DeliveryAttemptOutcome
  | .sending => some .inProgress
  | s => attemptOutcome s

variable {o : DeliveryAttemptOutcome} {t : Table DeliveryAttempt} {c now clock : Time}
  {db db' : DeliveryDb} {id : DeliveryId} {g : Nat} {code : Option String} {policy : RetryPolicy}
  {m : String}

theorem ledgerOutcome_of_ended {s : DeliveryStatus} (h : attemptOutcome s = some o) :
    ledgerOutcome s = some o := by
  cases s <;> first | exact h | cases h

/-- The ledger rows `t` fit delivery `d`. -/
structure RowOk (t : Table DeliveryAttempt) (clock : Time) (d : OutboundDelivery) : Prop where
  unopened : d.dispatchStartedAt = none → ∀ a ∈ t.rows, a.deliveryId ≠ d.id
  opened : ∀ at₀, d.dispatchStartedAt = some at₀ → at₀ ≤ clock ∧ ∃ a ∈ t.rows, a.deliveryId = d.id ∧
    a.claimGeneration = d.claimGeneration ∧ a.startedAt = at₀ ∧
    ledgerOutcome d.status = some a.outcome ∧ ∀ b ∈ t.rows, b.deliveryId = d.id → b = a

structure Ledger (db : DeliveryDb) (clock : Time) : Prop where
  row : ∀ id d, db.deliveries.get? id = some d → RowOk db.attempts clock d
  owner : ∀ a ∈ db.attempts.rows, ∃ d, db.deliveries.get? a.deliveryId = some d

variable {d : OutboundDelivery}

theorem RowOk.mono {c' : Time} (h : RowOk t c d) (hc : c ≤ c') : RowOk t c' d :=
  ⟨h.unopened, fun at₀ hat => ⟨le_trans (h.opened at₀ hat).1 hc, (h.opened at₀ hat).2⟩⟩

theorem Ledger.mono {c' : Time} (h : Ledger db c) (hc : c ≤ c') : Ledger db c' :=
  ⟨fun id d hd => (h.row id d hd).mono hc, h.owner⟩

/-- Only the attempts of the delivery itself matter. -/
theorem RowOk.congr {t' : Table DeliveryAttempt} (h : RowOk t c d)
    (ht : ∀ a : DeliveryAttempt, a.deliveryId = d.id → (a ∈ t'.rows ↔ a ∈ t.rows)) :
    RowOk t' c d := by
  refine ⟨fun hn a ha he => h.unopened hn a ((ht a he).1 ha) he, fun at₀ hat => ?_⟩
  obtain ⟨hle, a, ha, hid, hg, hst, ho, huniq⟩ := h.opened at₀ hat
  exact ⟨hle, a, (ht a hid).2 ha, hid, hg, hst, ho, fun b hb he => huniq b ((ht b he).1 hb) he⟩

variable {d' : OutboundDelivery}

/-- A delivery before its boundary, whatever else changed in its row. -/
theorem RowOk.of_unopened (h : RowOk t c d)
    (hd : d.dispatchStartedAt = none) (hid : d'.id = d.id) (hd' : d'.dispatchStartedAt = none) :
    RowOk t c d' :=
  ⟨fun _ => by rw [hid]; exact h.unopened hd, fun at₀ hat => by rw [hd'] at hat; cases hat⟩

theorem mem_closeOpen {b : DeliveryAttempt} :
    b ∈ (closeOpen t id g now o code).2.rows ↔ ∃ a ∈ t.rows,
      (if isOpen id g a then { a with outcome := o, finishedAt := some now, failureCode := code } else a) = b :=
  mem_updateWhere

theorem isOpen_iff {a : DeliveryAttempt} :
    isOpen id g a = true ↔ a.deliveryId = id ∧ a.claimGeneration = g ∧ a.outcome = .inProgress := by
  simp [isOpen, and_assoc]

theorem mem_closeOpen_of_ne {b : DeliveryAttempt} (hb : b.deliveryId ≠ id) :
    b ∈ (closeOpen t id g now o code).2.rows ↔ b ∈ t.rows := by
  have hclosed : ∀ a : DeliveryAttempt, a.deliveryId ≠ id → isOpen id g a = false := by
    intro a ha
    simp [isOpen, ha]
  rw [mem_closeOpen]
  constructor
  · rintro ⟨a, ha, rfl⟩
    split at hb
    · next hop => exact absurd (isOpen_iff.1 hop).1 hb
    · next hop => simpa [hop] using ha
  · intro hbm
    exact ⟨b, hbm, by simp [hclosed b hb]⟩

/-- Closing the one open attempt of `d` turns the row for `SENDING` into the row for the new
status. -/
theorem RowOk.settle (h : RowOk t clock d) (hs : d.status = .sending)
    (hf : Frame d d') (ho : attemptOutcome d'.status = some o) (hd : d.dispatchStartedAt.isSome) :
    RowOk (closeOpen t d.id d.claimGeneration now o code).2 clock d' := by
  obtain ⟨at₀, hat⟩ := Option.isSome_iff_exists.1 hd
  obtain ⟨hle, a, ha, hid, hg, hst, hout, huniq⟩ := h.opened at₀ hat
  have hopen : isOpen d.id d.claimGeneration a = true := by
    rw [hs] at hout
    exact isOpen_iff.2 ⟨hid, hg, (Option.some.inj hout).symm⟩
  refine ⟨fun hn => ?_, fun at₁ hat₁ => ?_⟩
  · rw [hf.dispatchStartedAt, hat] at hn
    cases hn
  · rw [hf.dispatchStartedAt, hat] at hat₁
    cases hat₁
    refine ⟨hle, { a with outcome := o, finishedAt := some now, failureCode := code },
      mem_closeOpen.2 ⟨a, ha, by simp [hopen]⟩, hid.trans hf.id.symm,
      hg.trans hf.claimGeneration.symm, hst, ledgerOutcome_of_ended ho, fun b hb hbid => ?_⟩
    obtain ⟨x, hx, rfl⟩ := mem_closeOpen.1 hb
    have hxid : x.deliveryId = d.id := by
      rw [hf.id] at hbid
      split at hbid <;> exact hbid
    obtain rfl := huniq x hx hxid
    simp [hopen]

/-- Opening the ledger row at the boundary. -/
theorem RowOk.begin {attemptId : DeliveryAttemptId} (h : RowOk t clock d) (hs : d.status = .sending)
    (hd : d.dispatchStartedAt = none) :
    RowOk (t.put (openAttempt attemptId d now)) now
      { d with dispatchStartedAt := some now, updatedAt := now } := by
  refine ⟨nofun, fun at₀ hat => ?_⟩
  cases hat
  refine ⟨le_rfl, openAttempt attemptId d now, mem_put.2 (.inl rfl), rfl, rfl, rfl, ?_,
    fun b hb hbid => ?_⟩
  · show ledgerOutcome d.status = _
    rw [hs]; rfl
  · rcases mem_put.1 hb with rfl | ⟨hb, -⟩
    · rfl
    · exact absurd hbid (h.unopened hd b hb)

/-! ## What keeps the ledger -/

/-- Rewriting one delivery's row: the other rows only need their own attempts unchanged. -/
theorem Ledger.put {clock' : Time} (h : Ledger db clock) (hc : clock ≤ clock') (hrow : RowOk t clock' d')
    (hother : ∀ a : DeliveryAttempt, a.deliveryId ≠ d'.id → (a ∈ t.rows ↔ a ∈ db.attempts.rows)) :
    Ledger { deliveries := db.deliveries.put d', attempts := t } clock' := by
  constructor
  · intro id d hd
    rw [get?_put] at hd
    split at hd
    · cases hd; exact hrow
    · next hne =>
      refine ((h.row id d hd).mono hc).congr fun a ha => hother a ?_
      rw [ha, show d.id = id from key_of_get? hd]
      exact Ne.symm hne
  · intro a ha
    by_cases hid : d'.id = a.deliveryId
    · exact ⟨d', by rw [← hid]; exact get?_put_self _ _⟩
    · obtain ⟨d, hd⟩ := h.owner a ((hother a (Ne.symm hid)).1 ha)
      exact ⟨d, by rw [get?_put_ne hid]; exact hd⟩

theorem Ledger.move (h : Ledger db clock) (hc : clock ≤ now) (hm : Move now db db') :
    Ledger db' now := by
  cases hm with
  | @release d d' row sending unopened frame left =>
    exact h.put hc (((h.row _ d row).mono hc).of_unopened unopened frame.id
      (frame.dispatchStartedAt.trans unopened)) fun _ _ => Iff.rfl
  | @begin d workerId claimToken attemptId row active unopened fresh positive =>
    refine h.put hc ((h.row _ d row).begin (activeClaim_iff.1 active).1 unopened) fun a ha => ?_
    rw [mem_put]
    refine ⟨fun hx => hx.elim (fun e => absurd (e ▸ rfl) ha) And.left, fun hx => .inr ⟨hx, fun he => ?_⟩⟩
    have hget := get?_of_mem hx
    rw [he] at hget
    exact absurd (hget.symm.trans fresh) (by simp)
  | @settle d d' outcome code row sending opened frame ended one =>
    refine h.put hc (((h.row _ d row).mono hc).settle sending frame ended opened) fun a ha => ?_
    rw [frame.id] at ha
    exact mem_closeOpen_of_ne ha

theorem Ledger.moves (h : Ledger db now) (hm : Moves now db db') :
    Ledger db' now := by
  induction hm with
  | refl => exact h
  | tail _ hm ih => exact ih.move le_rfl hm

/-- A `QUEUED` delivery has no boundary. -/
theorem Ledger.queued (h : Ledger db clock) (hd : db.deliveries.get? id = some d)
    (hq : d.status = .queued) : d.dispatchStartedAt = none := by
  cases hat : d.dispatchStartedAt with
  | none => rfl
  | some at₀ =>
    obtain ⟨-, a, -, -, -, -, ho, -⟩ := (h.row id d hd).opened at₀ hat
    rw [hq] at ho
    cases ho

theorem Ledger.claims {c : DeliveryClaim} (h : Ledger db now) (hc : Claims now db c db') :
    Ledger db' now := by
  obtain ⟨d, hd, hq, -, -, rfl⟩ := hc
  have hnone := h.queued hd hq
  exact h.put le_rfl ((h.row _ d hd).of_unopened hnone rfl hnone) fun _ _ => Iff.rfl

theorem Ledger.add (h : Ledger db clock) (hd : db.deliveries.get? d.id = none) (hnew : IsNew d) :
    Ledger { db with deliveries := db.deliveries.put d } clock := by
  refine h.put le_rfl ⟨fun _ a ha he => ?_, fun at₀ hat => ?_⟩ fun _ _ => Iff.rfl
  · obtain ⟨e, hget⟩ := h.owner a ha
    rw [he, hd] at hget
    cases hget
  · rw [hnew.dispatchStartedAt] at hat
    cases hat

theorem Ledger.effect {sha256 : String → String} {a : Action} {s s' : DispatchState}
    (h : Ledger s.db s.clock) (he : Effect sha256 a s s') :
    Ledger s'.db s'.clock := by
  cases he with
  | add d fresh new db clock => rw [db, clock]; exact h.add fresh new
  | moves later db => exact (h.mono later).moves db
  | claim c db₁ later moves db => exact ((h.mono later).moves moves).claims db
  | begin i c req d later row unopened move => exact h.move later move
  | send i c req o db clock => rw [db, clock]; exact h

/-- The ledger agrees with the deliveries in every reachable state. -/
theorem reachable_ledger {sha256 : String → String} {s : DispatchState}
    (h : (dispatcher sha256).Reachable s) : Ledger s.db s.clock := by
  refine h.invariant (fun s => Ledger s.db s.clock) ?_ fun s a s' _ hi hn =>
    hi.effect (next_effect hn)
  rintro s ⟨hdb, -⟩
  rw [hdb]
  exact ⟨fun id d hd => by simp at hd, fun a ha => by simp [Table.empty] at ha⟩

/-! ## Recovery never finds a mismatch -/

/-- The open attempt of a `SENDING` delivery past its boundary, started no later than now. -/
theorem Ledger.openAttempt (h : Ledger db now) (hd : db.deliveries.get? id = some d)
    (hs : d.status = .sending) (ho : d.dispatchStartedAt.isSome) :
    ∃ a ∈ db.attempts.rows, isOpen d.id d.claimGeneration a = true ∧ a.startedAt ≤ now ∧
      ∀ b ∈ db.attempts.rows, isOpen d.id d.claimGeneration b = true → b = a := by
  obtain ⟨at₀, hat⟩ := Option.isSome_iff_exists.1 ho
  obtain ⟨hle, a, ha, hid, hg, hst, hout, huniq⟩ := (h.row id d hd).opened at₀ hat
  rw [hs] at hout
  exact ⟨a, ha, isOpen_iff.2 ⟨hid, hg, (Option.some.inj hout).symm⟩, hst ▸ hle,
    fun b hb hbo => huniq b hb (isOpen_iff.1 hbo).1⟩

theorem validateDeliveryAttemptShape_ambiguous {started : Time} (h : started ≤ now) :
    validateDeliveryAttemptShape .ambiguous started (some now) (some leaseExpiredAfterDispatch) =
      .ok (some leaseExpiredAfterDispatch) := by
  have hcode : validateDeliveryAttemptFailureCode (some leaseExpiredAfterDispatch) =
      .ok (some leaseExpiredAfterDispatch) := by decide
  simp [validateDeliveryAttemptShape, require, h, hcode, bind, Except.bind]

/-- An expired claim past the boundary is always closed: ledger row and delivery together. -/
theorem Ledger.recoverOne_opened (h : Ledger db now) (policy : RetryPolicy)
    (hd : db.deliveries.get? d.id = some d) (hs : d.status = .sending)
    (hx : leaseExpired d now = true) (ho : d.dispatchStartedAt.isSome) :
    ∃ db', recoverOne policy now db d = .ok (true, db') := by
  obtain ⟨a, ha, hopen, hle, huniq⟩ := h.openAttempt hd hs ho
  have hfind : db.attempts.rows.find? (isOpen d.id d.claimGeneration) = some a := by
    cases hf : db.attempts.rows.find? (isOpen d.id d.claimGeneration) with
    | none => exact absurd hopen (by simpa using List.find?_eq_none.1 hf a ha)
    | some b => rw [huniq b (List.mem_of_find?_eq_some hf) (List.find?_some hf)]
  have hfence : (expiredClaim d.claimGeneration now d && d.dispatchStartedAt.isSome) = true := by
    simp [hs, hx, ho]
  have hone : (closeOpen db.attempts d.id d.claimGeneration now .ambiguous (some leaseExpiredAfterDispatch)).1 = 1 :=
    updateWhere_one ha hopen huniq
  have hclosed : closeExpiredAsAmbiguous db d.id d.claimGeneration now leaseExpiredAfterDispatch =
      .ok (true, { db with attempts := (closeOpen db.attempts d.id d.claimGeneration now .ambiguous
        (some leaseExpiredAfterDispatch)).2 }) := by
    simp only [closeExpiredAsAmbiguous, validatedTerminalWrite, hfind, Option.map_some, Option.getD_some,
      validateDeliveryAttemptShape_ambiguous hle, bind, Except.bind, pure, Except.pure]
    rw [closeAttempt_held hd hfence, hone, beq_self_eq_true]
  obtain ⟨db', hmark⟩ : ∃ db', markExpiredPostDispatchAmbiguous { db with attempts := (closeOpen db.attempts d.id
      d.claimGeneration now .ambiguous (some leaseExpiredAfterDispatch)).2 } d.id d.claimGeneration
      now leaseExpiredAfterDispatch postDispatchAmbiguousMessage = (true, db') :=
    ⟨_, DeliveryDb.update_of_get? hd hfence⟩
  exact ⟨db', by simp only [recoverOne, ho, if_true, hclosed, bind, Except.bind, require, hmark]; rfl⟩

/-- Recovery touches no other delivery. -/
theorem recoverOne_other {b : Bool} (h : recoverOne policy now db d = .ok (b, db'))
    (hid : id ≠ d.id) : db'.deliveries.get? id = db.deliveries.get? id := by
  unfold recoverOne at h
  split at h
  · simp only [bind_eq_ok, require_eq_ok, closeExpiredAsAmbiguous] at h
    obtain ⟨⟨closed, db₁⟩, ⟨code, -, hc⟩, _, -, _, -, h⟩ := h
    cases hm : markExpiredPostDispatchAmbiguous db₁ d.id d.claimGeneration now
        leaseExpiredAfterDispatch postDispatchAmbiguousMessage with
    | mk parked db₂ =>
      simp only [hm] at h
      cases h
      exact (DeliveryDb.get?_update_ne hm (fun _ => rfl) hid).trans (by cases hc; rfl)
  · split at h
    · simp only [bind_eq_ok] at h
      obtain ⟨delay, -, h⟩ := h
      exact DeliveryDb.get?_update_ne (Except.ok.inj h) (fun _ => rfl) hid
    · exact DeliveryDb.get?_update_ne (Except.ok.inj h) (fun _ => rfl) hid

/-- The only exception recovery can raise is the overflow of the retry delay. -/
theorem Ledger.recoverOne_error (h : Ledger db now)
    {e : AppError} (hd : db.deliveries.get? d.id = some d) (hs : d.status = .sending)
    (hx : leaseExpired d now = true) (he : recoverOne policy now db d = .error e) :
    e = .overflow := by
  by_cases ho : d.dispatchStartedAt.isSome
  · obtain ⟨db', hok⟩ := h.recoverOne_opened policy hd hs hx ho
    rw [hok] at he
    cases he
  · simp only [recoverOne, ho, Bool.false_eq_true, if_false, RetryPolicy.computeDelay] at he
    split at he
    · split at he
      · cases he
      · cases he; rfl
    · cases he

theorem Ledger.recoverAll_error :
    ∀ {ds : List OutboundDelivery} {n : Nat} {db : DeliveryDb} {e : AppError}, Ledger db now →
      (ds.map OutboundDelivery.id).Nodup →
      (∀ d ∈ ds, db.deliveries.get? d.id = some d ∧ d.status = .sending ∧ leaseExpired d now = true) →
      recoverAll policy now ds n db = .error e → e = .overflow
  | [], _, _, _, _, _, _, he => by cases he
  | d :: ds, n, db, e, h, hnd, hds, he => by
    simp only [List.map_cons, List.nodup_cons] at hnd
    obtain ⟨hd, hs, hx⟩ := hds d List.mem_cons_self
    simp only [recoverAll] at he
    cases hr : recoverOne policy now db d with
    | error e' =>
      rw [hr] at he
      cases he
      exact h.recoverOne_error hd hs hx hr
    | ok p =>
      obtain ⟨b, db₁⟩ := p
      rw [hr] at he
      -- the rows still to be recovered are as they were listed
      refine recoverAll_error (h.moves (recoverOne_spec hr)) hnd.2 (fun d' hd' => ?_) he
      obtain ⟨hget, hrest⟩ := hds d' (List.mem_cons_of_mem _ hd')
      have hne : d'.id ≠ d.id := fun e => hnd.1 (e ▸ List.mem_map_of_mem hd')
      exact ⟨(recoverOne_other hr hne).trans hget, hrest⟩

theorem nodup_findExpiredClaims (db : DeliveryDb) (now : Time) (limit : Nat) :
    ((findExpiredClaims db now limit).map OutboundDelivery.id).Nodup := by
  have hsel : ((db.deliveries.select fun d => d.status = .sending && leaseExpired d now).map
      OutboundDelivery.id).Nodup := db.deliveries.nodup.sublist ((List.filter_sublist).map _)
  have hsort := ((List.perm_insertionSort expiryOrder _).map OutboundDelivery.id).nodup_iff.2 hsel
  exact hsort.sublist ((List.take_sublist limit _).map _)

theorem Ledger.recover_error (h : Ledger db now) {limit : Nat}
    {e : AppError} (he : recoverExpiredDeliveryClaims policy limit db now = .error e) :
    e = .overflow :=
  recoverAll_error h (nodup_findExpiredClaims db now limit) (fun d hd => by
    have hsel := (List.mem_insertionSort _).1 (List.mem_of_mem_take hd)
    simpa using mem_select.1 hsel) he

/-! ## The mismatch guards of the use cases -/

theorem bounded_error {v field : String} {maximum : Nat} :
    bounded v field maximum ≠ .error (.transactionFailure m) := by
  unfold bounded
  split
  · simp
  · split <;> simp

theorem optionalBounded_error {v : Option String} {field : String} {maximum : Nat} :
    optionalBounded v field maximum ≠ .error (.transactionFailure m) := by
  cases v with
  | none => simp [optionalBounded]
  | some v =>
    cases hv : bounded v field maximum with
    | ok v' => simp [optionalBounded, hv]
    | error e =>
      intro h
      simp only [optionalBounded, hv] at h
      cases h
      exact bounded_error hv

theorem endWithFailure_error {target : DeliveryStatus} {boundary : Bool} {code message : String} :
    d.endWithFailure target boundary now code message ≠ .error (.transactionFailure m) := by
  simp [OutboundDelivery.endWithFailure, OutboundDelivery.requireStatus, bind_eq_error,
    bounded_error, pure, Except.pure]

theorem transition_error {o : Outcome} :
    o.transition d now ≠ .error (.transactionFailure m) := by
  cases o with
  | deliver provider =>
    simp [Outcome.transition, OutboundDelivery.deliver, OutboundDelivery.requireStatus,
      OutboundDelivery.requireDispatchBoundary, bind_eq_error, optionalBounded_error, pure, Except.pure]
  | fail code message | markAmbiguous code message | markRouteAmbiguous code message =>
    exact endWithFailure_error

theorem validateDeliveryAttemptShape_error {started : Time} {finished : Option Time} :
    validateDeliveryAttemptShape o started finished code ≠ .error (.transactionFailure m) := by
  have hcode : validateDeliveryAttemptFailureCode code ≠ .error (.transactionFailure m) := by
    cases code with
    | none => simp [validateDeliveryAttemptFailureCode]
    | some v =>
      simp only [validateDeliveryAttemptFailureCode]
      split
      · simp
      · split <;> simp
  unfold validateDeliveryAttemptShape
  split
  · simp [bind_eq_error, pure, Except.pure]
  · cases finished with
    | none => simp
    | some f => simp [bind_eq_error, hcode]

/-- `BeginDeliveryAttempt` never sees its boundary without being able to open the ledger row. -/
theorem beginDeliveryAttempt_error {c : DeliveryClaim} {attemptId : DeliveryAttemptId} :
    beginDeliveryAttempt db c attemptId now ≠ .error (.transactionFailure m) := by
  rcases beginDeliveryAttempt_eq db c attemptId now with ⟨m', hm⟩ | ⟨d, -, -, -, heq⟩
  · simp [hm]
  · rw [heq]
    simp only [ne_eq, bind_eq_error, pure, Except.pure, reduceCtorEq, and_false, exists_false, or_false]
    intro h
    cases insertAttempt_error h

theorem persistDeliveryOutcome_error {c : DeliveryClaim} {o : Outcome} :
    persistDeliveryOutcome db c o now ≠ .error (.transactionFailure m) := by
  unfold persistDeliveryOutcome
  split
  · simp
  · next d _ =>
    simp only [ne_eq, bind_eq_error, transition_error, false_or, require_eq_error,
      reduceCtorEq, and_false, pure, Except.pure, exists_false, or_false, not_exists, not_and]
    intro e he
    obtain ⟨-, ⟨r, hr⟩, -⟩ := transition_spec he
    unfold completeAttempt
    split
    · simp [hr, completeForClaim, validatedTerminalWrite, bind_eq_error,
        validateDeliveryAttemptShape_error, pure, Except.pure]
    · simp

/-! ## The main theorem -/

/-- The attempts of a delivery's current generation. -/
def currentAttempts (db : DeliveryDb) (d : OutboundDelivery) : List DeliveryAttempt :=
  db.attempts.select fun a => a.deliveryId = d.id && a.claimGeneration = d.claimGeneration

theorem RowOk.current (h : RowOk db.attempts clock d) :
    (d.dispatchStartedAt = none ∧ currentAttempts db d = []) ∨
    ∃ a, d.dispatchStartedAt = some a.startedAt ∧ currentAttempts db d = [a] ∧
      ledgerOutcome d.status = some a.outcome := by
  cases hat : d.dispatchStartedAt with
  | none =>
    refine .inl ⟨rfl, List.filter_eq_nil_iff.2 fun a ha => ?_⟩
    simp [h.unopened hat a ha]
  | some at₀ =>
    obtain ⟨-, a, ha, hid, hg, rfl, ho, huniq⟩ := h.opened at₀ hat
    refine .inr ⟨a, rfl, select_eq_singleton ha (by simp [hid, hg]) fun b hb hp => ?_, ho⟩
    simp only [Bool.and_eq_true, decide_eq_true_eq] at hp
    exact huniq b hb hp.1

/-- **Delivery and ledger agree.** In every committed state a delivery has a dispatch boundary
exactly when its current generation has exactly one attempt, started at that boundary; the
attempt is in progress exactly while the delivery is `SENDING` past the boundary, and otherwise
carries the outcome of the delivery's status. So no transaction at a later clock reading raises
the `TransactionFailure` that guards a mismatch. -/
theorem delivery_ledger_agrees (sha256 : String → String) (s : DispatchState)
    (h : (dispatcher sha256).Reachable s) :
    (∀ id d, s.db.deliveries.get? id = some d →
      (∀ at₀, d.dispatchStartedAt = some at₀ ↔ ∃ a, currentAttempts s.db d = [a] ∧ a.startedAt = at₀) ∧
      (∀ a ∈ currentAttempts s.db d,
        (a.outcome = .inProgress ↔ d.status = .sending ∧ d.dispatchStartedAt.isSome) ∧
        (a.outcome ≠ .inProgress → attemptOutcome d.status = some a.outcome))) ∧
    (∀ now, s.clock ≤ now → ∀ message,
      (∀ policy limit, recoverExpiredDeliveryClaims policy limit s.db now ≠ .error (.transactionFailure message)) ∧
      (∀ (u : ClaimNextDelivery) tokens, u.execute tokens s.db now ≠ .error (.transactionFailure message)) ∧
      (∀ c attemptId, beginDeliveryAttempt s.db c attemptId now ≠ .error (.transactionFailure message)) ∧
      (∀ c o, persistDeliveryOutcome s.db c o now ≠ .error (.transactionFailure message))) := by
  have hl := reachable_ledger h
  refine ⟨fun id d hd => ?_, fun now hnow message => ⟨fun policy limit he => ?_, fun u tokens he => ?_,
    fun c attemptId => beginDeliveryAttempt_error, fun c o => persistDeliveryOutcome_error⟩⟩
  · rcases (hl.row id d hd).current with ⟨hnone, hcur⟩ | ⟨a, hat, hcur, ho⟩
    · rw [hnone, hcur]
      simp
    · rw [hat, hcur]
      refine ⟨by simp, fun b hb => ?_⟩
      obtain rfl := List.mem_singleton.1 hb
      generalize b.outcome = o at ho ⊢
      cases hs : d.status <;> rw [hs] at ho <;> cases ho <;> simp [attemptOutcome]
  · cases (hl.mono hnow).recover_error he
  · simp only [ClaimNextDelivery.execute, bind_eq_error, pure, Except.pure, reduceCtorEq, and_false,
      exists_false, or_false] at he
    cases (hl.mono hnow).recover_error he

/-- The theorem at a state past the boundary: the delivery of the sample run has one open
attempt, started at its boundary. -/
theorem delivery_ledger_agrees_sample :
    ∃ d a, sampleState.db.deliveries.get? 1 = some d ∧ currentAttempts sampleState.db d = [a] ∧
      a.startedAt = 2 ∧ a.outcome = .inProgress := by
  obtain ⟨d, hd, hat, hs⟩ : ∃ d, sampleState.db.deliveries.get? 1 = some d ∧
      d.dispatchStartedAt = some 2 ∧ d.status = .sending := by
    refine ⟨_, Option.eq_some_of_isSome (by decide), ?_, ?_⟩ <;> decide
  have h := (delivery_ledger_agrees _ sampleState reachable_sampleState).1 1 d hd
  obtain ⟨a, ha, hst⟩ := (h.1 2).1 hat
  exact ⟨d, a, hd, ha, hst, (h.2 a (by simp [ha])).1.2 ⟨hs, by simp [hat]⟩⟩

end Friday.Delivery
