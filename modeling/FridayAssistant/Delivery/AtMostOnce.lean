import FridayAssistant.Delivery.Ledger
/-!
# At most one send per delivery

The dispatch boundary is written once and never moves (`Opened`), and only a worker that has
just written it may call `transport.send`. So a delivery is sent by the one worker that crossed
its boundary, whatever the other workers, recovery and the crashes do.
-/
namespace Friday.Delivery
open Tables Table Transition

/-- The boundary of delivery `id` was committed at `at₀`. -/
def Opened (db : DeliveryDb) (id : DeliveryId) (at₀ : Time) : Prop :=
  ∃ d, db.deliveries.get? id = some d ∧ d.dispatchStartedAt = some at₀

variable {db db' : DeliveryDb} {id : DeliveryId} {at₀ now : Time} {s s' : DispatchState}
  {sha256 : String → String} {a : Action}

section
variable (h : Opened db id at₀)
include h

/-- Rewriting a row without touching its boundary keeps every boundary. -/
theorem Opened.put {d' : OutboundDelivery} {t : Table DeliveryAttempt}
    (hd' : ∀ d, db.deliveries.get? d'.id = some d → d.dispatchStartedAt = some at₀ → d'.dispatchStartedAt = some at₀) :
    Opened ⟨db.deliveries.put d', t⟩ id at₀ := by
  obtain ⟨d, hd, hat⟩ := h
  by_cases hid : d'.id = id
  · subst hid
    exact ⟨d', get?_put_self _ _, hd' d hd hat⟩
  · exact ⟨d, by rw [get?_put_ne hid]; exact hd, hat⟩

theorem Opened.move (hm : Move now db db') : Opened db' id at₀ := by
  cases hm with
  | @release d d' row sending unopened frame left | @settle d d' outcome code row sending opened frame ended one =>
    refine h.put fun e he hat => ?_
    rw [frame.id, row] at he
    cases he
    exact frame.dispatchStartedAt.trans hat
  | @begin d workerId claimToken attemptId row active unopened fresh positive =>
    refine h.put fun e he hat => ?_
    rw [row] at he
    cases he
    rw [unopened] at hat
    cases hat

theorem Opened.moves (hm : Moves now db db') : Opened db' id at₀ := by
  induction hm with
  | refl => exact h
  | tail _ hm ih => exact ih.move hm

theorem Opened.claims {c : DeliveryClaim} (hc : Claims now db c db') : Opened db' id at₀ := by
  obtain ⟨d, hd, -, -, -, rfl⟩ := hc
  refine h.put fun e he hat => ?_
  rw [show (claimedRow c.workerId c.claimToken now c.leaseExpiresAt d).id =
    c.deliveryId from key_of_get? hd, hd] at he
  cases he
  exact hat

end

/-- No action moves or clears a boundary. -/
theorem Opened.effect (h : Opened s.db id at₀) (he : Effect sha256 a s s') :
    Opened s'.db id at₀ := by
  cases he with
  | add d fresh new db =>
    rw [db]
    refine h.put fun e he _ => ?_
    rw [fresh] at he
    cases he
  | moves later db => exact h.moves db
  | claim c db₁ later moves db => exact (h.moves moves).claims db
  | begin i c req d later row unopened move => exact h.move move
  | send i c req o db => rw [db]; exact h

/-- Where the sends stand: every delivery that was sent, or is about to be, has its boundary;
one worker at most is about to send it, and only if it was not sent before. -/
structure SendsOk (s : DispatchState) : Prop where
  nodup : (s.sends.map Prod.fst).Nodup
  sent : ∀ id ∈ s.sends.map Prod.fst, ∃ at₀, Opened s.db id at₀
  begun : ∀ i c req, s.workers i = .begun c req →
    (∃ at₀, Opened s.db c.deliveryId at₀) ∧ c.deliveryId ∉ s.sends.map Prod.fst
  single : ∀ i j c c' req req', s.workers i = .begun c req → s.workers j = .begun c' req' →
    c.deliveryId = c'.deliveryId → i = j

theorem SendsOk.quiet (h : SendsOk s) (he : Effect sha256 a s s') (hsends : s'.sends = s.sends)
    (hq : Quiet s s') : SendsOk s' where
  nodup := hsends ▸ h.nodup
  sent id hid := by
    rw [hsends] at hid
    obtain ⟨at₀, ho⟩ := h.sent id hid
    exact ⟨at₀, ho.effect he⟩
  begun i c req hi := by
    obtain ⟨⟨at₀, ho⟩, hn⟩ := h.begun i c req (hq i c req hi)
    exact ⟨⟨at₀, ho.effect he⟩, hsends ▸ hn⟩
  single i j c c' req req' hi hj := h.single i j c c' req req' (hq i c req hi) (hq j c' req' hj)

theorem SendsOk.effect (h : SendsOk s) (he : Effect sha256 a s s') : SendsOk s' := by
  have he₀ := he
  cases he with
  | add d fresh new db clock issued sends quiet
  | moves later db issued sends quiet
  | claim c db₁ later moves db fresh issued sends quiet => exact h.quiet he₀ sends quiet
  | begin i c req d later row unopened move db issued sends workers =>
    -- nobody has sent, or is about to send, a delivery that had no boundary before this step
    have hnew : ∀ at₀, ¬ Opened s.db c.deliveryId at₀ := by
      rintro at₀ ⟨e, hget, hat⟩
      rw [row] at hget
      cases hget
      rw [unopened] at hat
      cases hat
    have hold : ∀ j c' req', s'.workers j = .begun c' req' →
        (j = i ∧ c' = c) ∨ (j ≠ i ∧ s.workers j = .begun c' req') := by
      intro j c' req' hj
      rw [workers, Function.update_apply] at hj
      split at hj
      · next hji => cases hj; exact .inl ⟨hji, rfl⟩
      · next hji => exact .inr ⟨hji, hj⟩
    have hopen : Opened s'.db c.deliveryId s'.clock :=
      ⟨_, by rw [db, ← show d.id = c.deliveryId from key_of_get? row]; exact get?_put_self _ _, rfl⟩
    refine ⟨sends ▸ h.nodup, fun id hid => ?_, fun j c' req' hj => ?_, fun j k c₁ c₂ r₁ r₂ hj hk heq => ?_⟩
    · rw [sends] at hid
      obtain ⟨at₀, ho⟩ := h.sent id hid
      exact ⟨at₀, ho.effect he₀⟩
    · rcases hold j c' req' hj with ⟨-, rfl⟩ | ⟨-, hw⟩
      · refine ⟨⟨_, hopen⟩, fun hm => ?_⟩
        rw [sends] at hm
        obtain ⟨at₀, ho⟩ := h.sent _ hm
        exact hnew at₀ ho
      · obtain ⟨⟨at₀, ho⟩, hn⟩ := h.begun j c' req' hw
        exact ⟨⟨at₀, ho.effect he₀⟩, sends ▸ hn⟩
    · rcases hold j c₁ r₁ hj with ⟨hji, rfl⟩ | ⟨-, hw₁⟩ <;> rcases hold k c₂ r₂ hk with ⟨hki, rfl⟩ | ⟨-, hw₂⟩
      · rw [hji, hki]
      · obtain ⟨⟨at₀, ho⟩, -⟩ := h.begun k c₂ r₂ hw₂
        exact absurd (heq ▸ ho) (hnew at₀)
      · obtain ⟨⟨at₀, ho⟩, -⟩ := h.begun j c₁ r₁ hw₁
        exact absurd (heq ▸ ho) (hnew at₀)
      · exact h.single j k c₁ c₂ r₁ r₂ hw₁ hw₂ heq
  | send i c req outcome db clock issued was sends workers =>
    have hold : ∀ j c' req', s'.workers j = .begun c' req' → j ≠ i ∧ s.workers j = .begun c' req' := by
      intro j c' req' hj
      rw [workers, Function.update_apply] at hj
      split at hj
      · cases hj
      · next hji => exact ⟨hji, hj⟩
    obtain ⟨ho, hn⟩ := h.begun i c req was
    refine ⟨?_, fun id hid => ?_, fun j c' req' hj => ?_, fun j k c₁ c₂ r₁ r₂ hj hk => ?_⟩
    · rw [sends]
      exact List.nodup_cons.2 ⟨hn, h.nodup⟩
    · rw [sends, List.map_cons, List.mem_cons] at hid
      rw [db]
      rcases hid with rfl | hid
      · exact ho
      · exact h.sent id hid
    · obtain ⟨hji, hw⟩ := hold j c' req' hj
      obtain ⟨ho', hn'⟩ := h.begun j c' req' hw
      rw [db, sends, List.map_cons, List.mem_cons, not_or]
      exact ⟨ho', fun heq => hji (h.single j i c' c req' req hw was heq), hn'⟩
    · exact h.single j k c₁ c₂ r₁ r₂ (hold j c₁ r₁ hj).2 (hold k c₂ r₂ hk).2

theorem reachable_sendsOk {sha256 : String → String} (h : (dispatcher sha256).Reachable s) :
    SendsOk s := by
  refine h.invariant SendsOk ?_ fun s a s' _ hi hn => hi.effect (next_effect hn)
  rintro s ⟨-, hidle, -, hsends⟩
  have hw : ∀ i c req, s.workers i ≠ .begun c req := fun i c req hi => by
    rw [hidle i] at hi; cases hi
  exact ⟨by simp [hsends], by simp [hsends], fun i c req hi => absurd hi (hw i c req),
    fun i _ c _ req _ hi => absurd hi (hw i c req)⟩

/-- **At-most-once delivery.** In every run, `transport.send` is called at most once for each
delivery; and once a delivery's boundary is committed, every later state has the same boundary
and a status other than `QUEUED`. -/
theorem at_most_once_delivery (sha256 : String → String) (s : DispatchState)
    (h : (dispatcher sha256).Reachable s) :
    (∀ id, (s.sends.map Prod.fst).count id ≤ 1) ∧
    ∀ id d at₀, s.db.deliveries.get? id = some d → d.dispatchStartedAt = some at₀ →
      ∀ s', (dispatcher sha256).Steps s s' →
        ∃ d', s'.db.deliveries.get? id = some d' ∧ d'.dispatchStartedAt = some at₀ ∧ d'.status ≠ .queued := by
  refine ⟨fun id => List.nodup_iff_count_le_one.1 (reachable_sendsOk h).nodup id,
    fun id d at₀ hd hat s' hs => ?_⟩
  obtain ⟨d', hd', hat'⟩ : Opened s'.db id at₀ :=
    System.Steps.stable (fun s => Opened s.db id at₀)
      (fun s a s' _ ho hn => ho.effect (next_effect hn)) h hs ⟨d, hd, hat⟩
  refine ⟨d', hd', hat', fun hq => ?_⟩
  rw [(reachable_ledger (h.steps hs)).queued hd' hq] at hat'
  cases hat'

/-- The delivery of the sample run was sent once, and its boundary stays where it was. -/
theorem at_most_once_delivery_sample :
    (sampleState.sends.map Prod.fst).count 1 = 1 ∧
      ∀ s', (dispatcher fun _ => sampleDigest).Steps sampleState s' →
        ∃ d', s'.db.deliveries.get? 1 = some d' ∧ d'.dispatchStartedAt = some 2 ∧ d'.status ≠ .queued := by
  refine ⟨by decide, ?_⟩
  obtain ⟨d, hd, hat⟩ : ∃ d, sampleState.db.deliveries.get? 1 = some d ∧ d.dispatchStartedAt = some 2 :=
    ⟨_, Option.eq_some_of_isSome (by decide), by decide⟩
  exact (at_most_once_delivery _ sampleState reachable_sampleState).2 1 d 2 hd hat

end Friday.Delivery
