import FridayAssistant.Delivery.Ledger
/-!
# Stale workers are inert

`ClaimsOk` ties the claims ever handed out to the rows: a `SENDING` row carries the triple and
the lease of an issued claim, no row is behind a claim's generation, and no two claims share a
token. So a claim that was superseded, resolved, or whose lease ran out matches no row, and each
of the four fenced writes leaves both tables as they are.
-/
namespace Friday.Delivery
open Tables Table Transition

/-- The row is `SENDING` under claim `c`. -/
structure HeldBy (c : DeliveryClaim) (d : OutboundDelivery) : Prop where
  id : d.id = c.deliveryId
  owner : d.claimOwner = some c.workerId
  token : d.claimToken = some c.claimToken
  generation : d.claimGeneration = c.claimGeneration
  expiry : d.claimExpiresAt = some c.leaseExpiresAt

structure ClaimsOk (db : DeliveryDb) (issued : List DeliveryClaim) : Prop where
  held : ∀ id d, db.deliveries.get? id = some d → d.status = .sending → ∃ c ∈ issued, HeldBy c d
  reached : ∀ c ∈ issued, ∃ d, db.deliveries.get? c.deliveryId = some d ∧
    c.claimGeneration ≤ d.claimGeneration
  tokens : ∀ c ∈ issued, ∀ c' ∈ issued, c.claimToken = c'.claimToken → c = c'

variable {db db' : DeliveryDb} {issued : List DeliveryClaim} {now : Time} {s : DispatchState}

section
variable (h : ClaimsOk db issued)
include h

/-- Rewriting a row whose new version is held by an issued claim or not `SENDING`, and whose
generation does not go down. -/
theorem ClaimsOk.put {issued' : List DeliveryClaim} {d' : OutboundDelivery}
    {t : Table DeliveryAttempt} (hsub : ∀ c ∈ issued, c ∈ issued')
    (hheld : d'.status = .sending → ∃ c ∈ issued', HeldBy c d')
    (hgen : ∀ d, db.deliveries.get? d'.id = some d → d.claimGeneration ≤ d'.claimGeneration)
    (hnew : ∀ c ∈ issued', c ∈ issued ∨ c.deliveryId = d'.id ∧ c.claimGeneration ≤ d'.claimGeneration)
    (htokens : ∀ c ∈ issued', ∀ c' ∈ issued', c.claimToken = c'.claimToken → c = c') :
    ClaimsOk ⟨db.deliveries.put d', t⟩ issued' := by
  refine ⟨fun id d hd hs => ?_, fun c hc => ?_, htokens⟩
  · rw [get?_put] at hd
    split at hd
    · cases hd
      exact hheld hs
    · obtain ⟨c, hc, hh⟩ := h.held id d hd hs
      exact ⟨c, hsub c hc, hh⟩
  · by_cases hid : d'.id = c.deliveryId
    · refine ⟨d', by rw [← hid]; exact get?_put_self _ _, ?_⟩
      rcases hnew c hc with hold | ⟨-, hle⟩
      · obtain ⟨d, hd, hle⟩ := h.reached c hold
        exact le_trans hle (hgen d (hid ▸ hd))
      · exact hle
    · rcases hnew c hc with hold | ⟨hid', -⟩
      · obtain ⟨d, hd, hle⟩ := h.reached c hold
        exact ⟨d, by rw [get?_put_ne hid]; exact hd, hle⟩
      · exact absurd hid'.symm hid

theorem ClaimsOk.move (hm : Move now db db') : ClaimsOk db' issued := by
  cases hm with
  | @release d d' row sending unopened frame left =>
    refine h.put (fun _ => id) (fun hs => absurd hs left) (fun e he => ?_) (fun _ => .inl) h.tokens
    rw [frame.id, row] at he
    cases he
    exact frame.claimGeneration.ge
  | @begin d workerId claimToken attemptId row active unopened fresh positive =>
    refine h.put (fun _ => id) (fun hs => ?_) (fun e he => ?_) (fun _ => .inl) h.tokens
    · obtain ⟨c, hc, hh⟩ := h.held _ d row hs
      exact ⟨c, hc, hh.id, hh.owner, hh.token, hh.generation, hh.expiry⟩
    · rw [row] at he
      cases he
      exact le_rfl
  | @settle d d' outcome code row sending opened frame ended one =>
    refine h.put (fun _ => id) (fun hs => absurd hs (ne_sending_of_ended ended)) (fun e he => ?_)
      (fun _ => .inl) h.tokens
    rw [frame.id, row] at he
    cases he
    exact frame.claimGeneration.ge

theorem ClaimsOk.moves (hm : Moves now db db') : ClaimsOk db' issued := by
  induction hm with
  | refl => exact h
  | tail _ hm ih => exact ih.move hm

theorem ClaimsOk.claims {c : DeliveryClaim} (hc : Claims now db c db')
    (hfresh : ∀ e ∈ issued, e.claimToken ≠ c.claimToken) : ClaimsOk db' (c :: issued) := by
  obtain ⟨d, hd, -, -, hg, rfl⟩ := hc
  have hid : d.id = c.deliveryId := key_of_get? hd
  refine h.put (fun _ => List.mem_cons_of_mem _)
    (fun _ => ⟨c, List.mem_cons_self, hid, rfl, rfl, hg.symm, rfl⟩) (fun e he => ?_)
    (fun e he => ?_) (fun e he e' he' heq => ?_)
  · rw [show (claimedRow c.workerId c.claimToken now c.leaseExpiresAt d).id = c.deliveryId from hid, hd] at he
    cases he
    exact Nat.le_succ _
  · rcases List.mem_cons.1 he with rfl | he
    · exact .inr ⟨hid.symm, hg.le⟩
    · exact .inl he
  · rcases List.mem_cons.1 he with rfl | h₁ <;> rcases List.mem_cons.1 he' with rfl | h₂
    · rfl
    · exact absurd heq.symm (hfresh e' h₂)
    · exact absurd heq (hfresh e h₁)
    · exact h.tokens e h₁ e' h₂ heq

end

theorem ClaimsOk.effect {sha256 : String → String} {a : Action} {s' : DispatchState}
    (h : ClaimsOk s.db s.issued) (he : Effect sha256 a s s') :
    ClaimsOk s'.db s'.issued := by
  cases he with
  | add d fresh new db clock issued =>
    rw [db, issued]
    refine h.put (fun _ => id) (fun hs => ?_) (fun e he => ?_) (fun _ => .inl) h.tokens
    · rw [new.status] at hs
      cases hs
    · rw [fresh] at he
      cases he
  | moves later db issued => rw [issued]; exact h.moves db
  | claim c db₁ later moves db fresh issued => rw [issued]; exact (h.moves moves).claims db fresh
  | begin i c req d later row unopened move db issued => rw [issued]; exact h.move move
  | send i c req o db clock issued => rw [db, issued]; exact h

theorem reachable_claimsOk {sha256 : String → String} (h : (dispatcher sha256).Reachable s) :
    ClaimsOk s.db s.issued := by
  refine h.invariant (fun s => ClaimsOk s.db s.issued) ?_ fun s a s' _ hi hn =>
    hi.effect (next_effect hn)
  rintro s ⟨hdb, -, hissued, -⟩
  rw [hdb, hissued]
  exact ⟨fun id d hd => by simp at hd, by simp, by simp⟩

/-! ## Stale claims -/

/-- A claim that a later claim of its delivery superseded, that its delivery is no longer held
under, or whose lease has run out by `now` (at exactly `now` included). -/
def Stale (s : DispatchState) (c : DeliveryClaim) (now : Time) : Prop :=
  (∃ c' ∈ s.issued, c'.deliveryId = c.deliveryId ∧ c.claimGeneration < c'.claimGeneration) ∨
  (∀ d, s.db.deliveries.get? c.deliveryId = some d → holdsClaim c d = false) ∨
  c.leaseExpiresAt ≤ now

variable {id : DeliveryId} {d : OutboundDelivery}

/-- No row passes the fence of a stale claim. -/
theorem Stale.not_active {c : DeliveryClaim} (h : ClaimsOk s.db s.issued) (hc : c ∈ s.issued)
    (hst : Stale s c now) (hd : s.db.deliveries.get? id = some d) :
    activeClaim c.workerId c.claimToken c.claimGeneration now d = false := by
  by_contra hact
  rw [Bool.not_eq_false, activeClaim_iff] at hact
  obtain ⟨hs, howner, htoken, hgen, hlive⟩ := hact
  obtain ⟨c', hc', hh⟩ := h.held id d hd hs
  obtain rfl : c' = c := h.tokens c' hc' c hc (Option.some.inj (hh.token.symm.trans htoken))
  have hid : c'.deliveryId = id := hh.id.symm.trans (key_of_get? hd)
  subst hid
  rcases hst with ⟨c₂, hc₂, hid₂, hlt⟩ | hnot | hexp
  · obtain ⟨d₂, hd₂, hle⟩ := h.reached c₂ hc₂
    rw [hid₂, hd] at hd₂
    cases hd₂
    omega
  · have := hnot d hd
    simp [holdsClaim, hs, howner, htoken, hgen] at this
  · simp only [leaseLive, hh.expiry, Option.any_some, decide_eq_true_eq] at hlive
    exact absurd hexp (not_le.2 hlive)

/-! ## What an outcome write may change -/

/-- The same rows, with the frame columns of each unchanged. -/
def SameFrames (db db' : DeliveryDb) : Prop :=
  ∀ id, Option.Rel Frame (db.deliveries.get? id) (db'.deliveries.get? id)

theorem sameFrames_put {d' : OutboundDelivery}
    (hd : db.deliveries.get? id = some d) (hf : Frame d d')
    (hput : db'.deliveries = db.deliveries.put d') : SameFrames db db' := by
  have hid : d.id = id := key_of_get? hd
  intro k
  rw [hput, get?_put, key_delivery, hf.id, hid]
  split
  · next hk =>
    subst hk
    rw [hd]
    exact .some hf
  · cases db.deliveries.get? k with
    | none => exact .none
    | some e => exact .some (.refl e)

theorem saveClaimedLifecycle_frame (db : DeliveryDb) (e : OutboundDelivery)
    (workerId claimToken : String) (generation : Nat) (now : Time) :
    SameFrames db (saveClaimedLifecycle db e workerId claimToken generation now).2 := by
  cases hu : saveClaimedLifecycle db e workerId claimToken generation now with
  | mk b db' =>
    cases b with
    | true =>
      obtain ⟨d, hd, -, rfl⟩ := DeliveryDb.update_eq_true hu
      exact sameFrames_put hd (frame_savedRow e d) rfl
    | false =>
      rw [DeliveryDb.update_eq_false hu]
      intro id
      cases db.deliveries.get? id with
      | none => exact .none
      | some e => exact .some (.refl e)

/-- Moves do not change a row's generation. -/
theorem generation_moves (h : Moves now db db') (id : DeliveryId) :
    (db'.deliveries.get? id).map OutboundDelivery.claimGeneration =
      (db.deliveries.get? id).map OutboundDelivery.claimGeneration := by
  have hput : ∀ {db : DeliveryDb} {d d' : OutboundDelivery}, db.deliveries.get? d.id = some d →
      d'.id = d.id → d'.claimGeneration = d.claimGeneration →
      ((db.deliveries.put d').get? id).map OutboundDelivery.claimGeneration =
        (db.deliveries.get? id).map OutboundDelivery.claimGeneration := by
    intro db d d' hd hid hg
    rw [get?_put, key_delivery, hid]
    split
    · next hk => rw [← hk, hd]; simp [hg]
    · rfl
  induction h with
  | refl => rfl
  | tail _ hm ih =>
    rw [← ih]
    cases hm with
    | release row _ _ frame _ | settle row _ _ frame => exact hput row frame.id frame.claimGeneration
    | begin row => exact hput row rfl rfl

/-- **Stale delivery workers are inert.** In every reachable state: a claim that was handed out
and is stale passes no fence, so none of the four fenced writes, with whatever other arguments,
changes a table; an outcome write, through the use case or with an arbitrary in-memory aggregate,
leaves route, content, source, `attempt_count`, `claim_generation` and `dispatch_started_at` of
every delivery as they were; and a successful claim has a generation above the row's old one and
above every earlier claim of that delivery. -/
theorem stale_delivery_workers_inert (sha256 : String → String) (s : DispatchState)
    (h : (dispatcher sha256).Reachable s) :
    (∀ c ∈ s.issued, ∀ now, Stale s c now →
      (∀ id, (markDispatchStarted s.db id c.workerId c.claimToken c.claimGeneration now).2 = s.db) ∧
      (∀ e, (saveClaimedLifecycle s.db e c.workerId c.claimToken c.claimGeneration now).2 = s.db) ∧
      (∀ attemptId id startedAt r,
        beginForClaim s.db attemptId id c.workerId c.claimToken c.claimGeneration startedAt now =
          .ok r → r.2 = s.db) ∧
      (∀ id o code r, completeForClaim s.db id c.workerId c.claimToken c.claimGeneration now o
        code = .ok r → r.2 = s.db)) ∧
    (∀ c o now db', persistDeliveryOutcome s.db c o now = .ok db' → SameFrames s.db db') ∧
    (∀ e workerId claimToken generation now,
      SameFrames s.db (saveClaimedLifecycle s.db e workerId claimToken generation now).2) ∧
    (∀ a s' c, (dispatcher sha256).next s a s' → s'.issued = c :: s.issued →
      (∃ d d', s.db.deliveries.get? c.deliveryId = some d ∧ s'.db.deliveries.get? c.deliveryId = some d' ∧
        d'.claimGeneration = c.claimGeneration ∧ d.claimGeneration < c.claimGeneration) ∧
      ∀ e ∈ s.issued, e.deliveryId = c.deliveryId → e.claimGeneration < c.claimGeneration) := by
  have hok := reachable_claimsOk h
  refine ⟨fun c hc now hst => ?_, fun c o now db' hp => ?_, saveClaimedLifecycle_frame s.db,
    fun a s' c hn hi => ?_⟩
  · have hfence : ∀ id d, s.db.deliveries.get? id = some d →
        activeClaim c.workerId c.claimToken c.claimGeneration now d = false := fun id d hd => hst.not_active hok hc hd
    refine ⟨fun id => ?_, fun e => ?_, fun attemptId id startedAt r hr => ?_, fun id o code r hr => ?_⟩
    · rw [markDispatchStarted, DeliveryDb.update_fenced fun d hd => by simp only [hfence id d hd, Bool.false_and]]
    · rw [saveClaimedLifecycle,
        DeliveryDb.update_fenced fun d hd => by simp only [saveFence, hfence e.id d hd, Bool.false_and]]
    · unfold beginForClaim at hr
      cases hd : s.db.deliveries.get? id with
      | none => rw [hd] at hr; cases hr; rfl
      | some d =>
        rw [hd] at hr
        simp only [hfence id d hd] at hr
        cases hr
        rfl
    · obtain ⟨_, hr⟩ := bind_rest hr
      rw [← Except.ok.inj hr, closeAttempt_fenced (hfence id)]
  · obtain ⟨d, e, hd, -, -, hput⟩ := persistDeliveryOutcome_spec hp
    exact sameFrames_put hd (frame_savedRow e d) hput
  · have hne : ∀ {l : List DeliveryClaim}, s'.issued = l → l = s.issued → False := fun h₁ h₂ =>
      List.cons_ne_self c s.issued (hi.symm.trans (h₁.trans h₂))
    cases next_effect hn with
    | add d fresh new db clock issued
    | moves later db issued
    | begin i c' req d later row unopened move db issued
    | send i c' req o db clock issued => exact (hne issued rfl).elim
    | claim c' db₁ later moves db fresh issued =>
      obtain rfl : c' = c := (List.cons.inj (issued.symm.trans hi)).1
      obtain ⟨d₁, hd₁, -, -, hg, hdb⟩ := db
      have hgen := generation_moves moves c'.deliveryId
      rw [hd₁] at hgen
      cases hd : s.db.deliveries.get? c'.deliveryId with
      | none => rw [hd] at hgen; cases hgen
      | some d =>
        rw [hd] at hgen
        have hgen : d₁.claimGeneration = d.claimGeneration := Option.some.inj hgen
        refine ⟨⟨d, _, rfl, by
          rw [hdb, ← show d₁.id = c'.deliveryId from key_of_get? hd₁]; exact get?_put_self _ _,
          hg.symm, by omega⟩, fun e he heq => ?_⟩
        obtain ⟨d₂, hd₂, hle⟩ := hok.reached e he
        rw [heq, hd] at hd₂
        cases hd₂
        omega

/-- The claim of the sample run runs out at instant 11, and from exactly then on no aggregate
can be saved under it. -/
theorem stale_delivery_workers_inert_sample :
    ∃ c ∈ sampleState.issued, c.leaseExpiresAt = 11 ∧
      ∀ e, (saveClaimedLifecycle sampleState.db e c.workerId c.claimToken c.claimGeneration 11).2 = sampleState.db := by
  have hc : (⟨1, "worker", "token", 1, 1, 11⟩ : DeliveryClaim) ∈ sampleState.issued := by decide
  exact ⟨_, hc, rfl, ((stale_delivery_workers_inert _ sampleState reachable_sampleState).1 _ hc 11
    (.inr (.inr le_rfl))).2.1⟩

end Friday.Delivery
