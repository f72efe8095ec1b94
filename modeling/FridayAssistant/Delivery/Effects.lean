import FridayAssistant.Delivery.Moves
/-!
# What one action of the dispatcher does

`next_effect` says once, for every action, how tables, clock, workers, issued claims and sends
change. The invariants of the following modules are proved from its five cases.
-/
namespace Friday.Delivery
open Tables Transition

/-- No worker arrives between the boundary and `transport.send`. -/
def Quiet (s s' : DispatchState) : Prop :=
  ∀ (i : Nat) (c : DeliveryClaim) (req : TransportRequest), s'.workers i = .begun c req →
    s.workers i = .begun c req

variable {s s' : DispatchState} {sha256 : String → String} {a : Action}

theorem quiet_of_workers_eq (h : s'.workers = s.workers) : Quiet s s' :=
  fun _ _ _ hi => h ▸ hi

theorem quiet_goto {i : Nat} {pc : Pc} (h : s'.workers = s.workers)
    (hpc : ∀ c req, pc ≠ .begun c req) : Quiet s (s'.goto i pc) := by
  intro j c req hj
  simp only [DispatchState.goto, Function.update_apply, h] at hj
  split at hj
  · exact absurd hj (hpc c req)
  · exact hj

/-- A delivery as `OutboundDelivery.new` makes it. -/
structure IsNew (d : OutboundDelivery) : Prop where
  status : d.status = .queued
  claimGeneration : d.claimGeneration = 0
  dispatchStartedAt : d.dispatchStartedAt = none

inductive Effect (sha256 : String → String) (a : Action) (s s' : DispatchState) : Prop where
  | add {i : OutboundDelivery.Intent} (d : OutboundDelivery) (fresh : s.db.deliveries.get? d.id = none) (new : IsNew d)
      (db : s'.db = { s.db with deliveries := s.db.deliveries.put d }) (clock : s'.clock = s.clock)
      (issued : s'.issued = s.issued) (sends : s'.sends = s.sends) (quiet : Quiet s s')
      (made : a = .add i ∧ OutboundDelivery.create sha256 i = .ok d)
  | moves (later : s.clock ≤ s'.clock) (db : Moves s'.clock s.db s'.db) (issued : s'.issued = s.issued)
      (sends : s'.sends = s.sends) (quiet : Quiet s s')
  | claim (c : DeliveryClaim) (db₁ : DeliveryDb) (later : s.clock ≤ s'.clock) (moves : Moves s'.clock s.db db₁)
      (db : Claims s'.clock db₁ c s'.db) (fresh : ∀ e ∈ s.issued, e.claimToken ≠ c.claimToken)
      (issued : s'.issued = c :: s.issued) (sends : s'.sends = s.sends) (quiet : Quiet s s')
  | begin (i : Nat) (c : DeliveryClaim) (req : TransportRequest) (d : OutboundDelivery)
      (later : s.clock ≤ s'.clock) (row : s.db.deliveries.get? c.deliveryId = some d)
      (unopened : d.dispatchStartedAt = none) (move : Move s'.clock s.db s'.db)
      (db : s'.db.deliveries =
        s.db.deliveries.put { d with dispatchStartedAt := some s'.clock, updatedAt := s'.clock })
      (issued : s'.issued = s.issued) (sends : s'.sends = s.sends)
      (workers : s'.workers = Function.update s.workers i (.begun c req))
  | send (i : Nat) (c : DeliveryClaim) (req : TransportRequest) (outcome : Outcome) (db : s'.db = s.db)
      (clock : s'.clock = s.clock) (issued : s'.issued = s.issued)
      (was : s.workers i = .begun c req) (sends : s'.sends = (c.deliveryId, req) :: s.sends)
      (workers : s'.workers = Function.update s.workers i (.persisting c outcome))

theorem create_isNew {i : OutboundDelivery.Intent} {d : OutboundDelivery}
    (h : OutboundDelivery.create sha256 i = .ok d) : IsNew d := by
  simp only [OutboundDelivery.create, bind_eq_ok] at h
  obtain ⟨_, -, _, -, h⟩ := h
  cases h
  exact ⟨rfl, rfl, rfl⟩

/-- What `deliveries.add` stores. -/
theorem addDelivery_eq_ok {db db' : DeliveryDb} {i : OutboundDelivery.Intent}
    (h : addDelivery sha256 db i = .ok db') : ∃ d, OutboundDelivery.create sha256 i = .ok d ∧
      db.deliveries.get? d.id = none ∧ (∀ e ∈ db.deliveries.rows, d.sourceScheduleFireId.isSome →
        e.sourceScheduleFireId ≠ d.sourceScheduleFireId) ∧
      db' = { db with deliveries := db.deliveries.put d } := by
  obtain ⟨d, hd, _, hunique, h⟩ := bind_ok₂ h
  split at h
  · next t ht =>
    obtain ⟨hfresh, rfl⟩ := Table.insert?_eq_some.1 ht
    cases h
    refine ⟨d, hd, hfresh, fun e he hsome hsame => ?_, rfl⟩
    have hnone := require_eq_ok.1 hunique
    rw [Bool.not_eq_true', List.any_eq_false] at hnone
    exact hnone e he (by simp [hsome, hsame])
  · cases h

/-- A transaction that only moves deliveries, or raises. -/
theorem after_effect {α : Type} {now : Time} {r : Result (α × DeliveryDb)}
    (hle : s.clock ≤ now) (hr : ∀ a db', r = .ok (a, db') → Moves now s.db db') :
    Effect sha256 a s (s.after now r) := by
  cases r with
  | ok p => exact .moves hle (hr p.1 p.2 rfl) rfl rfl (quiet_of_workers_eq rfl)
  | error e => exact .moves hle .refl rfl rfl (quiet_of_workers_eq rfl)

/-- **One action.** -/
theorem next_effect (h : (dispatcher sha256).next s a s') : Effect sha256 a s s' := by
  obtain ⟨hact, hfresh, htime⟩ := h
  cases a with
  | add intent =>
    simp only [DispatchState.act] at hact
    split at hact
    · next db hdb =>
      obtain ⟨d, hd, hfresh, -, rfl⟩ := addDelivery_eq_ok hdb
      cases hact
      exact .add d hfresh (create_isNew hd) rfl rfl rfl rfl (quiet_of_workers_eq rfl) ⟨rfl, hd⟩
    · cases hact
      exact .moves le_rfl .refl rfl rfl (quiet_of_workers_eq rfl)
  | recover policy limit now =>
    cases hact
    exact after_effect (htime now rfl) fun _ _ hr => recoverAll_spec hr
  | claim i u tokens now =>
    have hle : s.clock ≤ now := htime now rfl
    simp only [DispatchState.act] at hact
    split at hact
    · split at hact
      · next c db hx =>
        cases hact
        obtain ⟨db₁, hm, ⟨hc, -⟩ | ⟨c', hc, hcl, -, -, j, hj⟩⟩ := ClaimNextDelivery.execute_spec hx
        · cases hc
        · cases hc
          exact .claim c db₁ hle hm hcl (fun e he => hj ▸ hfresh j e he) rfl rfl (quiet_goto rfl (by simp))
      · next r hr =>
        cases hact
        refine after_effect hle fun r' db' hx => ?_
        obtain ⟨db₁, hm, ⟨rfl, rfl⟩ | ⟨c', rfl, -⟩⟩ := ClaimNextDelivery.execute_spec hx
        · exact hm
        · exact absurd hx (hr c' db')
    · cases hact
  | load i routes =>
    simp only [DispatchState.act] at hact
    split at hact
    · cases hact
      refine .moves le_rfl .refl rfl rfl (quiet_goto rfl fun c' req => ?_)
      unfold afterLoad
      repeat' split
      all_goals simp
    · cases hact
  | begin i attemptId now =>
    have hle : s.clock ≤ now := htime now rfl
    simp only [DispatchState.act] at hact
    split at hact
    · next c req hw =>
      split at hact
      · next t db hb =>
        cases hact
        obtain ⟨d, hd, hnone, -, hm, hput⟩ := beginDeliveryAttempt_spec hb
        exact .begin i c req d hle hd hnone hm hput rfl rfl rfl
      · cases hact
        exact .moves hle .refl rfl rfl (quiet_goto rfl (by simp))
    · cases hact
  | send i result =>
    simp only [DispatchState.act] at hact
    split at hact
    · next c req hw =>
      cases hact
      exact .send i c req _ rfl rfl rfl hw rfl rfl
    · cases hact
  | persist i now =>
    have hle : s.clock ≤ now := htime now rfl
    simp only [DispatchState.act] at hact
    split at hact
    · next c o hw =>
      split at hact
      · next db hp =>
        cases hact
        obtain ⟨-, -, -, -, hm, -⟩ := persistDeliveryOutcome_spec hp
        exact .moves hle (.single hm) rfl rfl (quiet_goto rfl (by simp))
      · cases hact
        exact .moves hle .refl rfl rfl (quiet_goto rfl (by simp))
    · cases hact
  | crash i =>
    cases hact
    exact .moves le_rfl .refl rfl rfl (quiet_goto rfl (by simp))

end Friday.Delivery
