import FridayAssistant.App.Answers
import FridayAssistant.App.Occurrences
/-!
# Scheduled answers are delivered from the right run, at most once

A tick writes deliveries and marks on plans, the run use cases write neither, and the dispatcher
writes no column that says what is delivered (`_AUTHORITY_FIELDS`). A mark names the attempt that
was the latest; as attempts are never removed and keep their place in the order of creation, it
keeps the plan out of the batches exactly as long as that attempt stays the latest.
-/
namespace Friday.App
open Tables Table Runs Delivery Transition

/-! ## Deliveries -/

/-- Every delivery stays, and no delivery for a fire is added. -/
structure NoAnswer (t t' : Table OutboundDelivery) : Prop where
  kept : ∀ d ∈ t.rows, ∃ d' ∈ t'.rows, SameAuthority d d'
  old : ∀ d' ∈ t'.rows, d'.sourceScheduleFireId.isSome → ∃ d ∈ t.rows, SameAuthority d d'

namespace NoAnswer
variable {t t' t'' : Table OutboundDelivery}

theorem refl (t : Table OutboundDelivery) : NoAnswer t t :=
  ⟨fun d hd => ⟨d, hd, .refl d⟩, fun d hd _ => ⟨d, hd, .refl d⟩⟩

theorem trans (h : NoAnswer t t') (h' : NoAnswer t' t'') : NoAnswer t t'' where
  kept d hd := by
    obtain ⟨d', hd', hsame⟩ := h.kept d hd
    obtain ⟨d'', hd'', hsame'⟩ := h'.kept d' hd'
    exact ⟨d'', hd'', hsame.trans hsame'⟩
  old d'' hd'' hfire := by
    obtain ⟨d', hd', hsame'⟩ := h'.old d'' hd'' hfire
    obtain ⟨d, hd, hsame⟩ := h.old d' hd' (hsame'.sourceScheduleFireId ▸ hfire)
    exact ⟨d, hd, hsame.trans hsame'⟩

theorem save {d d' : OutboundDelivery} (row : t.get? d.id = some d) (same : SameAuthority d d') :
    NoAnswer t (t.put d') where
  kept x hx := by
    by_cases hid : x.id = d'.id
    · have hxd : x = d := eq_of_key hx (mem_of_get? row) (hid.trans same.id)
      exact ⟨d', mem_put.2 (.inl rfl), hxd ▸ same⟩
    · exact ⟨x, mem_put.2 (.inr ⟨hx, hid⟩), .refl x⟩
  old x hx _ := by
    rcases mem_put.1 hx with rfl | ⟨hx, -⟩
    · exact ⟨d, mem_of_get? row, same⟩
    · exact ⟨x, hx, .refl x⟩

theorem add {d : OutboundDelivery} (fresh : t.get? d.id = none)
    (agent : d.sourceScheduleFireId = none) : NoAnswer t (t.put d) where
  kept x hx := ⟨x, (mem_put_fresh fresh).2 (.inr hx), .refl x⟩
  old x hx hfire := by
    rcases (mem_put_fresh fresh).1 hx with rfl | hx
    · rw [agent] at hfire
      cases hfire
    · exact ⟨x, hx, .refl x⟩

variable {now : Time} {db db' : DeliveryDb}

theorem of_move (h : Delivery.Move now db db') :
    NoAnswer db.deliveries db'.deliveries := by
  cases h with
  | release row _ _ frame _ | settle row _ _ frame => exact save row frame.toSameAuthority
  | begin row => exact save row ⟨rfl, rfl, rfl, rfl, rfl, rfl, rfl, rfl, rfl, rfl⟩

theorem of_moves (h : Delivery.Moves now db db') :
    NoAnswer db.deliveries db'.deliveries := by
  induction h with
  | refl => exact refl _
  | tail _ hmove ih => exact ih.trans (of_move hmove)

theorem of_claims {c : DeliveryClaim} (h : Claims now db c db') :
    NoAnswer db.deliveries db'.deliveries := by
  obtain ⟨d, hd, -, -, -, rfl⟩ := h
  have hid : d.id = c.deliveryId := key_of_get? hd
  rw [← hid] at hd
  exact save hd ⟨rfl, rfl, rfl, rfl, rfl, rfl, rfl, rfl, rfl, rfl⟩

end NoAnswer

variable {sha256 : String → String} {p : ScheduleFireDeliveryPlan} {t : ScheduleFireDeliveryPlans}
  {now : Time} {db db' : AppDb} {cfg : AppConfig} {s s' : AnswerState} {run : Run}
  {executionId r : RunId}

theorem create_eq_ok {i : OutboundDelivery.Intent} {d : OutboundDelivery}
    (h : OutboundDelivery.create sha256 i = .ok d) :
    d.sourceRunId = i.sourceRunId ∧ d.sourceScheduleFireId = i.sourceScheduleFireId ∧
      d.routeId = i.routeId ∧ d.routeFingerprint = i.routeFingerprint ∧ d.body = i.body ∧
      d.sourceKind = i.sourceKind ∧ d.sourceShapeOk = true := by
  obtain ⟨_, h⟩ := bind_rest h
  obtain ⟨_, hpost, h⟩ := bind_ok h
  cases h
  refine ⟨rfl, rfl, rfl, rfl, rfl, rfl, ?_⟩
  simp only [OutboundDelivery.postInit, bind_eq_ok] at hpost
  obtain ⟨_, -, _, -, _, -, _, -, _, -, _, -, _, -, _, hshape, -⟩ := hpost
  exact require_eq_ok.1 hshape

/-- Whatever the dispatcher and the message tool do. -/
theorem dispatch_noAnswer {s s' : Delivery.DispatchState} {a : Delivery.Action}
    (hagent : asksForAgent a = true) (h : (dispatcher sha256).next s a s') :
    NoAnswer s.db.deliveries s'.db.deliveries := by
  cases next_effect h with
  | @add i d fresh _ db _ _ _ _ made =>
    obtain ⟨rfl, hd⟩ := made
    obtain ⟨-, -, -, -, -, hkind, hshape⟩ := create_eq_ok hd
    rw [db]
    refine .add fresh ?_
    rw [OutboundDelivery.sourceShapeOk, hkind, of_decide_eq_true hagent] at hshape
    have hnone : d.sourceScheduleFireId.isNone = true := (Bool.and_eq_true _ _ ▸ hshape).2
    exact Option.isNone_iff_eq_none.1 hnone
  | moves _ db => exact .of_moves db
  | claim _ _ _ moves db => exact (NoAnswer.of_moves moves).trans (.of_claims db)
  | begin _ _ _ _ _ _ _ move => exact .of_move move
  | send _ _ _ _ db => rw [db]; exact .refl _

/-! ## Plans -/

/-- All of a plan but the mark. -/
def SamePlan (p p' : ScheduleFireDeliveryPlan) : Prop :=
  p' = { p with contentRejectedRunId := p'.contentRejectedRunId }

theorem SamePlan.refl (p : ScheduleFireDeliveryPlan) : SamePlan p p := rfl

theorem SamePlan.trans {p' p'' : ScheduleFireDeliveryPlan} (h : SamePlan p p')
    (h' : SamePlan p' p'') : SamePlan p p'' := by
  rw [SamePlan, h] at h'
  exact h'

variable {t' : ScheduleFireDeliveryPlans}

theorem addForFire_eq_ok (h : t.addForFire p = .ok t') :
    t.get? p.id = none ∧ t' = t.put p ∧ ∀ x ∈ t.rows, x.scheduleFireId ≠ p.scheduleFireId := by
  obtain ⟨_, hunique, h⟩ := bind_ok h
  obtain ⟨hfresh, rfl⟩ := insert?_eq_some.1 (found_eq_ok.1 h)
  refine ⟨hfresh, rfl, fun x hx => ?_⟩
  exact of_decide_eq_true (List.all_eq_true.1 (require_eq_ok.1 hunique) x hx)

/-- The use cases leave the plans alone, or add one without a mark, for a fire that has none. -/
inductive PlansStep (t : ScheduleFireDeliveryPlans) : ScheduleFireDeliveryPlans → Prop where
  | same : PlansStep t t
  | add {p : ScheduleFireDeliveryPlan} (fresh : t.get? p.id = none) (unmarked : p.contentRejectedRunId = none)
      (fire : ∀ x ∈ t.rows, x.scheduleFireId ≠ p.scheduleFireId) : PlansStep t (t.put p)

theorem PlansStep.kept (h : PlansStep t t') (hp : p ∈ t.rows) : p ∈ t'.rows := by
  cases h with
  | same => exact hp
  | add fresh _ _ => exact (mem_put_fresh fresh).2 (.inr hp)

theorem PlansStep.old (h : PlansStep t t') (hp : p ∈ t'.rows) :
    p ∈ t.rows ∨ p.contentRejectedRunId = none := by
  cases h with
  | same => exact .inl hp
  | add fresh unmarked _ =>
    rcases (mem_put_fresh fresh).1 hp with rfl | hp
    · exact .inr unmarked
    · exact .inl hp

theorem PlansStep.onePlan (h : PlansStep t t')
    (hone : ∀ p ∈ t.rows, ∀ q ∈ t.rows, p.scheduleFireId = q.scheduleFireId → p = q) :
    ∀ p ∈ t'.rows, ∀ q ∈ t'.rows, p.scheduleFireId = q.scheduleFireId → p = q := by
  cases h with
  | same => exact hone
  | add fresh _ fire =>
    intro x hx y hy hsame
    refine eq_of_key hx hy (unique_put_fresh fresh fire (fun p hp q hq hfire => ?_) x hx y hy hsame)
    rw [hone p hp q hq hfire]

theorem addPlan_step {resolve : Resolver} {policy : Option ScheduleDeliveryPolicy}
    {fire : ScheduleFire} {id : ScheduleFireDeliveryPlanId}
    (h : addPlan resolve t policy fire id now = .ok t') : PlansStep t t' := by
  unfold addPlan at h
  split at h
  · cases h; exact .same
  · split at h
    · obtain ⟨hfresh, rfl, hfire⟩ := addForFire_eq_ok h
      refine .add hfresh ?_ hfire
      unfold planFor
      split
      · rfl
      · split
        · rfl
        · split <;> rfl
    · cases h; exact .same

theorem appAct_plans {a : AppAction} (h : appAct cfg db a = .ok db') :
    PlansStep db.scheduleFireDeliveryPlans db'.scheduleFireDeliveryPlans := by
  cases appAct_applied h with
  | materialized fired =>
    cases fired with
    | fire _ _ _ _ _ _ started =>
      obtain ⟨_, _, _, -, -, hplans, rfl⟩ := startFire_eq_ok started
      exact addPlan_step hplans
    | _ => exact .same
  | submitted answer =>
    rcases submitConversationTurn_written answer with rfl | ⟨turn, written⟩
    · exact .same
    · rw [written.plans]
      exact .same
  | _ => exact .same

theorem appAct_attempts {a : AppAction} (h : appAct cfg db a = .ok db') :
    AttemptSteps db.runs db'.runs := by
  rcases appAct_fires h with ⟨-, -, hsteps⟩ | ⟨now, s, f, -, hadded⟩
  · exact hsteps
  · obtain ⟨n, -, hroot, -, hfresh, hruns⟩ := hadded.run
    rw [hruns]
    exact .single (.first hfresh hroot)

/-! ## What a tick writes -/

/-- The conditions under which a delivery is the answer of a fire's plan. -/
structure AnswerOf (s : AnswerState) (p : ScheduleFireDeliveryPlan) (d : OutboundDelivery) :
    Prop where
  fire : d.sourceScheduleFireId = some p.scheduleFireId
  ready : p.status = .ready
  content : ∃ run, s.latest p.executionId = some run ∧ run.status = .succeeded ∧
    d.sourceRunId = run.id ∧
    ContentGate.validate (finalSummary s.app run.id) p.routeMaxBodyChars = some d.body
  route : d.routeId = p.routeId
  fingerprint : p.routeFingerprint = some d.routeFingerprint

/-- The same plan, with the mark it had or one for the latest attempt. -/
def Remarked (s : AnswerState) (p p' : ScheduleFireDeliveryPlan) : Prop :=
  SamePlan p p' ∧ (p'.contentRejectedRunId = p.contentRejectedRunId ∨
    ∃ run, s.latest p.executionId = some run ∧ run.status = .succeeded ∧
    p'.contentRejectedRunId = some run.id)

/-- Two deliveries for one fire are the same. -/
def OneForFire (t : Table OutboundDelivery) : Prop :=
  ∀ d ∈ t.rows, ∀ e ∈ t.rows, d.sourceScheduleFireId.isSome →
    e.sourceScheduleFireId = d.sourceScheduleFireId → e = d

structure Ticked (s s' : AnswerState) : Prop where
  app : s'.app = { s.app with scheduleFireDeliveryPlans := s'.plans }
  kept : ∀ p ∈ s.plans.rows, ∃ p' ∈ s'.plans.rows, Remarked s p p'
  old : ∀ p' ∈ s'.plans.rows, ∃ p ∈ s.plans.rows, Remarked s p p'
  delivered : ∀ d ∈ s'.deliveries.rows, d ∈ s.deliveries.rows ∨ ∃ p ∈ s.plans.rows, AnswerOf s p d
  stays : ∀ d ∈ s.deliveries.rows, d ∈ s'.deliveries.rows
  once : OneForFire s.deliveries → OneForFire s'.deliveries

namespace Ticked
variable {s s' s'' : AnswerState}

theorem refl (s : AnswerState) : Ticked s s :=
  ⟨rfl, fun p hp => ⟨p, hp, .refl p, .inl rfl⟩, fun p hp => ⟨p, hp, .refl p, .inl rfl⟩,
    fun _ hd => .inl hd, fun _ hd => hd, id⟩

theorem latest (h : Ticked s s') (executionId : RunId) :
    s'.latest executionId = s.latest executionId := by
  rw [AnswerState.latest, h.app]
  rfl

theorem finalSummary (h : Ticked s s') (runId : RunId) :
    finalSummary s'.app runId = finalSummary s.app runId := by
  rw [h.app]
  rfl

theorem remarked (h : Ticked s s') {p' p'' : ScheduleFireDeliveryPlan} (hp : Remarked s p p')
    (hp' : Remarked s' p' p'') : Remarked s p p'' := by
  refine ⟨hp.1.trans hp'.1, ?_⟩
  have hexecution : p'.executionId = p.executionId := by rw [hp.1]
  rcases hp'.2 with hsame | ⟨run, hlatest, hrun⟩
  · rw [hsame]
    exact hp.2
  · rw [h.latest, hexecution] at hlatest
    exact .inr ⟨run, hlatest, hrun⟩

theorem answerOf (h : Ticked s s') {p' : ScheduleFireDeliveryPlan} {d : OutboundDelivery}
    (hp : SamePlan p p') (hd : AnswerOf s' p' d) : AnswerOf s p d := by
  rw [hp] at hd
  obtain ⟨run, hlatest, hstatus, hrun, hbody⟩ := hd.content
  rw [h.latest] at hlatest
  rw [h.finalSummary] at hbody
  exact ⟨hd.fire, hd.ready, ⟨run, hlatest, hstatus, hrun, hbody⟩, hd.route, hd.fingerprint⟩

theorem trans (h : Ticked s s') (h' : Ticked s' s'') : Ticked s s'' where
  app := by
    have happ := h'.app
    rw [h.app] at happ
    exact happ
  kept p hp := by
    obtain ⟨p', hp', hmark⟩ := h.kept p hp
    obtain ⟨p'', hp'', hmark'⟩ := h'.kept p' hp'
    exact ⟨p'', hp'', h.remarked hmark hmark'⟩
  old p'' hp'' := by
    obtain ⟨p', hp', hmark'⟩ := h'.old p'' hp''
    obtain ⟨p, hp, hmark⟩ := h.old p' hp'
    exact ⟨p, hp, h.remarked hmark hmark'⟩
  delivered d hd := by
    rcases h'.delivered d hd with hd | ⟨p', hp', hanswer⟩
    · exact h.delivered d hd
    · obtain ⟨p, hp, hmark⟩ := h.old p' hp'
      exact .inr ⟨p, hp, h.answerOf hmark.1 hanswer⟩
  stays d hd := h'.stays d (h.stays d hd)
  once honce := h'.once (h.once honce)

end Ticked

theorem getByFire_eq_some {fireId : ScheduleFireId}
    (h : getByFire t fireId = some p) : p ∈ t.rows ∧ p.scheduleFireId = fireId := by
  have hfire := List.find?_some h
  exact ⟨List.mem_of_find?_eq_some h, of_decide_eq_true hfire⟩

theorem rejectContent_ticked {b : Bool}
    (hfires : ∀ x ∈ s.plans.rows, x.scheduleFireId = p.scheduleFireId → x = p)
    (hlatest : s.latest p.executionId = some run) (hstatus : run.status = .succeeded)
    (h : Answers.rejectContent s p.scheduleFireId run.id = (b, s')) : Ticked s s' := by
  unfold Answers.rejectContent at h
  split at h
  · next plans hmark =>
    cases h
    have hplans : plans = (s.plans.updateWhere (fun x => x.scheduleFireId = p.scheduleFireId &&
        x.status = .ready) (fun x => { x with contentRejectedRunId := some run.id })
        (fun _ => rfl)).2 := (Prod.mk.inj hmark).2.symm
    have himage : ∀ x ∈ s.plans.rows, Remarked s x
        (if (x.scheduleFireId = p.scheduleFireId && x.status = .ready : Bool) then
          { x with contentRejectedRunId := some run.id } else x) := by
      intro x hx
      split
      · next hmatch =>
        rw [Bool.and_eq_true, decide_eq_true_iff] at hmatch
        obtain rfl := hfires x hx hmatch.1
        exact ⟨rfl, .inr ⟨run, hlatest, hstatus, rfl⟩⟩
      · exact ⟨.refl x, .inl rfl⟩
    refine ⟨rfl, fun x hx => ?_, fun x' hx' => ?_, fun d hd => .inl hd, fun d hd => hd, id⟩
    · refine ⟨_, ?_, himage x hx⟩
      show _ ∈ plans.rows
      rw [hplans]
      exact mem_updateWhere.2 ⟨x, hx, rfl⟩
    · have hx' : x' ∈ plans.rows := hx'
      rw [hplans] at hx'
      obtain ⟨x, hx, rfl⟩ := mem_updateWhere.1 hx'
      exact ⟨x, hx, himage x hx⟩
  · cases h
    exact .refl s

/-- No two plans are for one fire. -/
def OnePlan (s : AnswerState) : Prop :=
  ∀ p ∈ s.plans.rows, ∀ q ∈ s.plans.rows, p.scheduleFireId = q.scheduleFireId → p = q

theorem materializeOne_ticked {fireId : ScheduleFireId} {id : DeliveryId} {b : Bool}
    (hone : OnePlan s) (h : Answers.materializeOne sha256 s fireId id now = .ok (b, s')) :
    Ticked s s' := by
  unfold Answers.materializeOne at h
  split at h
  · cases h; exact .refl s
  · next p hp =>
    obtain ⟨hp, -⟩ := getByFire_eq_some hp
    split at h
    · cases h; exact .refl s
    · next hready =>
      split at h
      · cases h; exact .refl s
      · split at h
        · cases h; exact .refl s
        · next run hlatest =>
          split at h
          · cases h; exact .refl s
          · split at h
            · cases h; exact .refl s
            · next hstatus =>
              have hstatus : run.status = .succeeded := not_not.1 hstatus
              split at h
              · next body fingerprint hbody hfingerprint =>
                obtain ⟨db, hadd, h⟩ := bind_ok h
                cases h
                obtain ⟨d, hd, hfresh, hunique, rfl⟩ := addDelivery_eq_ok hadd
                obtain ⟨hrun, hfire, hroute, hroutefp, hbodyd, -, -⟩ := create_eq_ok hd
                have hanswer : AnswerOf s p d :=
                  ⟨hfire, not_not.1 hready, ⟨run, hlatest, hstatus,
                    hrun, by rw [hbody, hbodyd]; rfl⟩, hroute, by rw [hfingerprint, hroutefp]; rfl⟩
                refine ⟨rfl, fun x hx => ⟨x, hx, .refl x, .inl rfl⟩, fun x hx => ⟨x, hx, .refl x, .inl rfl⟩, ?_, ?_, ?_⟩
                · intro x hx
                  rcases (mem_put_fresh hfresh).1 hx with rfl | hx
                  · exact .inr ⟨p, hp, hanswer⟩
                  · exact .inl hx
                · intro x hx
                  exact (mem_put_fresh hfresh).2 (.inr hx)
                · intro honce x hx y hy hsome hsame
                  rcases (mem_put_fresh hfresh).1 hx with hxd | hold <;>
                    rcases (mem_put_fresh hfresh).1 hy with hyd | hold'
                  · rw [hxd, hyd]
                  · rw [hxd] at hsome hsame
                    exact absurd hsame (hunique y hold' hsome)
                  · rw [hyd] at hsame
                    exact absurd hsame.symm (hunique x hold (hsame ▸ hsome))
                  · exact honce x hold y hold' hsome hsame
              · exact rejectContent_ticked (fun x hx hf => hone x hx p hp hf) hlatest hstatus (Except.ok.inj h)

theorem Ticked.onePlan (h : Ticked s s') (hone : OnePlan s) : OnePlan s' := by
  intro p' hp' q' hq' hfire
  obtain ⟨p, hp, hpmark⟩ := h.old p' hp'
  obtain ⟨q, hq, hqmark⟩ := h.old q' hq'
  have hpq : p = q := by
    refine hone p hp q hq ?_
    rw [hpmark.1, hqmark.1] at hfire
    exact hfire
  refine eq_of_key hp' hq' ?_
  rw [hpmark.1, hqmark.1, hpq]
  rfl

theorem materializeAll_ticked {draw : ScheduleFireId → DeliveryId × Time} :
    ∀ (fireIds : List ScheduleFireId) {s : AnswerState}, OnePlan s →
      Ticked s (Answers.materializeAll sha256 draw s fireIds).2
  | [], s, _ => .refl s
  | fireId :: rest, s, hone => by
    unfold Answers.materializeAll
    split
    · next b s' hstep =>
      have hticked := materializeOne_ticked hone hstep
      exact hticked.trans (materializeAll_ticked rest (hticked.onePlan hone))
    · exact materializeAll_ticked rest hone

/-! ## The order of attempts -/

/-- The latest attempt comes after all others of its execution. -/
theorem creationOrder_latest {t : RunTable} {latest x : Run}
    (h : t.getLatestForExecution executionId = some latest) (hx : x ∈ t.rows)
    (hexec : x.executionId = executionId) : x.creationOrder latest := by
  have hmem : x ∈ t.listForExecution executionId :=
    RunTable.mem_listForExecution.2 ⟨get?_of_mem hx, hexec⟩
  have hsorted : (t.listForExecution executionId).Pairwise Run.creationOrder :=
    List.pairwise_insertionSort _ _
  obtain ⟨front, hfront⟩ := List.getLast?_eq_some_iff.1 h
  rw [hfront] at hmem hsorted
  rcases List.mem_append.1 hmem with hmem | hmem
  · exact (List.pairwise_append.1 hsorted).2.2 x hmem latest (List.mem_singleton_self latest)
  · rw [List.mem_singleton.1 hmem]
    exact .inr ⟨rfl, BitVec.le_refl _⟩

theorem id_eq_of_creationOrder {a b : Run} (h : a.creationOrder b) (h' : b.creationOrder a) :
    a.id = b.id := by
  rcases h with h | ⟨h, hle⟩ <;> rcases h' with h' | ⟨h', hle'⟩
  · exact absurd h' (lt_asymm h)
  · exact absurd h'.symm h.ne
  · exact absurd h.symm h'.ne
  · exact BitVec.le_antisymm hle hle'

/-- Another attempt of the execution comes after attempt `r`. -/
def Overtaken (t : RunTable) (executionId r : RunId) : Prop :=
  ∃ a b, t.get? r = some a ∧ b ∈ t.rows ∧ b.executionId = executionId ∧ b.id ≠ r ∧ a.creationOrder b

/-- Attempts stay where they are in the order. -/
theorem Overtaken.mono {t t' : RunTable} (h : Overtaken t executionId r)
    (hsteps : AttemptSteps t t') : Overtaken t' executionId r := by
  obtain ⟨a, b, ha, hb, hexec, hne, horder⟩ := h
  obtain ⟨a', ha', hsame⟩ := hsteps.keeps ha
  obtain ⟨b', hb', hsame'⟩ := hsteps.keeps (get?_of_mem hb)
  refine ⟨a', b', ha', mem_of_get? hb', hsame'.executionId.trans hexec,
    fun h => hne (hsame'.id.symm.trans h), ?_⟩
  rw [Run.creationOrder, hsame.createdAt, hsame.id, hsame'.createdAt, hsame'.id]
  exact horder

theorem Overtaken.not_latest {t : RunTable} (h : Overtaken t executionId r)
    (hlatest : t.getLatestForExecution executionId = some run) : run.id ≠ r := by
  rintro rfl
  obtain ⟨a, b, ha, hb, hexec, hne, horder⟩ := h
  have hget := (RunTable.getLatestForExecution_mem hlatest).1
  rw [ha] at hget
  cases hget
  exact hne (id_eq_of_creationOrder (creationOrder_latest hlatest hb hexec) horder)

/-! ## Whole histories -/

/-- Everything a step can do. -/
inductive AnswerStep (s s' : AnswerState) : Prop where
  | app (runs : AttemptSteps s.app.runs s'.app.runs) (plans : PlansStep s.plans s'.plans)
      (dispatch : s'.dispatch = s.dispatch)
  | dispatch (app : s'.app = s.app) (deliveries : NoAnswer s.deliveries s'.deliveries)
  | tick (ticked : Ticked s s')

theorem answerSystem_step {a : AnswerAction}
    (hone : OnePlan s) (h : (answerSystem cfg sha256).next s a s') : AnswerStep s s' := by
  have hstep : answerStep cfg sha256 s a = some s' := h.1
  cases a with
  | app a =>
    obtain ⟨app, hcommit, rfl⟩ := Option.map_eq_some_iff.1 hstep
    have hact := toOption_eq_some.1 hcommit
    exact .app (appAct_attempts hact) (appAct_plans hact) rfl
  | dispatch a =>
    dsimp only [answerStep] at hstep
    split at hstep
    · next hagent =>
      obtain ⟨dispatch, hact, rfl⟩ := Option.map_eq_some_iff.1 hstep
      exact .dispatch rfl (dispatch_noAnswer hagent ⟨hact, h.2⟩)
    · cases hstep
  | tick batchSize draw =>
    obtain rfl := Option.some.inj hstep
    exact .tick (materializeAll_ticked _ hone)

structure AnswersOk (s : AnswerState) : Prop where
  onePlan : OnePlan s
  once : OneForFire s.deliveries
  /-- A mark names an attempt of the plan's execution that succeeded. -/
  marks : ∀ p ∈ s.plans.rows, ∀ r, p.contentRejectedRunId = some r →
    ∃ run, s.app.runs.get? r = some run ∧ run.status = .succeeded ∧ run.executionId = p.executionId

theorem NoAnswer.once {t t' : Table OutboundDelivery} (h : NoAnswer t t') (honce : OneForFire t) :
    OneForFire t' := by
  intro d' hd' e' he' hsome hsame
  obtain ⟨d, hd, hdsame⟩ := h.old d' hd' hsome
  obtain ⟨e, he, hesame⟩ := h.old e' he' (hsame ▸ hsome)
  have hed : e = d := by
    refine honce d hd e he (hdsame.sourceScheduleFireId ▸ hsome) ?_
    rw [← hesame.sourceScheduleFireId, hsame, hdsame.sourceScheduleFireId]
  refine eq_of_key he' hd' ?_
  show e'.id = d'.id
  rw [hesame.id, hdsame.id, hed]

theorem AnswerStep.answersOk (h : AnswerStep s s') (hok : AnswersOk s) : AnswersOk s' := by
  cases h with
  | app runs plans dispatch =>
    refine ⟨plans.onePlan hok.onePlan, by rw [AnswerState.deliveries, dispatch]; exact hok.once, fun p hp r hr => ?_⟩
    have hold : p ∈ s.plans.rows := (plans.old hp).resolve_right (by rw [hr]; nofun)
    obtain ⟨run, hget, hstatus, hexec⟩ := hok.marks p hold r hr
    exact ⟨run, runs.keeps_ended hget (by rw [hstatus]; rfl), hstatus, hexec⟩
  | dispatch app deliveries =>
    refine ⟨?_, deliveries.once hok.once, ?_⟩
    · rw [OnePlan, AnswerState.plans, app]
      exact hok.onePlan
    · rw [AnswerState.plans, app]
      exact hok.marks
  | tick ticked =>
    refine ⟨ticked.onePlan hok.onePlan, ticked.once hok.once, ?_⟩
    intro p' hp' r hr
    obtain ⟨p, hp, hsame, hmark⟩ := ticked.old p' hp'
    have hruns : s'.app.runs = s.app.runs := by rw [ticked.app]
    have hexecution : p'.executionId = p.executionId := by rw [hsame]
    rw [hruns, hexecution]
    rcases hmark with hmark | ⟨run, hlatest, hstatus, hmark⟩
    · exact hok.marks p hp r (hmark ▸ hr)
    · rw [hmark] at hr
      cases hr
      obtain ⟨hget, hexec⟩ := RunTable.getLatestForExecution_mem hlatest
      exact ⟨run, hget, hstatus, hexec⟩

theorem answerSystem_ok
    (h : (answerSystem cfg sha256).Reachable s) : AnswersOk s :=
  h.invariant AnswersOk
    (fun s hinit => by
      obtain ⟨-, hplans, hdb, -⟩ := hinit
      have hrows : s.plans.rows = [] := congrArg Table.rows hplans
      have hdeliveries : s.deliveries.rows = [] := congrArg (fun db => db.deliveries.rows) hdb
      refine ⟨?_, ?_, ?_⟩
      · rw [OnePlan, hrows]; exact fun p hp => absurd hp List.not_mem_nil
      · rw [OneForFire, hdeliveries]; exact fun d hd => absurd hd List.not_mem_nil
      · rw [hrows]; exact fun p hp => absurd hp List.not_mem_nil)
    (fun _ _ _ _ hok hnext => (answerSystem_step hok.onePlan hnext).answersOk hok)

/-! ## Batches -/

theorem readyWithoutDelivery_iff :
    readyWithoutDelivery s p = true ↔ p.status = .ready ∧
      (∀ d ∈ s.deliveries.rows, d.sourceScheduleFireId ≠ some p.scheduleFireId) ∧
      ∃ run, s.latest p.executionId = some run ∧ run.status = .succeeded ∧ p.contentRejectedRunId ≠ some run.id := by
  simp [readyWithoutDelivery, Option.any_eq_true, and_assoc]

theorem mem_listReadyWithoutDelivery {limit : Nat} {fireId : ScheduleFireId}
    (h : fireId ∈ listReadyWithoutDelivery s limit) :
    ∃ p ∈ s.plans.rows, p.scheduleFireId = fireId ∧ readyWithoutDelivery s p = true := by
  obtain ⟨p, hp, rfl⟩ := List.mem_map.1 h
  have hp := List.mem_of_mem_take hp
  rw [List.mem_insertionSort] at hp
  obtain ⟨hp, hready⟩ := List.mem_filter.1 hp
  exact ⟨p, hp, rfl, hready⟩

/-- A plan that is ready is in the batch, unless the batch is full. -/
theorem listReadyWithoutDelivery_complete (hp : p ∈ s.plans.rows)
    (hready : readyWithoutDelivery s p = true) (limit : Nat) :
    p.scheduleFireId ∈ listReadyWithoutDelivery s limit ∨ (listReadyWithoutDelivery s limit).length = limit := by
  have hmem : p ∈ (s.plans.select (readyWithoutDelivery s)).insertionSort planOrder := by
    rw [List.mem_insertionSort]
    exact List.mem_filter.2 ⟨hp, hready⟩
  by_cases hle : ((s.plans.select (readyWithoutDelivery s)).insertionSort planOrder).length ≤ limit
  · left
    rw [listReadyWithoutDelivery, List.take_of_length_le hle]
    exact List.mem_map_of_mem hmem
  · right
    rw [listReadyWithoutDelivery, List.length_map, List.length_take]
    omega

/-- A batch with room for every plan has every plan that is ready. -/
theorem listReadyWithoutDelivery_room (hp : p ∈ s.plans.rows)
    (hready : readyWithoutDelivery s p = true) {limit : Nat} (hroom : s.plans.rows.length < limit) :
    p.scheduleFireId ∈ listReadyWithoutDelivery s limit := by
  refine (listReadyWithoutDelivery_complete hp hready limit).resolve_right fun hfull => ?_
  have hle : (listReadyWithoutDelivery s limit).length ≤ s.plans.rows.length := by
    rw [listReadyWithoutDelivery, List.length_map, List.length_take, List.length_insertionSort]
    exact (Nat.min_le_right _ _).trans (List.length_filter_le _ _)
  omega

/-! ## Marks -/

/-- The mark of `r` on the plan is still there, or another attempt has come after `r`. -/
def MarkHolds (p : ScheduleFireDeliveryPlan) (r : RunId) (s : AnswerState) : Prop :=
  ∃ p' ∈ s.plans.rows, SamePlan p p' ∧
    (p'.contentRejectedRunId = some r ∨ Overtaken s.app.runs p.executionId r)

theorem AnswerStep.markHolds (hok : AnswersOk s) (h : AnswerStep s s') (hmark : MarkHolds p r s) :
    MarkHolds p r s' := by
  obtain ⟨p₁, hp₁, hsame, hmark⟩ := hmark
  have hexecution : p₁.executionId = p.executionId := by rw [hsame]
  cases h with
  | app runs plans dispatch =>
    exact ⟨p₁, plans.kept hp₁, hsame, hmark.imp_right fun h => h.mono runs⟩
  | dispatch app deliveries =>
    refine ⟨p₁, ?_, hsame, ?_⟩
    · rw [AnswerState.plans, app]
      exact hp₁
    · rw [app]
      exact hmark
  | tick ticked =>
    obtain ⟨p₂, hp₂, hsame', hremark⟩ := ticked.kept p₁ hp₁
    refine ⟨p₂, hp₂, hsame.trans hsame', ?_⟩
    have hruns : s'.app.runs = s.app.runs := by rw [ticked.app]
    rw [hruns]
    rcases hmark with hmark | hover
    · rcases hremark with hkeep | ⟨run, hlatest, -, hset⟩
      · exact .inl (hkeep.trans hmark)
      · by_cases hr : run.id = r
        · exact .inl (hr ▸ hset)
        · -- the mark moves on to the latest attempt, which comes after `r`
          right
          obtain ⟨old, hold, -, hexec⟩ := hok.marks p₁ hp₁ r hmark
          obtain ⟨hget, hrun⟩ := RunTable.getLatestForExecution_mem hlatest
          exact ⟨old, run, hold, mem_of_get? hget, hrun.trans hexecution, hr,
            creationOrder_latest hlatest (mem_of_get? hold) hexec⟩
    · exact .inr hover

theorem MarkHolds.not_listed (hok : AnswersOk s)
    (h : MarkHolds p r s) (hlatest : s.latest p.executionId = some run) (hr : run.id = r)
    (limit : Nat) : p.scheduleFireId ∉ listReadyWithoutDelivery s limit := by
  intro hlisted
  obtain ⟨p', hp', hsame, hmark⟩ := h
  obtain ⟨q, hq, hfire, hready⟩ := mem_listReadyWithoutDelivery hlisted
  obtain ⟨-, -, run', hlatest', -, hunmarked⟩ := readyWithoutDelivery_iff.1 hready
  have hpq : q = p' := hok.onePlan q hq p' hp' (by rw [hfire, hsame])
  have hexecution : q.executionId = p.executionId := by rw [hpq, hsame]
  rw [hexecution, hlatest] at hlatest'
  cases hlatest'
  rcases hmark with hmark | hover
  · rw [hpq, hmark, hr] at hunmarked
    exact hunmarked rfl
  · exact hover.not_latest hlatest hr

/-- An attempt that has just succeeded is on no mark. -/
theorem AnswerStep.unmarked (hok : AnswersOk s) (h : AnswerStep s s')
    (hp : p ∈ s'.plans.rows) (hrun : s'.app.runs.get? run.id = some run) (hstatus : run.status = .succeeded)
    (hnew : ∀ before, s.app.runs.get? run.id = some before → before.status ≠ .succeeded) :
    p.contentRejectedRunId ≠ some run.id := by
  intro hmark
  cases h with
  | app runs plans dispatch =>
    have hold : p ∈ s.plans.rows := (plans.old hp).resolve_right (by rw [hmark]; nofun)
    obtain ⟨before, hget, hsucceeded, -⟩ := hok.marks p hold _ hmark
    exact hnew before hget hsucceeded
  | dispatch app deliveries =>
    rw [app] at hrun
    exact hnew run hrun hstatus
  | tick ticked =>
    rw [ticked.app] at hrun
    exact hnew run hrun hstatus

/-! ## Refused content is marked -/

/-- The gate refuses the answer of the latest attempt of a plan that waits for a delivery. -/
structure Refused (p : ScheduleFireDeliveryPlan) (run : Run) (s : AnswerState) : Prop where
  onePlan : OnePlan s
  plan : ∃ p' ∈ s.plans.rows, SamePlan p p'
  ready : p.status = .ready
  latest : s.latest p.executionId = some run
  succeeded : run.status = .succeeded
  content : ContentGate.validate (finalSummary s.app run.id) p.routeMaxBodyChars = none
  waiting : ∀ d ∈ s.deliveries.rows, d.sourceScheduleFireId ≠ some p.scheduleFireId

def MarkedFor (p : ScheduleFireDeliveryPlan) (runId : RunId) (s : AnswerState) : Prop :=
  ∃ p' ∈ s.plans.rows, SamePlan p p' ∧ p'.contentRejectedRunId = some runId

theorem Ticked.refused (h : Ticked s s') (hrefused : Refused p run s) : Refused p run s' where
  onePlan := h.onePlan hrefused.onePlan
  plan := by
    obtain ⟨p₁, hp₁, hsame⟩ := hrefused.plan
    obtain ⟨p₂, hp₂, hsame', -⟩ := h.kept p₁ hp₁
    exact ⟨p₂, hp₂, hsame.trans hsame'⟩
  ready := hrefused.ready
  latest := (h.latest _).trans hrefused.latest
  succeeded := hrefused.succeeded
  content := by
    rw [h.finalSummary]
    exact hrefused.content
  waiting d hd hfire := by
    rcases h.delivered d hd with hold | ⟨q, hq, hanswer⟩
    · exact hrefused.waiting d hold hfire
    · -- an answer of this fire would have passed the gate
      obtain ⟨p₁, hp₁, hsame⟩ := hrefused.plan
      have hqp : q = p₁ := by
        refine hrefused.onePlan q hq p₁ hp₁ ?_
        rw [hsame]
        exact Option.some.inj (hanswer.fire.symm.trans hfire)
      obtain ⟨run', hlatest, -, -, hbody⟩ := hanswer.content
      rw [hqp, hsame] at hlatest hbody
      have hlatest : s.latest p.executionId = some run' := hlatest
      rw [hrefused.latest] at hlatest
      cases hlatest
      exact Option.some_ne_none _ (hbody.symm.trans hrefused.content)

theorem Ticked.markedFor (h : Ticked s s')
    (hlatest : s.latest p.executionId = some run) (hmarked : MarkedFor p run.id s) :
    MarkedFor p run.id s' := by
  obtain ⟨p₁, hp₁, hsame, hmark⟩ := hmarked
  obtain ⟨p₂, hp₂, hsame', hremark⟩ := h.kept p₁ hp₁
  refine ⟨p₂, hp₂, hsame.trans hsame', ?_⟩
  have hexecution : p₁.executionId = p.executionId := by rw [hsame]
  rcases hremark with hkeep | ⟨run', hlatest', -, hset⟩
  · exact hkeep.trans hmark
  · rw [hexecution, hlatest] at hlatest'
    cases hlatest'
    exact hset

theorem OnePlan.getByFire (h : OnePlan s) (hp : p ∈ s.plans.rows) :
    getByFire s.plans p.scheduleFireId = some p := by
  have hsome : (App.getByFire s.plans p.scheduleFireId).isSome = true :=
    List.find?_isSome.2 ⟨p, hp, by simp⟩
  obtain ⟨q, hq⟩ := Option.isSome_iff_exists.1 hsome
  obtain ⟨hmem, hfire⟩ := getByFire_eq_some hq
  rw [hq, h q hmem p hp hfire]

theorem Refused.materializeOne (sha256 : String → String) (h : Refused p run s) (id : DeliveryId)
    (now : Time) : ∃ b s', Answers.materializeOne sha256 s p.scheduleFireId id now = .ok (b, s') ∧
      MarkedFor p run.id s' := by
  obtain ⟨p₁, hp₁, hsame⟩ := h.plan
  have hfire : p₁.scheduleFireId = p.scheduleFireId := by rw [hsame]
  have hready : p₁.status = .ready := by rw [hsame]; exact h.ready
  have hlatest : s.latest p₁.executionId = some run := by rw [hsame]; exact h.latest
  have hcontent : ContentGate.validate (finalSummary s.app run.id) p₁.routeMaxBodyChars = none := by
    rw [hsame]; exact h.content
  have hwaiting : getBySourceScheduleFireId s.dispatch.db p₁.scheduleFireId = none := by
    rw [hfire]
    exact List.find?_eq_none.2 fun d hd hsource => h.waiting d hd (of_decide_eq_true hsource)
  have hget : getByFire s.plans p.scheduleFireId = some p₁ := hfire ▸ h.onePlan.getByFire hp₁
  have hexec : run.executionId = p₁.executionId := (RunTable.getLatestForExecution_mem hlatest).2
  have hcount : (s.plans.updateWhere (fun x => x.scheduleFireId = p₁.scheduleFireId && x.status = .ready)
      (fun x => { x with contentRejectedRunId := some run.id }) (fun _ => rfl)).1 = 1 :=
    updateWhere_one hp₁ (by simp [hready]) fun x hx hmatch =>
      h.onePlan x hx p₁ hp₁ (by simp only [Bool.and_eq_true, decide_eq_true_iff] at hmatch; exact hmatch.1)
  have hmark : markContentRejected s.plans p₁.scheduleFireId run.id =
      (true, (s.plans.updateWhere (fun x => x.scheduleFireId = p₁.scheduleFireId && x.status = .ready)
        (fun x => { x with contentRejectedRunId := some run.id }) (fun _ => rfl)).2) :=
    Prod.ext (by simp [markContentRejected, hcount]) rfl
  refine ⟨false, s.withPlans (markContentRejected s.plans p₁.scheduleFireId run.id).2, ?_,
    { p₁ with contentRejectedRunId := some run.id }, ?_, by rw [hsame]; rfl, rfl⟩
  · simp only [Answers.materializeOne, hget, hready, hwaiting, hlatest, hexec,
      h.succeeded, hcontent, Answers.rejectContent, hmark, Option.isSome_none, ne_eq,
      not_true_eq_false, if_false, Bool.false_eq_true]
  · exact List.mem_map.2 ⟨p₁, hp₁, if_pos (by simp [hready])⟩

theorem Refused.materializeAll {draw : ScheduleFireId → DeliveryId × Time} : ∀ (fireIds : List ScheduleFireId) {s : AnswerState}, Refused p run s →
      p.scheduleFireId ∈ fireIds → MarkedFor p run.id (Answers.materializeAll sha256 draw s fireIds).2
  | fireId :: rest, s, h, hmem => by
    by_cases hfire : fireId = p.scheduleFireId
    · subst hfire
      obtain ⟨b, s', hone, hmarked⟩ :=
        h.materializeOne sha256 (draw p.scheduleFireId).1 (draw p.scheduleFireId).2
      have hticked := materializeOne_ticked h.onePlan hone
      simp only [Answers.materializeAll, hone]
      exact (materializeAll_ticked rest (hticked.onePlan h.onePlan)).markedFor (hticked.refused h).latest hmarked
    · have hrest : p.scheduleFireId ∈ rest := (List.mem_cons.1 hmem).resolve_left (Ne.symm hfire)
      unfold Answers.materializeAll
      split
      · next b s' hone => exact Refused.materializeAll rest ((materializeOne_ticked h.onePlan hone).refused h) hrest
      · exact Refused.materializeAll rest h hrest

/-- **Scheduled answers are delivered from the right run, at most once.** In every reachable state:

1. no fire has two deliveries;
2. a delivery that appears for a fire is the answer of its plan: ready, the latest attempt of its
   execution succeeded, the body is what the gate makes of that attempt's summary, the route is the
   plan's, and plans and deliveries keep all of this;
3. a plan of the batch whose content the gate refuses is marked with the latest attempt, a marked
   plan is in no later batch while that attempt is the latest, and in a step that makes another
   attempt the latest and succeeded, the plan is offered again;
4. a batch holds no plan marked with its latest attempt, and a plan that is ready is missing only
   from a full one. -/
theorem scheduled_answers_delivered_once (cfg : AppConfig) (sha256 : String → String)
    {s : AnswerState} (hs : (answerSystem cfg sha256).Reachable s) :
    OneForFire s.deliveries ∧
    (∀ a s', (answerSystem cfg sha256).next s a s' →
      (∀ d' ∈ s'.deliveries.rows, d'.sourceScheduleFireId.isSome →
        (∃ d ∈ s.deliveries.rows, SameAuthority d d') ∨ ∃ p ∈ s.plans.rows, AnswerOf s p d') ∧
      (∀ d ∈ s.deliveries.rows, ∃ d' ∈ s'.deliveries.rows, SameAuthority d d') ∧
      (∀ p ∈ s.plans.rows, ∃ p' ∈ s'.plans.rows, SamePlan p p') ∧
      (∀ p ∈ s'.plans.rows, ∀ run, p.status = .ready →
        (∀ d ∈ s'.deliveries.rows, d.sourceScheduleFireId ≠ some p.scheduleFireId) →
        s'.latest p.executionId = some run → run.status = .succeeded →
        (∀ before, s.app.runs.get? run.id = some before → before.status ≠ .succeeded) →
        ∀ limit, s'.plans.rows.length < limit → p.scheduleFireId ∈ listReadyWithoutDelivery s' limit)) ∧
    (∀ batchSize draw, ∀ p ∈ s.plans.rows, p.scheduleFireId ∈ listReadyWithoutDelivery s batchSize →
      ∀ run, s.latest p.executionId = some run →
        ContentGate.validate (finalSummary s.app run.id) p.routeMaxBodyChars = none →
        MarkedFor p run.id (Answers.execute sha256 batchSize draw s).2) ∧
    (∀ p ∈ s.plans.rows, ∀ r, p.contentRejectedRunId = some r →
      ∀ s', (answerSystem cfg sha256).Steps s s' → ∀ run, s'.latest p.executionId = some run →
        run.id = r → ∀ limit, p.scheduleFireId ∉ listReadyWithoutDelivery s' limit) ∧
    (∀ limit, (∀ fireId ∈ listReadyWithoutDelivery s limit, ∃ p ∈ s.plans.rows,
        p.scheduleFireId = fireId ∧ ∃ run, s.latest p.executionId = some run ∧
        run.status = .succeeded ∧ p.contentRejectedRunId ≠ some run.id) ∧
      ∀ p ∈ s.plans.rows, readyWithoutDelivery s p = true →
        p.scheduleFireId ∈ listReadyWithoutDelivery s limit ∨ (listReadyWithoutDelivery s limit).length = limit) := by
  have hok := answerSystem_ok hs
  refine ⟨hok.once, fun a s' hnext => ?_, ?_, ?_, fun limit => ⟨?_, ?_⟩⟩
  · have hstep := answerSystem_step hok.onePlan hnext
    refine ⟨?_, ?_, ?_, ?_⟩
    · intro d' hd' hsome
      cases hstep with
      | app _ _ dispatch =>
        rw [AnswerState.deliveries, dispatch] at hd'
        exact .inl ⟨d', hd', .refl d'⟩
      | dispatch _ deliveries => exact .inl (deliveries.old d' hd' hsome)
      | tick ticked => exact (ticked.delivered d' hd').imp_left fun hold => ⟨d', hold, .refl d'⟩
    · intro d hd
      cases hstep with
      | app _ _ dispatch => exact ⟨d, by rw [AnswerState.deliveries, dispatch]; exact hd, .refl d⟩
      | dispatch _ deliveries => exact deliveries.kept d hd
      | tick ticked => exact ⟨d, ticked.stays d hd, .refl d⟩
    · intro p hp
      cases hstep with
      | app _ plans _ => exact ⟨p, plans.kept hp, .refl p⟩
      | dispatch app _ => exact ⟨p, by rw [AnswerState.plans, app]; exact hp, .refl p⟩
      | tick ticked =>
        obtain ⟨p', hp', hsame, -⟩ := ticked.kept p hp
        exact ⟨p', hp', hsame⟩
    · intro p hp run hready hwaiting hlatest hstatus hnew limit hroom
      have hunmarked := hstep.unmarked hok hp (RunTable.getLatestForExecution_mem hlatest).1 hstatus hnew
      exact listReadyWithoutDelivery_room hp
        (readyWithoutDelivery_iff.2 ⟨hready, hwaiting, run, hlatest, hstatus, hunmarked⟩) hroom
  · intro batchSize draw p hp hlisted run hlatest hcontent
    obtain ⟨q, hq, hfire, hready⟩ := mem_listReadyWithoutDelivery hlisted
    obtain rfl : q = p := hok.onePlan q hq p hp hfire
    obtain ⟨hstatus, hwaiting, run', hlatest', hsucceeded, -⟩ := readyWithoutDelivery_iff.1 hready
    rw [hlatest] at hlatest'
    cases hlatest'
    have hrefused : Refused q run s := ⟨hok.onePlan, ⟨q, hq, .refl q⟩, hstatus, hlatest, hsucceeded, hcontent, hwaiting⟩
    exact hrefused.materializeAll _ hlisted
  · intro p hp r hmark s' hsteps run hlatest hr limit
    have hholds : MarkHolds p r s' := System.Steps.stable (MarkHolds p r)
      (fun s₁ a s₂ hreach hholds hnext =>
        have hok₁ := answerSystem_ok hreach
        (answerSystem_step hok₁.onePlan hnext).markHolds hok₁ hholds)
      hs hsteps ⟨p, hp, .refl p, .inl hmark⟩
    exact hholds.not_listed (answerSystem_ok (hs.steps hsteps)) hlatest hr limit
  · intro fireId hlisted
    obtain ⟨p, hp, hfire, hready⟩ := mem_listReadyWithoutDelivery hlisted
    exact ⟨p, hp, hfire, (readyWithoutDelivery_iff.1 hready).2.2⟩
  · intro p hp hready
    exact listReadyWithoutDelivery_complete hp hready limit

/-- Two fires, of two schedules: the answer of the first run has a bell in it, the other one is
plain. -/
def sampleRoute : Resolver :=
  fun _ => some ⟨"ops", true, Delivery.sampleDigest, 100, by decide +kernel, by decide⟩

def sampleAnswerActions : List AnswerAction :=
  [.app (.run (.createTask 1 "title" "" 0)), .app (.createSchedule ⟨1, .cron, some "* * * * *",
    none, "UTC"⟩ 10 0), .app (.createSchedule ⟨1, .cron, some "* * * * *", none, "UTC"⟩ 20 0),
    .app (.putScheduleDeliveryPolicy 10 1 "ops" true 1),
    .app (.putScheduleDeliveryPolicy 20 1 "ops" true 1),
    .app (.materialize sampleRoute 10 ⟨2, 11, 12⟩ 130), .app (.run (.claimNextRun sampleClaim 131)),
    .app (.run (.applySucceededOutcome 2 ⟨"worker", "token", 1⟩ (some ("ding\x07", .null)) 132)),
    .app (.materialize sampleRoute 20 ⟨3, 21, 22⟩ 140), .app (.run (.claimNextRun sampleClaim 141)),
    .app (.run (.applySucceededOutcome 3 ⟨"worker", "token", 1⟩ (some (" done\r\n", .null)) 142))]

def sampleAnswerStart : AnswerState := ⟨sampleAppDb, sampleStart⟩

/-- Two ticks with batches of one: the marked plan does not keep the other one out. -/
def sampleTicks : List AnswerAction := [.tick 1 fun _ => (30, 150), .tick 1 fun _ => (31, 160)]

def sampleAnswered : AnswerState :=
  System.run (answerStep sampleAppConfig fun _ => Delivery.sampleDigest) sampleAnswerStart
    (sampleAnswerActions ++ sampleTicks)

/-- The dispatcher has no part in it. -/
def AnswerAction.isOwn : AnswerAction → Bool
  | .dispatch _ => false
  | _ => true

theorem AnswerAction.isOwn.guard {a : AnswerAction} (h : a.isOwn = true) : answerGuard s a := by
  cases a with
  | dispatch a => cases h
  | _ => exact trivial

theorem scheduled_answers_delivered_once_sample :
    (sampleAnswered.deliveries.rows.map (fun d => (d.sourceScheduleFireId, d.body)) = [(some 21, "done")] ∧
      sampleAnswered.plans.rows.map (·.contentRejectedRunId) = [some 2, none]) ∧ OneForFire sampleAnswered.deliveries := by
  have hinit : (answerSystem sampleAppConfig fun _ => Delivery.sampleDigest).init sampleAnswerStart :=
    ⟨rfl, rfl, rfl, fun _ => rfl, rfl, rfl⟩
  have hlegal : System.Legal (answerStep sampleAppConfig fun _ => Delivery.sampleDigest) answerGuard
      sampleAnswerStart (sampleAnswerActions ++ sampleTicks) :=
    .mono (show System.Legal _ (fun _ _ => True) _ _ by decide +kernel) fun a ha s _ =>
      AnswerAction.isOwn.guard (List.all_eq_true.1 (rfl : (sampleAnswerActions ++ sampleTicks).all (·.isOwn) = true) a ha)
  exact ⟨by decide +kernel,
    (scheduled_answers_delivered_once sampleAppConfig (fun _ => Delivery.sampleDigest) (.steps (.of_init hinit) (.run hlegal))).1⟩

end Friday.App
