import FridayAssistant.Lib.Json
/-!
# Instants, identifiers and errors (domain/identifiers.py, domain/time.py, application/errors.py)

A UTC `datetime` is its number of microseconds. A UUID is its 128-bit value: the tables
compare UUID texts, and on texts of equal length that is the order of the values.

`AppError` is what a use case can raise. Raising inside `with uow_factory() as uow` rolls the
transaction back, so a use case is a function into `Result (result × database)` and
the error case carries no database.
-/
namespace Friday

/-- Microseconds of a UTC `datetime`; a `timedelta` has the same unit. -/
abbrev Time := Int

abbrev Uuid := BitVec 128

abbrev TaskId := Uuid
abbrev RunId := Uuid
abbrev RunStepId := Uuid
abbrev ToolInvocationId := Uuid
abbrev ApprovalRequestId := Uuid
abbrev DelegationRequestId := Uuid
abbrev AgentId := Uuid
abbrev AgentRevisionId := Uuid
abbrev SkillId := Uuid
abbrev SkillRevisionId := Uuid
abbrev WorkflowId := Uuid
abbrev WorkflowRevisionId := Uuid
abbrev WorkflowNodeId := Uuid
abbrev WorkflowExecutionId := Uuid
abbrev WorkflowNodeExecutionId := Uuid
abbrev RunWorkflowResolutionId := Uuid
abbrev DeliveryId := Uuid
abbrev DeliveryAttemptId := Uuid
abbrev ScheduleFireId := Uuid

/-- The `w` low hex digits of `n`. -/
def hexDigits : Nat → Nat → List Char
  | 0, _ => []
  | w + 1, n => hexDigits w (n / 16) ++ ["0123456789abcdef".toList.getD (n % 16) '0']

/-- `str(uuid)`: 8-4-4-4-12. -/
def Uuid.text (u : Uuid) : String :=
  let d := hexDigits 32 u.toNat
  let cut (i n : Nat) := String.ofList ((d.drop i).take n)
  cut 0 8 ++ "-" ++ cut 8 4 ++ "-" ++ cut 12 4 ++ "-" ++ cut 16 4 ++ "-" ++ cut 20 12

/-- The exceptions of `domain/errors.py` and `application/errors.py` that the modelled use
cases raise. `notFound` is the family of `*NotFound` errors, with their text before the id;
`entityConflict` is also what `UnitOfWork` makes of an `IntegrityError`. -/
inductive AppError where
  | domainValidation (message : String)
  | invalidStateTransition (entity source target : String)
  | entityConflict (message : String)
  | transactionFailure (message : String)
  | claimLost (message : String)
  | notFound (entity : String) (id : Uuid)
  | toolExecutionAmbiguous (message : String)
  | workflowExecution (message : String)
  | workflowIntegrity (message : String)
  | workflowBinding (message : String)
  | workflowCancelNotSupportedWhileActive
  | workflowNodeManualRetryForbidden
  | delegatedManualRetryForbidden
  | concurrencyConflict (message : String)
  | valueError (message : String)
  | assertion
  | overflow
  deriving DecidableEq, Repr

/-- What a use case returns or raises. -/
abbrev Result := Except AppError

/-- `FailureCause` (domain/failure.py). -/
inductive FailureCause where
  | validation | tool | runtime | approval | cancelled | timeout | internal
  deriving DecidableEq

/-- `Failure` (domain/failure.py); its constructor rejects a blank code or message. -/
structure Failure where
  code : String
  message : String
  retryable : Bool
  cause : FailureCause
  details : PyJson.JsonValue
  code_nonblank : PyText.isBlank code = false
  message_nonblank : PyText.isBlank message = false

/-- `RetryPolicy` (application/retry_policy.py). `backoff e` is the float product
`base_delay * multiplier ** e`, or `none` when Python raises `OverflowError`. -/
structure RetryPolicy where
  maxAttempts : Nat
  maxDelay : Time
  backoff : Int → Option Time
  maxAttempts_pos : 1 ≤ maxAttempts

/-- `is_retry_allowed`. -/
def RetryPolicy.isRetryAllowed (p : RetryPolicy) (attemptNumber : Nat) (failure : Failure) : Bool :=
  failure.retryable && attemptNumber < p.maxAttempts

/-- `compute_delay`. -/
def RetryPolicy.computeDelay (p : RetryPolicy) (nextAttemptNumber : Nat) : Result Time :=
  match p.backoff ((nextAttemptNumber : Int) - 2) with
  | some d => .ok (min p.maxDelay d)
  | none => .error .overflow

/-- `_translated` (unit_of_work.py:81) of an `IntegrityError`. -/
def AppError.integrity : AppError :=
  .entityConflict "write violated a uniqueness or state constraint"

/-- `raise` unless the condition holds. -/
def require (c : Bool) (e : AppError) : Result Unit := if c then .ok () else .error e

variable {e : AppError}

@[simp] theorem require_eq_ok {c : Bool} {u : Unit} : require c e = .ok u ↔ c = true := by
  cases c <;> simp [require]

theorem of_require {c : Prop} [Decidable c] {u : Unit} (h : require c e = .ok u) : c :=
  of_decide_eq_true (require_eq_ok.1 h)

section
variable {ε α β : Type} {x : Except ε α} {f : α → Except ε β} {a : α} {b : β}

/-- A computation that binds succeeds when its two parts do. -/
theorem bind_eq_ok :
    (x >>= f) = .ok b ↔ ∃ a, x = .ok a ∧ f a = .ok b := by
  cases x <;> simp [bind, Except.bind]

theorem bind_ok (h : (x >>= f) = .ok b) :
    ∃ a, x = .ok a ∧ f a = .ok b := bind_eq_ok.1 h

/-- What comes after a part whose result does not matter. -/
theorem bind_rest (h : (x >>= f) = .ok b) :
    ∃ a, f a = .ok b := by
  obtain ⟨a, -, h⟩ := bind_ok h
  exact ⟨a, h⟩

section
variable {γ δ : Type} {y : α → Except ε β}

theorem bind_ok₂ {g : α → β → Except ε γ} {c : γ} (h : (x >>= fun a => y a >>= g a) = .ok c) :
    ∃ a, x = .ok a ∧ ∃ b, y a = .ok b ∧ g a b = .ok c := by
  obtain ⟨a, ha, h⟩ := bind_ok h
  exact ⟨a, ha, bind_ok h⟩

theorem bind_rest₂ {g : α → β → Except ε γ} {c : γ} (h : (x >>= fun a => y a >>= g a) = .ok c) :
    ∃ a b, g a b = .ok c := by
  obtain ⟨a, h⟩ := bind_rest h
  exact ⟨a, bind_rest h⟩

theorem bind_rest₃ {z : α → β → Except ε γ} {g : α → β → γ → Except ε δ} {d : δ}
    (h : (x >>= fun a => y a >>= fun b => z a b >>= g a b) = .ok d) : ∃ a b c, g a b c = .ok d := by
  obtain ⟨a, h⟩ := bind_rest h
  exact ⟨a, bind_rest₂ h⟩

end

theorem toOption_eq_some : x.toOption = some a ↔ x = .ok a := by
  cases x <;> simp [Except.toOption]

theorem ok_bind (h : x = .ok a) : (x >>= f) = f a := by
  rw [h]
  rfl

theorem exists_bind_ok :
    (∃ b, (x >>= f) = .ok b) ↔ ∃ a, x = .ok a ∧ ∃ b, f a = .ok b := by
  constructor
  · rintro ⟨b, h⟩
    obtain ⟨a, ha, hb⟩ := bind_ok h
    exact ⟨a, ha, b, hb⟩
  · rintro ⟨a, ha, b, hb⟩
    exact ⟨b, bind_eq_ok.2 ⟨a, ha, hb⟩⟩

/-- The second part may use what the first one returned, its condition may not. -/
theorem exists_bind_and {c d : Prop} (hx : (∃ a, x = .ok a) ↔ c)
    (hf : ∀ a, x = .ok a → ((∃ b, f a = .ok b) ↔ d)) : (∃ b, (x >>= f) = .ok b) ↔ c ∧ d := by
  rw [exists_bind_ok, ← hx]
  exact ⟨fun ⟨a, ha, hb⟩ => ⟨⟨a, ha⟩, (hf a ha).1 hb⟩, fun ⟨⟨a, ha⟩, hd⟩ => ⟨a, ha, (hf a ha).2 hd⟩⟩

theorem pure_eq_ok {b : α} : (pure a : Except ε α) = .ok b ↔ b = a := by
  simp [pure, Except.pure, eq_comm]

theorem map_snd_eq_ok {x : Except ε (α × β)} :
    x.map (·.2) = .ok b ↔ ∃ a, x = .ok (a, b) := by
  cases x with
  | error e => simp [Except.map]
  | ok y =>
    obtain ⟨a, c⟩ := y
    simp [Except.map]

theorem of_map_snd {x : Except ε (α × β)} {P : Prop} (h : x.map (·.2) = .ok b)
    (hx : ∀ {a}, x = .ok (a, b) → P) : P := hx (map_snd_eq_ok.1 h).choose_spec

/-- Two results with one image are the same error, or both are there. -/
theorem of_map_eq {x x' : Except ε α} {g : α → β} (h : x'.map g = x.map g) :
    (∃ e, x = .error e ∧ x' = .error e) ∨ ∃ a a', x = .ok a ∧ x' = .ok a' ∧ g a' = g a := by
  cases x <;> cases x' <;> simp_all [Except.map]

theorem bind_eq_error {e : ε} :
    (x >>= f) = .error e ↔ x = .error e ∨ ∃ a, x = .ok a ∧ f a = .error e := by
  cases x <;> simp [bind, Except.bind]

end

@[simp] theorem require_eq_error {c : Bool} {e' : AppError} : require c e = .error e' ↔
    c = false ∧ e = e' := by
  cases c <;> simp [require]

/-- `raise` when a lookup found nothing. -/
def found {α : Type} (x : Option α) (e : AppError) : Result α :=
  match x with
  | some a => .ok a
  | none => .error e

@[simp] theorem found_eq_ok {α : Type} {x : Option α} {a : α} : found x e = .ok a ↔ x = some a := by
  cases x <;> simp [found]

theorem exists_found {α : Type} {x : Option α} : (∃ a, found x e = .ok a) ↔ x.isSome = true := by
  cases x <;> simp [found]

/-! ## Which errors a computation can raise -/

/-- Whatever `x` raises satisfies `P`. -/
def OnlyRaises (P : AppError → Prop) {α : Type} (x : Result α) : Prop := ∀ e, x = .error e → P e

section
variable {P : AppError → Prop} {α β : Type}

@[simp] theorem onlyRaises_ok (a : α) : OnlyRaises P (.ok a : Result α) := nofun

variable {e : AppError}

@[simp] theorem onlyRaises_error : OnlyRaises P (.error e : Result α) ↔ P e :=
  ⟨fun h => h e rfl, fun h _ he => Except.error.inj he ▸ h⟩

theorem onlyRaises_bind {x : Result α} {f : α → Result β} :
    OnlyRaises P (x >>= f) ↔ OnlyRaises P x ∧ ∀ a, x = .ok a → OnlyRaises P (f a) := by
  cases x <;> simp [bind, Except.bind]

@[simp] theorem onlyRaises_pure (a : α) : OnlyRaises P (pure a : Result α) := onlyRaises_ok a

@[simp] theorem onlyRaises_require {c : Bool} : OnlyRaises P (require c e) ↔ c = true ∨ P e := by
  cases c <;> simp [require]

@[simp] theorem onlyRaises_found {x : Option α} : OnlyRaises P (found x e) ↔
    x.isSome = true ∨ P e := by
  cases x <;> simp [found]

@[simp] theorem onlyRaises_map {x : Result α} {f : α → β} : OnlyRaises P (x.map f) ↔
    OnlyRaises P x := by
  cases x <;> simp [Except.map]

@[simp] theorem onlyRaises_fmap {x : Result α} {f : α → β} : OnlyRaises P (f <$> x) ↔
    OnlyRaises P x := by
  cases x <;> simp [Functor.map, Except.map]

theorem onlyRaises_bind_iff {Q : AppError → Prop} {x : Result α} {f : α → Result β}
    (h : OnlyRaises Q x) (hne : ∀ e, Q e → ¬P e) :
    OnlyRaises P (x >>= f) ↔ ∃ a, x = .ok a ∧ OnlyRaises P (f a) := by
  have hok : OnlyRaises P x ↔ ∃ a, x = .ok a := by
    cases x with
    | error e => simp [hne e (h e rfl)]
    | ok a => simp
  rw [onlyRaises_bind, hok]
  constructor
  · rintro ⟨⟨a, ha⟩, hrest⟩
    exact ⟨a, ha, hrest a ha⟩
  · rintro ⟨a, ha, hrest⟩
    refine ⟨⟨a, ha⟩, fun b hb => ?_⟩
    rw [Except.ok.inj (hb.symm.trans ha)]
    exact hrest

end

end Friday
