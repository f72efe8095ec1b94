import FridayAssistant.Domain.Approval
import FridayAssistant.Domain.Tool
/-!
# Tool calls and their authorization fingerprints (application/tool_gateway.py, tool_authorization.py)

An approval authorizes one exact action: it carries the SHA-256 of a text that names the
fingerprint version, the run, the step, the tool, the canonical input and the external scope.
`sha256` stands for `hashlib.sha256(material.encode("utf-8")).hexdigest()`.

The run is on the second line of both forms, and its text has 36 characters, so a material
tells its version and its run (`material_ne_legacyMaterial`, `run_of_material`).
-/
namespace Friday.Tools
open PyJson

/-- A character of `[a-z0-9_]`, the first of a name part being a letter. -/
def isNamePart : List Char → Bool
  | c :: cs => ('a' ≤ c && c ≤ 'z') && cs.all PyText.isCodeChar
  | [] => false

/-- `TOOL_NAME_PATTERN.match` (runtime_actions.py:28); `$` also stands before a final newline. -/
def isToolName (s : String) : Bool :=
  let cs := s.toList
  let cs := if cs.getLast? = some '\n' then cs.dropLast else cs
  isNamePart (cs.takeWhile (· ≠ '.')) && isNamePart ((cs.dropWhile (· ≠ '.')).drop 1)

/-- `ToolCall`: the name matches the pattern and the input is an object. -/
structure ToolCall where
  tool : String
  members : List (String × JsonValue)
  tool_ok : isToolName tool = true

def ToolCall.toolInput (c : ToolCall) : JsonValue := .obj c.members

/-- `ToolRiskAssessment`, the verdict of the gateway on a call. -/
structure ToolRiskAssessment where
  tool : String
  readOnly : Bool
  approvalRequired : Bool
  category : ApprovalCategory
  summary : String
  authorizationScope : Option String
  provenance : Option ToolProvenance
  summary_ok : PyText.isBlank summary = false
  scope_ok : provenance.isSome = true → PyText.isBlank (authorizationScope.getD "") = false

/-- `ToolExecutionResult`, without the artifacts, which nothing here reads. -/
inductive ToolExecutionResult where
  | succeeded (output : JsonValue)
  | failed (failure : Failure) (output : JsonValue)

/-- `str(step_id) if step_id is not None else ""`. -/
def stepText (stepId : Option RunStepId) : String := (stepId.map Uuid.text).getD ""

/-- The text `compute_authorization_fingerprint` hashes. -/
def authorizationMaterial (runId : RunId) (stepId : Option RunStepId) (call : ToolCall)
    (scope : Option String) : String :=
  PyText.join "\n" ["2", Uuid.text runId, stepText stepId, call.tool, dumps call.toolInput,
    scope.getD ""]

/-- The text `compute_legacy_authorization_fingerprint` hashes. -/
def legacyMaterial (runId : RunId) (stepId : Option RunStepId) (call : ToolCall) : String :=
  PyText.join "\n" ["1", Uuid.text runId, stepText stepId, call.tool, dumps call.toolInput]

def computeAuthorizationFingerprint (sha256 : String → String) (runId : RunId)
    (stepId : Option RunStepId) (call : ToolCall) (scope : Option String) : String :=
  sha256 (authorizationMaterial runId stepId call scope)

def computeLegacyAuthorizationFingerprint (sha256 : String → String) (runId : RunId)
    (stepId : Option RunStepId) (call : ToolCall) : String :=
  sha256 (legacyMaterial runId stepId call)

/-- `find_authorizing_approval` (:85). -/
def findAuthorizingApproval (approvals : List ApprovalRequest) (fingerprint : String) :
    Option ApprovalRequest :=
  approvals.find? fun a =>
    a.status = .approved && a.authorizationFingerprint = some fingerprint && !a.isConsumed

/-! ## What a material tells -/

theorem length_hexDigits : ∀ w n, (hexDigits w n).length = w
  | 0, _ => rfl
  | w + 1, n => by simp [hexDigits, length_hexDigits w]

theorem hexDigit_inj : ∀ a < 16, ∀ b < 16,
    "0123456789abcdef".toList.getD a '0' = "0123456789abcdef".toList.getD b '0' → a = b := by decide

theorem hexDigits_inj : ∀ (w : Nat) {m n : Nat}, m < 16 ^ w → n < 16 ^ w →
    hexDigits w m = hexDigits w n → m = n
  | 0, m, n, hm, hn, _ => by omega
  | w + 1, m, n, hm, hn, h => by
    obtain ⟨hhigh, hlow⟩ := List.append_inj' h rfl
    have hd : m / 16 = n / 16 := by
      refine hexDigits_inj w ?_ ?_ hhigh
      · rw [Nat.pow_succ] at hm; omega
      · rw [Nat.pow_succ] at hn; omega
    have hr : m % 16 = n % 16 :=
      hexDigit_inj _ (Nat.mod_lt _ (by omega)) _ (Nat.mod_lt _ (by omega)) (List.singleton_inj.1 hlow)
    omega

/-- The characters of `str(uuid)`. -/
theorem toList_text (u : Uuid) : (Uuid.text u).toList =
    (hexDigits 32 u.toNat).take 8 ++ '-' :: (((hexDigits 32 u.toNat).drop 8).take 4 ++ '-' ::
      (((hexDigits 32 u.toNat).drop 12).take 4 ++ '-' :: (((hexDigits 32 u.toNat).drop 16).take 4 ++ '-' ::
        ((hexDigits 32 u.toNat).drop 20).take 12))) := by
  simp [Uuid.text]

theorem length_text (u : Uuid) : (Uuid.text u).toList.length = 36 := by
  simp [toList_text, length_hexDigits]

theorem text_injective : Function.Injective Uuid.text := by
  intro u v h
  have h := congrArg String.toList h
  rw [toList_text, toList_text] at h
  have len := length_hexDigits 32
  obtain ⟨h₁, h⟩ := List.append_inj h (by simp [len])
  obtain ⟨h₂, h⟩ := List.append_inj (List.cons.inj h).2 (by simp [len])
  obtain ⟨h₃, h⟩ := List.append_inj (List.cons.inj h).2 (by simp [len])
  obtain ⟨h₄, h⟩ := List.append_inj (List.cons.inj h).2 (by simp [len])
  have h₅ := (List.cons.inj h).2
  have hcut : ∀ d : List Char, d.length = 32 →
      d = d.take 8 ++ ((d.drop 8).take 4 ++ ((d.drop 12).take 4 ++ ((d.drop 16).take 4 ++ (d.drop 20).take 12))) := by
    intro d hd
    have tail : ∀ i n, i + n ≤ 32 → d.drop i = (d.drop i).take n ++ d.drop (i + n) := by
      intro i n _
      rw [← List.drop_drop, List.take_append_drop]
    rw [show (d.drop 20).take 12 = d.drop 20 from List.take_of_length_le (by simp [hd]),
      ← tail 16 4 (by omega), ← tail 12 4 (by omega), ← tail 8 4 (by omega), List.take_append_drop]
  have hdig : hexDigits 32 u.toNat = hexDigits 32 v.toNat := by
    rw [hcut _ (len u.toNat), hcut _ (len v.toNat), h₁, h₂, h₃, h₄, h₅]
  exact BitVec.eq_of_toNat_eq (hexDigits_inj 32 u.isLt v.isLt hdig)

/-- A material begins with its version and its run. -/
theorem toList_material (runId : RunId) (stepId : Option RunStepId) (call : ToolCall) (scope : Option String) :
    ∃ rest, (authorizationMaterial runId stepId call scope).toList = '2' :: '\n' :: ((Uuid.text runId).toList ++ rest) := by
  simp [authorizationMaterial, PyText.join]

theorem run_of_material {r r' : RunId} {st st' : Option RunStepId} {c c' : ToolCall}
    {sc sc' : Option String}
    (h : authorizationMaterial r st c sc = authorizationMaterial r' st' c' sc') : r = r' := by
  obtain ⟨rest, hm⟩ := toList_material r st c sc
  obtain ⟨rest', hm'⟩ := toList_material r' st' c' sc'
  rw [h, hm'] at hm
  have htail := (List.cons.inj (List.cons.inj hm).2).2
  have htext := (List.append_inj htail (by rw [length_text, length_text])).1
  exact (text_injective (String.toList_injective htext)).symm

theorem material_ne_legacyMaterial (r r' : RunId) (st st' : Option RunStepId) (c c' : ToolCall)
    (sc : Option String) : authorizationMaterial r st c sc ≠ legacyMaterial r' st' c' := by
  intro h
  obtain ⟨rest, hm⟩ := toList_material r st c sc
  obtain ⟨rest', hm'⟩ : ∃ rest, (legacyMaterial r' st' c').toList = '1' :: rest := by
    simp [legacyMaterial, PyText.join]
  rw [h, hm'] at hm
  exact absurd (List.cons.inj hm).1 (by decide)

end Friday.Tools
