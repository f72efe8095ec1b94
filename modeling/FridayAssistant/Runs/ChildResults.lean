import FridayAssistant.Runs.System
import FridayAssistant.Tools.Authorization
/-!
# The size of a stored node result (workflow_execution_use_cases.py:849-869)

`_bounded_child_result` cuts the summary to 4000 characters, but compares the escaped text with
8000 and has only the details to give up. A character takes up to twelve characters once escaped,
so what is left without the details can still be too long.
-/
namespace Friday.Runs
open PyJson

/-- The characters of `s` in a JSON text, without the quotes. -/
def escapedLength (s : String) : Nat := (s.toList.flatMap escapeAscii).length

variable (db : Db) (child : Run) (completedAt : Time)

/-- The payload of the latest `AGENT_FINISHED` event of the child. -/
def finishedPayload : Option JsonValue :=
  ((db.events.filter fun e => e.runId = child.id && e.type = .agentFinished).getLast?).map
    (·.payload)

/-- `summary[:4000]`. -/
def clippedSummary : String :=
  match (finishedPayload db child).bind (·.get? "summary") with
  | some (.str s) => String.ofList (s.toList.take 4000)
  | _ => ""

def completedText : String := PyText.isoformat (child.endedAt.getD completedAt)

/-- The result before the details. -/
def plainResult : List (String × JsonValue) :=
  [("child_run_id", .str (Uuid.text child.id)),
    ("child_execution_id", .str (Uuid.text child.executionId)),
    ("completed_at", .str (completedText child completedAt)),
    ("summary", .str (clippedSummary db child))]

def fullResult (details : JsonValue) : JsonValue :=
  .obj (plainResult db child completedAt ++ [("details", details)])

/-- The text is within the bound, and the details are kept when the whole is. -/
structure ResultBounded : Prop where
  short : (dumps (boundedChildResult db child completedAt)).toList.length ≤ 8000
  details : ∀ details, (finishedPayload db child).bind (·.get? "details") = some details →
    details ≠ .null → (dumps (fullResult db child completedAt details)).toList.length ≤ 8000 →
    (boundedChildResult db child completedAt).get? "details" = some details

/-! ## Lengths -/

theorem length_escapeAscii_hexDigits : ∀ (w n : Nat), ∀ c ∈ hexDigits w n,
    (escapeAscii c).length = 1
  | 0, _, c, hc => by simp [hexDigits] at hc
  | w + 1, n, c, hc => by
    have digit : ∀ m < 16, (escapeAscii ("0123456789abcdef".toList.getD m '0')).length = 1 := by decide
    rcases List.mem_append.1 hc with hc | hc
    · exact length_escapeAscii_hexDigits w _ c hc
    · rw [List.mem_singleton.1 hc]
      exact digit _ (Nat.mod_lt n (by omega))

/-- The text of an id is written as it is. -/
theorem escapedLength_text (u : Uuid) : escapedLength (Uuid.text u) = 36 := by
  have plain : ∀ c ∈ (Uuid.text u).toList, (escapeAscii c).length = 1 := by
    intro c hc
    by_cases hdash : c = '-'
    · rw [hdash]; decide
    · simp only [Tools.toList_text, List.mem_append, List.mem_cons, hdash, false_or] at hc
      have hdigit : c ∈ hexDigits 32 u.toNat := by
        rcases hc with hc | hc | hc | hc | hc
        · exact List.mem_of_mem_take hc
        all_goals exact List.mem_of_mem_drop (List.mem_of_mem_take hc)
      exact length_escapeAscii_hexDigits 32 _ c hdigit
  rw [escapedLength, List.length_flatMap, List.map_congr_left plain]
  simp [Tools.length_text]

theorem length_quote (s : String) : (quote escapeAscii s).toList.length = escapedLength s + 2 := by
  simp [quote, escapedLength]

theorem length_dumps_plainResult : (dumps (.obj (plainResult db child completedAt))).toList.length =
    146 + escapedLength (completedText child completedAt) + escapedLength (clippedSummary db child) := by
  have keys : escapedLength "child_execution_id" = 18 ∧ escapedLength "child_run_id" = 12 ∧
      escapedLength "completed_at" = 12 ∧ escapedLength "summary" = 7 := by decide
  simp [dumps, plainResult, dumpsWith, dumpsMembers, List.insertionSort, List.orderedInsert,
    keyOrder, PyText.join, length_quote, escapedLength_text, keys]
  omega

theorem length_dumps_fullResult (details : JsonValue) : (dumps (fullResult db child completedAt details)).toList.length =
    (dumps (.obj (plainResult db child completedAt))).toList.length + 11 + (dumps details).toList.length := by
  have key : escapedLength "details" = 7 := by decide
  simp [dumps, fullResult, plainResult, dumpsWith, dumpsMembers, List.insertionSort,
    List.orderedInsert, keyOrder, PyText.join, length_quote, key]
  omega

/-! ## The bound -/

theorem boundedChildResult_eq : boundedChildResult db child completedAt =
    match (finishedPayload db child).bind (·.get? "details") with
    | none | some .null => .obj (plainResult db child completedAt)
    | some details =>
      if (dumps (fullResult db child completedAt details)).toList.length > 8000
      then .obj (plainResult db child completedAt) else fullResult db child completedAt details := rfl

/-- The bound holds exactly when the first 4000 characters of the summary are short once escaped. -/
theorem child_result_bounded_iff : ResultBounded db child completedAt ↔
    escapedLength (completedText child completedAt) + escapedLength (clippedSummary db child) ≤ 7854 := by
  have hplain := length_dumps_plainResult db child completedAt
  have heq := boundedChildResult_eq db child completedAt
  -- without details, or with details that do not fit, what is stored is the plain result
  have drop (h : boundedChildResult db child completedAt = .obj (plainResult db child completedAt))
      (hlong : ∀ details, (finishedPayload db child).bind (·.get? "details") = some details →
        details ≠ .null → 8000 < (dumps (fullResult db child completedAt details)).toList.length) :
      ResultBounded db child completedAt ↔
        escapedLength (completedText child completedAt) + escapedLength (clippedSummary db child) ≤ 7854 := by
    refine ⟨fun hb => ?_, fun hle => ⟨by rw [h]; omega, fun d hd hne hfit => ?_⟩⟩
    · have := hb.short
      rw [h] at this
      omega
    · exact absurd (hlong d hd hne) (Nat.not_lt.2 hfit)
  split at heq
  next hnone => exact drop heq fun _ hd => by simp [hnone] at hd
  next hnull => exact drop heq fun _ hd hne => absurd (Option.some.inj (hd.symm.trans hnull)) hne
  next details _ hsome =>
    have hfull := length_dumps_fullResult db child completedAt details
    split at heq
    next hlong =>
      refine drop heq fun d hd _ => ?_
      rwa [Option.some.inj (hd.symm.trans hsome)]
    next hfit =>
      refine ⟨fun _ => by omega, fun _ => ⟨by rw [heq]; omega, fun d hd _ _ => ?_⟩⟩
      rw [heq, Option.some.inj (hd.symm.trans hsome)]
      rfl

/-- A run that finished with the given summary. -/
def summarizedDb (summary : String) : Db :=
  { sampleDb with events := [{ runId := 1, type := .agentFinished, sequence := 1, occurredAt := 0,
                               payload := .obj [("summary", .str summary)], stepId := none }] }

/-- 4000 letters outside ASCII take 24000 characters. -/
theorem accented_result_exceeds : ¬ (dumps (boundedChildResult
    (summarizedDb (String.ofList (List.replicate 4000 'é'))) (Run.new 1 1 0 none) 0)).toList.length ≤ 8000 := by
  have hresult (s : String) : boundedChildResult (summarizedDb s) (Run.new 1 1 0 none) 0 =
      .obj (plainResult (summarizedDb s) (Run.new 1 1 0 none) 0) := rfl
  have hsummary (s : String) : clippedSummary (summarizedDb s) (Run.new 1 1 0 none) =
      String.ofList (s.toList.take 4000) := rfl
  have hlength : escapedLength (String.ofList ((List.replicate 4000 'é').take 4000)) = 24000 := by
    have hchar : (escapeAscii 'é').length = 6 := by decide
    simp [-List.reduceReplicate, escapedLength, List.length_flatMap, hchar]
  rw [hresult, length_dumps_plainResult, hsummary, String.toList_ofList, hlength]
  omega

end Friday.Runs
