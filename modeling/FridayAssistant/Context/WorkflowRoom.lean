import FridayAssistant.Context.Runtime
import FridayAssistant.Runs.NoStrandedWorkflow
/-!
# Room for the workflow context

The scheduler dispatches a node when its context has at most 6000 characters.
`build_runtime_context` appends that context last and checks only then whether it fits: neither the
drop loop nor the memory section leaves room for it. So a child run can fail although dropping one
old item would have been enough. The context is built when everything else fits in what the claimed
sections leave of the budget (`RestFits`); once an item has to be dropped, room is left only if that
item was longer than the workflow context.
-/
namespace Friday.Context
open Runs Tables Queue Transition PyJson
open PyText (join)

section
variable {q : ContextRequest} {document part : String}

theorem length_addSection :
    (addSection document part).length = document.length + separator part + part.length := by
  unfold addSection separator
  split
  · next h => simp [h]
  · rw [String.length_append, String.length_append]
    rfl

theorem separator_le (part : String) : separator part ≤ 2 := by
  unfold separator
  split <;> omega

/-- The conversation section as a text. -/
def conversationText (q : ContextRequest) (remaining : Nat) : String :=
  match q.conversationContext with
  | some c => if 0 < q.conversationBudget remaining then c.window (q.conversationBudget remaining) else ""
  | none => ""

theorem length_conversationText_le (q : ContextRequest) (remaining : Nat) :
    (conversationText q remaining).length ≤ q.conversationBudget remaining := by
  unfold conversationText
  split
  · split
    · exact ConversationContext.length_window_le _ _
    · exact Nat.zero_le _
  · exact Nat.zero_le _

/-- What a conversation may take, with the blank line before it. -/
def conversationRoom (q : ContextRequest) : Nat := q.conversationContext.elim 0 fun _ =>
    q.conversationMaxChars + 2

theorem conversationText_le_room (q : ContextRequest) (remaining : Nat) :
    separator (conversationText q remaining) + (conversationText q remaining).length ≤ conversationRoom q := by
  have hlength := length_conversationText_le q remaining
  have hbudget : q.conversationBudget remaining ≤ q.conversationMaxChars := min_le_left _ _
  have hseparator := separator_le (conversationText q remaining)
  cases hq : q.conversationContext with
  | none =>
    have hempty : conversationText q remaining = "" := by rw [conversationText, hq]
    rw [hempty]
    exact Nat.zero_le _
  | some c =>
    simp only [conversationRoom, hq, Option.elim_some]
    omega

/-- What the memory section may take: two of its texts do not look at their budget. -/
def memoryRoom (q : ContextRequest) : Nat := q.memoryContext.elim 0 fun _ =>
    max q.memoryMaxChars 33 + 2

theorem length_addMemory_le (q : ContextRequest) (document : String) :
    (q.addMemory document).length ≤ document.length + memoryRoom q := by
  unfold ContextRequest.addMemory memoryRoom
  cases q.memoryContext with
  | none => exact le_rfl
  | some memory =>
    simp only [Option.elim_some]
    split
    · have hmemory := length_boundedMemorySection_le memory (min q.memoryMaxChars (q.maxChars - document.length - 2))
      have hseparator := separator_le (boundedMemorySection memory (min q.memoryMaxChars (q.maxChars - document.length - 2)))
      rw [length_addSection]
      omega
    · omega

end

/-! ## When the context is built -/

section
variable (env : Rendering) (s : RunSnapshot) (q : ContextRequest)

def remainingAfterSkills : Nat :=
  q.maxChars - (skillText s.skills).length - separator (skillText s.skills)

/-- What the drop loop works against. -/
def coreBudget : Nat :=
  let conversation := conversationText q (remainingAfterSkills s q)
  remainingAfterSkills s q - conversation.length - separator conversation

/-- The document before the workflow context, from a core document. -/
def documentFrom (core : String) : String :=
  q.addMemory (addSection (addSection core (skillText s.skills))
    (conversationText q (remainingAfterSkills s q)))

variable {env s q}

theorem coreBudget_add (h : (skillText s.skills).length + separator (skillText s.skills) + minContextChars ≤ q.maxChars) :
    let conversation := conversationText q (remainingAfterSkills s q)
    coreBudget s q + separator (skillText s.skills) + (skillText s.skills).length + separator conversation +
      conversation.length = q.maxChars ∧ truncationMarker.length ≤ coreBudget s q := by
  have hlength : (conversationText q (remainingAfterSkills s q)).length ≤ remainingAfterSkills s q - minContextChars :=
    (length_conversationText_le q _).trans (min_le_right _ _)
  have hseparator := separator_le (conversationText q (remainingAfterSkills s q))
  have hmarker : truncationMarker.length = 30 := by decide
  have hmin : minContextChars = 1000 := rfl
  simp only [coreBudget, remainingAfterSkills] at *
  omega

variable {text : String}

end

/-! ## The context of a node -/

/-- A section with the blank line after it. -/
def weight (lines : List String) : Nat := if lines.isEmpty then 0 else (join "\n" lines).length + 2

theorem sum_weight (parts : List (List String)) :
    (parts.map weight).sum = (((parts.filter (!·.isEmpty)).map (join "\n")).map String.length).sum +
      2 * (parts.filter (!·.isEmpty)).length := by
  induction parts with
  | nil => rfl
  | cons lines parts ih =>
    rw [List.map_cons, List.sum_cons, ih]
    cases lines with
    | nil => exact Nat.zero_add _
    | cons line lines =>
      have hweight : weight (line :: lines) = (join "\n" (line :: lines)).length + 2 := rfl
      rw [hweight, List.filter_cons_of_pos rfl]
      simp only [List.map_cons, List.sum_cons, List.length_cons]
      omega

theorem weight_eq_of_title {title : String} {lines : List String} (h : title ≠ "") :
    weight (title :: lines) = separator (join "\n" (title :: lines)) + (join "\n" (title :: lines)).length := by
  have hcontains : PyText.contains title (join "\n" (title :: lines)) = true :=
    PyText.contains_join List.mem_cons_self
  have hne : join "\n" (title :: lines) ≠ "" := fun hempty => by
    rw [hempty, PyText.contains_iff] at hcontains
    exact h (String.toList_eq_nil_iff.1 (List.infix_nil.1 hcontains))
  rw [separator, if_neg hne, Nat.add_comm 2]
  rfl

theorem weight_agentLines : ∀ agent : Option (RunAgentResolution × Agent × AgentRevision),
    weight (agentLines agent) = separator (join "\n" (agentLines agent)) + (join "\n" (agentLines agent)).length
  | none => rfl
  | some (_, _, _) => weight_eq_of_title (by decide)

theorem weight_delegatedWorkSection : ∀ request : Option DelegationRequest,
    weight (delegatedWorkSection request) =
      separator (join "\n" (delegatedWorkSection request)) + (join "\n" (delegatedWorkSection request)).length
  | none => rfl
  | some _ => weight_eq_of_title (by decide)

section
variable (env : Rendering) (s : RunSnapshot) (q : ContextRequest) (text : String)

/-- The objective, the agent, the delegated work, the skills and the workflow context. -/
def claimedDocument : String :=
  addSection (addSection (addSection (addSection (join "\n" (objectiveLines s.task false))
    (join "\n" (agentLines s.agent))) (join "\n" (delegatedWorkSection s.incomingDelegation)))
    (skillText s.skills)) text

/-- They fit together. -/
def SectionsFit : Prop := (claimedDocument s text).length ≤ q.maxChars

/-- The other sections of the core, with nothing dropped. -/
def otherSections : List (List String) :=
  runLines s.run q.attemptNumber q.turnNumber ::
    (sections env s q.toolManifest q.attemptNumber q.turnNumber .none).drop 4

/-- They fit in what is left, together with all that the conversation and the memory may take. -/
def RestFits : Prop :=
  ((otherSections env s q).map weight).sum + conversationRoom q + memoryRoom q ≤
    q.maxChars - (claimedDocument s text).length

variable {env s q text}

/-- Nothing needs to be dropped then, and the workflow context has its room. -/
theorem RestFits.room (h : RestFits env s q text) (hfit : SectionsFit s q text) (hne : text ≠ "")
    (hreserve : (skillText s.skills).length + separator (skillText s.skills) + minContextChars ≤ q.maxChars) :
    (renderCore env s q .none).length ≤ coreBudget s q ∧
      (documentFrom s q (renderCore env s q .none)).length + text.length + 2 ≤ q.maxChars := by
  have hrender : (renderCore env s q .none).length + 2 =
      ((sections env s q.toolManifest q.attemptNumber q.turnNumber .none).map weight).sum := by
    rw [sum_weight, renderCore, render, PyText.length_join, List.length_map]
    have hsep : "\n\n".length = 2 := by decide
    have hpos : 0 < ((sections env s q.toolManifest q.attemptNumber q.turnNumber .none).filter (!·.isEmpty)).length :=
      List.length_pos_of_mem (List.mem_filter.2 ⟨List.mem_cons_self, rfl⟩)
    rw [hsep]
    omega
  have hsections : ((sections env s q.toolManifest q.attemptNumber q.turnNumber .none).map
      weight).sum = weight (objectiveLines s.task false) + weight (agentLines s.agent) +
        weight (delegatedWorkSection s.incomingDelegation) + ((otherSections env s q).map weight).sum := by
    simp only [sections, otherSections, Omitted.none, List.drop_succ_cons, List.drop_zero, List.map_cons, List.sum_cons]
    omega
  have hobjective : weight (objectiveLines s.task false) =
    (join "\n" (objectiveLines s.task false)).length + 2 := rfl
  have htext : separator text = 2 := if_neg hne
  have hconversation := conversationText_le_room q (remainingAfterSkills s q)
  have hmemory := length_addMemory_le q (addSection (addSection
    (renderCore env s q .none) (skillText s.skills))
    (conversationText q (remainingAfterSkills s q)))
  obtain ⟨hsum, -⟩ := coreBudget_add hreserve
  rw [weight_agentLines, weight_delegatedWorkSection, hobjective, ← hrender] at hsections
  simp only [RestFits, SectionsFit, claimedDocument, length_addSection] at h hfit
  rw [length_addSection, length_addSection] at hmemory
  rw [documentFrom]
  omega

end

end Friday.Context
