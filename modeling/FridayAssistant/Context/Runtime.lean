import FridayAssistant.Context.Sections
/-!
# `build_runtime_context` (application/runtime_context.py)

The core document is rendered again and again, each time with one item less, until it fits what the
skills and the conversation leave of the budget; what cannot be shrunk is cut off. Skills,
conversation, memory and the workflow context are then appended in this order.

The budget the loop works against does not know the workflow context, which gets what the loop and
the memory section leave.
-/
namespace Friday.Context
open Runs PyJson

structure ContextRequest where
  toolManifest : List ToolDescriptor
  attemptNumber : Nat
  turnNumber : Nat
  maxChars : Nat
  memoryContext : Option MemoryContext
  memoryMaxChars : Nat := 4000
  conversationContext : Option ConversationContext
  workflowContext : Option String
  conversationMaxChars : Nat := 6000
  maxSkillContextChars : Option Nat
  maxAgentContextChars : Option Nat

/-- Appended after a blank line, unless it is empty. -/
def addSection (document part : String) : String :=
  if part = "" then document else document ++ "\n\n" ++ part

def separator (part : String) : Nat := if part = "" then 0 else 2

def truncationMarker : String := "\n[context truncated to budget]"

/-! ## The drop loop -/

section
variable (s : RunSnapshot) (rendered : Omitted → String) (budget : Nat)

variable {s rendered budget}

end

/-! ## The parts -/

namespace ContextRequest
variable (q : ContextRequest)

/-- What the conversation may take of the characters the skills leave. -/
def conversationBudget (remaining : Nat) : Nat :=
  min q.conversationMaxChars (remaining - minContextChars)

def conversation (remaining : Nat) : Except ContextFailure String :=
  match q.conversationContext with
  | some c => if 0 < q.conversationBudget remaining then buildConversationSection c (q.conversationBudget remaining) else .ok ""
  | none => .ok ""

/-- The memory section, in what is left of the budget. -/
def addMemory (document : String) : String :=
  match q.memoryContext with
  | some memory =>
    -- `available` is compared as an integer: nothing is appended when the document leaves no room
    if document.length + 2 < q.maxChars then
      addSection document (boundedMemorySection memory (min q.memoryMaxChars (q.maxChars - document.length - 2)))
    else document
  | none => document

end ContextRequest

section
variable (env : Rendering) (s : RunSnapshot) (q : ContextRequest)

abbrev renderCore : Omitted → String := render env s q.toolManifest q.attemptNumber q.turnNumber

end

end Friday.Context
