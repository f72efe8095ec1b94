import FridayAssistant.Basic
/-!
# The conversation section (application/conversation_context.py)

`build_conversation_section`: a window on the newest messages under a character budget, with a line
for what was left out.
-/
namespace Friday.Context

/-- What building a context raises: the `ValueError`s by their text, its three subclasses, and
`SkillIntegrityFailed`. -/
inductive ContextFailure where
  | value (message : String)
  | skillContextTooLarge
  | agentContextTooLarge
  | delegatedContextTooLarge
  | skillIntegrityFailed
  deriving DecidableEq

/-- `raise` unless the condition holds. -/
def ensure (c : Bool) (e : ContextFailure) : Except ContextFailure Unit :=
  if c then .ok () else .error e

@[simp] theorem ensure_eq_ok {c : Bool} {e : ContextFailure} {u : Unit} : ensure c e = .ok u ↔
    c = true := by
  cases c <;> simp [ensure]

def truncationSuffix : String := "…[truncated]"

/-- `text[: limit - len(suffix)] + suffix`, for what is longer than the limit. -/
def clip (text : String) (limit : Nat) : String :=
  if text.length ≤ limit then text else PyText.take (limit - truncationSuffix.length) text ++
    truncationSuffix

inductive ConversationRole where
  | user | friday

def ConversationRole.value : ConversationRole → String
  | .user => "User"
  | .friday => "Friday"

structure ConversationMessage where
  role : ConversationRole
  text : String

structure ConversationContext where
  messages : List ConversationMessage
  omittedTurns : Nat

namespace ConversationContext

def header : String := "# CONVERSATION"

def omittedLine (omitted : Nat) : String := "[" ++ toString omitted ++ " older turn(s) omitted]"

/-- The header, and the line for what was left out if anything was. -/
def opening (omitted : Nat) : List String :=
  header :: if omitted = 0 then [] else [omittedLine omitted]

/-- `_clip` of this module: white space is collapsed first. -/
def clipLine (text : String) (limit : Nat) : String :=
  clip (PyText.join " " (PyText.words text)) limit

/-- One older line: it is kept when it fits before those kept already. When nothing is kept yet, as
much of it as fits is, but it counts as omitted. -/
def keepLine (maxChars : Nat) (kept : List String × Nat) (line : String) : List String × Nat :=
  let (kept, omitted) := kept
  if (PyText.join "\n" (opening omitted ++ line :: kept)).length ≤ maxChars then
    (line :: kept, omitted)
  else
    let room := maxChars - (PyText.join "\n" [header, omittedLine (omitted + 1)]).length - 1
    (if kept.isEmpty && truncationSuffix.length < room then [clipLine line room] else kept, omitted + 1)

/-- The loop that drops the oldest kept line while the section is too long; also the lines before
them. -/
def popOldest (maxChars : Nat) : List String → Nat → List String → List String × List String
  | line :: next :: rest, omitted, lines =>
    if maxChars < (PyText.join "\n" (lines ++ line :: next :: rest)).length then
      popOldest maxChars (next :: rest) (omitted + 1) [header, omittedLine (omitted + 1)]
    else (line :: next :: rest, lines)
  | kept, _, lines => (kept, lines)

/-- What does not fit after all is cut down to the header. -/
def orHeader (maxChars : Nat) (document : String) : String :=
  if document.length ≤ maxChars then document else PyText.take maxChars header

theorem length_orHeader_le (maxChars : Nat) (document : String) :
    (orHeader maxChars document).length ≤ maxChars := by
  unfold orHeader
  split
  · assumption
  · rw [PyText.length_take]
    exact min_le_left _ _

/-- The section for a positive budget. -/
def window (c : ConversationContext) (maxChars : Nat) : String :=
  if c.messages.isEmpty && c.omittedTurns = 0 then ""
  else
    let lines := c.messages.map fun m => m.role.value ++ ": " ++ m.text
    let (kept, omitted) := lines.reverse.foldl (keepLine maxChars) ([], c.omittedTurns)
    let (kept, lines) := popOldest maxChars kept omitted (opening omitted)
    let document := PyText.join "\n" (lines ++ kept)
    let room := maxChars - (PyText.join "\n" lines).length - 1
    orHeader maxChars (match kept.getLast? with
      | some last =>
        if maxChars < document.length && truncationSuffix.length < room then
          PyText.join "\n" (lines ++ [clipLine last room])
        else document
      | none => document)

end ConversationContext

/-- `build_conversation_section`. -/
def buildConversationSection (c : ConversationContext) (maxChars : Nat) :
    Except ContextFailure String := do
  ensure (1 ≤ maxChars) (.value "max_chars must be positive")
  return c.window maxChars

theorem ConversationContext.length_window_le (c : ConversationContext) (maxChars : Nat) :
    (c.window maxChars).length ≤ maxChars := by
  unfold window
  split
  · exact Nat.zero_le _
  · exact length_orHeader_le _ _

end Friday.Context
