import Mathlib
/-!
# The speech queue (apps/web/src/voice/tts-queue.ts)

A call of the adapter or of the listeners is the last thing `speak`, `stop` and the callbacks do. So
what is called from inside of it, a callback that comes at once for instance, happens as if right
after it, and the calls can be taken one after the other.
-/
namespace Friday.Web

/-- `MAX_TTS_QUEUE`. -/
def maxTtsQueue : Nat := 3

structure TtsQueue (α : Type) where
  items : List α := []
  playing : Bool := false
  generation : Nat := 0
  activeGeneration : Option Nat := none

/-- A call, or a callback of the utterance with this generation. -/
inductive TtsAction (α : Type) where
  | speak (options : α)
  | stop
  | onStart (generation : Nat)
  | onEnd (generation : Nat)
  | onError (generation : Nat)

/-- A call of the adapter, or a notification. -/
inductive TtsOutput (α : Type) where
  | speak (generation : Nat) (item : α)
  | stop
  | started
  | ended

variable {α : Type}

namespace TtsQueue

def next (q : TtsQueue α) : TtsQueue α × Option (TtsOutput α) :=
  match q.items with
  | [] => ({ q with playing := false }, some .ended)
  | item :: items =>
    (⟨items, true, q.generation + 1, some (q.generation + 1)⟩, some (.speak (q.generation + 1) item))

def finished (q : TtsQueue α) (generation : Nat) : TtsQueue α × Option (TtsOutput α) :=
  if q.activeGeneration ≠ some generation then (q, none) else { q with activeGeneration := none }.next

/-- The newest items, the new one included. -/
def pushed (items : List α) (item : α) : List α :=
  (items ++ [item]).drop (items.length + 1 - maxTtsQueue)

/-- `spoken` is what `speak` makes of the options: `spokenText` on their text. -/
def act (spoken : α → α) (q : TtsQueue α) : TtsAction α → TtsQueue α × Option (TtsOutput α)
  | .speak options =>
    let q := { q with items := pushed q.items (spoken options) }
    if q.playing then (q, none) else q.next
  | .stop => (⟨[], false, q.generation + 1, none⟩, some .stop)
  | .onStart generation => (q, if q.activeGeneration = some generation then some .started else none)
  | .onEnd generation | .onError generation => q.finished generation

end TtsQueue

/-! ## What happened so far -/

/-- The item handed to the adapter, with its generation. -/
@[simp] def TtsOutput.handed : Option (TtsOutput α) → List (Nat × α)
  | some (.speak generation item) => [(generation, item)]
  | _ => []

/-- The utterances of the list that are still unfinished when the action is taken. -/
@[simp] def TtsAction.over : TtsAction α → List Nat → List Nat
  | .stop, _ => []
  | .onEnd generation, l | .onError generation, l => l.erase generation
  | _, l => l

/-- The items that wait, or are handed over, by the action; the rest is dropped. -/
@[simp] def TtsAction.kept (spoken : α → α) (items : List α) : TtsAction α → List α
  | .speak options => TtsQueue.pushed items (spoken options)
  | .stop => []
  | _ => items

/-- The queue, with the items it accepted and handed over, and the utterances handed over since the
last stop that did not end or fail yet. -/
structure TtsSession (α : Type) where
  queue : TtsQueue α := {}
  accepted : List α := []
  handed : List (Nat × α) := []
  unfinished : List Nat := []

def TtsSession.act (spoken : α → α) (s : TtsSession α) (a : TtsAction α) : TtsSession α where
  queue := (s.queue.act spoken a).1
  accepted := match a with
    | .speak options => s.accepted ++ [spoken options]
    | _ => s.accepted
  handed := s.handed ++ TtsOutput.handed (s.queue.act spoken a).2
  unfinished := (TtsOutput.handed (s.queue.act spoken a).2).map Prod.fst ++ a.over s.unfinished

def ttsSession (spoken : α → α) (actions : List (TtsAction α)) : TtsSession α :=
  actions.foldl (TtsSession.act spoken) {}

/-! ## One action -/

/-- What an action does to a queue that plays exactly when an utterance is active. -/
structure TtsStep (q : TtsQueue α) (a : TtsAction α) (kept : List α) (q' : TtsQueue α)
    (out : Option (TtsOutput α)) : Prop where
  playing : q'.playing = q'.activeGeneration.isSome
  active : q'.activeGeneration.toList = (TtsOutput.handed out).map Prod.fst ++
    a.over q.activeGeneration.toList
  items : (TtsOutput.handed out).map Prod.snd ++ q'.items = kept
  later : q.generation ≤ q'.generation ∧ ∀ p ∈ TtsOutput.handed out, q.generation < p.1 ∧
    p.1 ≤ q'.generation
  alone : TtsOutput.handed out ≠ [] → a.over q.activeGeneration.toList = []
  ended : out = some .ended → q'.items = [] ∧ ∃ g, (a = .onEnd g ∨ a = .onError g) ∧
    q.activeGeneration = some g

theorem TtsQueue.act_step (spoken : α → α) {q : TtsQueue α}
    (hq : q.playing = q.activeGeneration.isSome) (a : TtsAction α) :
    TtsStep q a (a.kept spoken q.items) (q.act spoken a).1 (q.act spoken a).2 := by
  obtain ⟨items, playing, generation, active⟩ := q
  obtain rfl : playing = active.isSome := hq
  cases a with
  | speak options =>
    cases active with
    | some g => constructor <;> simp [act]
    | none =>
      -- the new item is never dropped
      cases hitems : pushed items (spoken options) with
      | nil =>
        have hlength := congrArg List.length hitems
        simp [pushed, maxTtsQueue] at hlength
        omega
      | cons item rest => constructor <;> simp [act, next, hitems]
  | stop => constructor <;> simp [act]
  | onStart g => by_cases hg : active = some g <;> constructor <;> simp [act, hg]
  | onEnd g | onError g =>
    by_cases hg : active = some g
    · subst hg
      cases items <;> constructor <;> simp [act, finished, next]
    · have herase : active.toList.erase g = active.toList := List.erase_of_not_mem fun h => hg (by simpa using h)
      constructor <;> simp [act, finished, hg, herase]

/-! ## Every session -/

structure TtsSession.Ok (s : TtsSession α) : Prop where
  playing : s.queue.playing = s.queue.activeGeneration.isSome
  unfinished : s.unfinished = s.queue.activeGeneration.toList
  known : ∀ p ∈ s.handed, p.1 ≤ s.queue.generation
  distinct : (s.handed.map Prod.fst).Nodup
  order : (s.handed.map Prod.snd ++ s.queue.items).Sublist s.accepted

theorem TtsSession.Ok.act {spoken : α → α} {s : TtsSession α} (h : s.Ok) (a : TtsAction α) :
    (s.act spoken a).Ok := by
  have hstep := TtsQueue.act_step spoken h.playing a
  refine ⟨hstep.playing, ?_, fun p hp => ?_, ?_, ?_⟩
  · simp only [TtsSession.act]
    rw [h.unfinished, hstep.active]
  · rcases List.mem_append.1 hp with hp | hp
    · exact Nat.le_trans (h.known p hp) hstep.later.1
    · exact (hstep.later.2 p hp).2
  · simp only [TtsSession.act, List.map_append, List.nodup_append]
    refine ⟨h.distinct, ?_, fun g hg g' hg' => ?_⟩
    · cases (s.queue.act spoken a).2 with
      | none => exact .nil
      | some out => cases out <;> simp
    · obtain ⟨p, hp, rfl⟩ := List.mem_map.1 hg
      obtain ⟨p', hp', rfl⟩ := List.mem_map.1 hg'
      exact Nat.ne_of_lt (Nat.lt_of_le_of_lt (h.known p hp) (hstep.later.2 p' hp').1)
  · simp only [TtsSession.act, List.map_append, List.append_assoc, hstep.items]
    cases a with
    | speak options =>
      refine ((List.drop_sublist _ _).append_left _).trans ?_
      rw [← List.append_assoc]
      exact h.order.append (.refl _)
    | stop => exact ((List.nil_sublist _).append_left _).trans h.order
    | onStart | onEnd | onError => exact h.order

/-- After any calls and callbacks and for any next one: generations and accepted items are handed
over once and in order, and the action hands over an item only when no utterance is unfinished,
changes nothing for an utterance that is over, drops items only by a stop or an overflow, and
reports the end only when the last utterance has just finished. -/
theorem speech_queue_sequential (spoken : α → α) (actions : List (TtsAction α)) (a : TtsAction α) :
    let s := ttsSession spoken actions
    let r := s.queue.act spoken a
    (s.handed.map Prod.fst).Nodup ∧ (s.handed.map Prod.snd ++ s.queue.items).Sublist s.accepted ∧
    (∀ g item, r.2 = some (.speak g item) → a.over s.unfinished = []) ∧
    (∀ g, (a = .onStart g ∨ a = .onEnd g ∨ a = .onError g) → g ∉ s.unfinished → r = (s.queue, none)) ∧
    (TtsOutput.handed r.2).map Prod.snd ++ r.1.items = a.kept spoken s.queue.items ∧
    (r.2 = some .ended → r.1.items = [] ∧ ∃ g, (a = .onEnd g ∨ a = .onError g) ∧ s.unfinished = [g]) := by
  intro s r
  have hok : s.Ok := List.foldlRecOn actions _ ⟨rfl, rfl, nofun, .nil, .slnil⟩ fun _ h a _ =>
    h.act a
  have hstep : TtsStep s.queue a _ r.1 r.2 := TtsQueue.act_step spoken hok.playing a
  refine ⟨hok.distinct, hok.order, fun g item hout => ?_, fun g ha hg => ?_, hstep.items,
    fun hout => ?_⟩
  · rw [hok.unfinished]
    exact hstep.alone (by rw [hout]; simp)
  · have hactive : s.queue.activeGeneration ≠ some g := fun h => hg (by rw [hok.unfinished, h]; simp)
    rcases ha with rfl | rfl | rfl <;> simp [r, TtsQueue.act, TtsQueue.finished, hactive]
  · obtain ⟨hitems, g, ha, hactive⟩ := hstep.ended hout
    exact ⟨hitems, g, ha, by rw [hok.unfinished, hactive]; rfl⟩

end Friday.Web
