import FridayAssistant.Lib.Json
import FridayAssistant.Lib.Transition
/-!
# What reaches the stdin of a driver (infrastructure/process/stdio_jsonrpc.py, computer/mcp_stdio.py)

A frame is one message and a newline. `_write` may stop anywhere in a frame, at the deadline or when
the pipe breaks; the transport reports that and keeps the session, so the next request starts its
frame where the last one stopped. As long as a request is made only at the end of a frame, each
child gets complete frames and then at most one more.
-/
namespace Friday.Process
open PyJson Transition

inductive StdioSessionError where
  | unavailable
  | timeout
  | protocol
  | remote
deriving DecidableEq

/-! ## `_write` (stdio_jsonrpc.py:276) -/

/-- What `select` and `os.write` answer next. -/
inductive PipeEvent where
  /-- `os.write` took so many bytes. -/
  | accepts (n : Nat)
  /-- The deadline passed, the pipe broke, or the caller was interrupted. -/
  | stops (e : StdioSessionError)

/-- The loop, with the bytes still to send: what is written, and how it ends. -/
def writeLoop : List UInt8 → List PipeEvent → List UInt8 × Except StdioSessionError Unit
  | [], _ => ([], .ok ())
  | _ :: _, [] => ([], .error .timeout)
  | _ :: _, .stops e :: _ => ([], .error e)
  | b :: rest, .accepts n :: events =>
    let later := writeLoop ((b :: rest).drop n) events
    ((b :: rest).take n ++ later.1, later.2)

theorem writeLoop_spec (payload : List UInt8) (events : List PipeEvent) :
    (writeLoop payload events).1 <+: payload ∧
      ((writeLoop payload events).2 = .ok () → (writeLoop payload events).1 = payload) := by
  fun_induction writeLoop payload events with
  | case1 => simp
  | case2 => simp
  | case3 => simp
  | case4 b rest n events later ih =>
    constructor
    · obtain ⟨tail, htail⟩ := ih.1
      exact ⟨tail, by rw [List.append_assoc, htail, List.take_append_drop]⟩
    · intro hok
      rw [ih.2 hok, List.take_append_drop]

/-- One call of `_write`: the frame, and how far it got. -/
structure Write where
  payload : List UInt8
  written : List UInt8
  partOf : written <+: payload

/-- The bytes are those of complete frames and of at most one more frame, after which nothing was
written. -/
def Framed (writes : List Write) : Prop :=
  ∀ w ∈ (writes.filter (·.written ≠ [])).dropLast, w.written = w.payload
  deriving Decidable

/-- The last byte ended a frame. -/
def AtBoundary (writes : List Write) : Prop := ∀ w ∈ writes, w.written = [] ∨ w.written = w.payload
  deriving Decidable

theorem AtBoundary.framed_append {writes : List Write} (h : AtBoundary writes) (w : Write) :
    Framed (writes ++ [w]) := by
  intro x hx
  have hmem : x ∈ writes ∧ x.written ≠ [] := by
    by_cases hw : w.written = []
    · simp only [List.filter_append, List.filter_cons_of_neg, hw, ne_eq, not_true_eq_false,
        decide_false, Bool.false_eq_true, not_false_eq_true, List.filter_nil, List.append_nil] at hx
      simpa using List.dropLast_subset _ hx
    · simpa [List.filter_append, hw] using hx
  exact (h x hmem.1).resolve_left hmem.2

/-! ## The session and the transport -/

/-- A session owns at most one child, which is named by its place among the spawned ones. -/
structure Session where
  process : Option Nat
  nextId : Nat

/-- `McpStdioTransport`, with what was written to the stdin of every child so far. -/
structure Transport where
  started : Bool
  session : Option Session
  pipes : List (List Write)

def Transport.new : Transport := ⟨false, none, []⟩

inductive ComputerUseError where
  | driverUnavailable
  | driverTimeout
  | driverFailed

/-- How `_request` and `_notify` report a failure (mcp_stdio.py:250-290). -/
def StdioSessionError.reported : StdioSessionError → ComputerUseError
  | .timeout => .driverTimeout
  | .unavailable => .driverUnavailable
  | .protocol | .remote => .driverFailed

/-- How the pipe takes a request, and what `_await_response` makes of the answers. -/
structure Exchange where
  events : List PipeEvent
  reply : Except StdioSessionError JsonValue

-- `json.dumps(message, separators=(",", ":"), allow_nan=False).encode()`, unless it raises
variable (encode : JsonValue → Option (List UInt8))

/-- `_write`. -/
def write (pipes : List (List Write)) (process : Option Nat) (message : JsonValue)
    (events : List PipeEvent) : Except StdioSessionError Unit × List (List Write) :=
  match process, encode message with
  | none, _ => (.error .unavailable, pipes)
  | some _, none => (.error .protocol, pipes)
  | some child, some text =>
    let payload := text ++ [10]
    let sent := writeLoop payload events
    (sent.2, pipes.modify child (· ++ [⟨payload, sent.1, (writeLoop_spec payload events).1⟩]))

/-- `_request` (mcp_stdio.py:250) and `StdioJsonRpcSession.request` under it. -/
def request (t : Transport) (method : String) (params : JsonValue) (x : Exchange) :
    Except ComputerUseError JsonValue × Transport :=
  match t.session with
  | none => (.error .driverUnavailable, t)
  | some s =>
    let id := s.nextId + 1
    let sent := write encode t.pipes s.process
      (.obj [("jsonrpc", .str "2.0"), ("id", .int id), ("method", .str method), ("params", params)]) x.events
    ((sent.1.bind fun _ => x.reply).mapError (·.reported),
      { t with session := some { s with nextId := id }, pipes := sent.2 })

/-- `_notify` (mcp_stdio.py:270). -/
def notify (t : Transport) (method : String) (params : JsonValue) (events : List PipeEvent) :
    Except ComputerUseError Unit × Transport :=
  match t.session with
  | none => (.ok (), t)
  | some s =>
    let sent := write encode t.pipes s.process
      (.obj [("jsonrpc", .str "2.0"), ("method", .str method), ("params", params)]) events
    (sent.1.mapError (·.reported), { t with pipes := sent.2 })

def initializeParams : JsonValue :=
  .obj [("protocolVersion", .str "2025-06-18"), ("capabilities", .obj []),
    ("clientInfo", .obj [("name", .str "friday-computer-use"), ("version", .str "1")])]

/-- `_handshake`. -/
def handshake (t : Transport) (x : Exchange) (events : List PipeEvent) :
    Except ComputerUseError Unit × Transport :=
  match request encode t "initialize" initializeParams x with
  | (.error e, t) => (.error e, t)
  | (.ok _, t) => notify encode t "notifications/initialized" (.obj []) events

/-- `start` (mcp_stdio.py:132): a handshake that fails closes the child. Its failure is already a
driver error, so the closed session stays. -/
def start (t : Transport) (spawned : Bool) (x : Exchange) (events : List PipeEvent) : Transport :=
  if t.started then t
  else if spawned then
    let opened : Transport := { t with session := some ⟨some t.pipes.length, 0⟩, pipes := t.pipes ++ [[]] }
    match handshake encode opened x events with
    | (.ok _, t) => { t with started := true }
    | (.error _, t) => { t with session := t.session.map fun s => { s with process := none } }
  else { t with session := none }

inductive TransportAction where
  | start (spawned : Bool) (x : Exchange) (events : List PipeEvent)
  /-- `list_tool_names` and `call_tool`. -/
  | request (method : String) (params : JsonValue) (x : Exchange)
  | close

def step (t : Transport) : TransportAction → Transport
  | .start spawned x events => start encode t spawned x events
  | .request method params x => (request encode t method params x).2
  | .close => { t with session := none, started := false }

def transportSystem : System Transport TransportAction :=
  .ofStep (fun t => t = .new) (fun t a => some (step encode t a)) fun _ _ => True

/-- A request is made at the end of a frame. -/
def endsFrame (t : Transport) : TransportAction → Prop
  | .request .. => ∀ child ∈ t.session.bind (·.process), AtBoundary (t.pipes.getD child [])
  | _ => True

instance (t : Transport) : (a : TransportAction) → Decidable (endsFrame t a)
  | .request .. => inferInstanceAs (Decidable (∀ child ∈ t.session.bind (·.process), _))
  | .start .. | .close => isTrue trivial

/-! ## Every child -/

variable {encode} {t : Transport} {pipes : List (List Write)} {message : JsonValue}
  {events : List PipeEvent}

/-- Every stdin is framed. -/
def AllFramed (pipes : List (List Write)) : Prop := ∀ writes ∈ pipes, Framed writes
  deriving Decidable

theorem write_framed {process : Option Nat} (h : AllFramed pipes)
    (hend : ∀ child ∈ process, AtBoundary (pipes.getD child [])) :
    AllFramed (write encode pipes process message events).2 := by
  unfold write
  split
  · exact h
  · exact h
  · next child text hmessage =>
    intro writes hmem
    obtain ⟨i, hi, rfl⟩ := List.getElem_of_mem hmem
    rw [List.length_modify] at hi
    by_cases hchild : child = i
    · subst hchild
      have hb := hend child rfl
      rw [List.getD_eq_getElem?_getD, List.getElem?_eq_getElem hi, Option.getD_some] at hb
      simpa using hb.framed_append _
    · simpa [List.getElem_modify, hchild] using h _ (List.getElem_mem hi)

/-- A write that goes through ends its frame. -/
theorem write_ends {child : Nat} (hend : AtBoundary (pipes.getD child []))
    (hok : (write encode pipes (some child) message events).1 = .ok ()) :
    AtBoundary ((write encode pipes (some child) message events).2.getD child []) := by
  unfold write at hok ⊢
  split at hok
  · cases hok
  · cases hok
  · next c text hprocess hmessage =>
    cases hprocess
    simp only [List.getD_eq_getElem?_getD, List.getElem?_modify, if_true] at hend ⊢
    cases hpipe : pipes[child]? with
    | none => simp [AtBoundary]
    | some writes =>
      rw [hpipe] at hend
      intro w hw
      rcases List.mem_append.1 hw with hw | hw
      · exact hend w hw
      · rw [List.mem_singleton.1 hw]
        exact .inr ((writeLoop_spec _ _).2 hok)

/-- The handshake of a new child: its second frame follows a complete first one. -/
theorem handshake_framed {x : Exchange} (hsession : t.session = some ⟨some pipes.length, 0⟩)
    (hpipes : t.pipes = pipes ++ [[]]) (h : AllFramed pipes) :
    AllFramed (handshake encode t x events).2.pipes := by
  have hopened : AllFramed t.pipes := by
    intro writes hmem
    rw [hpipes, List.mem_append, List.mem_singleton] at hmem
    rcases hmem with hmem | rfl
    · exact h writes hmem
    · nofun
  have hempty : AtBoundary (t.pipes.getD pipes.length []) := by simp [hpipes, AtBoundary]
  unfold handshake request
  simp only [hsession]
  split
  · next e t' hsent =>
    obtain ⟨-, rfl⟩ := Prod.mk.inj hsent
    refine write_framed hopened ?_
    rintro child ⟨⟩
    exact hempty
  · next v t' hsent =>
    obtain ⟨hok, rfl⟩ := Prod.mk.inj hsent
    refine write_framed (write_framed hopened ?_) ?_
    · rintro child ⟨⟩
      exact hempty
    · rintro child ⟨⟩
      refine write_ends hempty ?_
      cases hw : (write encode t.pipes (some pipes.length) _ x.events).1 with
      | ok _ => rfl
      | error e => rw [hw] at hok; cases hok

theorem step_framed {a : TransportAction} (h : AllFramed t.pipes) (hend : endsFrame t a) :
    AllFramed (step encode t a).pipes := by
  cases a with
  | close => exact h
  | request method params x =>
    show AllFramed (request encode t method params x).2.pipes
    unfold request
    split
    · exact h
    · next s hs =>
      refine write_framed h fun child hchild => hend child ?_
      rw [hs]
      exact hchild
  | start spawned x events =>
    have hframed : AllFramed (handshake encode { t with
        session := some ⟨some t.pipes.length, 0⟩, pipes := t.pipes ++ [[]] } x events).2.pipes :=
      handshake_framed rfl rfl h
    show AllFramed (start encode t spawned x events).pipes
    unfold start
    split
    · exact h
    · split
      · dsimp only
        split
        · next hok => rw [hok] at hframed; exact hframed
        · next herr => rw [herr] at hframed; exact hframed
      · exact h

/-- **Framing holds** in every run whose requests are made at the end of a frame. -/
theorem wire_framing (h : ((transportSystem encode).restrict endsFrame).Reachable t) :
    AllFramed t.pipes := by
  refine h.invariant (fun t => AllFramed t.pipes) ?_ ?_
  · rintro _ rfl
    nofun
  · rintro t a _ - hframed ⟨hend, ⟨⟩, -⟩
    exact step_framed hframed hend

mutual

/-- `json.dumps(message, separators=(",", ":"))`: the keys stay in their order. The messages of the
sample hold no arrays. -/
def compactText : JsonValue → String
  | .obj members => "\x7b" ++ PyText.join "," (compactMembers members) ++ "\x7d"
  | value => dumps value

def compactMembers : List (String × JsonValue) → List String
  | [] => []
  | (k, v) :: kvs => (quote escapeAscii k ++ ":" ++ compactText v) :: compactMembers kvs

end

def sampleEncode (message : JsonValue) : Option (List UInt8) :=
  some (compactText message).toByteArray.data.toList

def sampleStart : TransportAction :=
  .start true ⟨[.accepts 200], .ok (.obj [])⟩ [.accepts 10, .accepts 90]

/-- `tools/list`, of whose 59 bytes the child takes `n` in time. -/
def sampleRequest (n : Nat) : TransportAction :=
  .request "tools/list" (.obj []) ⟨[.accepts n], .ok (.obj [])⟩

def sampleRun (actions : List TransportAction) : Transport :=
  System.run (fun t a => some (step sampleEncode t a)) .new (sampleStart :: actions)

/-- A request stops after one byte, and no other follows. -/
theorem wire_framing_stopped :
    AllFramed (sampleRun [sampleRequest 59, sampleRequest 1, .close]).pipes :=
  wire_framing ⟨.new, rfl, .run_restrict (by decide +kernel)⟩

/-- **Two messages in one line**: the request after it starts its frame inside the frame that
stopped. -/
theorem wire_framing_spliced : (transportSystem sampleEncode).Reachable (sampleRun [sampleRequest 1, sampleRequest 59]) ∧
    ¬ AllFramed (sampleRun [sampleRequest 1, sampleRequest 59]).pipes :=
  ⟨⟨.new, rfl, .run (by decide +kernel)⟩, by decide +kernel⟩

end Friday.Process
