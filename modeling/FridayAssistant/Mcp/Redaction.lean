import Mathlib
import FridayAssistant.Lib.Json
import FridayAssistant.Lib.Replace
/-!
# Redaction of what an MCP server returns (infrastructure/mcp/redaction.py)

The secrets are replaced one after another. A replacement puts a marker between brackets, and no
secret has a bracket: so none can arise across the edge of a marker, and none occurs inside one.
Whatever the order, each replacement takes its own secret away (`replace_removes`) and brings none
back (`replace_keeps_absent`).
-/
namespace Friday.Mcp
open PyJson
open PyText (replace contains)

def redacted : String := "[REDACTED]"

structure SensitiveValueRedactor where
  values : List String

namespace SensitiveValueRedactor

/-- `from_values` (:20): the distinct, non-empty values, longest first; values of one length stand
in the order in which the set gives them, which is any. -/
structure FromValues (secrets : List String) (r : SensitiveValueRedactor) : Prop where
  perm : r.values.Perm (secrets.filter (· ≠ "")).dedup
  sorted : r.values.Pairwise fun a b => b.length ≤ a.length

theorem FromValues.mem_iff {secrets : List String} {r : SensitiveValueRedactor}
    (h : FromValues secrets r) {s : String} : s ∈ r.values ↔ s ∈ secrets ∧ s ≠ "" := by
  rw [h.perm.mem_iff, List.mem_dedup, List.mem_filter, decide_eq_true_iff]

/-- `_text` (:43). -/
def text (r : SensitiveValueRedactor) (value : String) : String :=
  r.values.foldl (fun value secret => replace secret redacted value) value

/-- `members[key] = value`. -/
def assign (members : List (String × JsonValue)) (key : String) (value : JsonValue) :
    List (String × JsonValue) :=
  if members.any (·.1 = key) then members.map fun m => if m.1 = key then (key, value) else m
  else members ++ [(key, value)]

mutual

/-- `_walk` (:31); `none` is `McpProtocolError`. -/
def walk (r : SensitiveValueRedactor) (depth : Nat) : JsonValue → Option JsonValue
  | .str s => if depth > 64 then none else some (.str (r.text s))
  | .arr items => if depth > 64 then none else (walkItems r (depth + 1) items).map .arr
  | .obj members => if depth > 64 then none else (walkMembers r (depth + 1) [] members).map .obj
  | value => if depth > 64 then none else some value

def walkItems (r : SensitiveValueRedactor) (depth : Nat) : List JsonValue → Option (List JsonValue)
  | [] => some []
  | v :: vs => do return (← walk r depth v) :: (← walkItems r depth vs)

/-- The dict comprehension, with the members built so far. -/
def walkMembers (r : SensitiveValueRedactor) (depth : Nat) (done : List (String × JsonValue)) :
    List (String × JsonValue) → Option (List (String × JsonValue))
  | [] => some done
  | (k, v) :: kvs => do walkMembers r depth (assign done (r.text k) (← walk r depth v)) kvs

end

/-- `redact` (:25). -/
def redact (r : SensitiveValueRedactor) (value : JsonValue) : Option JsonValue := r.walk 1 value

end SensitiveValueRedactor

/-- Not empty, without the brackets of the marker, and no part of what stands between them. -/
structure Sensitive (secret : String) : Prop where
  nonempty : secret ≠ ""
  left : '[' ∉ secret.toList
  right : ']' ∉ secret.toList
  inner : contains secret "REDACTED" = false

/-- `p` holds of every string and every key at any depth. -/
inductive EveryText (p : String → Prop) : JsonValue → Prop where
  | null : EveryText p .null
  | bool (b : Bool) : EveryText p (.bool b)
  | int (n : Int) : EveryText p (.int n)
  | float (repr : String) : EveryText p (.float repr)
  | str {s : String} (h : p s) : EveryText p (.str s)
  | arr {items : List JsonValue} (h : ∀ v ∈ items, EveryText p v) : EveryText p (.arr items)
  | obj {members : List (String × JsonValue)} (keys : ∀ m ∈ members, p m.1) (h : ∀ m ∈ members, EveryText p m.2) :
      EveryText p (.obj members)

/-! ## One text -/

section
variable {secret other text : String}

/-- What occurs after a replacement occurred before it, at a place where nothing was replaced. -/
theorem Sensitive.of_replace (h : Sensitive secret) (hin : contains secret (replace other redacted text) = true) :
    ∃ rest, rest <:+ text.toList ∧ secret.toList <+: rest ∧ ¬ other.toList <+: rest := by
  have hne : secret.toList ≠ [] := by simpa using h.nonempty
  have hinner : ¬ secret.toList <:+: "REDACTED".toList := fun hin =>
    Bool.eq_false_iff.1 h.inner (PyText.contains_iff.2 hin)
  rw [PyText.contains_iff, replace, String.toList_ofList] at hin
  exact PyText.infix_replaceFrom hne h.left h.right hinner 0 hin

theorem replace_removes (h : Sensitive secret) :
    contains secret (replace secret redacted text) = false := by
  refine Bool.eq_false_iff.2 fun hin => ?_
  obtain ⟨rest, -, hpre, hnot⟩ := h.of_replace hin
  exact hnot hpre

theorem replace_keeps_absent (h : Sensitive secret) (habsent : contains secret text = false) :
    contains secret (replace other redacted text) = false := by
  refine Bool.eq_false_iff.2 fun hin => ?_
  obtain ⟨rest, hrest, hpre, -⟩ := h.of_replace hin
  exact Bool.eq_false_iff.1 habsent (PyText.contains_iff.2 (hpre.isInfix.trans hrest.isInfix))

/-- The loop over the secrets: gone is what was absent at the start or has been replaced. -/
theorem foldl_replace_absent (h : Sensitive secret) (values : List String) (text : String)
    (hgone : secret ∈ values ∨ contains secret text = false) :
    contains secret (values.foldl (fun value s => replace s redacted value) text) = false := by
  induction values generalizing text with
  | nil => exact hgone.resolve_left List.not_mem_nil
  | cons s values ih =>
    refine ih _ ?_
    rcases hgone with hmem | habsent
    · rcases List.mem_cons.1 hmem with rfl | hmem
      · exact .inr (replace_removes h)
      · exact .inl hmem
    · exact .inr (replace_keeps_absent h habsent)

end

/-! ## Every value -/

section
variable {r : SensitiveValueRedactor} {p : String → Prop}

theorem mem_assign {members : List (String × JsonValue)} {key : String} {value : JsonValue}
    {m : String × JsonValue} (h : m ∈ SensitiveValueRedactor.assign members key value) :
    m ∈ members ∨ m = (key, value) := by
  unfold SensitiveValueRedactor.assign at h
  split at h
  · obtain ⟨m', hm', rfl⟩ := List.mem_map.1 h
    split
    · exact .inr rfl
    · exact .inl hm'
  · simpa using h

/-- Whatever holds of every redacted text holds of every text of the output. -/
theorem walk_everyText (htext : ∀ s, p (r.text s)) (value : JsonValue) :
    ∀ {depth : Nat} {out : JsonValue}, r.walk depth value = some out → EveryText p out := by
  -- along the value, its items and its members; a dict is built from the members before
  refine @JsonValue.rec (fun value => ∀ {depth out}, r.walk depth value = some out →
    EveryText p out) (fun items => ∀ {depth out}, r.walkItems depth items = some out → ∀ v ∈ out,
    EveryText p v) (fun members => ∀ {depth done out}, (∀ m ∈ done, p m.1 ∧ EveryText p m.2) →
      r.walkMembers depth done members = some out → ∀ m ∈ out, p m.1 ∧ EveryText p m.2)
    (fun member => ∀ {depth out}, r.walk depth member.2 = some out → EveryText p out)
    ?_ ?_ ?_ ?_ ?_ ?_ ?_ ?_ ?_ ?_ ?_ ?_ value
  · intro depth out h
    cases (Option.ite_none_left_eq_some.1 h).2
    exact .null
  · intro b depth out h
    cases (Option.ite_none_left_eq_some.1 h).2
    exact .bool b
  · intro n depth out h
    cases (Option.ite_none_left_eq_some.1 h).2
    exact .int n
  · intro x depth out h
    cases (Option.ite_none_left_eq_some.1 h).2
    exact .float x
  · intro s depth out h
    cases (Option.ite_none_left_eq_some.1 h).2
    exact .str (htext s)
  · intro items ih depth out h
    obtain ⟨vs, hvs, rfl⟩ := Option.map_eq_some_iff.1 (Option.ite_none_left_eq_some.1 h).2
    exact .arr (ih hvs)
  · intro members ih depth out h
    obtain ⟨ms, hms, rfl⟩ := Option.map_eq_some_iff.1 (Option.ite_none_left_eq_some.1 h).2
    have hnone : ∀ m ∈ ([] : List (String × JsonValue)), p m.1 ∧ EveryText p m.2 := fun m hm => by cases hm
    have hall := ih hnone hms
    exact .obj (fun m hm => (hall m hm).1) fun m hm => (hall m hm).2
  · intro depth out h
    cases h
    nofun
  · intro v vs ihv ihvs depth out h x hx
    obtain ⟨w, hw, h⟩ := Option.bind_eq_some_iff.1 h
    obtain ⟨ws, hws, h⟩ := Option.bind_eq_some_iff.1 h
    cases h
    rcases List.mem_cons.1 hx with rfl | hx
    · exact ihv hw
    · exact ihvs hws x hx
  · intro depth done out hdone h
    cases h
    exact hdone
  · rintro ⟨k, v⟩ kvs ihv ihkvs depth done out hdone h
    obtain ⟨w, hw, h⟩ := Option.bind_eq_some_iff.1 h
    refine ihkvs (fun m hm => ?_) h
    rcases mem_assign hm with hm | rfl
    · exact hdone m hm
    · exact ⟨htext k, ihv hw⟩
  · exact fun _ _ ih => ih

/-- **Redaction is complete**: no secret occurs in a string or a key of the output, whatever the
order and the overlaps of the secrets. -/
theorem redaction_complete {secrets : List String} (hr : r.FromValues secrets)
    (hsensitive : ∀ secret ∈ secrets, Sensitive secret) {value out : JsonValue} (h : r.redact value = some out) :
    ∀ secret ∈ secrets, EveryText (fun text => contains secret text = false) out := by
  intro secret hsecret
  have hs := hsensitive secret hsecret
  have hmem : secret ∈ r.values := hr.mem_iff.2 ⟨hsecret, hs.nonempty⟩
  exact walk_everyText (fun s => foldl_replace_absent hs r.values s (.inl hmem)) value h

/-- Two secrets that overlap: `ab` is cut by the replacement of `bcd`, and `abx` stays out of
sight. -/
theorem redaction_complete_sample :
    EveryText (fun text => contains "abx" text = false)
      (.obj [("k[REDACTED]", .arr [.str "a[REDACTED]x"])]) :=
  redaction_complete
    (show SensitiveValueRedactor.FromValues ["abx", "bcd"] ⟨["bcd", "abx"]⟩ from ⟨by decide, by decide⟩)
    (by
      intro secret hsecret
      rcases List.mem_cons.1 hsecret with rfl | hsecret
      · exact ⟨by decide, by decide, by decide, by decide⟩
      · obtain rfl := List.mem_singleton.1 hsecret
        exact ⟨by decide, by decide, by decide, by decide⟩)
    (show SensitiveValueRedactor.redact ⟨["bcd", "abx"]⟩ (.obj [("kabx", .arr [.str "abcdx"])]) = _ from rfl) "abx"
    (by decide)

end
end Friday.Mcp
