import Mathlib
import FridayAssistant.Lib.Text
/-!
# JSON values and their canonical text

A JSON value as `json.loads` builds it, and `json.dumps(value, sort_keys=True,
separators=(",", ":"))` with and without `ensure_ascii`. An object lists its members in
insertion order, a float is the text Python prints for it.
-/
namespace PyJson

inductive JsonValue where
  | null
  | bool (b : Bool)
  | int (n : Int)
  | float (repr : String)
  | str (s : String)
  | arr (items : List JsonValue)
  | obj (members : List (String × JsonValue))

def hexDigit (n : Nat) : Char := "0123456789abcdef".toList.getD (n % 16) '0'

/-- `\uXXXX`. -/
def unicodeEscape (n : Nat) : List Char :=
  ['\\', 'u', hexDigit (n / 4096), hexDigit (n / 256), hexDigit (n / 16), hexDigit n]

/-- What both forms of the encoder escape by name. -/
def escapeNamed? (c : Char) : Option (List Char) :=
  if c = '"' then some ['\\', '"']
  else if c = '\\' then some ['\\', '\\']
  else if c = '\n' then some ['\\', 'n']
  else if c = '\r' then some ['\\', 'r']
  else if c = '\t' then some ['\\', 't']
  else if c.toNat = 8 then some ['\\', 'b']
  else if c.toNat = 12 then some ['\\', 'f']
  else none

/-- `ESCAPE_ASCII`: everything outside printable ASCII, as a surrogate pair outside the basic
plane. -/
def escapeAscii (c : Char) : List Char :=
  let n := c.toNat
  (escapeNamed? c).getD <|
    if 0x20 ≤ n ∧ n ≤ 0x7e then [c]
    else if n < 0x10000 then unicodeEscape n
    else unicodeEscape (0xd800 + (n - 0x10000) / 1024) ++
    unicodeEscape (0xdc00 + (n - 0x10000) % 1024)

/-- `ESCAPE`, for `ensure_ascii=False`: the control characters. -/
def escapeControl (c : Char) : List Char :=
  (escapeNamed? c).getD (if c.toNat < 0x20 then unicodeEscape c.toNat else [c])

def quote (escape : Char → List Char) (s : String) : String :=
  "\"" ++ String.ofList (s.toList.flatMap escape) ++ "\""

/-- Members by key. -/
def keyOrder (a b : String × String) : Prop := a.1 ≤ b.1
  deriving Decidable

mutual

/-- `json.dumps(value, sort_keys=True, separators=(",", ":"))` with the given escapes. -/
def dumpsWith (escape : Char → List Char) : JsonValue → String
  | .null => "null"
  | .bool true => "true"
  | .bool false => "false"
  | .int n => toString n
  | .float repr => repr
  | .str s => quote escape s
  | .arr items => "[" ++ PyText.join "," (dumpsItems escape items) ++ "]"
  | .obj members =>
    -- the values are written first, so that the recursion is on the list itself
    let pairs := (dumpsMembers escape members).insertionSort keyOrder
    "\x7b" ++ PyText.join "," (pairs.map fun kv => quote escape kv.1 ++ ":" ++ kv.2) ++ "\x7d"

def dumpsItems (escape : Char → List Char) : List JsonValue → List String
  | [] => []
  | v :: vs => dumpsWith escape v :: dumpsItems escape vs

def dumpsMembers (escape : Char → List Char) : List (String × JsonValue) → List (String × String)
  | [] => []
  | (k, v) :: kvs => (k, dumpsWith escape v) :: dumpsMembers escape kvs

end

/-- The default, `ensure_ascii=True`. -/
def dumps (v : JsonValue) : String := dumpsWith escapeAscii v

/-- `ensure_ascii=False`. -/
def dumpsUnicode (v : JsonValue) : String := dumpsWith escapeControl v

example : dumps (.obj [("b", .arr [.int 2, .null]), ("a", .str "x\n")]) =
    "\x7b\"a\":\"x\\n\",\"b\":[2,null]\x7d" := by decide

/-- `value.get(key)` of an object; `none` when the key is missing or the value no object. -/
def JsonValue.get? : JsonValue → String → Option JsonValue
  | .obj members, k => (members.find? (·.1 = k)).map (·.2)
  | _, _ => none

end PyJson
