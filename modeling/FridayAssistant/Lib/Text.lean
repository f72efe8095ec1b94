import Mathlib
/-!
# Python text

The parts of `str` the program's own checks use, on code points: `len` is the number of
characters, `str.strip` removes the characters for which `str.isspace` holds.
-/
namespace PyText

/-- `sep.join(parts)`. -/
def join (sep : String) : List String → String
  | [] => ""
  | [p] => p
  | p :: ps => p ++ sep ++ join sep ps

/-- `text[:n]`. -/
def take (n : Nat) (text : String) : String := String.ofList (text.toList.take n)

/-- `needle in text`. -/
def contains (needle text : String) : Bool := decide (needle.toList <:+: text.toList)

theorem length_take (n : Nat) (text : String) : (take n text).length = min n text.length := by
  rw [take, String.length_ofList, List.length_take, String.length_toList]

theorem contains_iff {needle text : String} : contains needle text = true ↔
    needle.toList <:+: text.toList :=
  decide_eq_true_iff

theorem length_join (sep : String) : ∀ parts : List String,
    (join sep parts).length = (parts.map String.length).sum + sep.length * (parts.length - 1)
  | [] => rfl
  | [p] => by simp [join]
  | p :: q :: ps => by
    have hrest := length_join sep (q :: ps)
    simp only [join, String.length_append, List.map_cons, List.sum_cons, List.length_cons, Nat.add_sub_cancel] at hrest ⊢
    rw [hrest]
    ring

/-- What is joined is a part of the result. -/
theorem contains_join {sep part : String} : ∀ {parts : List String}, part ∈ parts →
    contains part (join sep parts) = true
  | [p], h => by
    obtain rfl := List.mem_singleton.1 h
    exact contains_iff.2 (List.infix_refl _)
  | p :: q :: ps, h => by
    have hjoin : join sep (p :: q :: ps) = p ++ sep ++ join sep (q :: ps) := rfl
    rw [contains_iff, hjoin, String.toList_append, String.toList_append]
    rcases List.mem_cons.1 h with rfl | h
    · exact ((List.prefix_append _ _).trans (List.prefix_append _ _)).isInfix
    · exact (contains_iff.1 (contains_join h)).trans (List.suffix_append _ _).isInfix

/-- `str.isspace` of one character. -/
def isSpace (c : Char) : Bool :=
  let n := c.toNat
  (0x09 ≤ n && n ≤ 0x0D) || (0x1C ≤ n && n ≤ 0x20) || n == 0x85 || n == 0xA0 || n == 0x1680 ||
    (0x2000 ≤ n && n ≤ 0x200A) || n == 0x2028 || n == 0x2029 || n == 0x202F || n == 0x205F ||
    n == 0x3000

/-- `str.strip()`. -/
def strip (s : String) : String :=
  String.ofList (((s.toList.dropWhile isSpace).reverse.dropWhile isSpace).reverse)

/-- What is left has no white space at either end. -/
theorem strip_strip (s : String) : strip (strip s) = strip s := by
  have hleft : ((s.toList.dropWhile isSpace).rdropWhile isSpace).dropWhile isSpace =
      (s.toList.dropWhile isSpace).rdropWhile isSpace := by
    rw [List.dropWhile_eq_self_iff]
    intro hlength
    -- the first letter is the one the whole text without leading space starts with
    rw [(List.rdropWhile_prefix isSpace (s.toList.dropWhile isSpace)).getElem hlength]
    exact List.dropWhile_get_zero_not isSpace s.toList _
  show String.ofList ((((String.ofList ((s.toList.dropWhile isSpace).rdropWhile
    isSpace)).toList).dropWhile isSpace).rdropWhile isSpace) = _
  rw [String.toList_ofList, hleft, List.rdropWhile_idempotent]
  rfl

/-- The words between white space, the letters of the word in hand in reverse. -/
def wordsAux (word : List Char) : List Char → List String
  | [] => if word.isEmpty then [] else [String.ofList word.reverse]
  | c :: cs =>
    if isSpace c then (if word.isEmpty then [] else [String.ofList word.reverse]) ++ wordsAux [] cs
    else wordsAux (c :: word) cs

/-- `text.split()`. -/
def words (text : String) : List String := wordsAux [] text.toList

/-- `not value.strip()`. -/
def isBlank (s : String) : Bool := s.toList.all isSpace

/-- `[0-9a-f]`. -/
def isLowerHex (c : Char) : Bool := ('0' ≤ c && c ≤ '9') || ('a' ≤ c && c ≤ 'f')

/-- The lower case letter an ASCII letter of a pattern is compared by under `re.IGNORECASE`: four
letters outside ASCII count as `i`, `i`, `s` and `k`. -/
def foldCase (c : Char) : Char :=
  if 'A' ≤ c ∧ c ≤ 'Z' then Char.ofNat (c.toNat + 32)
  else if c.toNat = 0x130 ∨ c.toNat = 0x131 then 'i'
  else if c.toNat = 0x17F then 's'
  else if c.toNat = 0x212A then 'k'
  else c

/-- `[a-z0-9_]`. -/
def isCodeChar (c : Char) : Bool := ('a' ≤ c && c ≤ 'z') || ('0' ≤ c && c ≤ '9') || c == '_'

/-! ## `datetime.isoformat` of a UTC instant -/

/-- Year, month and day of a day counted from 1970-01-01, in the proleptic Gregorian calendar. -/
def civil (day : Int) : Int × Nat × Nat :=
  let z := day + 719468
  let era := z.fdiv 146097
  let dayOfEra := (z - era * 146097).toNat
  let yearOfEra := (dayOfEra - dayOfEra / 1460 + dayOfEra / 36524 - dayOfEra / 146096) / 365
  let dayOfYear := dayOfEra - (365 * yearOfEra + yearOfEra / 4 - yearOfEra / 100)
  let shifted := (5 * dayOfYear + 2) / 153
  let month := if shifted < 10 then shifted + 3 else shifted - 9
  (yearOfEra + era * 400 + (if month ≤ 2 then 1 else 0), month,
    dayOfYear - (153 * shifted + 2) / 5 + 1)

/-- `n` in decimal, filled with zeros to `width` digits. -/
def padded (width n : Nat) : String :=
  let digits := toString n
  String.ofList (List.replicate (width - digits.toList.length) '0') ++ digits

/-- `isoformat()` of the instant so many microseconds after 1970-01-01T00:00:00+00:00. -/
def isoformat (micros : Int) : String :=
  let day := micros.fdiv 86400000000
  let rest := (micros - day * 86400000000).toNat
  let seconds := rest / 1000000
  let date := civil day
  padded 4 date.1.toNat ++ "-" ++ padded 2 date.2.1 ++ "-" ++ padded 2 date.2.2 ++ "T" ++
    padded 2 (seconds / 3600) ++ ":" ++ padded 2 (seconds / 60 % 60) ++ ":" ++ padded 2 (seconds % 60) ++
    (if rest % 1000000 = 0 then "" else "." ++ padded 6 (rest % 1000000)) ++ "+00:00"

example : isoformat 1709251199000001 = "2024-02-29T23:59:59.000001+00:00" := by decide +kernel

end PyText
