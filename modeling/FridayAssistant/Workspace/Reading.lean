import FridayAssistant.Basic
import FridayAssistant.Lib.Utf8
/-!
# Reading a workspace file (workspace_files.py:115)

`read_text` reads the first `max_file_bytes` bytes of a regular file. When the file has more, a
character may be cut at the end of them, so what does not decode is left out; that it is only left
out at the end is not checked.
-/
namespace Friday.Workspace
open PyText

/-- `_TEXT_TRUNCATION_MARKER`. -/
def textTruncationMarker : List Char := "\n…[truncated: file exceeds read limit]".toList

structure ReadResult where
  content : List Char
  size : Nat
  truncated : Bool
  deriving DecidableEq

/-- `read_text` (:115) once the path is resolved; an error is the text of its `ToolInputInvalid`. -/
def readText (requested : String) (limit : Nat) (file : List UInt8) : Except String ReadResult :=
  let raw := file.take limit
  let truncated := decide (file.length > limit)
  if 0 ∈ raw then .error ("not a UTF-8 text file: " ++ requested)
  -- the strict decoder raises
  else if (decode raw).2 = false ∧ truncated = false then .error ("not a UTF-8 text file: " ++
    requested)
  else .ok ⟨(decode raw).1 ++ if truncated then textTruncationMarker else [],
    file.length, truncated⟩

/-- What a read owes its caller: the text of the first bytes but for a character that is cut, all of
them when nothing is truncated, and an error for what is no text. -/
structure FaithfulRead (requested : String) (limit : Nat) (file : List UInt8) : Prop where
  begins : ∀ r, readText requested limit file = .ok r → ∃ text,
    r.content = text ++ (if r.truncated then textTruncationMarker else []) ∧ encode text <+: file ∧
      min limit file.length ≤ (encode text).length + 3 ∧ (r.truncated = false → encode text = file)
  rejects : ¬ BeginsText (file.take limit) → ∃ message,
    readText requested limit file = .error message

variable {requested : String} {limit : Nat} {file : List UInt8}

/-- A file that is cut is only refused for a NUL. -/
theorem readText_cut (hzero : 0 ∉ file.take limit) (hlong : limit < file.length) : readText requested limit file =
    .ok ⟨(decode (file.take limit)).1 ++ textTruncationMarker, file.length, true⟩ := by
  simp [readText, hzero, hlong]

/-- A file that is read whole is its text. -/
theorem readText_whole (hzero : 0 ∉ file) (hshort : file.length ≤ limit) : readText requested limit file =
    if (decode file).2 then .ok ⟨(decode file).1, file.length, false⟩
    else .error ("not a UTF-8 text file: " ++ requested) := by
  have hraw : file.take limit = file := List.take_of_length_le hshort
  have htruncated : decide (file.length > limit) = false := decide_eq_false (not_lt.2 hshort)
  cases hclean : (decode file).2 <;> simp [readText, hraw, htruncated, hzero, hclean]

theorem FaithfulRead.of_error {message : String}
    (h : readText requested limit file = .error message) : FaithfulRead requested limit file where
  begins r hr := by
    rw [h] at hr
    cases hr
  rejects _ := ⟨message, h⟩

theorem FaithfulRead.of_whole (hzero : 0 ∉ file) (hshort : file.length ≤ limit) :
    FaithfulRead requested limit file := by
  have hread : readText requested limit file = _ := readText_whole hzero hshort
  by_cases hclean : (decode file).2 = true
  · rw [if_pos hclean] at hread
    have hall : encode (decode file).1 = file := encode_decodeFrom 0 file hclean
    constructor
    · intro r hr
      rw [hread] at hr
      cases hr
      refine ⟨(decode file).1, (List.append_nil _).symm, ?_⟩
      rw [hall]
      exact ⟨List.prefix_rfl, by omega, fun _ => rfl⟩
    · intro hnot
      refine absurd ⟨(decode file).1, ?_⟩ hnot
      rw [hall]
      exact List.take_prefix _ _
  · rw [if_neg hclean] at hread
    exact .of_error hread

/-- What begins like a text loses at most three bytes of its last character. -/
theorem FaithfulRead.of_beginsText (hzero : 0 ∉ file.take limit) (hlong : limit < file.length)
    (htext : BeginsText (file.take limit)) : FaithfulRead requested limit file where
  begins r hr := by
    rw [readText_cut hzero hlong] at hr
    cases hr
    obtain ⟨text, htext⟩ := htext
    obtain ⟨whole, p, c, hraw, hp, hne⟩ := exists_cut htext
    have hdecode : (decode (file.take limit)).1 = whole := by
      rw [hraw, decode_encode_append, Prod.map_fst, decode_cut hp hne, List.append_nil]
    have hlt : p.length < (String.utf8EncodeChar c).length :=
      lt_of_le_of_ne hp.length_le fun h => hne (hp.eq_of_length h)
    have hfour := c.utf8Size_le_four
    have hlength := congrArg List.length hraw
    rw [List.length_take, List.length_append] at hlength
    rw [String.length_utf8EncodeChar] at hlt
    refine ⟨whole, by rw [hdecode]; rfl, ?_, by omega, nofun⟩
    exact (List.prefix_append _ p).trans (hraw ▸ List.take_prefix limit file)
  rejects hnot := absurd htext hnot

/-- **Truncated reads are faithful prefixes** exactly when the file is read whole, has a NUL in what
is read, or begins like a text. -/
theorem truncated_reads_faithful (requested : String) (limit : Nat) (file : List UInt8) :
    FaithfulRead requested limit file ↔
      file.length ≤ limit ∨ 0 ∈ file.take limit ∨ BeginsText (file.take limit) := by
  constructor
  · intro h
    by_contra hnot
    rw [not_or, not_or] at hnot
    obtain ⟨hlong, hzero, htext⟩ := hnot
    obtain ⟨message, herror⟩ := h.rejects htext
    rw [readText_cut hzero (not_le.1 hlong)] at herror
    cases herror
  · intro h
    by_cases hzero : 0 ∈ file.take limit
    · exact .of_error (if_pos hzero)
    · by_cases hshort : file.length ≤ limit
      · exact .of_whole (List.take_of_length_le hshort ▸ hzero) hshort
      · exact .of_beginsText hzero (not_le.1 hshort) ((h.resolve_left hshort).resolve_left hzero)

/-- The byte 0xFF is in no text; what is read is the letter behind it. -/
theorem truncated_read_drops_bytes :
    (readText "a" 2 [0xFF, 0x41, 0x41]).toOption = some ⟨'A' :: textTruncationMarker, 3, true⟩ ∧
      ¬ encode ['A'] <+: [0xFF, 0x41, 0x41] := by decide +kernel

end Friday.Workspace
