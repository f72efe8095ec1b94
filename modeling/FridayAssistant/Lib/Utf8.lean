import Mathlib
/-!
# UTF-8 as Python decodes it

`bytes.decode("utf-8", errors="ignore")` leaves out what is no part of a character, and the strict
`decode` raises exactly when there is such a byte. The code of one character is Lean's own.
-/
namespace PyText

/-- `text.encode("utf-8")`. -/
def encode (text : List Char) : List UInt8 := text.flatMap String.utf8EncodeChar

/-- The character the bytes begin with. -/
def firstChar? (bytes : List UInt8) : Option Char := bytes.toByteArray.utf8DecodeChar? 0

/-- The decoder, `skip` bytes before the end of a character. -/
def decodeFrom : Nat → List UInt8 → List Char × Bool
  | _, [] => ([], true)
  | skip + 1, _ :: bytes => decodeFrom skip bytes
  | 0, b :: bytes =>
    match firstChar? (b :: bytes) with
    | some c => (decodeFrom (c.utf8Size - 1) bytes).map (c :: ·) id
    | none => ((decodeFrom 0 bytes).1, false)

/-- The text without what is ignored, and whether nothing was. -/
def decode (bytes : List UInt8) : List Char × Bool := decodeFrom 0 bytes

/-- The bytes of a text, up to somewhere. -/
def BeginsText (bytes : List UInt8) : Prop := ∃ text, bytes <+: encode text

variable {bytes rest p : List UInt8} {c : Char} {text : List Char}

theorem firstChar?_append (c : Char) (rest : List UInt8) :
    firstChar? (String.utf8EncodeChar c ++ rest) = some c := by
  rw [firstChar?, List.toByteArray_append]
  exact ByteArray.utf8DecodeChar?_utf8EncodeChar_append

theorem of_firstChar? (h : firstChar? bytes = some c) :
    bytes = String.utf8EncodeChar c ++ bytes.drop c.utf8Size := by
  have hsome : (bytes.toByteArray.utf8DecodeChar? 0).isSome = true :=
    Option.isSome_iff_exists.2 ⟨c, h⟩
  have hc : bytes.toByteArray.utf8DecodeChar 0 hsome = c := by
    simp only [ByteArray.utf8DecodeChar]
    exact Option.get_of_eq_some _ h
  have henc := congrArg (·.data.toList) (@ByteArray.utf8EncodeChar_utf8DecodeChar bytes.toByteArray
    0 hsome)
  rw [hc] at henc
  have htake : String.utf8EncodeChar c = bytes.take c.utf8Size := by simpa using henc
  rw [htake, List.take_append_drop]

theorem decodeFrom_skip : ∀ (skip : Nat) (bytes : List UInt8),
    decodeFrom skip bytes = decode (bytes.drop skip)
  | 0, _ => rfl
  | _ + 1, [] => rfl
  | skip + 1, _ :: bytes => decodeFrom_skip skip bytes

/-- The decoder reads a whole character and goes on behind it. -/
theorem decode_char (c : Char) (rest : List UInt8) :
    decode (String.utf8EncodeChar c ++ rest) = (decode rest).map (c :: ·) id := by
  obtain ⟨b, tail, hb⟩ := List.exists_cons_of_ne_nil (String.utf8EncodeChar_ne_nil (c := c))
  have hfirst := firstChar?_append c rest
  have hsize := String.length_utf8EncodeChar c
  rw [hb] at hfirst hsize ⊢
  rw [decode, List.cons_append, decodeFrom, ← List.cons_append, hfirst]
  dsimp only
  rw [decodeFrom_skip, ← hsize, List.length_cons, Nat.add_sub_cancel, List.drop_left]

theorem decode_encode_append (rest : List UInt8) : ∀ text : List Char,
    decode (encode text ++ rest) = (decode rest).map (text ++ ·) id
  | [] => rfl
  | c :: text => by
    rw [encode, List.flatMap_cons, List.append_assoc, decode_char, ← encode, decode_encode_append rest text]
    rfl

/-- What is decoded without an error is the text of all bytes. -/
theorem encode_decodeFrom : ∀ (skip : Nat) (bytes : List UInt8), (decodeFrom skip bytes).2 = true →
    encode (decodeFrom skip bytes).1 = bytes.drop skip
  | _, [], _ => by simp [decodeFrom, encode]
  | skip + 1, _ :: bytes, h => encode_decodeFrom skip bytes h
  | 0, b :: bytes, h => by
    rw [decodeFrom] at h ⊢
    cases hfirst : firstChar? (b :: bytes) with
    | none => simp [hfirst] at h
    | some c =>
      simp only [hfirst] at h ⊢
      have hrest := encode_decodeFrom (c.utf8Size - 1) bytes h
      have hsize : (b :: bytes).drop c.utf8Size = bytes.drop (c.utf8Size - 1) := by
        rw [← Nat.sub_add_cancel c.utf8Size_pos, List.drop_succ_cons, Nat.add_sub_cancel]
      rw [List.drop_zero, of_firstChar? hfirst, hsize, ← hrest]
      rfl

/-- Bytes that continue a character are ignored. -/
theorem decode_continuation : ∀ {bytes : List UInt8}, (∀ b ∈ bytes, ¬ b.IsUTF8FirstByte) →
    (decode bytes).1 = []
  | [], _ => rfl
  | b :: bytes, h => by
    have hnone : firstChar? (b :: bytes) = none := by
      by_contra hne
      have hb := ByteArray.isUTF8FirstByte_of_isSome_utf8DecodeChar? (Option.isSome_iff_ne_none.2 hne)
      exact h b List.mem_cons_self (by simpa using hb)
    rw [decode, decodeFrom, hnone]
    exact decode_continuation fun d hd => h d (List.mem_cons_of_mem b hd)

/-- Nothing is left of a character that is cut. -/
theorem decode_cut (h : p <+: String.utf8EncodeChar c) (hne : p ≠ String.utf8EncodeChar c) :
    (decode p).1 = [] := by
  cases p with
  | nil => rfl
  | cons b tail =>
    obtain ⟨rest, hrest⟩ := h
    have hnone : firstChar? (b :: tail) = none := by
      by_contra hsome
      obtain ⟨d, hd⟩ := Option.ne_none_iff_exists'.1 hsome
      have hd' := of_firstChar? hd
      -- the whole character begins with the same one
      have hfirst := firstChar?_append c []
      rw [List.append_nil, ← hrest, hd', List.append_assoc, firstChar?_append] at hfirst
      cases hfirst
      have hlength := congrArg List.length hd'
      have hwhole := congrArg List.length hrest
      rw [List.length_append] at hlength hwhole
      have hnil : rest = [] := List.length_eq_zero_iff.1 (by omega)
      rw [hnil, List.append_nil] at hrest
      exact hne hrest
    have htail : ∀ d ∈ tail, ¬ d.IsUTF8FirstByte := by
      intro d hd hfirst
      obtain ⟨i, hi, rfl⟩ := List.getElem_of_mem hd
      have hlt : i + 1 < (String.utf8EncodeChar c).length := by
        rw [← hrest, List.length_append, List.length_cons]
        omega
      have hget : (String.utf8EncodeChar c)[i + 1] = tail[i] := by
        simp only [← hrest, List.cons_append, List.getElem_cons_succ, List.getElem_append_left hi]
      exact absurd (UInt8.isUTF8FirstByte_getElem_utf8EncodeChar.1 (hget.symm ▸ hfirst)) (Nat.succ_ne_zero i)
    rw [decode, decodeFrom, hnone]
    exact decode_continuation htail

/-- The beginning of a text is the beginning of its characters, the last one perhaps cut. -/
theorem exists_cut : ∀ {text : List Char} {bytes : List UInt8}, bytes <+: encode text →
    ∃ whole p c, bytes = encode whole ++ p ∧ p <+: String.utf8EncodeChar c ∧ p ≠ String.utf8EncodeChar c
  | [], bytes, h => by
    refine ⟨[], [], 'a', ?_, List.nil_prefix, fun h => String.utf8EncodeChar_ne_nil h.symm⟩
    rw [List.prefix_nil.1 h]
    rfl
  | c :: text, bytes, h => by
    rw [encode, List.flatMap_cons, ← encode] at h
    by_cases hwhole : String.utf8EncodeChar c <+: bytes
    · obtain ⟨rest, rfl⟩ := hwhole
      obtain ⟨whole, p, d, rfl, hp, hne⟩ := exists_cut ((List.prefix_append_right_inj _).1 h)
      exact ⟨c :: whole, p, d, by simp [encode], hp, hne⟩
    · have hcut := (List.prefix_or_prefix_of_prefix h (List.prefix_append _ _)).resolve_right hwhole
      exact ⟨[], bytes, c, rfl, hcut, fun heq => hwhole (heq ▸ List.prefix_rfl)⟩

end PyText
