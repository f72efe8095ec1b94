import FridayAssistant.Lib.Text
/-!
# `str.replace`

What the text after a replacement can contain. The new text starts and ends with letters of its own;
a text that has neither of them and is no part of what stands between them can only occur where the
old text already had it (`infix_replaceFrom`).
-/
namespace PyText

/-- The letters from here on, the first `skip` of which belong to an occurrence already replaced. -/
def replaceFrom (old new : List Char) : Nat → List Char → List Char
  | _, [] => []
  | skip + 1, _ :: t => replaceFrom old new skip t
  | 0, c :: t =>
    if old <+: c :: t then new ++ replaceFrom old new (old.length - 1) t else c :: replaceFrom old new 0 t

/-- `text.replace(old, new)` of a text `old` that is not empty: from left to right, without
overlaps. -/
def replace (old new text : String) : String :=
  String.ofList (replaceFrom old.toList new.toList 0 text.toList)

/-- A text without the letter `c` lies on one side of it. -/
theorem infix_of_infix_append_cons {w x y : List Char} {c : Char} (hw : w <:+: x ++ c :: y)
    (hc : c ∉ w) : w <:+: x ∨ w <:+: y := by
  induction x with
  | nil =>
    rcases List.infix_cons_iff.1 hw with hpre | hin
    · cases w with
      | nil => exact .inl (List.infix_refl _)
      | cons a w => simp [(List.cons_prefix_cons.1 hpre).1] at hc
    · exact .inr hin
  | cons a x ih =>
    rcases List.infix_cons_iff.1 hw with hpre | hin
    · refine .inl (List.IsPrefix.isInfix ?_)
      rcases List.prefix_or_prefix_of_prefix hpre (List.prefix_append (a :: x) (c :: y)) with h | h
      · exact h
      · obtain ⟨z, rfl⟩ := h
        have hz : z <+: c :: y := (List.prefix_append_right_inj (a :: x)).1 hpre
        cases z with
        | nil => simp
        | cons b z => simp [(List.cons_prefix_cons.1 hz).1] at hc
    · exact (ih hin).imp_left fun h => h.trans (List.suffix_cons a x).isInfix

section
variable {old inner w : List Char} {left right : Char}

theorem prefix_of_prefix_replaceFrom (hw : left ∉ w) {t : List Char}
    (h : w <+: replaceFrom old (left :: inner ++ [right]) 0 t) : w <+: t := by
  induction t generalizing w with
  | nil => exact h
  | cons c t ih =>
    cases w with
    | nil => exact List.nil_prefix
    | cons a w =>
      rw [replaceFrom] at h
      split at h
      · simp [(List.cons_prefix_cons.1 h).1] at hw
      · obtain ⟨ha, hrest⟩ := List.cons_prefix_cons.1 h
        exact List.cons_prefix_cons.2 ⟨ha, ih (fun hin => hw (List.mem_cons_of_mem _ hin)) hrest⟩

/-- What occurs in the result and shares no letter with the ends of the marker is inside the marker,
or stood in the text at a place where nothing is replaced. -/
theorem infix_replaceFrom (hne : w ≠ []) (hleft : left ∉ w) (hright : right ∉ w) (hinner : ¬ w <:+: inner)
    (skip : Nat) {t : List Char} (h : w <:+: replaceFrom old (left :: inner ++ [right]) skip t) :
    ∃ rest, rest <:+ t ∧ w <+: rest ∧ ¬ old <+: rest := by
  induction t generalizing skip with
  | nil => cases skip <;> simp [replaceFrom, hne] at h
  | cons c t ih =>
    have later : ∀ skip, w <:+: replaceFrom old (left :: inner ++ [right]) skip t →
        ∃ rest, rest <:+ c :: t ∧ w <+: rest ∧ ¬ old <+: rest := by
      intro skip h
      obtain ⟨rest, hrest, hpre⟩ := ih skip h
      exact ⟨rest, hrest.trans (List.suffix_cons c t), hpre⟩
    cases skip with
    | succ skip => exact later skip h
    | zero =>
      rw [replaceFrom] at h
      split at h
      · rw [List.cons_append, List.cons_append, List.append_assoc] at h
        rcases infix_of_infix_append_cons (x := []) h hleft with h | h
        · exact absurd (List.infix_nil.1 h) hne
        · exact later _ ((infix_of_infix_append_cons h hright).resolve_left hinner)
      · next hold =>
        rcases List.infix_cons_iff.1 h with hpre | hin
        · refine ⟨c :: t, List.suffix_refl _, ?_, hold⟩
          cases w with
          | nil => exact absurd rfl hne
          | cons a w =>
            obtain ⟨ha, hrest⟩ := List.cons_prefix_cons.1 hpre
            exact List.cons_prefix_cons.2
              ⟨ha, prefix_of_prefix_replaceFrom (fun hin => hleft (List.mem_cons_of_mem _ hin)) hrest⟩
        · exact later 0 hin

end

end PyText
