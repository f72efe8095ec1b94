import Mathlib
/-!
# Tables with a primary key

A table is a list of rows whose keys are pairwise different. The statements a
transaction issues are here: `insert?` (fails on a key that exists), `put` (the unconditional
save of an aggregate: replace the row of that key, or append), `erase`, the conditional
`UPDATE` and `DELETE … WHERE key = k AND p` (`update`, `deleteIf`: whether a row matched, and the
table), and the `UPDATE … WHERE p` of many rows (`updateWhere`, with the row count).

Every operation is described by what it does to `get?`; that is the only view the proofs
above this file use.
-/
namespace Tables

/-- The primary key of a row type. -/
class Keyed (ρ : Type) (κ : outParam Type) where
  key : ρ → κ

export Keyed (key)

/-- Rows in insertion order, no two with the same key. -/
structure Table (ρ : Type) {κ : Type} [Keyed ρ κ] where
  rows : List ρ
  nodup : (rows.map key).Nodup

variable {ρ κ : Type} [Keyed ρ κ]

@[ext] theorem Table.ext {t u : Table ρ} (h : t.rows = u.rows) : t = u := by
  cases t; cases u; cases h; rfl

instance [DecidableEq ρ] : DecidableEq (Table ρ) := fun t u =>
  decidable_of_iff (t.rows = u.rows) ⟨Table.ext, fun h => h ▸ rfl⟩

namespace Table

def empty : Table ρ := ⟨[], List.nodup_nil⟩

instance : Inhabited (Table ρ) := ⟨empty⟩

/-- `SELECT … WHERE p`. -/
def select (t : Table ρ) (p : ρ → Bool) : List ρ := t.rows.filter p

/-- `UPDATE … SET f WHERE p`, with the number of rows it matched. -/
def updateWhere (t : Table ρ) (p : ρ → Bool) (f : ρ → ρ) (hf : ∀ r, key (f r) = key r) :
    Nat × Table ρ :=
  (t.rows.countP p,
    ⟨t.rows.map fun r => if p r then f r else r, by
      have : (t.rows.map fun r => if p r then f r else r).map key = t.rows.map key := by
        rw [List.map_map]
        refine List.map_congr_left fun r _ => ?_
        simp only [Function.comp_apply]
        split
        · exact hf r
        · rfl
      rw [this]; exact t.nodup⟩)

variable {t t' : Table ρ} {p : ρ → Bool} {f : ρ → ρ} {r r' x : ρ}

theorem mem_updateWhere {hf : ∀ r, key (f r) = key r} :
    r ∈ (t.updateWhere p f hf).2.rows ↔ ∃ x ∈ t.rows, (if p x then f x else x) = r := by
  simp [updateWhere]

theorem rows_nodup (t : Table ρ) : t.rows.Nodup := t.nodup.of_map

/-- Rows that are found again under their keys are not more than before. -/
theorem length_select_le {p' : ρ → Bool} (h : ∀ x ∈ t'.rows, p' x = true → ∃ y ∈ t.rows,
    p y = true ∧ key y = key x) : (t'.select p').length ≤ (t.select p).length := by
  have hsub : (t'.select p').map key ⊆ (t.select p).map key := by
    intro k hk
    obtain ⟨x, hx, rfl⟩ := List.mem_map.1 hk
    obtain ⟨hx, hp⟩ := List.mem_filter.1 hx
    obtain ⟨y, hy, hpy, hkey⟩ := h x hx hp
    exact List.mem_map.2 ⟨y, List.mem_filter.2 ⟨hy, hpy⟩, hkey⟩
  have hnodup : ((t'.select p').map key).Nodup := t'.nodup.sublist (List.filter_sublist.map key)
  simpa using (List.subperm_of_subset hnodup hsub).length_le

/-- A `SELECT` that only one row satisfies. -/
theorem select_eq_singleton (hr : r ∈ t.rows) (hp : p r = true)
    (huniq : ∀ x ∈ t.rows, p x = true → x = r) : t.select p = [r] := by
  have hall : t.select p = List.replicate (t.select p).length r :=
    List.eq_replicate_of_mem fun x hx => huniq x (List.mem_filter.1 hx).1 (List.mem_filter.1 hx).2
  have hnd : (t.select p).Nodup := t.rows_nodup.filter p
  have hmem : r ∈ t.select p := List.mem_filter.2 ⟨hr, hp⟩
  have hpos := List.length_pos_of_mem hmem
  rw [hall, List.nodup_replicate] at hnd
  have hlen : (t.select p).length = 1 := by omega
  rw [hall, hlen, List.replicate_one]

theorem updateWhere_one {hf : ∀ r, key (f r) = key r}
    (hr : r ∈ t.rows) (hp : p r = true) (huniq : ∀ x ∈ t.rows, p x = true → x = r) :
    (t.updateWhere p f hf).1 = 1 := by
  show t.rows.countP p = 1
  rw [List.countP_eq_length_filter]
  exact congrArg List.length (select_eq_singleton hr hp huniq)

/-! ## Sweeping a table

A loop that visits rows in place and replaces each by its image, or raises at a row that does
not allow it. -/

structure Sweep (ρ : Type) {κ : Type} [Keyed ρ κ] where
  image : ρ → ρ
  allows : ρ → Bool
  key_image : ∀ r, key (image r) = key r
  image_image : ∀ r, image (image r) = image r
  allows_image : ∀ r, allows (image r) = true

/-- The rows with a key in `P` were replaced by their images, which they all allow. -/
structure Swept (s : Sweep ρ) (P : κ → Bool) (t t' : Table ρ) : Prop where
  rows : t'.rows = t.rows.map fun r => if P (key r) then s.image r else r
  allowed : ∀ r ∈ t.rows, P (key r) = true → s.allows r = true

section
variable {s : Sweep ρ} {P Q : κ → Bool} {t'' : Table ρ}

theorem Swept.refl : Swept s (fun _ => false) t t := ⟨by simp, fun _ _ h => by cases h⟩

theorem Swept.trans (h : Swept s P t t') (h' : Swept s Q t' t'') :
    Swept s (fun k => P k || Q k) t t'' where
  rows := by
    rw [h'.rows, h.rows, List.map_map]
    refine List.map_congr_left fun r _ => ?_
    simp only [Function.comp_apply]
    cases P (key r) <;> cases hQ : Q (key r) <;> simp [s.key_image, s.image_image, hQ]
  allowed r hr hk := by
    cases hP : P (key r) with
    | true => exact h.allowed r hr hP
    | false =>
      have hr' : r ∈ t'.rows := by
        rw [h.rows]
        exact List.mem_map.2 ⟨r, hr, by simp [hP]⟩
      exact h'.allowed r hr' (by simpa [hP] using hk)

variable (hp : ∀ r, p (s.image r) = p r)
include hp

theorem Swept.select (h : Swept s P t t') :
    t'.select p = (t.select p).map fun r => if P (key r) then s.image r else r := by
  have himage : ∀ r, p (if P (key r) then s.image r else r) = p r := fun r => by split <;> simp [hp]
  rw [Table.select, h.rows, List.filter_map]
  simp only [Function.comp_def, himage]
  rfl

/-- What a sweep can still meet is what it could meet before. -/
theorem Swept.all_select (h : Swept s P t t') :
    (t'.select p).all s.allows = (t.select p).all s.allows := by
  rw [h.select hp, List.all_map, Bool.eq_iff_iff, List.all_eq_true, List.all_eq_true]
  refine forall₂_congr fun r hr => ?_
  simp only [Function.comp_apply]
  cases hP : P (key r) with
  | false => simp
  | true => simp [s.allows_image, h.allowed r (List.mem_filter.1 hr).1 hP]

/-- A sweep changes no image. -/
theorem Swept.map_select (h : Swept s P t t') :
    (t'.select p).map s.image = (t.select p).map s.image := by
  rw [h.select hp, List.map_map]
  refine List.map_congr_left fun r _ => ?_
  simp only [Function.comp_apply]
  split <;> simp [s.image_image]

/-- Rows that are their own images stay so, and the visited ones are. -/
theorem Swept.fixed (h : Swept s P t t')
    (hfix : ∀ r ∈ t.select p, P (key r) = true ∨ s.image r = r) : ∀ r ∈ t'.select p, s.image r = r := by
  intro r hr
  rw [h.select hp] at hr
  obtain ⟨x, hx, rfl⟩ := List.mem_map.1 hr
  split
  · exact s.image_image x
  · next hP => exact (hfix x hx).resolve_left hP

end

variable [DecidableEq κ] {k k' : κ}

/-- `session.get`: the row of a key. -/
def get? (t : Table ρ) (k : κ) : Option ρ := t.rows.find? fun r => key r = k

/-- Replace the row with `r`'s key, or append `r`. -/
def putRow (r : ρ) : List ρ → List ρ
  | [] => [r]
  | y :: ys => if key y = key r then r :: ys else y :: putRow r ys

theorem mem_map_putRow :
    ∀ {l : List ρ}, k ∈ (putRow r l).map key ↔ k = key r ∨ k ∈ l.map key
  | [] => by simp [putRow]
  | y :: ys => by
    simp only [putRow]
    split
    · next h => simp [h]
    · simp only [List.map_cons, List.mem_cons, mem_map_putRow (l := ys)]
      tauto

theorem nodup_putRow : ∀ {l : List ρ}, (l.map key).Nodup → ((putRow r l).map key).Nodup
  | [], _ => by simp [putRow]
  | y :: ys, h => by
    simp only [List.map_cons, List.nodup_cons] at h
    simp only [putRow]
    split
    · next hk => simpa [← hk] using h
    · next hk =>
      simp only [List.map_cons, List.nodup_cons]
      refine ⟨fun hm => ?_, nodup_putRow h.2⟩
      rcases mem_map_putRow.1 hm with he | hm
      · exact hk he
      · exact h.1 hm

/-- The unconditional save of one row. -/
def put (t : Table ρ) (r : ρ) : Table ρ := ⟨putRow r t.rows, nodup_putRow t.nodup⟩

/-- `INSERT`: `none` when the key is taken. -/
def insert? (t : Table ρ) (r : ρ) : Option (Table ρ) :=
  if (t.get? (key r)).isSome then none else some (t.put r)

/-- `DELETE … WHERE key = k`. -/
def erase (t : Table ρ) (k : κ) : Table ρ :=
  ⟨t.rows.filter fun r => key r ≠ k, (t.nodup.sublist ((List.filter_sublist).map key))⟩

/-- `UPDATE … SET f WHERE key = k AND p`: `rowcount == 1`, and the table after it. -/
def update (t : Table ρ) (k : κ) (p : ρ → Bool) (f : ρ → ρ) : Bool × Table ρ :=
  match t.get? k with
  | some r => if p r then (true, t.put (f r)) else (false, t)
  | none => (false, t)

/-- `DELETE … WHERE key = k AND p`. -/
def deleteIf (t : Table ρ) (k : κ) (p : ρ → Bool) : Bool × Table ρ :=
  if (t.get? k).any p then (true, t.erase k) else (false, t)

/-! ## Every operation, through `get?` -/

theorem key_of_get? (h : t.get? k = some r) : key r = k := by
  simpa using List.find?_some h

theorem mem_of_get? (h : t.get? k = some r) : r ∈ t.rows :=
  List.mem_of_find?_eq_some h

theorem get?_of_mem (h : r ∈ t.rows) : t.get? (key r) = some r := by
  obtain ⟨l, hn⟩ := t
  simp only [get?] at h ⊢
  induction l with
  | nil => simp at h
  | cons y ys ih =>
    simp only [List.map_cons, List.nodup_cons] at hn
    rcases List.mem_cons.1 h with rfl | h
    · simp
    · have hne : key y ≠ key r := fun e => hn.1 (e ▸ List.mem_map_of_mem h)
      rw [List.find?_cons_of_neg (by simpa using hne)]
      exact ih hn.2 h

theorem row_of_get? (h : t.get? k = some r) : t.get? (key r) = some r ∧ key r = k :=
  ⟨get?_of_mem (mem_of_get? h), key_of_get? h⟩

theorem mem_rows : r ∈ t.rows ↔ t.get? (key r) = some r :=
  ⟨get?_of_mem, mem_of_get?⟩

theorem mem_select :
    r ∈ t.select p ↔ t.get? (key r) = some r ∧ p r = true := by
  rw [select, List.mem_filter, mem_rows]

@[simp] theorem get?_empty (k : κ) : (empty : Table ρ).get? k = none := rfl

theorem get?_putRow (r : ρ) (k : κ) :
    ∀ l : List ρ, (putRow r l).find? (fun x => key x = k) =
      if key r = k then some r else l.find? (fun x => key x = k)
  | [] => by by_cases h : key r = k <;> simp [putRow, h]
  | y :: ys => by
    simp only [putRow]
    split
    · next hy =>
      by_cases h : key r = k
      · simp [h]
      · have : ¬ key y = k := fun e => h (hy ▸ e)
        simp [h, this]
    · next hy =>
      by_cases hk : key y = k
      · have : ¬ key r = k := fun e => hy (hk.trans e.symm)
        simp [hk, this]
      · simp only [List.find?_cons, hk, decide_false, get?_putRow r k ys]

theorem get?_put (t : Table ρ) (r : ρ) (k : κ) :
    (t.put r).get? k = if key r = k then some r else t.get? k := get?_putRow r k t.rows

@[simp] theorem get?_put_self (t : Table ρ) (r : ρ) : (t.put r).get? (key r) = some r := by
  rw [get?_put, if_pos rfl]

theorem get?_put_ne (h : key r ≠ k) : (t.put r).get? k = t.get? k := by
  rw [get?_put, if_neg h]

theorem ne_of_fresh (hx : t.get? k = some x) (fresh : t.get? k' = none) : k ≠ k' := by
  rintro rfl
  cases fresh.symm.trans hx

/-- A new row leaves the stored ones as they are. -/
theorem get?_put_fresh (fresh : t.get? (key r) = none) (hx : t.get? k = some x) :
    (t.put r).get? k = some x := (get?_put_ne (ne_of_fresh hx fresh).symm).trans hx

/-- A stored row that is written again leaves a new key new. -/
theorem fresh_put (hx : t.get? (key r) = some x) (fresh : t.get? k = none) :
    (t.put r).get? k = none := (get?_put_ne (ne_of_fresh hx fresh)).trans fresh

theorem fresh_of_put (fresh : (t.put r).get? k = none) : t.get? k = none :=
  (get?_put_ne (ne_of_fresh (get?_put_self t r) fresh)).symm.trans fresh

theorem get?_erase (t : Table ρ) (k k' : κ) :
    (t.erase k).get? k' = if k = k' then none else t.get? k' := by
  simp only [get?, erase, List.find?_filter]
  by_cases h : k = k'
  · subst h
    rw [if_pos rfl, List.find?_eq_none]
    simp
  · rw [if_neg h]
    congr 1
    funext r
    by_cases hr : key r = k'
    · subst hr; simp [Ne.symm h]
    · simp [hr]

theorem insert?_eq_some :
    t.insert? r = some t' ↔ t.get? (key r) = none ∧ t' = t.put r := by
  unfold insert?
  cases h : t.get? (key r) with
  | none => simpa using eq_comm
  | some x => simp

theorem update_eq_true (h : t.update k p f = (true, t')) :
    ∃ r, t.get? k = some r ∧ p r = true ∧ t' = t.put (f r) := by
  unfold update at h
  split at h
  · next r hr =>
    split at h
    · next hp => exact ⟨r, hr, hp, (Prod.mk.inj h).2.symm⟩
    · simp at h
  · simp at h

theorem update_eq_false (h : t.update k p f = (false, t')) :
    t' = t ∧ ∀ r, t.get? k = some r → p r = false := by
  unfold update at h
  split at h
  · next r hr =>
    split at h
    · simp at h
    · next hp =>
      refine ⟨(Prod.mk.inj h).2.symm, fun r' hr' => ?_⟩
      rw [hr] at hr'
      cases hr'
      simpa using hp
  · next hr => exact ⟨(Prod.mk.inj h).2.symm, fun r' hr' => by rw [hr] at hr'; cases hr'⟩

theorem update_of_get? (hr : t.get? k = some r) (hp : p r = true) :
    t.update k p f = (true, t.put (f r)) := by
  simp [update, hr, hp]

/-- A fence that no row passes writes nothing. -/
theorem update_fenced (h : ∀ r, t.get? k = some r → p r = false) : t.update k p f = (false, t) := by
  unfold update
  cases hr : t.get? k with
  | none => rfl
  | some r => simp [h r hr]

/-- An `UPDATE` that keeps the key touches no other row. -/
theorem get?_update_ne {b : Bool}
    (h : t.update k p f = (b, t')) (hf : ∀ r, key (f r) = key r) (hk : k' ≠ k) :
    t'.get? k' = t.get? k' := by
  cases b with
  | true =>
    obtain ⟨r, hr, -, rfl⟩ := update_eq_true h
    exact get?_put_ne (by rw [hf, key_of_get? hr]; exact Ne.symm hk)
  | false => rw [(update_eq_false h).1]

theorem deleteIf_eq_true (h : t.deleteIf k p = (true, t')) :
    (∃ r, t.get? k = some r ∧ p r = true) ∧ t' = t.erase k := by
  unfold deleteIf at h
  cases hr : t.get? k with
  | none => simp [hr] at h
  | some r =>
    by_cases hp : p r = true
    · simp only [hr, Option.any_some, hp, if_true] at h
      exact ⟨⟨r, rfl, hp⟩, (Prod.mk.inj h).2.symm⟩
    · simp [hr, hp] at h

theorem get?_updateWhere (t : Table ρ) (p : ρ → Bool) (f : ρ → ρ) (hf : ∀ r, key (f r) = key r)
    (k : κ) : (t.updateWhere p f hf).2.get? k = (t.get? k).map fun r => if p r then f r else r := by
  have hkey : ∀ r, key (if p r then f r else r) = key r := fun r => by split <;> simp [hf]
  simp only [get?, updateWhere, List.find?_map, Function.comp_def, hkey]

theorem putRow_comm {a b : ρ} (hab : key a ≠ key b) :
    ∀ {l : List ρ}, key a ∈ l.map key → putRow b (putRow a l) = putRow a (putRow b l)
  | [], h => by simp at h
  | y :: ys, h => by
    by_cases hya : key y = key a
    · simp [putRow, hya, hab]
    · by_cases hyb : key y = key b
      · simp [putRow, hyb, Ne.symm hab]
      · have hin : key a ∈ ys.map key := (List.mem_cons.1 h).resolve_left (Ne.symm hya)
        simp only [putRow, hya, hyb, if_false, putRow_comm hab hin]

/-- Saving a row that exists and inserting another commute. -/
theorem put_comm {a b : ρ} (hab : key a ≠ key b) (ha : (t.get? (key a)).isSome = true) :
    (t.put a).put b = (t.put b).put a := by
  obtain ⟨r, hr⟩ := Option.isSome_iff_exists.1 ha
  exact Table.ext (putRow_comm hab (key_of_get? hr ▸ List.mem_map_of_mem (mem_of_get? hr)))

theorem filter_putRow {a : ρ} (h : key a ≠ k) : ∀ l : List ρ,
    (putRow a l).filter (fun r => key r ≠ k) = putRow a (l.filter fun r => key r ≠ k)
  | [] => by simp [putRow, h]
  | y :: ys => by
    by_cases hya : key y = key a
    · simp [putRow, hya, h]
    · by_cases hyk : key y = k
      · have hne : k ≠ key a := fun e => hya (hyk.trans e)
        simpa [putRow, hyk, hne] using filter_putRow h ys
      · simpa [putRow, hya, hyk] using filter_putRow h ys

theorem erase_put {a : ρ} (h : key a ≠ k) : (t.put a).erase k = (t.erase k).put a :=
  Table.ext (filter_putRow h t.rows)

theorem erase_erase (t : Table ρ) (k : κ) : (t.erase k).erase k = t.erase k :=
  Table.ext (by simp [erase, List.filter_filter])

/-- An `UPDATE` that keeps the key neither adds nor removes a row. -/
theorem isSome_update (t : Table ρ) (k k' : κ) (p : ρ → Bool) (hf : ∀ r, key (f r) = key r) :
    ((t.update k p f).2.get? k').isSome = (t.get? k').isSome := by
  unfold update
  split
  · next r hr =>
    split
    · rw [get?_put, hf, key_of_get? hr]
      split
      · next h => subst h; simp [hr]
      · rfl
    · rfl
  · rfl

/-- A key has one row or none. -/
theorem countP_key (t : Table ρ) (k : κ) :
    t.rows.countP (fun r => key r = k) = if (t.get? k).isSome then 1 else 0 := by
  cases h : t.get? k with
  | none =>
    refine List.countP_eq_zero.2 fun r hr hk => ?_
    rw [← of_decide_eq_true hk, get?_of_mem hr] at h
    cases h
  | some r =>
    rw [List.countP_eq_length_filter]
    refine congrArg List.length (select_eq_singleton (mem_of_get? h) (decide_eq_true (key_of_get? h)) fun x hx hk => ?_)
    rw [← of_decide_eq_true hk, get?_of_mem hx] at h
    exact Option.some.inj h

theorem mem_put : x ∈ (t.put r).rows ↔ x = r ∨ (x ∈ t.rows ∧ key x ≠ key r) := by
  rw [mem_rows, get?_put, mem_rows]
  by_cases h : key r = key x
  · simp [h, eq_comm]
  · simp only [h, if_false, ne_eq, Ne.symm h, not_false_eq_true, and_true]
    exact ⟨.inr, fun hx => hx.elim (fun e => absurd (e ▸ rfl) h) id⟩

/-- What holds of the row that is put and of the rows before holds of the rows after. -/
theorem forall_put {P : ρ → Prop} (hr : P r) (h : ∀ x ∈ t.rows, P x) :
    ∀ x ∈ (t.put r).rows, P x := by
  intro x hx
  rcases mem_put.1 hx with rfl | ⟨hx, -⟩
  · exact hr
  · exact h x hx

theorem mem_put_fresh (h : t.get? (key r) = none) :
    x ∈ (t.put r).rows ↔ x = r ∨ x ∈ t.rows := by
  rw [mem_put]
  refine or_congr_right (and_iff_left_of_imp fun hx hk => ?_)
  rw [← hk, get?_of_mem hx] at h
  cases h

theorem eq_of_key {y : ρ} (hx : x ∈ t.rows) (hy : y ∈ t.rows) (h : key x = key y) : x = y := by
  have hget := get?_of_mem hx
  rw [h, get?_of_mem hy] at hget
  exact (Option.some.inj hget).symm

/-- What is in a table after a row is replaced. -/
theorem mem_of_mem_put (hr : r ∈ t.rows) (hx : x ∈ (t.put r').rows) :
    ∃ y ∈ t.rows, (x = r' ∧ y = r) ∨ x = y := by
  rcases mem_put.1 hx with rfl | ⟨hx, -⟩
  · exact ⟨r, hr, .inl ⟨rfl, rfl⟩⟩
  · exact ⟨x, hx, .inr rfl⟩

/-- A replacement that agrees on `f` takes no value of `f` away. -/
theorem exists_put {β : Type} {f : ρ → β} {v : β} (hr : r ∈ t.rows) (hk : key r' = key r)
    (hf : f r' = f r) (h : ∃ q ∈ t.rows, f q = v) : ∃ q ∈ (t.put r').rows, f q = v := by
  obtain ⟨q, hq, hv⟩ := h
  by_cases hqr : key q = key r
  · obtain rfl := eq_of_key hq hr hqr
    exact ⟨r', mem_put.2 (.inl rfl), hf.trans hv⟩
  · exact ⟨q, mem_put.2 (.inr ⟨hq, fun h => hqr (h.trans hk)⟩), hv⟩

/-- A column without duplicates keeps none when a row is replaced by one with the same value. -/
theorem unique_put {β : Type} {f : ρ → β} (hr : r ∈ t.rows) (hk : key r' = key r) (hf : f r' = f r)
    (h : ∀ x ∈ t.rows, ∀ y ∈ t.rows, f x = f y → key x = key y) :
    ∀ x ∈ (t.put r').rows, ∀ y ∈ (t.put r').rows, f x = f y → key x = key y := by
  have old : ∀ x ∈ (t.put r').rows, ∃ x₀ ∈ t.rows, key x = key x₀ ∧ f x = f x₀ := by
    intro x hx
    obtain ⟨x₀, hx₀, ⟨rfl, rfl⟩ | rfl⟩ := mem_of_mem_put hr hx
    · exact ⟨x₀, hx₀, hk, hf⟩
    · exact ⟨x, hx₀, rfl, rfl⟩
  intro x hx y hy hxy
  obtain ⟨x₀, hx₀, hkx, hfx⟩ := old x hx
  obtain ⟨y₀, hy₀, hky, hfy⟩ := old y hy
  rw [hkx, hky]
  exact h x₀ hx₀ y₀ hy₀ (by rw [← hfx, hxy, hfy])

theorem unique_put_fresh {β : Type} {f : ρ → β} (hr : t.get? (key r) = none)
    (hnew : ∀ x ∈ t.rows, f x ≠ f r) (h : ∀ x ∈ t.rows, ∀ y ∈ t.rows, f x = f y → key x = key y) :
    ∀ x ∈ (t.put r).rows, ∀ y ∈ (t.put r).rows, f x = f y → key x = key y := by
  intro x hx y hy hxy
  rcases (mem_put_fresh hr).1 hx with rfl | hx' <;> rcases (mem_put_fresh hr).1 hy with rfl | hy'
  · rfl
  · exact absurd hxy.symm (hnew y hy')
  · exact absurd hxy (hnew x hx')
  · exact h x hx' y hy' hxy

theorem map_putRow (hk : key r' = key r) :
    ∀ {l : List ρ}, (l.map key).Nodup → r ∈ l → putRow r' l = l.map fun x => if key r = key x then r' else x
  | [], _, h => by cases h
  | y :: ys, hn, h => by
    simp only [List.map_cons, List.nodup_cons] at hn
    rcases List.mem_cons.1 h with rfl | h
    · have hys : (ys.map fun x => if key r = key x then r' else x) = ys := by
        refine (List.map_congr_left fun x hx => ?_).trans (List.map_id ys)
        exact if_neg fun e => hn.1 (List.mem_map.2 ⟨x, hx, e.symm⟩)
      rw [putRow, if_pos hk.symm, List.map_cons, if_pos rfl, hys]
    · have hne : key r ≠ key y := fun e => hn.1 (e ▸ List.mem_map_of_mem h)
      rw [putRow, if_neg (by rw [hk]; exact Ne.symm hne), List.map_cons, if_neg hne, map_putRow hk hn.2 h]

theorem putRow_fresh : ∀ {l : List ρ}, key r ∉ l.map key → putRow r l = l ++ [r]
  | [], _ => rfl
  | y :: ys, h => by
    obtain ⟨hy, hys⟩ := not_or.1 (mt List.mem_cons.2 h)
    rw [putRow, if_neg fun e => hy e.symm, putRow_fresh hys, List.cons_append]

/-- A new row goes to the end. -/
theorem rows_put_fresh (h : t.get? (key r) = none) : (t.put r).rows = t.rows ++ [r] := by
  refine putRow_fresh fun hin => ?_
  obtain ⟨x, hx, hk⟩ := List.mem_map.1 hin
  rw [← hk, get?_of_mem hx] at h
  cases h

/-- A new row adds at most one to what is selected. -/
theorem length_select_put_le (h : t.get? (key r) = none) :
    ((t.put r).select p).length ≤ (t.select p).length + 1 := by
  rw [select, rows_put_fresh h, List.filter_append, List.length_append]
  exact Nat.add_le_add_left (List.length_filter_le p [r]) _

theorem length_select_put_of_not (h : t.get? (key r) = none) (hp : p r = false) :
    ((t.put r).select p).length = (t.select p).length := by
  rw [select, rows_put_fresh h, List.filter_append, List.filter_cons_of_neg (by simp [hp])]
  simp [select]

/-- Writing a row as it is changes nothing. -/
theorem put_of_mem (hr : r ∈ t.rows) : t.put r = t := by
  refine Table.ext ((map_putRow rfl t.nodup hr).trans ?_)
  refine (List.map_congr_left fun x hx => ?_).trans (List.map_id t.rows)
  split
  · next hk => exact eq_of_key hr hx hk
  · rfl

/-- A row written again keeps its place in a sorted selection that does not look at what changed. -/
theorem insertionSort_select_put {order : ρ → ρ → Prop} [DecidableRel order]
    (hr : r ∈ t.rows) (hk : key r' = key r) (hp : ∀ x ∈ t.rows, p (if key r = key x then r' else x) = p x)
    (hord : ∀ x ∈ t.rows, ∀ y ∈ t.rows,
      (order x y ↔ order (if key r = key x then r' else x) (if key r = key y then r' else y))) :
    ((t.put r').select p).insertionSort order =
      ((t.select p).insertionSort order).map fun x => if key r = key x then r' else x := by
  have hselect : (t.put r').select p = (t.select p).map fun x => if key r = key x then r' else x := by
    rw [select, show (t.put r').rows = _ from map_putRow hk t.nodup hr, List.filter_map]
    exact congrArg _ (List.filter_congr fun x hx => hp x hx)
  rw [hselect, ← List.map_insertionSort order]
  exact fun x hx y hy => hord x (List.mem_filter.1 hx).1 y (List.mem_filter.1 hy).1

/-- One row is visited. -/
theorem Swept.one {s : Sweep ρ} (hr : r ∈ t.rows) (hok : s.allows r = true) :
    Swept s (fun k => key r = k) t (t.put (s.image r)) where
  rows := by
    refine (map_putRow (s.key_image r) t.nodup hr).trans (List.map_congr_left fun x hx => ?_)
    by_cases hk : key r = key x
    · rw [if_pos hk, if_pos (decide_eq_true hk), eq_of_key hr hx hk]
    · rw [if_neg hk, if_neg (by simpa using hk)]
  allowed x hx hk := eq_of_key hr hx (of_decide_eq_true hk) ▸ hok

/-- A row that is its own image may be passed over. -/
theorem Swept.skip {s : Sweep ρ} (hr : r ∈ t.rows) (hfix : s.image r = r)
    (hok : s.allows r = true) : Swept s (fun k => key r = k) t t where
  rows := by
    refine (List.map_id t.rows).symm.trans (List.map_congr_left fun x hx => ?_)
    split
    · next hk => rw [← eq_of_key hr hx (of_decide_eq_true hk), hfix]; rfl
    · rfl
  allowed x hx hk := eq_of_key hr hx (of_decide_eq_true hk) ▸ hok

end Table
end Tables
