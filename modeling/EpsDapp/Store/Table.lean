import Mathlib.Data.List.Nodup
import Mathlib.Order.Defs.LinearOrder
import Mathlib.Data.List.MinMax

/-!
# Tables with a primary key

A table is its rows in some order, no two of them with one key. The order is
what an unordered or tied query may return rows in, so it is kept, but nothing
below depends on it. `IsFirst` is the meaning of a `findFirst` with an
`orderBy`: some least row among those that match, and nothing exactly when none
matches.
-/

set_option autoImplicit false

namespace EpsDapp

universe u v w

/-- Rows of which no two have one key. -/
structure Table {ρ : Type u} {κ : Type v} (key : ρ → κ) where
  rows : List ρ
  nodup : (rows.map key).Nodup

namespace Table

variable {ρ : Type u} {κ : Type v} {key : ρ → κ}

/-- The table with no rows. -/
def empty : Table key := ⟨[], List.nodup_nil⟩

instance : Membership ρ (Table key) := ⟨fun t r => r ∈ t.rows⟩

theorem mem_def (t : Table key) (r : ρ) : r ∈ t ↔ r ∈ t.rows := Iff.rfl

/-- Two rows of a table with one key are one row. -/
theorem eq_of_key_eq (t : Table key) {r r' : ρ} (hr : r ∈ t) (hr' : r' ∈ t)
    (h : key r = key r') : r = r' :=
  List.inj_on_of_nodup_map t.nodup hr hr' h

theorem ext_rows {t t' : Table key} (h : t.rows = t'.rows) : t = t' := by
  cases t
  cases t'
  cases h
  rfl

/-- Change every row, but no key. -/
def map (t : Table key) (f : ρ → ρ) (hf : ∀ r, key (f r) = key r) : Table key where
  rows := t.rows.map f
  nodup := by
    have hmap : (t.rows.map f).map key = t.rows.map key := by
      rw [List.map_map]
      exact List.map_congr_left fun r _ => hf r
    rw [hmap]
    exact t.nodup

theorem mem_map_iff (t : Table key) (f : ρ → ρ) (hf : ∀ r, key (f r) = key r) (r : ρ) :
    r ∈ t.map f hf ↔ ∃ r₀ ∈ t, f r₀ = r :=
  List.mem_map

section Lookup

variable [DecidableEq κ]

/-- The row with the key `k`. -/
def get? (t : Table key) (k : κ) : Option ρ :=
  t.rows.find? fun r => decide (key r = k)

theorem get?_eq_some_iff (t : Table key) (k : κ) (r : ρ) :
    t.get? k = some r ↔ r ∈ t ∧ key r = k := by
  constructor
  · intro h
    exact ⟨List.mem_of_find?_eq_some h, by simpa using List.find?_some h⟩
  · rintro ⟨hr, rfl⟩
    cases h : t.get? (key r) with
    | none =>
        have hne := List.find?_eq_none.1 h r hr
        simp at hne
    | some r' =>
        have hkey : key r' = key r := by simpa using List.find?_some h
        rw [t.eq_of_key_eq (List.mem_of_find?_eq_some h) hr hkey]

theorem get?_key_eq (t : Table key) {r : ρ} (h : r ∈ t) : t.get? (key r) = some r :=
  (t.get?_eq_some_iff _ _).2 ⟨h, rfl⟩

theorem get?_eq_none_iff (t : Table key) (k : κ) :
    t.get? k = none ↔ ∀ r ∈ t, key r ≠ k := by
  simp only [get?, List.find?_eq_none, decide_eq_true_eq]
  exact Iff.rfl

theorem get?_map (t : Table key) (f : ρ → ρ) (hf : ∀ r, key (f r) = key r) (k : κ) :
    (t.map f hf).get? k = (t.get? k).map f := by
  rw [get?, map, List.find?_map]
  congr 1
  apply congrFun
  apply congrArg
  funext r
  simp only [Function.comp_apply, hf]

/-- Change the row with the key `k`, if there is one. -/
def modify (t : Table key) (k : κ) (f : ρ → ρ) (hf : ∀ r, key (f r) = key r) :
    Table key where
  rows := t.rows.map fun r => if key r = k then f r else r
  nodup := by
    have hmap : (t.rows.map fun r => if key r = k then f r else r).map key =
        t.rows.map key := by
      rw [List.map_map]
      apply List.map_congr_left
      intro r _
      simp only [Function.comp_apply]
      split
      · exact hf r
      · rfl
    rw [hmap]
    exact t.nodup

theorem mem_modify_iff (t : Table key) (k : κ) (f : ρ → ρ)
    (hf : ∀ r, key (f r) = key r) (r : ρ) :
    r ∈ t.modify k f hf ↔ ∃ r₀ ∈ t, r = if key r₀ = k then f r₀ else r₀ := by
  simp only [mem_def, modify, List.mem_map]
  exact exists_congr fun r₀ => and_congr_right fun _ => eq_comm

theorem get?_modify (t : Table key) (k j : κ) (f : ρ → ρ)
    (hf : ∀ r, key (f r) = key r) :
    (t.modify k f hf).get? j = if j = k then (t.get? k).map f else t.get? j := by
  have hfind : (t.modify k f hf).get? j =
      (t.get? j).map fun r => if key r = k then f r else r :=
    t.get?_map (fun r => if key r = k then f r else r) (fun r => by split <;> simp only [hf]) j
  rw [hfind]
  split
  · rename_i hjk
    subst hjk
    cases h : t.get? j with
    | none => rfl
    | some r => simp [((t.get?_eq_some_iff _ _).1 h).2]
  · rename_i hjk
    cases h : t.get? j with
    | none => rfl
    | some r => simp [((t.get?_eq_some_iff _ _).1 h).2, hjk]

theorem get?_modify_self (t : Table key) (k : κ) (f : ρ → ρ)
    (hf : ∀ r, key (f r) = key r) :
    (t.modify k f hf).get? k = (t.get? k).map f := by
  rw [get?_modify, if_pos rfl]

theorem get?_modify_of_ne (t : Table key) {k j : κ} (f : ρ → ρ)
    (hf : ∀ r, key (f r) = key r) (h : j ≠ k) :
    (t.modify k f hf).get? j = t.get? j := by
  rw [get?_modify, if_neg h]

/-- Add a row under a key that is free. -/
def insert (t : Table key) (r : ρ) (h : t.get? (key r) = none) : Table key where
  rows := t.rows ++ [r]
  nodup := by
    rw [List.map_append, List.map_singleton]
    refine List.nodup_append.2 ⟨t.nodup, List.nodup_singleton _, ?_⟩
    intro k hk k' hk'
    obtain ⟨r', hr', rfl⟩ := List.mem_map.1 hk
    rw [List.mem_singleton.1 hk']
    exact (t.get?_eq_none_iff _).1 h r' hr'

theorem mem_insert_iff (t : Table key) (r : ρ) (h : t.get? (key r) = none) (r' : ρ) :
    r' ∈ t.insert r h ↔ r' ∈ t ∨ r' = r := by
  simp [mem_def, insert]

theorem get?_insert (t : Table key) (r : ρ) (h : t.get? (key r) = none) (j : κ) :
    (t.insert r h).get? j = if j = key r then some r else t.get? j := by
  split
  · rename_i hj
    subst hj
    exact get?_key_eq _ ((mem_insert_iff _ _ _ _).2 (Or.inr rfl))
  · rename_i hj
    simp only [get?, insert, List.find?_append]
    simp [Ne.symm hj]

theorem get?_insert_of_some (t : Table key) (r : ρ) (h : t.get? (key r) = none)
    {j : κ} {r' : ρ} (hj : t.get? j = some r') : (t.insert r h).get? j = some r' := by
  rw [get?_insert, if_neg, hj]
  rintro rfl
  rw [h] at hj
  cases hj

@[simp] theorem get?_empty (k : κ) : (empty : Table key).get? k = none := rfl

end Lookup

/-- `found` is what `findFirst` may return: a matching row that no matching row
comes before, or nothing when no row matches. -/
def IsFirst (t : Table key) (matching : ρ → Prop) (before : ρ → ρ → Prop) :
    Option ρ → Prop
  | some r => r ∈ t ∧ matching r ∧ ∀ r' ∈ t, matching r' → ¬ before r' r
  | none => ∀ r ∈ t, ¬ matching r

/-- The answer of `findFirst` with the rows in table order, for the order by
`rank`. -/
def findFirst {τ : Type w} [LinearOrder τ] (t : Table key) (matching : ρ → Prop)
    [DecidablePred matching] (rank : ρ → τ) : Option ρ :=
  (t.rows.filter fun r => decide (matching r)).argmin rank

theorem findFirst_isFirst {τ : Type w} [LinearOrder τ] (t : Table key)
    (matching : ρ → Prop) [DecidablePred matching] (rank : ρ → τ) :
    t.IsFirst matching (fun r r' => rank r < rank r') (t.findFirst matching rank) := by
  cases h : t.findFirst matching rank with
  | none =>
      intro r hr hm
      have hnil := List.argmin_eq_none.1 h
      have hmem : r ∈ t.rows.filter fun r => decide (matching r) := by
        simpa using ⟨hr, hm⟩
      rw [hnil] at hmem
      cases hmem
  | some r =>
      have hmem := List.argmin_mem h
      simp only [List.mem_filter, decide_eq_true_eq] at hmem
      refine ⟨hmem.1, hmem.2, fun r' hr' hm' => ?_⟩
      have hle := List.le_of_mem_argmin (f := rank) (a := r') (m := r)
        (l := t.rows.filter fun r => decide (matching r)) (by simpa using ⟨hr', hm'⟩) h
      exact not_lt.2 hle

end Table

end EpsDapp
