import EpsDapp.Store.Table
import Mathlib.Data.Finset.Card

/-!
# Maps in insertion order

A `Map` of ECMAScript is a table of its entries: a key that is set again keeps its
place, and a new one comes last. A key that is deleted and set again comes last, which
is what makes the first key the one that was left alone for longest.
-/

set_option autoImplicit false

namespace EpsDapp

universe u v

/-- Entries of which no two have one key, in the order in which the keys were set. -/
abbrev OrderedMap (κ : Type u) (ν : Type v) := Table (Prod.fst : κ × ν → κ)

namespace OrderedMap

variable {κ : Type u} {ν : Type v} [DecidableEq κ]

/-- `map.get(k)` -/
def find? (m : OrderedMap κ ν) (k : κ) : Option ν := (m.get? k).map Prod.snd

/-- `map.set(k, v)` -/
def set (m : OrderedMap κ ν) (k : κ) (v : ν) : OrderedMap κ ν :=
  if h : m.get? k = none then m.insert (k, v) h
  else m.modify k (fun e => (e.1, v)) fun _ => rfl

/-- `map.delete(k)` -/
def delete (m : OrderedMap κ ν) (k : κ) : OrderedMap κ ν where
  rows := m.rows.filter fun e => e.1 ≠ k
  nodup := m.nodup.sublist (List.filter_sublist.map _)

/-- `map.size` -/
def size (m : OrderedMap κ ν) : ℕ := m.rows.length

/-- The keys, in order. -/
def keys (m : OrderedMap κ ν) : List κ := m.rows.map Prod.fst

variable (m : OrderedMap κ ν) (k j : κ) (v : ν)

@[simp] theorem find?_empty : find? (Table.empty : OrderedMap κ ν) k = none := rfl

theorem find?_set : (m.set k v).find? j = if j = k then some v else m.find? j := by
  rw [set]
  split
  · rename_i h
    rw [find?, Table.get?_insert]
    split
    · rfl
    · rfl
  · rename_i h
    obtain ⟨e, he⟩ := Option.ne_none_iff_exists'.1 h
    rw [find?, Table.get?_modify]
    split
    · rw [he]
      rfl
    · rfl

theorem find?_delete : (m.delete k).find? j = if j = k then none else m.find? j := by
  have hget : (m.delete k).get? j = if j = k then none else m.get? j := by
    rw [Table.get?, delete, List.find?_filter, Table.get?]
    split
    · rename_i h
      subst h
      simp
    · rename_i h
      congr 1
      funext e
      by_cases he : e.1 = j
      · simp [he, h]
      · simp [he]
  rw [find?, hget]
  split
  · rfl
  · rfl

theorem mem_keys_iff : j ∈ m.keys ↔ m.find? j ≠ none := by
  rw [find?, ne_eq, Option.map_eq_none_iff, Table.get?_eq_none_iff, keys, List.mem_map]
  push Not
  exact Iff.rfl

omit [DecidableEq κ] in
theorem length_keys : m.keys.length = m.size := List.length_map _

omit [DecidableEq κ] in
theorem nodup_keys : m.keys.Nodup := m.nodup

theorem keys_set : (m.set k v).keys = if m.find? k = none then m.keys ++ [k] else m.keys := by
  have hfind : m.find? k = none ↔ m.get? k = none := by rw [find?, Option.map_eq_none_iff]
  by_cases h : m.get? k = none
  · rw [if_pos (hfind.2 h), set, dif_pos h, keys, Table.insert, List.map_append]
    rfl
  · rw [if_neg (mt hfind.1 h), set, dif_neg h, keys, Table.modify, List.map_map]
    refine List.map_congr_left fun e _ => ?_
    simp only [Function.comp_apply]
    split
    · rfl
    · rfl

theorem keys_delete : (m.delete k).keys = m.keys.filter fun j => j ≠ k := by
  rw [keys, delete, keys, List.filter_map]
  rfl

/-- The first entry is deleted by its key. -/
theorem rows_delete_of_cons {m : OrderedMap κ ν} {e : κ × ν} {rows : List (κ × ν)}
    (h : m.rows = e :: rows) : (m.delete e.1).rows = rows := by
  have hnodup := m.nodup
  rw [h, List.map_cons, List.nodup_cons] at hnodup
  change m.rows.filter (fun e' => e'.1 ≠ e.1) = rows
  rw [h, List.filter_cons_of_neg (by simp)]
  refine List.filter_eq_self.2 fun e' he' => decide_eq_true fun heq => hnodup.1 ?_
  exact heq ▸ List.mem_map_of_mem he'

/-- What is left when the first entries are dropped is found as before. -/
theorem find?_of_suffix {m m' : OrderedMap κ ν} (h : m'.rows <:+ m.rows) (hj : j ∈ m'.keys) :
    m'.find? j = m.find? j := by
  obtain ⟨e, he, rfl⟩ := List.mem_map.1 hj
  have hm' : m'.get? e.1 = some e := m'.get?_key_eq he
  have hm : m.get? e.1 = some e := m.get?_key_eq (h.subset he)
  rw [find?, hm', find?, hm]

/-- A map whose keys are among `ks` has at most as many entries as `ks`. -/
theorem size_le_card {ks : Finset κ} (h : ∀ j, m.find? j ≠ none → j ∈ ks) :
    m.size ≤ ks.card := by
  have hlength : m.size = m.keys.length := (List.length_map _).symm
  have hcard : m.keys.toFinset.card = m.keys.length := List.toFinset_card_of_nodup m.nodup
  rw [hlength, ← hcard]
  refine Finset.card_le_card fun j hj => ?_
  exact h j ((m.mem_keys_iff j).1 (List.mem_toFinset.1 hj))

end OrderedMap

end EpsDapp
