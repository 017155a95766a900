import Mathlib.Data.List.Induction
import Mathlib.Data.List.Nodup
import Mathlib.Data.List.TakeWhile

/-!
# The order of last use

Keys are used one after the other. The one that was used last comes first, and a key that
is used again moves to the front. Whoever keeps the first `n` keys only, and moves the key
that is used to the front of them, keeps the `n` keys that were used last.
-/

set_option autoImplicit false

namespace EpsDapp

universe u

variable {κ : Type u} [DecidableEq κ]

/-- A key is used. -/
def touch (keys : List κ) (k : κ) : List κ := k :: keys.filter fun j => j ≠ k

/-- The keys in the order of their last use, the last one first. -/
def lastUsed (uses : List κ) : List κ := uses.foldl touch []

variable {keys : List κ} {j k : κ}

@[simp] theorem mem_touch : j ∈ touch keys k ↔ j = k ∨ j ∈ keys := by
  by_cases h : j = k
  · simp [touch, h]
  · simp [touch, h]

theorem nodup_touch (h : keys.Nodup) : (touch keys k).Nodup := by
  refine List.nodup_cons.2 ⟨fun hk => ?_, h.filter _⟩
  simpa using (List.mem_filter.1 hk).2

@[simp] theorem lastUsed_append (uses : List κ) (k : κ) :
    lastUsed (uses ++ [k]) = touch (lastUsed uses) k := by
  rw [lastUsed, List.foldl_append, List.foldl_cons, List.foldl_nil, lastUsed]

theorem nodup_lastUsed (uses : List κ) : (lastUsed uses).Nodup := by
  induction uses using List.reverseRecOn with
  | nil => exact List.nodup_nil
  | append_singleton uses k ih =>
      rw [lastUsed_append]
      exact nodup_touch ih

@[simp] theorem mem_lastUsed {uses : List κ} : k ∈ lastUsed uses ↔ k ∈ uses := by
  induction uses using List.reverseRecOn with
  | nil => exact Iff.rfl
  | append_singleton uses j ih =>
      rw [lastUsed_append, mem_touch, ih, List.mem_append, List.mem_singleton, or_comm]

/-- Keys that are used once each. -/
theorem lastUsed_of_nodup {uses : List κ} (h : uses.Nodup) : lastUsed uses = uses.reverse := by
  induction uses using List.reverseRecOn with
  | nil => rfl
  | append_singleton uses k ih =>
      obtain ⟨huses, -, hk⟩ := List.nodup_append.1 h
      have hfresh : uses.reverse.filter (fun j => j ≠ k) = uses.reverse :=
        List.filter_eq_self.2 fun j hj => decide_eq_true
          (hk j (List.mem_reverse.1 hj) k (List.mem_singleton_self k))
      rw [lastUsed_append, ih huses, touch, hfresh, List.reverse_append, List.reverse_singleton,
        List.singleton_append]

/-- A key that is first already stays where it is. -/
theorem touch_of_head? (h : keys.Nodup) (hk : keys.head? = some k) : touch keys k = keys := by
  cases keys with
  | nil => cases hk
  | cons j keys =>
      obtain rfl := Option.some.inj hk
      have hrest : keys.filter (fun i => i ≠ j) = keys :=
        List.filter_eq_self.2 fun i hi => decide_eq_true fun heq =>
          (List.nodup_cons.1 h).1 (heq ▸ hi)
      rw [touch, List.filter_cons_of_neg (by simp), hrest]

/-- Of keys no two of which are the same, leaving one out leaves out one at most. -/
theorem length_le_length_filter_ne (h : keys.Nodup) (k : κ) :
    keys.length ≤ (keys.filter fun j => j ≠ k).length + 1 := by
  have hcount : keys.count k ≤ 1 := List.nodup_iff_count_le_one.1 h k
  have hsplit := List.length_eq_length_filter_add (l := keys) fun j => decide (j = k)
  rw [List.count_eq_length_filter] at hcount
  simp only [beq_eq_decide, ne_eq, decide_not] at *
  omega

/-- What comes after the first keys does not come back among them. -/
theorem take_touch (h : keys.Nodup) (n : ℕ) (k : κ) :
    (touch (keys.take (n + 1)) k).take (n + 1) = (touch keys k).take (n + 1) := by
  rw [touch, touch, List.take_succ_cons, List.take_succ_cons]
  congr 1
  conv_rhs => rw [← List.take_append_drop (n + 1) keys, List.filter_append]
  rcases Nat.lt_or_ge n keys.length with hn | hn
  · have hlength := length_le_length_filter_ne (h.sublist (List.take_sublist (n + 1) keys)) k
    rw [List.length_take_of_le hn] at hlength
    rw [List.take_append_of_le_length (by omega)]
  · rw [List.drop_eq_nil_of_le (by omega), List.filter_nil, List.append_nil]

end EpsDapp
