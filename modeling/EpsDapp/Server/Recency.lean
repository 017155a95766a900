import EpsDapp.Server.Throttle
import EpsDapp.Store.Recency
import Mathlib.Data.List.DropRight

/-!
# Which keys the notice limiter holds

The order of the map is the order of last use, as long as each call moves its key to the
end. A call that finds the window of its key elapsed sets the key again where it is, and
then the first key is not the one that was left alone for longest.
-/

set_option autoImplicit false

namespace EpsDapp

open Calendar Effect

namespace LruLimiter

variable {buckets : Buckets} {c : RateLimitCall} {key : String}

/-! ## One call -/

/-- The first keys are dropped, as many as there are too many. -/
theorem rows_evict (buckets : Buckets) :
    (evict buckets).rows = buckets.rows.drop (buckets.size - maxKeys) := by
  fun_induction evict buckets with
  | case1 buckets hsize hrows =>
      rw [hrows, List.drop_nil]
  | case2 buckets hsize oldest rest hrows _ ih =>
      have hdelete := OrderedMap.rows_delete_of_cons hrows
      have hlength : (buckets.delete oldest.1).size + 1 = buckets.size := by
        rw [OrderedMap.size, hdelete, OrderedMap.size, hrows, List.length_cons]
      have hdrop : buckets.size - maxKeys = (buckets.delete oldest.1).size - maxKeys + 1 := by
        omega
      rw [ih, hdelete, hrows, hdrop, List.drop_succ_cons]
  | case3 buckets hsize =>
      rw [Nat.sub_eq_zero_of_le (not_lt.1 hsize), List.drop_zero]

theorem keys_evict (buckets : Buckets) : (evict buckets).keys = buckets.keys.rtake maxKeys := by
  rw [OrderedMap.keys, rows_evict, List.map_drop, List.rtake, OrderedMap.length_keys,
    OrderedMap.keys]

/-- What is held after the eviction is held as before it. -/
theorem find?_evict (h : key ∈ (evict buckets).keys) :
    (evict buckets).find? key = buckets.find? key := by
  refine OrderedMap.find?_of_suffix key ?_ h
  rw [rows_evict]
  exact List.drop_suffix _ _

/-- The call finds the window of a key that is held elapsed. -/
def Reopens (buckets : Buckets) (c : RateLimitCall) : Prop :=
  buckets.find? c.key ≠ none ∧ buckets.current c = none

/-- The map after a call, before the eviction. -/
def recorded (buckets : Buckets) (c : RateLimitCall) : Buckets :=
  match buckets.current c with
  | none => buckets.set c.key ⟨1, c.now + c.windowMs⟩
  | some existing =>
      (buckets.delete c.key).set c.key { existing with count := existing.count + 1 }

theorem rateLimit_snd (buckets : Buckets) (c : RateLimitCall) :
    (rateLimit buckets c).2 = evict (recorded buckets c) := by
  rw [rateLimit, recorded]
  cases buckets.current c with
  | none => simp only [Double.zero_add_one]
  | some existing => rfl

/-- A call moves its key to the end, unless it reopens a window. -/
theorem keys_recorded (h : ¬ Reopens buckets c) :
    (recorded buckets c).keys = (buckets.keys.filter fun j => j ≠ c.key) ++ [c.key] := by
  rw [recorded]
  cases hcurrent : buckets.current c with
  | none =>
      have hfind : buckets.find? c.key = none := by
        by_contra hne
        exact h ⟨hne, hcurrent⟩
      have hfilter : (buckets.keys.filter fun j => j ≠ c.key) = buckets.keys :=
        List.filter_eq_self.2 fun j hj => decide_eq_true fun heq =>
          (buckets.mem_keys_iff j).1 hj (heq ▸ hfind)
      simp only [OrderedMap.keys_set, hfind, hfilter, if_true]
  | some existing =>
      have hfind : (buckets.delete c.key).find? c.key = none := by
        rw [OrderedMap.find?_delete, if_pos rfl]
      simp only [OrderedMap.keys_set, hfind, OrderedMap.keys_delete, if_true]

/-- A call that reopens a window leaves its key where it is. -/
theorem keys_recorded_of_reopens (h : Reopens buckets c) :
    (recorded buckets c).keys = buckets.keys := by
  simp only [recorded, h.2, OrderedMap.keys_set, if_neg h.1]

theorem find?_recorded_of_ne (h : key ≠ c.key) :
    (recorded buckets c).find? key = buckets.find? key := by
  rw [recorded]
  split
  · rw [OrderedMap.find?_set, if_neg h]
  · rw [OrderedMap.find?_set, if_neg h, OrderedMap.find?_delete, if_neg h]

/-- The keys after a call that reopens no window: its key was used last. -/
theorem keys_rateLimit (h : ¬ Reopens buckets c) :
    (rateLimit buckets c).2.keys.reverse = (touch buckets.keys.reverse c.key).take maxKeys := by
  have htouch : ((buckets.keys.filter fun j => j ≠ c.key) ++ [c.key]).reverse =
      touch buckets.keys.reverse c.key := by
    rw [List.reverse_append, List.reverse_singleton, List.singleton_append, touch,
      List.filter_reverse]
  rw [rateLimit_snd, keys_evict, keys_recorded h, List.rtake_eq_reverse_take_reverse,
    List.reverse_reverse, htouch]

theorem keys_rateLimit_of_reopens (h : Reopens buckets c) (hsize : buckets.size ≤ maxKeys) :
    (rateLimit buckets c).2.keys = buckets.keys := by
  rw [← OrderedMap.length_keys] at hsize
  rw [rateLimit_snd, keys_evict, keys_recorded_of_reopens h, List.rtake,
    Nat.sub_eq_zero_of_le hsize, List.drop_zero]

theorem maxKeys_pos : 0 < maxKeys := by decide

/-- There are never too many keys. -/
theorem size_rateLimit_le (buckets : Buckets) (c : RateLimitCall) :
    (rateLimit buckets c).2.size ≤ maxKeys := by
  rw [rateLimit_snd, ← OrderedMap.length_keys, keys_evict, List.rtake, List.length_drop]
  omega

/-- The key of the call is held. -/
theorem find?_rateLimit_ne_none (hsize : buckets.size ≤ maxKeys) :
    (rateLimit buckets c).2.find? c.key ≠ none := by
  rw [← OrderedMap.mem_keys_iff]
  by_cases h : Reopens buckets c
  · rw [keys_rateLimit_of_reopens h hsize, OrderedMap.mem_keys_iff]
    exact h.1
  · rw [← List.mem_reverse, keys_rateLimit h, touch, maxKeys, List.take_succ_cons]
    exact List.mem_cons_self

/-- A call of another key leaves a counter that is held. -/
theorem find?_rateLimit_of_ne (hne : key ≠ c.key) (hkey : key ∈ (rateLimit buckets c).2.keys) :
    (rateLimit buckets c).2.find? key = buckets.find? key := by
  rw [rateLimit_snd] at hkey ⊢
  rw [find?_evict hkey, find?_recorded_of_ne hne]

/-- A key that is not held is held by its own calls only. -/
theorem find?_rateLimit_eq_none (hne : key ≠ c.key) (h : buckets.find? key = none) :
    (rateLimit buckets c).2.find? key = none := by
  by_contra hheld
  have hkey := (OrderedMap.mem_keys_iff _ _).2 hheld
  exact hheld ((find?_rateLimit_of_ne hne hkey).trans h)

/-! ## Any calls -/

/-- The keys of calls in the order of their last use. -/
abbrev recentKeys (calls : List RateLimitCall) : List String :=
  lastUsed (calls.map RateLimitCall.key)

/-- The map after calls. -/
def bucketsAfter (calls : List RateLimitCall) : Buckets :=
  calls.foldl (fun buckets c => (rateLimit buckets c).2) Table.empty

@[simp] theorem bucketsAfter_append (calls : List RateLimitCall) (c : RateLimitCall) :
    bucketsAfter (calls ++ [c]) = (rateLimit (bucketsAfter calls) c).2 := by
  rw [bucketsAfter, List.foldl_append, List.foldl_cons, List.foldl_nil, bucketsAfter]

theorem size_bucketsAfter_le (calls : List RateLimitCall) :
    (bucketsAfter calls).size ≤ maxKeys := by
  induction calls using List.reverseRecOn with
  | nil => exact Nat.zero_le _
  | append_singleton calls c _ =>
      rw [bucketsAfter_append]
      exact size_rateLimit_le _ _

/-- The map holds the keys that were used last. -/
structure HoldsRecent (calls : List RateLimitCall) : Prop where
  size_le : (bucketsAfter calls).size ≤ maxKeys
  held : ∀ c ∈ calls.getLast?, (bucketsAfter calls).find? c.key ≠ none
  size_eq : (bucketsAfter calls).size =
    min maxKeys (calls.map RateLimitCall.key).toFinset.card
  recent : ∀ key, (bucketsAfter calls).find? key ≠ none ↔
    key ∈ (recentKeys calls).take maxKeys
  older : ∀ older newer, (bucketsAfter calls).find? older ≠ none →
    (recentKeys calls).idxOf newer < (recentKeys calls).idxOf older →
      (bucketsAfter calls).find? newer ≠ none

/-- The call moves its key to the end, or finds it there. -/
def InOrder (buckets : Buckets) (c : RateLimitCall) : Prop :=
  Reopens buckets c → buckets.keys.getLast? = some c.key

/-- A call in order keeps the map in the order of last use. -/
theorem keys_rateLimit_of_inOrder {keys : List String} (hkeys : keys.Nodup)
    (h : buckets.keys.reverse = keys.take maxKeys) (hc : InOrder buckets c) :
    (rateLimit buckets c).2.keys.reverse = (touch keys c.key).take maxKeys := by
  have hsize : buckets.size ≤ maxKeys := by
    rw [← OrderedMap.length_keys, ← List.length_reverse, h]
    exact List.length_take_le _ _
  have htake : (touch keys c.key).take maxKeys = (touch buckets.keys.reverse c.key).take maxKeys := by
    rw [h]
    exact (take_touch hkeys 9999 c.key).symm
  rw [htake]
  by_cases hreopens : Reopens buckets c
  · have hhead : buckets.keys.reverse.head? = some c.key := by
      rw [List.head?_reverse, hc hreopens]
    have hnodup : buckets.keys.reverse.Nodup := List.nodup_reverse.2 buckets.nodup_keys
    rw [keys_rateLimit_of_reopens hreopens hsize, touch_of_head? hnodup hhead, h, List.take_take,
      min_self]
  · exact keys_rateLimit hreopens

theorem keys_bucketsAfter {calls : List RateLimitCall}
    (h : ∀ before c after, calls = before ++ c :: after → InOrder (bucketsAfter before) c) :
    (bucketsAfter calls).keys.reverse = (recentKeys calls).take maxKeys := by
  induction calls using List.reverseRecOn with
  | nil => rfl
  | append_singleton calls c ih =>
      have hcalls := ih fun before d after heq =>
        h before d (after ++ [c]) (by rw [heq, List.append_assoc, List.cons_append])
      rw [bucketsAfter_append, recentKeys, List.map_append, List.map_singleton, lastUsed_append]
      exact keys_rateLimit_of_inOrder (nodup_lastUsed _) hcalls (h calls c [] rfl)

/-- In every run in which each call that reopens a window finds its key at the end, the map holds
the keys that were used last, after every call. -/
theorem holdsRecent_of_inOrder {calls : List RateLimitCall}
    (h : ∀ before c after, calls = before ++ c :: after → InOrder (bucketsAfter before) c)
    {before after : List RateLimitCall} (hcalls : calls = before ++ after) :
    HoldsRecent before := by
  have hkeys : (bucketsAfter before).keys.reverse = (recentKeys before).take maxKeys := by
    refine keys_bucketsAfter fun before' c after' heq => h before' c (after' ++ after) ?_
    rw [hcalls, heq, List.append_assoc, List.cons_append]
  have hfind : ∀ key, (bucketsAfter before).find? key ≠ none ↔
      key ∈ (recentKeys before).take maxKeys := fun key => by
    rw [← OrderedMap.mem_keys_iff, ← List.mem_reverse, hkeys]
  refine ⟨size_bucketsAfter_le before, fun c hc => ?_, ?_, hfind, fun older newer hheld hlater => ?_⟩
  · obtain ⟨front, rfl⟩ := List.getLast?_eq_some_iff.1 hc
    rw [bucketsAfter_append]
    exact find?_rateLimit_ne_none (size_bucketsAfter_le front)
  · have hcard : (before.map RateLimitCall.key).toFinset.card = (recentKeys before).length := by
      rw [← List.toFinset_card_of_nodup (nodup_lastUsed (before.map RateLimitCall.key))]
      congr 1
      ext key
      rw [List.mem_toFinset, List.mem_toFinset, mem_lastUsed]
    rw [← OrderedMap.length_keys, ← List.length_reverse, hkeys, List.length_take, hcard]
  · have hmem : older ∈ recentKeys before := List.mem_of_mem_take ((hfind older).1 hheld)
    have hnewer : newer ∈ recentKeys before :=
      List.idxOf_lt_length_iff.1 (hlater.trans (List.idxOf_lt_length_iff.2 hmem))
    have hold := (List.mem_take_iff_idxOf_lt hmem).1 ((hfind older).1 hheld)
    exact (hfind newer).2 ((List.mem_take_iff_idxOf_lt hnewer).2 (hlater.trans hold))

/-! ## A key that reopens its window where it is -/

/-- Only keys that were used are held. -/
theorem mem_of_find?_bucketsAfter {calls : List RateLimitCall} {key : String}
    (h : (bucketsAfter calls).find? key ≠ none) : key ∈ calls.map RateLimitCall.key := by
  induction calls using List.reverseRecOn with
  | nil => exact absurd (OrderedMap.find?_empty key) h
  | append_singleton calls c ih =>
      rw [List.map_append, List.mem_append, List.map_singleton, List.mem_singleton]
      by_cases hkey : key = c.key
      · exact Or.inr hkey
      · refine Or.inl (ih ?_)
        rw [bucketsAfter_append, rateLimit_snd] at h
        rwa [find?_evict ((OrderedMap.mem_keys_iff _ _).2 h), find?_recorded_of_ne hkey] at h

/-- Nothing reopens while each call has a key of its own. -/
theorem not_reopens_of_nodup {before after : List RateLimitCall}
    (h : ((before ++ c :: after).map RateLimitCall.key).Nodup) :
    ¬ Reopens (bucketsAfter before) c := by
  intro hreopens
  have hmem := mem_of_find?_bucketsAfter hreopens.1
  rw [List.map_append, List.map_cons] at h
  exact absurd rfl (List.nodup_append.1 h |>.2.2 _ hmem _ List.mem_cons_self)

/-- Calls of as many keys: the last ones are held, in order. -/
theorem keys_bucketsAfter_of_nodup {calls : List RateLimitCall}
    (h : (calls.map RateLimitCall.key).Nodup) :
    (bucketsAfter calls).keys = (calls.map RateLimitCall.key).rtake maxKeys := by
  have hkeys : (bucketsAfter calls).keys.reverse = (recentKeys calls).take maxKeys :=
    keys_bucketsAfter fun before c after heq hreopens =>
      absurd hreopens (not_reopens_of_nodup (heq ▸ h))
  rw [List.rtake_eq_reverse_take_reverse, ← lastUsed_of_nodup h, ← hkeys, List.reverse_reverse]

/-- A window that is held was opened by a call of its key. -/
theorem exists_opening {calls : List RateLimitCall} {key : String} {bucket : Bucket}
    (hfind : (bucketsAfter calls).find? key = some bucket) :
    ∃ c ∈ calls, bucket.resetAt = c.now + c.windowMs := by
  induction calls using List.reverseRecOn generalizing bucket with
  | nil => cases hfind
  | append_singleton calls c ih =>
      have hearlier : ∀ {existing : Bucket}, (bucketsAfter calls).find? key = some existing →
          ∃ d ∈ calls ++ [c], existing.resetAt = d.now + d.windowMs := fun h =>
        (ih h).imp fun d hd => ⟨List.mem_append_left _ hd.1, hd.2⟩
      have hkey : key ∈ (evict (recorded (bucketsAfter calls) c)).keys := by
        rw [← rateLimit_snd, ← bucketsAfter_append, OrderedMap.mem_keys_iff, hfind]
        exact Option.some_ne_none _
      rw [bucketsAfter_append, rateLimit_snd, find?_evict hkey] at hfind
      by_cases hown : key = c.key
      · subst hown
        rw [recorded] at hfind
        split at hfind
        · rw [OrderedMap.find?_set, if_pos rfl] at hfind
          cases hfind
          exact ⟨c, List.mem_append_right _ (List.mem_singleton_self c), rfl⟩
        · rename_i existing hcurrent
          rw [OrderedMap.find?_set, if_pos rfl] at hfind
          cases hfind
          have hopened := hearlier (Option.filter_eq_some_iff.1 hcurrent).1
          exact hopened
      · rw [find?_recorded_of_ne hown] at hfind
        exact hearlier hfind

/-- Calls of as many keys, and one more that reopens no window. -/
theorem inOrder_concat {calls : List RateLimitCall}
    (hcalls : (calls.map RateLimitCall.key).Nodup) (hc : ¬ Reopens (bucketsAfter calls) c)
    (before : List RateLimitCall) (d : RateLimitCall) (after : List RateLimitCall)
    (heq : calls ++ [c] = before ++ d :: after) : InOrder (bucketsAfter before) d := by
  intro hreopens
  rcases List.eq_nil_or_concat' after with rfl | ⟨after, e, rfl⟩
  · obtain ⟨rfl, hlast⟩ := List.append_inj' heq rfl
    cases hlast
    exact absurd hreopens hc
  · rw [← List.cons_append, ← List.append_assoc] at heq
    obtain ⟨rfl, -⟩ := List.append_inj' heq rfl
    exact absurd hreopens (not_reopens_of_nodup hcalls)

section Example

/-- A key for each number. -/
def numbered (n : ℕ) : String := String.ofList (List.replicate n 'k')

theorem numbered_injective : Function.Injective numbered := fun m n h => by
  have hlength := congrArg (fun s : String => s.toList.length) h
  simpa [numbered] using hlength

/-- A call for each number below `n`, with a window of a millisecond. -/
def numberedCalls (n : ℕ) : List RateLimitCall :=
  (List.range n).map fun i => ⟨numbered i, 1, 1, 0⟩

theorem keys_numberedCalls (n : ℕ) :
    (numberedCalls n).map RateLimitCall.key = (List.range n).map numbered := by
  rw [numberedCalls, List.map_map]
  rfl

theorem nodup_numberedCalls (n : ℕ) : ((numberedCalls n).map RateLimitCall.key).Nodup := by
  rw [keys_numberedCalls]
  exact List.nodup_range.map numbered_injective

theorem resetAt_of_numberedCalls {n : ℕ} {key : String} {bucket : Bucket}
    (hfind : (bucketsAfter (numberedCalls n)).find? key = some bucket) : bucket.resetAt = 1 := by
  obtain ⟨c, hc, hreset⟩ := exists_opening hfind
  obtain ⟨i, -, rfl⟩ := List.mem_map.1 hc
  exact hreset.trans Double.zero_add_one

/-- The first of too many keys is dropped. -/
theorem find?_flooded : (bucketsAfter (numberedCalls (maxKeys + 1))).find? (numbered 0) = none := by
  by_contra hheld
  rw [← ne_eq, ← OrderedMap.mem_keys_iff, keys_bucketsAfter_of_nodup (nodup_numberedCalls _),
    keys_numberedCalls, List.rtake, List.length_map, List.length_range, Nat.add_sub_cancel_left,
    List.range_succ_eq_map, List.map_cons, List.drop_succ_cons, List.drop_zero, List.map_map] at hheld
  obtain ⟨i, -, heq⟩ := List.mem_map.1 hheld
  cases numbered_injective heq

/-- The first key that is left, again in its window. -/
def usedAgain : RateLimitCall := ⟨numbered 1, 1, 1, 0⟩

theorem not_reopens_usedAgain : ¬ Reopens (bucketsAfter (numberedCalls (maxKeys + 1))) usedAgain := by
  rintro ⟨hheld, hcurrent⟩
  obtain ⟨bucket, hbucket⟩ := Option.ne_none_iff_exists'.1 hheld
  rw [WindowLimiter.current_eq_of_find? hbucket, resetAt_of_numberedCalls hbucket] at hcurrent
  revert hcurrent
  rw [if_pos (by decide +kernel)]
  exact Option.some_ne_none _

/-- One key more than there is room for, and then the first one that is left: the others keep
their order, and it is the last. -/
theorem holdsRecent_of_usedAgain :
    let calls := numberedCalls (maxKeys + 1) ++ [usedAgain]
    HoldsRecent calls ∧ (bucketsAfter calls).find? (numbered 0) = none ∧
      (bucketsAfter calls).keys.getLast? = some (numbered 1) := by
  intro calls
  have hinOrder := inOrder_concat (nodup_numberedCalls (maxKeys + 1)) not_reopens_usedAgain
  refine ⟨holdsRecent_of_inOrder hinOrder (List.append_nil _).symm, ?_, ?_⟩
  · rw [bucketsAfter_append]
    exact find?_rateLimit_eq_none (fun heq => by cases numbered_injective heq) find?_flooded
  · rw [List.getLast?_eq_head?_reverse, bucketsAfter_append, keys_rateLimit not_reopens_usedAgain,
      touch, maxKeys, List.take_succ_cons]
    rfl

theorem keys_full : (bucketsAfter (numberedCalls maxKeys)).keys =
    (List.range maxKeys).map numbered := by
  rw [keys_bucketsAfter_of_nodup (nodup_numberedCalls _), keys_numberedCalls, List.rtake,
    List.length_map, List.length_range, Nat.sub_self, List.drop_zero]

/-- The first key again, once its window has elapsed. -/
def againCall : RateLimitCall := ⟨numbered 0, 1, 1, 1⟩

/-- One key more than there is room for. -/
def oneTooMany : RateLimitCall := ⟨numbered maxKeys, 1, 1, 1⟩

theorem reopens_full : Reopens (bucketsAfter (numberedCalls maxKeys)) againCall := by
  have hheld : (bucketsAfter (numberedCalls maxKeys)).find? againCall.key ≠ none := by
    rw [← OrderedMap.mem_keys_iff, keys_full]
    exact List.mem_map_of_mem (List.mem_range.2 maxKeys_pos)
  refine ⟨hheld, Option.filter_eq_none_iff.2 fun bucket hbucket => ?_⟩
  simp [resetAt_of_numberedCalls hbucket, againCall]

/-- The first key of a full map is used again when its window has elapsed, and then it is the
first one to be dropped. -/
theorem not_holdsRecent_of_reopened : ¬ ∀ calls : List RateLimitCall, HoldsRecent calls := by
  intro h
  let calls := numberedCalls maxKeys ++ [againCall] ++ [oneTooMany]
  obtain ⟨n, hn⟩ : ∃ n, maxKeys = n + 2 := ⟨9998, rfl⟩
  have hne : ∀ i < maxKeys, numbered i ≠ numbered maxKeys := fun i hi heq =>
    absurd (numbered_injective heq) hi.ne
  -- The key that was used last but one is among the last.
  have hrecent : numbered 0 ∈ (recentKeys calls).take maxKeys := by
    have huses : recentKeys calls = touch (touch (recentKeys (numberedCalls maxKeys)) (numbered 0))
        (numbered maxKeys) := by
      simp only [recentKeys, calls, List.map_append, List.map_singleton, lastUsed_append]
      rfl
    rw [huses, touch, touch, List.filter_cons_of_pos (by simpa using hne 0 maxKeys_pos), hn,
      List.take_succ_cons, List.take_succ_cons]
    exact List.mem_cons_of_mem _ List.mem_cons_self
  -- It has kept its place as the first one, and the call after it has dropped it.
  have hkeys : (bucketsAfter (numberedCalls maxKeys ++ [againCall])).keys =
      (List.range maxKeys).map numbered := by
    rw [bucketsAfter_append, keys_rateLimit_of_reopens reopens_full (size_bucketsAfter_le _),
      keys_full]
  have hfresh : ¬ Reopens (bucketsAfter (numberedCalls maxKeys ++ [againCall])) oneTooMany := by
    rintro ⟨hheld, -⟩
    rw [← OrderedMap.mem_keys_iff, hkeys] at hheld
    obtain ⟨i, hi, heq⟩ := List.mem_map.1 hheld
    exact hne i (List.mem_range.1 hi) heq
  have hfilter : (((List.range maxKeys).map numbered).reverse.filter
      fun j => j ≠ oneTooMany.key) = ((List.range maxKeys).map numbered).reverse := by
    refine List.filter_eq_self.2 fun j hj => decide_eq_true ?_
    obtain ⟨i, hi, rfl⟩ := List.mem_map.1 (List.mem_reverse.1 hj)
    exact hne i (List.mem_range.1 hi)
  let others := (List.range (n + 1)).map fun i => numbered (i + 1)
  have hfirst : ((List.range (n + 2)).map numbered).reverse = others.reverse ++ [numbered 0] := by
    rw [List.range_succ_eq_map, List.map_cons, List.reverse_cons, List.map_map]
    rfl
  have hlength : others.reverse.length = n + 1 := by
    rw [List.length_reverse, List.length_map, List.length_range]
  have hheld := ((h calls).recent (numbered 0)).2 hrecent
  rw [← OrderedMap.mem_keys_iff, ← List.mem_reverse, bucketsAfter_append, keys_rateLimit hfresh,
    hkeys, touch, hfilter, hn, hfirst, List.take_succ_cons, List.take_left' hlength] at hheld
  rcases List.mem_cons.1 hheld with heq | hmem
  · exact hne 0 maxKeys_pos heq
  · obtain ⟨i, -, heq⟩ := List.mem_map.1 (List.mem_reverse.1 hmem)
    cases numbered_injective heq

end Example

end LruLimiter

end EpsDapp
