import EpsDapp.Effect.Outputs
import EpsDapp.Number.Double
import EpsDapp.Store.OrderedMap

/-!
# The rate limiters

Both limiters count the calls of a key in windows of fixed length. The one of
`lib/rate-limit.ts` keeps a counter for each key it has seen; the one of
`lib/rateLimit.ts` moves a key to the end of its map at each call within a window, and
drops the first keys when there are more than `MAX_KEYS`. As long as no key is dropped
their counters are the same, and so are their answers.
-/

set_option autoImplicit false

namespace EpsDapp

open Effect

/-- A call of a limiter, with the time at which it is made. -/
structure RateLimitCall where
  key : String
  limit : Double
  windowMs : Double
  now : Double

/-- The count of a window, and when it expires. -/
structure Bucket where
  count : Double
  resetAt : Double

/-- What both limiters answer. -/
structure RateLimitAnswer where
  ok : Bool
  remaining : Double
  resetAt : Double
  deriving DecidableEq

/-- The counters of a limiter. -/
abbrev Buckets := OrderedMap String Bucket

/-- The window that a call falls into, if it has not expired. -/
def Buckets.current (buckets : Buckets) (c : RateLimitCall) : Option Bucket :=
  (buckets.find? c.key).filter fun existing => ¬ existing.resetAt ≤ c.now

/-! ## `lib/rateLimit.ts` -/

namespace LruLimiter

/-- `MAX_KEYS` -/
def maxKeys : ℕ := 10000

/-- The loop that drops the first keys, as long as there are too many. -/
def evict (buckets : Buckets) : Buckets :=
  if maxKeys < buckets.size then
    match h : buckets.rows with
    | [] => buckets
    | oldest :: _ =>
        have : (buckets.delete oldest.1).size < buckets.size := by
          refine List.length_filter_lt_length_iff_exists.2 ⟨oldest, ?_, by simp⟩
          rw [h]
          exact List.mem_cons_self
        evict (buckets.delete oldest.1)
  else buckets
termination_by buckets.size

/-- `rateLimit` -/
def rateLimit (buckets : Buckets) (c : RateLimitCall) : RateLimitAnswer × Buckets :=
  let (opened, buckets) : Bucket × Buckets :=
    match buckets.current c with
    | none => (⟨0, c.now + c.windowMs⟩, buckets)
    -- The key moves to the end: it is set again below.
    | some existing => (existing, buckets.delete c.key)
  let bucket : Bucket := { opened with count := opened.count + 1 }
  let buckets := evict (buckets.set c.key bucket)
  (⟨decide (bucket.count ≤ c.limit), max 0 (c.limit - bucket.count), bucket.resetAt⟩, buckets)

end LruLimiter

/-! ## `lib/rate-limit.ts` -/

namespace WindowLimiter

/-- `RateLimitResult` -/
structure RateLimitResult extends RateLimitAnswer where
  limit : Double
  retryAfterSeconds : ℤ

/-- `rateLimit` -/
def rateLimit (buckets : Buckets) (c : RateLimitCall) : RateLimitResult × Buckets :=
  match buckets.current c with
  | none =>
      let resetAt := c.now + c.windowMs
      (⟨⟨true, c.limit - 1, resetAt⟩, c.limit, (c.windowMs / 1000).ceil⟩,
        buckets.set c.key ⟨1, resetAt⟩)
  | some existing =>
      let counter : Bucket := { existing with count := existing.count + 1 }
      (⟨⟨decide (counter.count ≤ c.limit), max 0 (c.limit - counter.count), counter.resetAt⟩,
          c.limit, max 0 ((counter.resetAt - c.now) / 1000).ceil⟩,
        buckets.set c.key counter)

/-- What the limiter answers of what the other one answers too. -/
def answer (buckets : Buckets) (c : RateLimitCall) : RateLimitAnswer × Buckets :=
  let (result, buckets) := rateLimit buckets c
  (result.toRateLimitAnswer, buckets)

end WindowLimiter

/-! ## Agreement -/

namespace LruLimiter

/-- The limiters have the same counters, of the keys `ks`. -/
structure Agrees (ks : Finset String) (lru window : Buckets) : Prop where
  find? : ∀ key, lru.find? key = window.find? key
  keys : ∀ key, lru.find? key ≠ none → key ∈ ks

variable {ks : Finset String} {lru window : Buckets} {c : RateLimitCall}

/-- Nothing is dropped while there are few keys. -/
theorem evict_of_le {buckets : Buckets} (h : buckets.size ≤ maxKeys) :
    evict buckets = buckets := by
  rw [evict]
  exact if_neg (not_lt.2 h)

/-- Both have set the key of the call, the one after it may have deleted it. -/
theorem Agrees.set (h : Agrees ks lru window) (hks : ks.card ≤ maxKeys) (hkey : c.key ∈ ks)
    {lru' : Buckets} (hlru' : ∀ key, key ≠ c.key → lru'.find? key = lru.find? key)
    (bucket : Bucket) :
    Agrees ks (evict (lru'.set c.key bucket)) (window.set c.key bucket) := by
  have hfind : ∀ key, (lru'.set c.key bucket).find? key =
      if key = c.key then some bucket else lru.find? key := by
    intro key
    rw [OrderedMap.find?_set]
    split
    · rfl
    · rename_i hne
      exact hlru' key hne
  have hkeys : ∀ key, (lru'.set c.key bucket).find? key ≠ none → key ∈ ks := by
    intro key hne
    rw [hfind] at hne
    split at hne
    · rename_i heq
      exact heq ▸ hkey
    · exact h.keys key hne
  have hsize : (lru'.set c.key bucket).size ≤ maxKeys :=
    ((lru'.set c.key bucket).size_le_card hkeys).trans hks
  rw [evict_of_le hsize]
  refine ⟨fun key => ?_, hkeys⟩
  rw [hfind, OrderedMap.find?_set, h.find?]

/-- A call is answered alike, and keeps the counters alike. -/
theorem Agrees.step (h : Agrees ks lru window) (hks : ks.card ≤ maxKeys) (hkey : c.key ∈ ks)
    (hlimit : 1 ≤ c.limit) :
    (rateLimit lru c).1 = (WindowLimiter.answer window c).1 ∧
      Agrees ks (rateLimit lru c).2 (WindowLimiter.answer window c).2 := by
  have hcurrent : lru.current c = window.current c := by
    rw [Buckets.current, h.find?, Buckets.current]
  rw [rateLimit, WindowLimiter.answer, WindowLimiter.rateLimit, ← hcurrent]
  cases lru.current c with
  | none =>
      simp only [Double.zero_add_one]
      refine ⟨?_, h.set hks hkey (fun _ _ => rfl) _⟩
      simp [hlimit, Double.zero_le_sub hlimit]
  | some existing =>
      refine ⟨rfl, h.set hks hkey (fun key hne => ?_) _⟩
      rw [OrderedMap.find?_delete, if_neg hne]

end LruLimiter

/-- On every sequence of calls of at most `MAX_KEYS` keys the limiters answer alike. -/
theorem rateLimit_agree (calls : List RateLimitCall)
    (hopts : ∀ c ∈ calls, 1 ≤ c.limit ∧ 0 < c.windowMs)
    (hkeys : (calls.map RateLimitCall.key).toFinset.card ≤ LruLimiter.maxKeys) :
    outputs LruLimiter.rateLimit Table.empty calls =
      outputs WindowLimiter.answer Table.empty calls := by
  let ks := (calls.map RateLimitCall.key).toFinset
  have hempty : LruLimiter.Agrees ks Table.empty Table.empty :=
    ⟨fun _ => rfl, fun key hne => absurd (OrderedMap.find?_empty key) hne⟩
  refine outputs_eq_of_related (R := LruLimiter.Agrees ks)
    (P := fun c => 1 ≤ c.limit ∧ c.key ∈ ks) (fun lru window c hc h => ?_) hempty fun c hc => ?_
  · exact h.step hkeys hc.2 hc.1
  · exact ⟨(hopts c hc).1, List.mem_toFinset.2 (List.mem_map_of_mem hc)⟩

/-- Two calls in a window that allows one, and one after it. -/
theorem rateLimit_agree_of_three_calls :
    let calls : List RateLimitCall :=
      [⟨"a", 1, 60000, 0⟩, ⟨"a", 1, 60000, 1⟩, ⟨"a", 1, 60000, 60000⟩]
    outputs LruLimiter.rateLimit Table.empty calls =
        outputs WindowLimiter.answer Table.empty calls ∧
      (outputs WindowLimiter.answer Table.empty calls).map RateLimitAnswer.ok =
        [true, false, true] := by
  refine ⟨rateLimit_agree _ ?_ (by decide), by decide +kernel⟩
  decide +kernel

end EpsDapp
