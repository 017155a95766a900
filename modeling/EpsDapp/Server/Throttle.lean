import EpsDapp.Calendar.Window
import EpsDapp.Server.RateLimit

/-!
# The law of the API limiter

The answers to the calls of a key are those to its calls alone, and these are admitted
window by window. So an interval as long as a window has at most twice the limit of calls
that pass, and a call that is refused passes when it is made again after `Retry-After`.
The windows are those of exact arithmetic when the times are whole milliseconds: then no
sum of the limiter is rounded.
-/

set_option autoImplicit false

namespace EpsDapp

open Calendar Effect

/-- The time of a call as a number. -/
def RateLimitCall.time (c : RateLimitCall) : ℚ := c.now

/-- The times of a call are whole milliseconds, and so is the end of a window that it opens. -/
structure RateLimitCall.InMilliseconds (c : RateLimitCall) : Prop where
  now : Double.IsSafeInteger c.now
  windowMs : Double.IsSafeInteger c.windowMs
  resetAt : Double.IsSafeInteger ((c.now : ℚ) + c.windowMs)

/-- The window that a call opens ends when its length has passed. -/
theorem RateLimitCall.InMilliseconds.coe_add {c : RateLimitCall} (h : c.InMilliseconds) :
    ((c.now + c.windowMs : Double) : ℚ) = c.now + c.windowMs := by
  rw [Double.coe_add, Double.nearest_of_isSafeInteger h.resetAt]

/-- The calls of a key alone. -/
abbrev callsOf (key : String) (calls : List RateLimitCall) : List RateLimitCall :=
  calls.filter fun c => c.key = key

/-- The calls of a key with the answers of a limiter, among all calls. -/
def answersOf {β : Type} (limiter : Buckets → RateLimitCall → β × Buckets) (key : String)
    (calls : List RateLimitCall) : List (RateLimitCall × β) :=
  (calls.zip (outputs limiter Table.empty calls)).filter fun p => p.1.key = key

namespace WindowLimiter

variable {buckets : Buckets} {c : RateLimitCall} {key : String}

/-! ## One call -/

/-- A call opens a window when no counter of its key is running. -/
theorem rateLimit_of_current_eq_none (h : buckets.current c = none) :
    (rateLimit buckets c).1.ok = true ∧
      (rateLimit buckets c).2.find? c.key = some ⟨1, c.now + c.windowMs⟩ := by
  rw [rateLimit, h, OrderedMap.find?_set, if_pos rfl]
  exact ⟨rfl, rfl⟩

/-- A call is counted in the window that is running. -/
theorem rateLimit_of_current_eq_some {bucket : Bucket} (h : buckets.current c = some bucket) :
    (rateLimit buckets c).1.ok = decide (bucket.count + 1 ≤ c.limit) ∧
      (rateLimit buckets c).1.retryAfterSeconds =
        max 0 ((bucket.resetAt - c.now) / 1000).ceil ∧
      (rateLimit buckets c).2.find? c.key = some ⟨bucket.count + 1, bucket.resetAt⟩ := by
  rw [rateLimit, h, OrderedMap.find?_set, if_pos rfl]
  exact ⟨rfl, rfl, rfl⟩

theorem find?_rateLimit_of_ne (h : key ≠ c.key) :
    (rateLimit buckets c).2.find? key = buckets.find? key := by
  rw [rateLimit]
  split
  · rw [OrderedMap.find?_set, if_neg h]
  · rw [OrderedMap.find?_set, if_neg h]

/-- A call reads and writes no counter but that of its key. -/
theorem rateLimit_congr {buckets' : Buckets} (h : buckets.find? c.key = buckets'.find? c.key) :
    (rateLimit buckets c).1 = (rateLimit buckets' c).1 ∧
      (rateLimit buckets c).2.find? c.key = (rateLimit buckets' c).2.find? c.key := by
  have hcurrent : buckets.current c = buckets'.current c := by
    rw [Buckets.current, h, Buckets.current]
  rw [rateLimit, rateLimit, ← hcurrent]
  cases buckets.current c with
  | none => simp [OrderedMap.find?_set]
  | some existing => simp [OrderedMap.find?_set]

theorem current_eq_of_find? {bucket : Bucket} (h : buckets.find? c.key = some bucket) :
    buckets.current c = if c.now < bucket.resetAt then some bucket else none := by
  rw [Buckets.current, h, Option.filter_some]
  simp

/-! ## The calls of a key -/

/-- A call and whether it passes. -/
def passes (p : RateLimitCall × RateLimitResult) : RateLimitCall × Bool := (p.1, p.2.ok)

/-- The calls with whether they pass, from the counters on. -/
def passed (buckets : Buckets) (calls : List RateLimitCall) : List (RateLimitCall × Bool) :=
  (calls.zip (outputs rateLimit buckets calls)).map passes

theorem passed_cons (calls : List RateLimitCall) :
    passed buckets (c :: calls) =
      (c, (rateLimit buckets c).1.ok) :: passed (rateLimit buckets c).2 calls :=
  rfl

variable {limit windowMs : Double} {calls : List RateLimitCall}

/-- While a window runs, the calls of its key are counted on. -/
theorem passed_of_running {resetAt : Double} {n : ℕ} (hbelow : (limit : ℚ) < 2 ^ 53)
    (hfind : buckets.find? key = some ⟨Double.counted n, resetAt⟩)
    (hcalls : ∀ c ∈ calls, c.key = key ∧ c.limit = limit) :
    ∃ buckets' bucket', buckets'.find? key = some bucket' ∧ bucket'.resetAt = resetAt ∧
      passed buckets calls =
        ((calls.takeWhile fun c => c.now < resetAt).zipIdx n).map
            (fun p => (p.1, decide ((p.2 : ℚ) + 1 ≤ limit))) ++
          passed buckets' (calls.dropWhile fun c => c.now < resetAt) := by
  induction calls generalizing buckets n with
  | nil => exact ⟨buckets, _, hfind, rfl, rfl⟩
  | cons c calls ih =>
      obtain ⟨rfl, rfl⟩ := hcalls c List.mem_cons_self
      by_cases hc : c.now < resetAt
      · have hcurrent : buckets.current c = some ⟨Double.counted n, resetAt⟩ := by
          rw [current_eq_of_find? hfind, if_pos hc]
        obtain ⟨hok, -, hnext⟩ := rateLimit_of_current_eq_some hcurrent
        have hcount : Double.counted n + 1 ≤ c.limit ↔ (n : ℚ) + 1 ≤ c.limit := by
          rw [← Nat.cast_add_one]
          exact Double.counted_le_iff (n := n + 1) hbelow
        obtain ⟨buckets', bucket', hfind', hreset, hpassed⟩ :=
          ih (n := n + 1) hnext fun d hd => hcalls d (List.mem_cons_of_mem _ hd)
        refine ⟨buckets', bucket', hfind', hreset, ?_⟩
        rw [passed_cons, hok, hpassed, List.takeWhile_cons_of_pos (by simpa using hc),
          List.dropWhile_cons_of_pos (by simpa using hc), List.zipIdx_cons, List.map_cons,
          List.cons_append, decide_eq_decide.2 hcount]
      · refine ⟨buckets, _, hfind, rfl, ?_⟩
        rw [List.takeWhile_cons_of_neg (by simpa using hc),
          List.dropWhile_cons_of_neg (by simpa using hc), List.zipIdx_nil, List.map_nil,
          List.nil_append]

/-- The calls of a key are admitted window by window, when the first one opens a window. -/
theorem passed_eq_admissions (hlimit : 1 ≤ limit) (hbelow : (limit : ℚ) < 2 ^ 53)
    (hcalls : ∀ c ∈ calls, c.key = key ∧ c.limit = limit ∧ c.windowMs = windowMs)
    (hfirst : ∀ c ∈ calls.head?, buckets.current c = none) :
    passed buckets calls = admissions RateLimitCall.now windowMs limit calls := by
  fun_induction windows RateLimitCall.now windowMs calls generalizing buckets with
  | case1 => simp [passed, admissions, windows, outputs]
  | case2 c calls ih =>
      obtain ⟨rfl, rfl, rfl⟩ := hcalls c List.mem_cons_self
      have hrest : ∀ d ∈ calls, d.key = c.key ∧ d.limit = c.limit ∧ d.windowMs = c.windowMs :=
        fun d hd => hcalls d (List.mem_cons_of_mem _ hd)
      obtain ⟨hok, hopened⟩ := rateLimit_of_current_eq_none (hfirst c rfl)
      rw [← Double.zero_add_one] at hopened
      obtain ⟨buckets', bucket', hfind', hreset, hpassed⟩ :=
        passed_of_running (n := 1) hbelow hopened fun d hd => ⟨(hrest d hd).1, (hrest d hd).2.1⟩
      -- The first call after the window finds its counter expired.
      have hexpired : ∀ d ∈ (calls.dropWhile fun d => d.now < c.now + c.windowMs).head?,
          buckets'.current d = none := by
        intro d hd
        have hmem := (List.dropWhile_sublist _).subset (List.mem_of_mem_head? hd)
        have hnot := List.head?_dropWhile_not (fun d : RateLimitCall => d.now < c.now + c.windowMs)
          calls
        rw [current_eq_of_find? ((hrest d hmem).1 ▸ hfind'), hreset, if_neg]
        rw [hd] at hnot
        simpa using hnot
      have hnext := ih (fun d hd => hrest d ((List.dropWhile_sublist _).subset hd)) hexpired
      have hone : (1 : ℚ) ≤ c.limit := Double.coe_one ▸ hlimit
      rw [passed_cons, hok, hpassed, hnext, admissions_cons, admitted, List.zipIdx_cons,
        List.map_cons, List.cons_append]
      simp [hone]

/-- In whole milliseconds the windows of the limiter are those of exact arithmetic. -/
theorem admissions_eq (hcalls : ∀ c ∈ calls, c.windowMs = windowMs ∧ c.InMilliseconds) :
    admissions RateLimitCall.now windowMs limit calls =
      admissions RateLimitCall.time windowMs limit calls := by
  have hwindows : windows RateLimitCall.now windowMs calls =
      windows RateLimitCall.time (windowMs : ℚ) calls := by
    refine windows_congr fun c hc d _ => ?_
    obtain ⟨rfl, hwhole⟩ := hcalls c hc
    rw [RateLimitCall.time, RateLimitCall.time, ← hwhole.coe_add, Double.coe_lt_coe]
  rw [admissions, admissions, hwindows]

/-- The other calls do not change the answers to a key. -/
theorem answersOf_eq (key : String) (calls : List RateLimitCall) :
    answersOf rateLimit key calls =
      (callsOf key calls).zip (outputs rateLimit Table.empty (callsOf key calls)) := by
  refine filter_zip_outputs (R := fun s s' : Buckets => s.find? key = s'.find? key)
    (p := fun c => c.key = key) (fun s s' c hc h => ?_) (fun s s' c hc h => ?_) rfl calls
  · obtain rfl : c.key = key := of_decide_eq_true hc
    exact rateLimit_congr h
  · have hne : key ≠ c.key := fun heq => hc (decide_eq_true heq.symm)
    rw [find?_rateLimit_of_ne hne, h]

/-! ## `Retry-After` -/

/-- The counters run for at most a window after a call. -/
def RunsUntil (c : RateLimitCall) (buckets : Buckets) : Prop :=
  ∀ key bucket, buckets.find? key = some bucket →
    Double.IsSafeInteger bucket.resetAt ∧ (bucket.resetAt : ℚ) ≤ c.now + c.windowMs

theorem RunsUntil.step {d : RateLimitCall} (h : RunsUntil c buckets) (hd : d.InMilliseconds)
    (hwindow : d.windowMs = c.windowMs) (hnow : d.now ≤ c.now) :
    RunsUntil c (rateLimit buckets d).2 := by
  intro key bucket hfind
  by_cases hkey : key = d.key
  · subst hkey
    cases hcurrent : buckets.current d with
    | none =>
        rw [(rateLimit_of_current_eq_none hcurrent).2] at hfind
        cases hfind
        change Double.IsSafeInteger (d.now + d.windowMs : Double).toRat ∧
          ((d.now + d.windowMs : Double) : ℚ) ≤ c.now + c.windowMs
        rw [hd.coe_add]
        refine ⟨hd.resetAt, ?_⟩
        rw [hwindow]
        exact add_le_add_left (Double.coe_le_coe.2 hnow) _
    | some existing =>
        rw [(rateLimit_of_current_eq_some hcurrent).2.2] at hfind
        cases hfind
        exact h d.key existing (Option.filter_eq_some_iff.1 hcurrent).1
  · rw [find?_rateLimit_of_ne hkey] at hfind
    exact h key bucket hfind

/-- Whole milliseconds are no more than the seconds that they are rounded up to. -/
theorem le_mul_ceil_seconds {q : ℚ} (h : Double.IsSafeInteger q) (hq : 0 < q) :
    q ≤ 1000 * ⌈Double.nearest (q / 1000)⌉ := by
  obtain ⟨n, hn, rfl⟩ := Double.isSafeInteger_iff.1 h
  have hn44 : (n : ℚ) / 1000 < 2 ^ (44 : ℤ) := by
    have hlt : (n : ℚ) < 2 ^ 53 := by exact_mod_cast (le_abs_self n).trans_lt hn
    rw [div_lt_iff₀ (by norm_num)]
    norm_num at hlt ⊢
    linarith
  have herror := (abs_le.1 (Double.abs_nearest_sub_le (div_pos hq (by norm_num)) hn44)).1
  have hceil := Int.le_ceil (Double.nearest ((n : ℚ) / 1000))
  by_contra hlt
  -- A millisecond above whole seconds is more than the rounding error.
  have hint : 1000 * ⌈Double.nearest ((n : ℚ) / 1000)⌉ + 1 ≤ n :=
    Int.add_one_le_of_lt (by exact_mod_cast not_le.1 hlt)
  have hcast : 1000 * (⌈Double.nearest ((n : ℚ) / 1000)⌉ : ℚ) + 1 ≤ n := by exact_mod_cast hint
  norm_num at herror
  linarith

/-- The counter that a call finds has ended after its `retryAfterSeconds`. -/
theorem RunsUntil.resetAt_le {bucket : Bucket} (h : RunsUntil c buckets) (hc : c.InMilliseconds)
    (hcurrent : buckets.current c = some bucket) :
    (bucket.resetAt : ℚ) ≤ c.now + 1000 * (rateLimit buckets c).1.retryAfterSeconds := by
  obtain ⟨hfind, hrunning⟩ := Option.filter_eq_some_iff.1 hcurrent
  obtain ⟨hsafe, hend⟩ := h _ _ hfind
  have hpos : (0 : ℚ) < bucket.resetAt - c.now := by
    have hlt : c.now < bucket.resetAt := by simpa using hrunning
    exact sub_pos.2 (Double.coe_lt_coe.2 hlt)
  -- The wait is no longer than a window, and so it is not rounded.
  have hwait : Double.IsSafeInteger ((bucket.resetAt : ℚ) - c.now) := by
    refine hsafe.sub hc.now ?_
    rw [abs_of_pos hpos]
    exact (sub_le_iff_le_add'.2 hend).trans_lt (lt_of_abs_lt hc.windowMs.2)
  have hceil : ((bucket.resetAt - c.now) / 1000 : Double).ceil =
      ⌈Double.nearest (((bucket.resetAt : ℚ) - c.now) / 1000)⌉ := by
    rw [Double.ceil, Double.coe_div, Double.coe_sub, Double.nearest_of_isSafeInteger hwait,
      Double.coe_ofNat (by norm_num)]
    norm_num
  have hmax : (⌈Double.nearest (((bucket.resetAt : ℚ) - c.now) / 1000)⌉ : ℚ) ≤
      (max 0 ⌈Double.nearest (((bucket.resetAt : ℚ) - c.now) / 1000)⌉ : ℤ) := by
    exact_mod_cast le_max_right _ _
  have hlong := le_mul_ceil_seconds hwait hpos
  rw [(rateLimit_of_current_eq_some hcurrent).2.1, hceil]
  linarith

/-- A call that is refused passes when it is made again after `retryAfterSeconds`. -/
theorem ok_of_retryAfter {before between after : List (RateLimitCall × RateLimitResult)}
    {c d : RateLimitCall} {r r' : RateLimitResult} (hruns : RunsUntil c buckets)
    (hwhole : ∀ d ∈ calls, d.windowMs = windowMs ∧ d.InMilliseconds)
    (hordered : calls.Pairwise fun c d => c.now ≤ d.now)
    (h : calls.zip (outputs rateLimit buckets calls) =
      before ++ (c, r) :: (between ++ (d, r') :: after))
    (hkey : d.key = c.key) (hbetween : ∀ p ∈ between, p.1.key ≠ c.key) (hrefused : r.ok = false)
    (hretry : (c.now : ℚ) + 1000 * r.retryAfterSeconds ≤ d.now) : r'.ok = true := by
  have hcalls : calls = before.map Prod.fst ++ c :: (between ++ (d, r') :: after).map Prod.fst := by
    have hfst := congrArg (List.map Prod.fst) h
    rwa [List.map_fst_zip (length_outputs _ _ _).ge, List.map_append, List.map_cons] at hfst
  have hmem : c ∈ calls := by
    rw [hcalls]
    exact List.mem_append_right _ List.mem_cons_self
  have hbefore : ∀ q ∈ before, q.1 ∈ calls ∧ q.1.now ≤ c.now := by
    intro q hq
    have hq' : q.1 ∈ before.map Prod.fst := List.mem_map_of_mem hq
    rw [hcalls] at hordered
    refine ⟨?_, (List.pairwise_append.1 hordered).2.2 _ hq' _ List.mem_cons_self⟩
    rw [hcalls]
    exact List.mem_append_left _ hq'
  obtain ⟨s, hs, rfl, rest, hrest⟩ :=
    exists_state_of_zip_outputs (I := RunsUntil c) h hruns fun q hq s hs => by
      obtain ⟨hq, hnow⟩ := hbefore q hq
      exact hs.step (hwhole _ hq).2 ((hwhole _ hq).1.trans (hwhole c hmem).1.symm) hnow
  cases hcurrent : s.current c with
  | none => cases hrefused.symm.trans (rateLimit_of_current_eq_none hcurrent).1
  | some bucket =>
      obtain ⟨-, -, hcounted⟩ := rateLimit_of_current_eq_some hcurrent
      obtain ⟨s', hkept, rfl, -⟩ := exists_state_of_zip_outputs
        (I := fun s : Buckets => s.find? c.key = some ⟨bucket.count + 1, bucket.resetAt⟩) hrest hcounted
        fun p hp s hs => by rw [find?_rateLimit_of_ne (hbetween p hp).symm, hs]
      have hended : ¬ d.now < bucket.resetAt := by
        have hreset := hs.resetAt_le (hwhole c hmem).2 hcurrent
        exact not_lt.2 (Double.coe_le_coe.1 (hreset.trans hretry))
      have hopens : s'.current d = none := by
        rw [current_eq_of_find? (hkey ▸ hkept), if_neg hended]
      exact (rateLimit_of_current_eq_none hopens).1

end WindowLimiter

/-! ## The law -/

open WindowLimiter in
/-- The law of the limiter for a key: its answers are those to its calls alone, they are admitted
window by window, any interval as long as a window has at most twice the limit of calls that
pass, and `retryAfterSeconds` is long enough to wait. -/
structure WindowLaw (limit windowMs : Double) (calls : List RateLimitCall) (key : String) :
    Prop where
  own : answersOf rateLimit key calls =
    (callsOf key calls).zip (outputs rateLimit Table.empty (callsOf key calls))
  admitted : (answersOf rateLimit key calls).map passes =
    admissions RateLimitCall.time windowMs limit (callsOf key calls)
  interval : ∀ t : ℚ, ((answersOf rateLimit key calls).countP fun p =>
    p.2.ok && decide (t ≤ p.1.time ∧ p.1.time ≤ t + windowMs) : ℕ) ≤ 2 * (limit : ℚ)
  retryAfter : ∀ before c r between d r' after,
    calls.zip (outputs rateLimit Table.empty calls) =
        before ++ (c, r) :: (between ++ (d, r') :: after) →
      c.key = key → d.key = key → (∀ p ∈ between, p.1.key ≠ key) → r.ok = false →
        c.time + (1000 : ℚ) * r.retryAfterSeconds ≤ d.time → r'.ok = true

open WindowLimiter in
/-- In any sequence of calls in order, at whole milliseconds, the law holds of every key. -/
theorem windowLaw_of_inMilliseconds {calls : List RateLimitCall} {limit windowMs : Double}
    (hlimit : 1 ≤ limit) (hbelow : (limit : ℚ) < 2 ^ 53) (hwindow : 0 < windowMs)
    (hfixed : ∀ c ∈ calls, c.limit = limit ∧ c.windowMs = windowMs)
    (hordered : calls.Pairwise fun c d => c.now ≤ d.now)
    (hwhole : ∀ c ∈ calls, c.InMilliseconds) (key : String) :
    WindowLaw limit windowMs calls key := by
  have hown : ∀ c ∈ callsOf key calls, c.key = key ∧ c.limit = limit ∧ c.windowMs = windowMs :=
    fun c hc => ⟨of_decide_eq_true (List.mem_filter.1 hc).2, hfixed c (List.mem_filter.1 hc).1⟩
  have hpassed : (answersOf rateLimit key calls).map passes =
      admissions RateLimitCall.time windowMs limit (callsOf key calls) := by
    rw [answersOf_eq, ← admissions_eq fun c hc =>
      ⟨(hown c hc).2.2, hwhole c (List.mem_filter.1 hc).1⟩]
    exact passed_eq_admissions hlimit hbelow hown fun c _ => rfl
  refine ⟨answersOf_eq key calls, hpassed, fun t => ?_, ?_⟩
  · have hlength : (0 : ℚ) < windowMs := Double.coe_zero ▸ hwindow
    have hbound : (admissions RateLimitCall.time windowMs limit (callsOf key calls)).countP
        (admittedWithin RateLimitCall.time windowMs t) ≤ 2 * ⌊(limit : ℚ)⌋₊ :=
      countP_admissions_le (fun s => lt_add_of_pos_right s hlength)
        (hordered.sublist List.filter_sublist)
    rw [← hpassed, List.countP_map] at hbound
    have hone : (1 : ℚ) ≤ limit := Double.coe_one ▸ hlimit
    have hfloor : (⌊(limit : ℚ)⌋₊ : ℚ) ≤ limit := Nat.floor_le (zero_le_one.trans hone)
    have hcast : ((answersOf rateLimit key calls).countP fun p =>
        p.2.ok && decide (t ≤ p.1.time ∧ p.1.time ≤ t + windowMs) : ℕ) ≤
          2 * (⌊(limit : ℚ)⌋₊ : ℚ) := by
      exact_mod_cast hbound
    linarith
  · rintro before c r between d r' after h rfl hd hbetween
    refine ok_of_retryAfter (fun key bucket hfind => ?_)
      (fun d hd => ⟨(hfixed d hd).2, hwhole d hd⟩) hordered h hd hbetween
    cases hfind.symm.trans (OrderedMap.find?_empty key)

open WindowLimiter in
/-- A key that is refused, and waits for its `Retry-After` beside the call of another. -/
theorem windowLaw_of_refusal :
    let calls : List RateLimitCall := [⟨"a", 1, 60000, 1700000000000⟩,
      ⟨"b", 1, 60000, 1700000000010⟩, ⟨"a", 1, 60000, 1700000000500⟩,
      ⟨"a", 1, 60000, 1700000060500⟩]
    WindowLaw 1 60000 calls "a" ∧
      (answersOf rateLimit "a" calls).map (fun p => (p.2.ok, p.2.retryAfterSeconds)) =
        [(true, 60), (false, 60), (true, 60)] := by
  intro calls
  have hfixed : ∀ c ∈ calls, c.limit = 1 ∧ c.windowMs = 60000 := by decide +kernel
  have hwhole : ∀ c ∈ calls, Double.IsSafeInteger c.now ∧ Double.IsSafeInteger c.windowMs ∧
      Double.IsSafeInteger ((c.now : ℚ) + c.windowMs) := by decide +kernel
  refine ⟨windowLaw_of_inMilliseconds le_rfl (by decide +kernel) (by decide +kernel) hfixed
    (by decide +kernel) (fun c hc => ?_) "a", by decide +kernel⟩
  exact ⟨(hwhole c hc).1, (hwhole c hc).2.1, (hwhole c hc).2.2⟩

open WindowLimiter in
/-- A window so short that its end is rounded to its beginning never refuses a call. -/
theorem not_windowLaw_of_rounded : ¬ ∀ (calls : List RateLimitCall) (limit windowMs : Double),
    1 ≤ limit → 0 < windowMs → (∀ c ∈ calls, c.limit = limit ∧ c.windowMs = windowMs) →
      (calls.Pairwise fun c d => c.now ≤ d.now) → ∀ key, WindowLaw limit windowMs calls key := by
  intro h
  let windowMs := Double.ofRat (1 / 10000)
  let calls : List RateLimitCall := List.replicate 3 ⟨"a", 1, windowMs, 1700000000000⟩
  have hlaw := (h calls 1 windowMs le_rfl (by decide +kernel) (by decide +kernel)
    (by decide +kernel) "a").interval 1700000000000
  revert hlaw
  decide +kernel

end EpsDapp
