import EpsDapp.Server.Recency

/-!
# The notice limiter in a flood of keys

The cap on the keys drops counters that are still running: enough calls of other keys
reset the window of a key. A key that is used again before as many others have been used
as the map has room for keeps its counter, and is answered as if it were alone.
-/

set_option autoImplicit false

namespace EpsDapp

open Calendar Effect

namespace LruLimiter

/-- What the limiter is to guarantee of a key: the other calls do not change its answers, and no
more calls pass than the limit, from the one that opens a window until the window has ended. -/
structure Throttles (limit windowMs : Double) (calls : List RateLimitCall) (key : String) :
    Prop where
  own : answersOf rateLimit key calls =
    (callsOf key calls).zip (outputs rateLimit Table.empty (callsOf key calls))
  window : ∀ w ∈ windows RateLimitCall.time (windowMs : ℚ) (callsOf key calls), ∀ c ∈ w.head?,
    ((answersOf rateLimit key calls).countP fun p =>
      p.2.ok && decide (c.time ≤ p.1.time ∧ p.1.time < c.time + windowMs) : ℕ) ≤ (limit : ℚ)

/-! ## The place of a key -/

/-- What is known of a key: when its window ends, and the other keys that have been put at the end
of the map since it was itself. -/
structure Place where
  resetAt : Double
  others : Finset String

instance (buckets : Buckets) (c : RateLimitCall) : Decidable (Reopens buckets c) :=
  inferInstanceAs (Decidable (_ ∧ _))

/-- A call of another key puts that one last, unless it reopens a window. -/
def Place.pass (place : Place) (buckets : Buckets) (c : RateLimitCall) : Place :=
  if Reopens buckets c then place else { place with others := insert c.key place.others }

/-- A call of the key in its window puts it last. After its window it has no counter to lose: it
opens another where it is, or at the end if it has been dropped. -/
def Place.use (place : Place) (c : RateLimitCall) : Place :=
  if c.now < place.resetAt then { place with others := ∅ }
  else ⟨c.now + c.windowMs, if place.others.card < maxKeys then place.others else ∅⟩

/-- The map and the place of a key, if it has been used, after a call. -/
def track (key : String) (s : Buckets × Option Place) (c : RateLimitCall) :
    Buckets × Option Place :=
  ((rateLimit s.1 c).2,
    if c.key = key then some (s.2.elim ⟨c.now + c.windowMs, ∅⟩ fun place => place.use c)
    else s.2.map fun place => place.pass s.1 c)

/-- The place of a key after calls. -/
def placeAfter (key : String) (calls : List RateLimitCall) : Option Place :=
  (calls.foldl (track key) (Table.empty, none)).2

/-- Whenever the key is used in its window, fewer than `MAX_KEYS` other keys have been put at the
end of the map since it was itself. -/
def KeepsPlace (key : String) (calls : List RateLimitCall) : Prop :=
  ∀ before c after, calls = before ++ c :: after → c.key = key →
    ∀ place ∈ placeAfter key before, c.now < place.resetAt → place.others.card < maxKeys

theorem foldl_track (key : String) (calls : List RateLimitCall) :
    calls.foldl (track key) (Table.empty, none) = (bucketsAfter calls, placeAfter key calls) := by
  refine Prod.ext ?_ rfl
  induction calls using List.reverseRecOn with
  | nil => rfl
  | append_singleton calls c ih =>
      rw [List.foldl_append, bucketsAfter_append]
      exact congrArg (fun buckets => (rateLimit buckets c).2) ih

theorem placeAfter_append (key : String) (calls : List RateLimitCall) (c : RateLimitCall) :
    placeAfter key (calls ++ [c]) =
      (track key (bucketsAfter calls, placeAfter key calls) c).2 := by
  rw [placeAfter, List.foldl_append, foldl_track]
  rfl

variable {buckets window : Buckets} {c : RateLimitCall} {key : String} {others : Finset String}
  {place : Place}

theorem KeepsPlace.concat {calls : List RateLimitCall} (h : KeepsPlace key calls)
    (hc : c.key = key → ∀ place ∈ placeAfter key calls,
      c.now < place.resetAt → place.others.card < maxKeys) : KeepsPlace key (calls ++ [c]) := by
  intro before d after heq
  rcases List.eq_nil_or_concat' after with rfl | ⟨after, e, rfl⟩
  · obtain ⟨rfl, hlast⟩ := List.append_inj' heq rfl
    cases hlast
    exact hc
  · rw [← List.cons_append, ← List.append_assoc] at heq
    exact h before d after (List.append_inj' heq rfl).1

/-- The others are the keys that come after the key in the map. -/
def Placed (key : String) (others : Finset String) (buckets : Buckets) : Prop :=
  ∃ front back, buckets.keys = front ++ key :: back ∧ back.toFinset = others

theorem Placed.mem_keys (h : Placed key others buckets) : key ∈ buckets.keys := by
  obtain ⟨front, back, hkeys, -⟩ := h
  rw [hkeys]
  exact List.mem_append_right _ List.mem_cons_self

/-- A call that opens no window of a held key puts its key last. -/
theorem placed_of_not_reopens (h : ¬ Reopens buckets c) :
    Placed c.key ∅ (rateLimit buckets c).2 := by
  refine ⟨(buckets.keys.reverse.filter fun j => j ≠ c.key).take 9999 |>.reverse, [], ?_, rfl⟩
  rw [← List.reverse_inj, keys_rateLimit h, touch, maxKeys, List.take_succ_cons]
  simp

/-- A call that reopens a window moves no key. -/
theorem Placed.of_reopens (h : Placed key others buckets) (hsize : buckets.size ≤ maxKeys)
    (hreopens : Reopens buckets c) : Placed key others (rateLimit buckets c).2 := by
  obtain ⟨front, back, hkeys, hback⟩ := h
  exact ⟨front, back, (keys_rateLimit_of_reopens hreopens hsize).trans hkeys, hback⟩

/-- The order of use after the call of another key, which comes before the others. -/
theorem Placed.touch_eq (h : Placed key others buckets) (hne : key ≠ c.key) :
    ∃ later rest, touch buckets.keys.reverse c.key = later ++ key :: rest ∧
      later.toFinset = insert c.key others ∧ later.length = (insert c.key others).card ∧
        key ∉ later := by
  obtain ⟨front, back, hkeys, rfl⟩ := h
  have hnodup : (key :: back).Nodup := by
    have hall := buckets.nodup_keys
    rw [hkeys] at hall
    exact (List.nodup_append.1 hall).2.1
  obtain ⟨hkey, hback⟩ := List.nodup_cons.1 hnodup
  have hlater : (touch back.reverse c.key).toFinset = insert c.key back.toFinset := by
    ext j
    simp [mem_touch]
  refine ⟨touch back.reverse c.key, front.reverse.filter fun j => j ≠ c.key, ?_, hlater, ?_, ?_⟩
  · rw [hkeys, List.reverse_append, List.reverse_cons, List.append_assoc, List.singleton_append,
      touch, List.filter_append, List.filter_cons_of_pos (by simpa using hne)]
    rfl
  · rw [← hlater, List.toFinset_card_of_nodup (nodup_touch (List.nodup_reverse.2 hback))]
  · rw [mem_touch, List.mem_reverse]
    exact fun h => h.elim hne hkey

/-- While there is room, the call of another key drops no key that has its place. -/
theorem Placed.other (h : Placed key others buckets) (hne : key ≠ c.key)
    (hreopens : ¬ Reopens buckets c) (hcard : (insert c.key others).card < maxKeys) :
    Placed key (insert c.key others) (rateLimit buckets c).2 := by
  obtain ⟨later, rest, htouch, hlater, hlength, -⟩ := h.touch_eq hne
  obtain ⟨n, hn⟩ : ∃ n, maxKeys = later.length + (n + 1) :=
    ⟨maxKeys - later.length - 1, by omega⟩
  refine ⟨(rest.take n).reverse, later.reverse, ?_, ?_⟩
  · rw [← List.reverse_inj, keys_rateLimit hreopens, htouch, hn, List.take_length_add_append,
      List.take_succ_cons]
    simp
  · rw [List.toFinset_reverse, hlater]

/-- When there is no room left, the call of another key drops the key. -/
theorem Placed.find?_eq_none (h : Placed key others buckets) (hne : key ≠ c.key)
    (hreopens : ¬ Reopens buckets c) (hcard : maxKeys ≤ (insert c.key others).card) :
    (rateLimit buckets c).2.find? key = none := by
  obtain ⟨later, rest, htouch, -, hlength, hkey⟩ := h.touch_eq hne
  by_contra hheld
  rw [← ne_eq, ← OrderedMap.mem_keys_iff, ← List.mem_reverse, keys_rateLimit hreopens, htouch,
    List.take_append_of_le_length (hlength ▸ hcard)] at hheld
  exact hkey (List.mem_of_mem_take hheld)

/-- A call is answered as the other limiter answers it, if the same window is running. -/
theorem rateLimit_eq_answer (hsize : buckets.size ≤ maxKeys)
    (hcurrent : buckets.current c = window.current c) (hlimit : 1 ≤ c.limit) :
    (rateLimit buckets c).1 = (WindowLimiter.answer window c).1 ∧
      (rateLimit buckets c).2.find? c.key = (WindowLimiter.answer window c).2.find? c.key := by
  have hheld := (OrderedMap.mem_keys_iff _ _).2 (find?_rateLimit_ne_none (c := c) hsize)
  rw [rateLimit_snd] at hheld ⊢
  rw [find?_evict hheld, rateLimit, recorded, WindowLimiter.answer, WindowLimiter.rateLimit,
    ← hcurrent]
  cases buckets.current c with
  | none => simp [hlimit, Double.zero_add_one, Double.zero_le_sub hlimit, OrderedMap.find?_set]
  | some existing => simp [OrderedMap.find?_set]

/-- What is known of the key is true, and its counter is the one that it has alone, unless it has
been dropped. -/
structure Tracked (key : String) (place : Place) (buckets window : Buckets) : Prop where
  alone : ∃ n, window.find? key = some ⟨n, place.resetAt⟩
  held : place.others.card < maxKeys →
    Placed key place.others buckets ∧ buckets.find? key = window.find? key
  dropped : maxKeys ≤ place.others.card → buckets.find? key = none

/-- A key that has just been put last. -/
theorem tracked_last {resetAt : Double} (halone : ∃ n, window.find? key = some ⟨n, resetAt⟩)
    (hplaced : Placed key ∅ buckets) (hfind : buckets.find? key = window.find? key) :
    Tracked key ⟨resetAt, ∅⟩ buckets window :=
  ⟨halone, fun _ => ⟨hplaced, hfind⟩, fun h => absurd h (not_le.2 maxKeys_pos)⟩

/-- The call of another key. -/
theorem Tracked.pass (h : Tracked key place buckets window) (hsize : buckets.size ≤ maxKeys)
    (hne : key ≠ c.key) :
    Tracked key (place.pass buckets c) (rateLimit buckets c).2 window := by
  have hgone : maxKeys ≤ place.others.card → (rateLimit buckets c).2.find? key = none :=
    fun hcard => find?_rateLimit_eq_none hne (h.dropped hcard)
  rw [Place.pass]
  split
  · rename_i hreopens
    refine ⟨h.alone, fun hcard => ?_, hgone⟩
    obtain ⟨hplaced, hsame⟩ := h.held hcard
    have hplaced' := hplaced.of_reopens hsize hreopens
    exact ⟨hplaced', (find?_rateLimit_of_ne hne hplaced'.mem_keys).trans hsame⟩
  · rename_i hreopens
    have hmore := Finset.card_le_card (Finset.subset_insert c.key place.others)
    refine ⟨h.alone, fun hcard => ?_, fun hcard => ?_⟩
    · obtain ⟨hplaced, hsame⟩ := h.held (hmore.trans_lt hcard)
      have hplaced' := hplaced.other hne hreopens hcard
      exact ⟨hplaced', (find?_rateLimit_of_ne hne hplaced'.mem_keys).trans hsame⟩
    · rcases lt_or_ge place.others.card maxKeys with hroom | hfull
      · exact (h.held hroom).1.find?_eq_none hne hreopens hcard
      · exact hgone hfull

/-- A call of the key, whose counter is held or not running. -/
theorem Tracked.use (h : Tracked c.key place buckets window) (hsize : buckets.size ≤ maxKeys)
    (hlimit : 1 ≤ c.limit) (htime : c.now < place.resetAt → place.others.card < maxKeys) :
    (rateLimit buckets c).1 = (WindowLimiter.answer window c).1 ∧
      Tracked c.key (place.use c) (rateLimit buckets c).2 (WindowLimiter.answer window c).2 := by
  obtain ⟨n, hwindow⟩ := h.alone
  have hcurrent : ∀ {m : Buckets}, m.find? c.key = window.find? c.key →
      m.current c = if c.now < place.resetAt then some ⟨n, place.resetAt⟩ else none :=
    fun hfind => WindowLimiter.current_eq_of_find? (hfind.trans hwindow)
  rw [Place.use]
  split
  · rename_i hrunning
    obtain ⟨hplaced, hsame⟩ := h.held (htime hrunning)
    have hcounter : buckets.current c = some ⟨n, place.resetAt⟩ := by
      rw [hcurrent hsame, if_pos hrunning]
    have hmoves : ¬ Reopens buckets c := fun hreopens => by
      cases hcounter.symm.trans hreopens.2
    obtain ⟨hanswer, hfind⟩ :=
      rateLimit_eq_answer hsize ((hcurrent hsame).trans (hcurrent rfl).symm) hlimit
    have hcounted := (WindowLimiter.rateLimit_of_current_eq_some
      ((hcurrent rfl).trans (if_pos hrunning))).2.2
    exact ⟨hanswer, tracked_last ⟨_, hcounted⟩ (placed_of_not_reopens hmoves) hfind⟩
  · rename_i helapsed
    have hnone : window.current c = none := by rw [hcurrent rfl, if_neg helapsed]
    have hopened := (WindowLimiter.rateLimit_of_current_eq_none hnone).2
    rcases lt_or_ge place.others.card maxKeys with hroom | hfull
    · obtain ⟨hplaced, hsame⟩ := h.held hroom
      have hreopens : Reopens buckets c := by
        refine ⟨?_, by rw [hcurrent hsame, if_neg helapsed]⟩
        rw [hsame, hwindow]
        exact Option.some_ne_none _
      obtain ⟨hanswer, hfind⟩ := rateLimit_eq_answer hsize (hreopens.2.trans hnone.symm) hlimit
      rw [if_pos hroom]
      exact ⟨hanswer, ⟨_, hopened⟩, fun _ => ⟨hplaced.of_reopens hsize hreopens, hfind⟩,
        fun hfull => absurd hroom (not_lt.2 hfull)⟩
    · have hgone := h.dropped hfull
      have hfresh : buckets.current c = none := by
        rw [Buckets.current, hgone]
        rfl
      obtain ⟨hanswer, hfind⟩ := rateLimit_eq_answer hsize (hfresh.trans hnone.symm) hlimit
      rw [if_neg (not_lt.2 hfull)]
      exact ⟨hanswer, tracked_last ⟨_, hopened⟩ (placed_of_not_reopens fun h => h.1 hgone) hfind⟩

/-- What is known of a key, whether it has been used or not. -/
def Known (key : String) (place : Option Place) (buckets window : Buckets) : Prop :=
  match place with
  | none => buckets.find? key = none ∧ window.find? key = none
  | some place => Tracked key place buckets window

theorem Known.other {place : Option Place} (h : Known key place buckets window)
    (hsize : buckets.size ≤ maxKeys) (hne : key ≠ c.key) :
    Known key (track key (buckets, place) c).2 (rateLimit buckets c).2 window := by
  rw [track, if_neg hne.symm]
  cases place with
  | none => exact ⟨find?_rateLimit_eq_none hne h.1, h.2⟩
  | some place => exact Tracked.pass h hsize hne

theorem Known.own {place : Option Place} (h : Known c.key place buckets window)
    (hsize : buckets.size ≤ maxKeys) (hlimit : 1 ≤ c.limit)
    (htime : ∀ p ∈ place, c.now < p.resetAt → p.others.card < maxKeys) :
    (rateLimit buckets c).1 = (WindowLimiter.answer window c).1 ∧
      Known c.key (track c.key (buckets, place) c).2 (rateLimit buckets c).2
        (WindowLimiter.answer window c).2 := by
  rw [track, if_pos rfl]
  cases place with
  | none =>
      have hcurrent : ∀ {m : Buckets}, m.find? c.key = none → m.current c = none := fun hfind => by
        rw [Buckets.current, hfind]
        rfl
      obtain ⟨hanswer, hfind⟩ :=
        rateLimit_eq_answer hsize ((hcurrent h.1).trans (hcurrent h.2).symm) hlimit
      have hopened := (WindowLimiter.rateLimit_of_current_eq_none (hcurrent h.2)).2
      exact ⟨hanswer,
        tracked_last ⟨_, hopened⟩ (placed_of_not_reopens fun hr => hr.1 h.1) hfind⟩
  | some place => exact Tracked.use h hsize hlimit (htime place rfl)

/-- The counters of the other limiter after the calls of a key alone. -/
def aloneAfter (key : String) (calls : List RateLimitCall) : Buckets :=
  (callsOf key calls).foldl (fun buckets c => (WindowLimiter.answer buckets c).2) Table.empty

theorem callsOf_concat_self (calls : List RateLimitCall) :
    callsOf c.key (calls ++ [c]) = callsOf c.key calls ++ [c] := by
  simp [callsOf]

theorem callsOf_concat_of_ne (hne : key ≠ c.key) (calls : List RateLimitCall) :
    callsOf key (calls ++ [c]) = callsOf key calls := by
  simp [callsOf, hne.symm]

/-- The last call of a key is answered from the map that all calls before it have left. -/
theorem answersOf_concat_self (calls : List RateLimitCall) (c : RateLimitCall) :
    answersOf rateLimit c.key (calls ++ [c]) =
      answersOf rateLimit c.key calls ++ [(c, (rateLimit (bucketsAfter calls) c).1)] := by
  rw [answersOf, outputs_concat, List.zip_append (length_outputs _ _ _).symm, List.filter_append,
    List.zip_cons_cons, List.zip_nil_left, List.filter_cons_of_pos (by simp), List.filter_nil]
  rfl

theorem answersOf_concat_of_ne (hne : key ≠ c.key) (calls : List RateLimitCall) :
    answersOf rateLimit key (calls ++ [c]) = answersOf rateLimit key calls := by
  rw [answersOf, outputs_concat, List.zip_append (length_outputs _ _ _).symm, List.filter_append,
    List.zip_cons_cons, List.zip_nil_left, List.filter_cons_of_neg (by simpa using hne.symm),
    List.filter_nil, List.append_nil, answersOf]

/-- While a key keeps its place, it is answered as if it were alone. -/
theorem answersOf_of_keepsPlace {calls : List RateLimitCall} (hkeeps : KeepsPlace key calls)
    (hlimit : ∀ c ∈ calls, 1 ≤ c.limit) :
    answersOf rateLimit key calls =
        (callsOf key calls).zip (outputs WindowLimiter.answer Table.empty (callsOf key calls)) ∧
      Known key (placeAfter key calls) (bucketsAfter calls) (aloneAfter key calls) := by
  induction calls using List.reverseRecOn with
  | nil => exact ⟨rfl, rfl, rfl⟩
  | append_singleton calls c ih =>
      obtain ⟨hanswers, hknown⟩ := ih
        (fun before d after heq => hkeeps before d (after ++ [c]) (by simp [heq]))
        fun d hd => hlimit d (List.mem_append_left _ hd)
      have hsize := size_bucketsAfter_le calls
      rw [placeAfter_append, bucketsAfter_append]
      by_cases hkey : key = c.key
      · subst hkey
        obtain ⟨hanswer, hnext⟩ := hknown.own hsize
          (hlimit c (List.mem_append_right _ (List.mem_singleton_self c))) (hkeeps calls c [] rfl rfl)
        rw [answersOf_concat_self, aloneAfter, callsOf_concat_self, outputs_concat,
          List.zip_append (length_outputs _ _ _).symm, hanswers, hanswer, List.foldl_append]
        exact ⟨rfl, hnext⟩
      · rw [answersOf_concat_of_ne hkey, aloneAfter, callsOf_concat_of_ne hkey]
        exact ⟨hanswers, hknown.other hsize hkey⟩

end LruLimiter

open LruLimiter in
/-- In any sequence of calls at whole milliseconds in which a key keeps its place, the notice
limiter throttles the key. -/
theorem throttles_of_keepsPlace {calls : List RateLimitCall} {limit windowMs : Double}
    (hlimit : 1 ≤ limit) (hbelow : (limit : ℚ) < 2 ^ 53) (hwindow : 0 < windowMs)
    (hfixed : ∀ c ∈ calls, c.limit = limit ∧ c.windowMs = windowMs)
    (hordered : calls.Pairwise fun c d => c.now ≤ d.now)
    (hwhole : ∀ c ∈ calls, c.InMilliseconds) {key : String} (hkeeps : KeepsPlace key calls) :
    Throttles limit windowMs calls key := by
  have hown : ∀ c ∈ callsOf key calls, c.key = key ∧ c.limit = limit ∧ c.windowMs = windowMs :=
    fun c hc => ⟨of_decide_eq_true (List.mem_filter.1 hc).2, hfixed c (List.mem_filter.1 hc).1⟩
  have halone : answersOf rateLimit key calls =
      (callsOf key calls).zip (outputs WindowLimiter.answer Table.empty (callsOf key calls)) :=
    (answersOf_of_keepsPlace hkeeps fun c hc => by rwa [(hfixed c hc).1]).1
  have hkeys : ((callsOf key calls).map RateLimitCall.key).toFinset.card ≤ maxKeys := by
    have hsub : ((callsOf key calls).map RateLimitCall.key).toFinset ⊆ {key} := fun j hj => by
      obtain ⟨c, hc, rfl⟩ := List.mem_map.1 (List.mem_toFinset.1 hj)
      exact Finset.mem_singleton.2 (hown c hc).1
    exact (Finset.card_le_card hsub).trans maxKeys_pos
  have hagree := rateLimit_agree (callsOf key calls) (fun c hc => by
    rw [(hown c hc).2.1, (hown c hc).2.2]
    exact ⟨hlimit, hwindow⟩) hkeys
  refine ⟨halone.trans (by rw [hagree]), fun w hw c hc => ?_⟩
  have hpassed : WindowLimiter.passed Table.empty (callsOf key calls) =
      admissions RateLimitCall.time windowMs limit (callsOf key calls) := by
    rw [← WindowLimiter.admissions_eq fun c hc =>
      ⟨(hown c hc).2.2, hwhole c (List.mem_filter.1 hc).1⟩]
    exact WindowLimiter.passed_eq_admissions hlimit hbelow hown fun c _ => rfl
  have hlength : (0 : ℚ) < windowMs := Double.coe_zero ▸ hwindow
  have hbound : (admissions RateLimitCall.time windowMs limit (callsOf key calls)).countP
      (fun p => p.2 && decide (c.time ≤ p.1.time ∧ p.1.time < c.time + windowMs)) ≤
        ⌊(limit : ℚ)⌋₊ :=
    countP_opened_le (fun s => lt_add_of_pos_right s hlength)
      (hordered.sublist List.filter_sublist) hw hc
  have hanswers : outputs WindowLimiter.answer Table.empty (callsOf key calls) =
      (outputs WindowLimiter.rateLimit Table.empty (callsOf key calls)).map
        WindowLimiter.RateLimitResult.toRateLimitAnswer :=
    outputs_map WindowLimiter.rateLimit _ _ _
  rw [← hpassed, WindowLimiter.passed, List.countP_map] at hbound
  rw [halone, hanswers, List.zip_map_right, List.countP_map]
  have hone : (1 : ℚ) ≤ limit := Double.coe_one ▸ hlimit
  have hfloor : (⌊(limit : ℚ)⌋₊ : ℚ) ≤ limit := Nat.floor_le (zero_le_one.trans hone)
  exact (Nat.cast_le.2 hbound).trans hfloor

namespace LruLimiter

/-- The call of the first key. -/
def firstCall : RateLimitCall := ⟨numbered 0, 1, 1, 0⟩

theorem passes_flooded :
    (rateLimit (bucketsAfter (numberedCalls (maxKeys + 1))) firstCall).1.ok = true := by
  have hfind : (bucketsAfter (numberedCalls (maxKeys + 1))).find? firstCall.key = none :=
    find?_flooded
  have hcurrent : (bucketsAfter (numberedCalls (maxKeys + 1))).current firstCall = none := by
    rw [Buckets.current, hfind]
    rfl
  rw [rateLimit, hcurrent]
  simp [firstCall, Double.zero_add_one]

theorem numberedCalls_succ (n : ℕ) :
    numberedCalls (n + 1) = numberedCalls n ++ [⟨numbered n, 1, 1, 0⟩] := by
  rw [numberedCalls, List.range_succ, List.map_append, numberedCalls]
  rfl

theorem callsOf_numberedCalls (n : ℕ) :
    callsOf (numbered 0) (numberedCalls (n + 1)) = [firstCall] := by
  induction n with
  | zero => rfl
  | succ n ih =>
      rw [numberedCalls_succ, callsOf_concat_of_ne (fun heq => by cases numbered_injective heq), ih]

theorem options_numberedCalls (n : ℕ) : ∀ c ∈ numberedCalls n,
    c.limit = 1 ∧ c.windowMs = 1 ∧ c.now = 0 := by
  intro c hc
  obtain ⟨i, -, rfl⟩ := List.mem_map.1 hc
  exact ⟨rfl, rfl, rfl⟩

/-- The calls of a flood, and two of its first key after its window. -/
def floodedCalls : List RateLimitCall :=
  numberedCalls (maxKeys + 1) ++ [againCall] ++ [againCall]

theorem options_floodedCalls : ∀ c ∈ floodedCalls,
    c.limit = 1 ∧ c.windowMs = 1 ∧ (c.now = 0 ∨ c.now = 1) := by
  intro c hc
  rw [floodedCalls, List.mem_append, List.mem_append, List.mem_singleton] at hc
  rcases hc with (hc | rfl) | rfl
  · obtain ⟨hlimit, hwindow, hnow⟩ := options_numberedCalls _ c hc
    exact ⟨hlimit, hwindow, Or.inl hnow⟩
  · exact ⟨rfl, rfl, Or.inr rfl⟩
  · exact ⟨rfl, rfl, Or.inr rfl⟩

theorem inMilliseconds_floodedCalls : ∀ c ∈ floodedCalls, c.InMilliseconds := by
  intro c hc
  have htimes : ∀ now ∈ [(0 : Double), 1], Double.IsSafeInteger now ∧
      Double.IsSafeInteger ((now : ℚ) + (1 : Double)) := by decide +kernel
  obtain ⟨-, hwindow, hnow⟩ := options_floodedCalls c hc
  obtain ⟨hsafe, hend⟩ := htimes c.now (by simpa using hnow)
  exact ⟨hsafe, by rw [hwindow]; decide +kernel, by rw [hwindow]; exact hend⟩

theorem ordered_floodedCalls : floodedCalls.Pairwise fun c d => c.now ≤ d.now := by
  rw [floodedCalls, List.append_assoc, List.pairwise_append]
  have hzero : (0 : Double) ≤ againCall.now := by decide +kernel
  refine ⟨List.pairwise_of_forall_mem_list fun c hc d hd => ?_, by simp, fun c hc d hd => ?_⟩
  · rw [(options_numberedCalls _ c hc).2.2, (options_numberedCalls _ d hd).2.2]
  · rw [(options_numberedCalls _ c hc).2.2]
    simp only [List.cons_append, List.nil_append, List.mem_cons, List.not_mem_nil, or_false,
      or_self] at hd
    exact hd ▸ hzero

/-- The keys of a flood have all been put behind the first one. -/
theorem placeAfter_numberedCalls (n : ℕ) :
    placeAfter (numbered 0) (numberedCalls (n + 1)) =
      some ⟨1, ((List.range n).map fun i => numbered (i + 1)).toFinset⟩ := by
  induction n with
  | zero => rw [← Double.zero_add_one]; rfl
  | succ n ih =>
      have hfresh : ¬ Reopens (bucketsAfter (numberedCalls (n + 1))) ⟨numbered (n + 1), 1, 1, 0⟩ :=
        not_reopens_of_nodup (numberedCalls_succ (n + 1) ▸ nodup_numberedCalls (n + 2))
      have hne : numbered (n + 1) ≠ numbered 0 := fun heq => by cases numbered_injective heq
      rw [numberedCalls_succ, placeAfter_append, track, ih, if_neg hne, Option.map_some, Place.pass,
        if_neg hfresh, List.range_succ, List.map_append, List.toFinset_append]
      simp [Finset.union_comm]

theorem keepsPlace_numberedCalls (n : ℕ) : KeepsPlace (numbered 0) (numberedCalls n) := by
  induction n with
  | zero => exact fun before c after heq => by cases before <;> cases heq
  | succ n ih =>
      rw [numberedCalls_succ]
      refine ih.concat fun hkey place hplace => ?_
      obtain rfl : n = 0 := numbered_injective hkey
      cases hplace

/-- The window of the key has ended when it is used again, and the place that it is put at is the
last one. -/
theorem keepsPlace_floodedCalls : KeepsPlace (numbered 0) floodedCalls := by
  have hafter := placeAfter_numberedCalls maxKeys
  have hfull : ¬ ((List.range maxKeys).map fun i => numbered (i + 1)).toFinset.card < maxKeys := by
    rw [List.toFinset_card_of_nodup (List.nodup_range.map fun i j heq =>
      Nat.succ_injective (numbered_injective heq)), List.length_map, List.length_range]
    exact lt_irrefl _
  have helapsed : ¬ againCall.now < 1 := by decide +kernel
  refine (KeepsPlace.concat (keepsPlace_numberedCalls _) fun _ place hplace hrunning => ?_).concat
    fun _ place hplace _ => ?_
  · rw [hafter] at hplace
    cases hplace
    exact absurd hrunning helapsed
  · have hkey : againCall.key = numbered 0 := rfl
    rw [placeAfter_append, track, hafter, if_pos hkey] at hplace
    simp only [Option.elim_some, Place.use, if_neg helapsed, if_neg hfull] at hplace
    cases hplace
    exact maxKeys_pos

/-- A key that is dropped by a flood loses nothing when its window has ended: its next window
admits one call. -/
theorem throttles_of_flood_between_windows :
    Throttles 1 1 floodedCalls (numbered 0) ∧
      (answersOf rateLimit (numbered 0) floodedCalls).map (fun p => p.2.ok) =
        [true, true, false] := by
  have hthrottles : Throttles 1 1 floodedCalls (numbered 0) :=
    throttles_of_keepsPlace le_rfl (by decide +kernel) (by decide +kernel)
      (fun c hc => ⟨(options_floodedCalls c hc).1, (options_floodedCalls c hc).2.1⟩)
      ordered_floodedCalls inMilliseconds_floodedCalls keepsPlace_floodedCalls
  have hcalls : callsOf (numbered 0) floodedCalls = [firstCall, againCall, againCall] := by
    have hagain : againCall.key = numbered 0 := rfl
    rw [floodedCalls, ← hagain, callsOf_concat_self, callsOf_concat_self, hagain,
      callsOf_numberedCalls]
    rfl
  have halone : outputs rateLimit Table.empty [firstCall, againCall, againCall] =
      outputs WindowLimiter.answer Table.empty [firstCall, againCall, againCall] :=
    rateLimit_agree _ (by decide +kernel) (by decide +kernel)
  refine ⟨hthrottles, ?_⟩
  rw [hthrottles.own, hcalls, halone]
  decide +kernel

/-- A key that passes again after a flood is not throttled. -/
theorem not_throttles_of_passes {flood : List RateLimitCall}
    (htwo : callsOf firstCall.key (flood ++ [firstCall]) = [firstCall, firstCall])
    (hpasses : (rateLimit (bucketsAfter flood) firstCall).1.ok = true) :
    ¬ Throttles 1 1 (flood ++ [firstCall]) firstCall.key := by
  intro h
  have halone : outputs rateLimit Table.empty [firstCall, firstCall] =
      outputs WindowLimiter.answer Table.empty [firstCall, firstCall] :=
    rateLimit_agree _ (by decide +kernel) (by decide +kernel)
  have hlast := congrArg (fun answers => answers.getLast?.map fun p => p.2.ok) h.own
  rw [answersOf_concat_self, htwo, halone, List.getLast?_concat, Option.map_some, hpasses] at hlast
  revert hlast
  decide +kernel

/-- A call that is refused within its window passes after a flood of other keys. -/
theorem not_throttles_of_flood :
    ¬ ∀ (calls : List RateLimitCall) (limit windowMs : Double), 1 ≤ limit → 0 < windowMs →
      (∀ c ∈ calls, c.limit = limit ∧ c.windowMs = windowMs) →
        (calls.Pairwise fun c d => c.now ≤ d.now) →
          ∀ key, Throttles limit windowMs calls key := by
  intro h
  have hoptions : ∀ c ∈ numberedCalls (maxKeys + 1) ++ [firstCall],
      c.limit = 1 ∧ c.windowMs = 1 ∧ c.now = 0 := by
    intro c hc
    rcases List.mem_append.1 hc with hc | hc
    · exact options_numberedCalls _ c hc
    · obtain rfl := List.mem_singleton.1 hc
      exact ⟨rfl, rfl, rfl⟩
  have hordered : (numberedCalls (maxKeys + 1) ++ [firstCall]).Pairwise
      fun c d => c.now ≤ d.now := by
    refine List.pairwise_of_forall_mem_list fun c hc d hd => ?_
    rw [(hoptions c hc).2.2, (hoptions d hd).2.2]
  have htwo : callsOf firstCall.key (numberedCalls (maxKeys + 1) ++ [firstCall]) =
      [firstCall, firstCall] := by
    rw [callsOf_concat_self]
    exact congrArg (· ++ [firstCall]) (callsOf_numberedCalls maxKeys)
  exact not_throttles_of_passes htwo passes_flooded (h _ 1 1 le_rfl (by decide +kernel)
    (fun c hc => ⟨(hoptions c hc).1, (hoptions c hc).2.1⟩) hordered firstCall.key)

end LruLimiter

end EpsDapp
