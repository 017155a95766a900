import Mathlib.Algebra.Order.Group.Defs
import Mathlib.Algebra.Order.Ring.Rat
import Mathlib.Data.List.Chain
import Mathlib.Data.List.TakeWhile
import Mathlib.Data.Rat.Floor

/-!
# Fixed windows

Events come one after the other. The first one opens a window of a fixed length, and
the first one that comes after a window has ended opens the next. If each window admits
its first events only, up to a limit, then an interval as long as a window meets two
windows at most, and has at most twice the limit of admitted events.
-/

set_option autoImplicit false

namespace EpsDapp

namespace Calendar

universe u v w

variable {α : Type u} {T : Type v}

theorem takeWhile_congr {p q : α → Bool} {l : List α} (h : ∀ a ∈ l, p a = q a) :
    l.takeWhile p = l.takeWhile q := by
  induction l with
  | nil => rfl
  | cons a l ih =>
      rw [List.takeWhile_cons, List.takeWhile_cons, h a List.mem_cons_self,
        ih fun b hb => h b (List.mem_cons_of_mem _ hb)]

theorem dropWhile_congr {p q : α → Bool} {l : List α} (h : ∀ a ∈ l, p a = q a) :
    l.dropWhile p = l.dropWhile q := by
  induction l with
  | nil => rfl
  | cons a l ih =>
      rw [List.dropWhile_cons, List.dropWhile_cons, h a List.mem_cons_self,
        ih fun b hb => h b (List.mem_cons_of_mem _ hb)]

section Windows

variable [Add T] [LinearOrder T] (time : α → T) (length : T)

/-- The windows of a sequence of events. -/
def windows : List α → List (List α)
  | [] => []
  | a :: events =>
      (a :: events.takeWhile fun b => time b < time a + length) ::
        windows (events.dropWhile fun b => time b < time a + length)
termination_by events => events.length
decreasing_by exact Nat.lt_succ_of_le (List.length_dropWhile_le _ _)

theorem windows_cons (a : α) (events : List α) :
    windows time length (a :: events) =
      (a :: events.takeWhile fun b => time b < time a + length) ::
        windows time length (events.dropWhile fun b => time b < time a + length) := by
  rw [windows]

/-- Every event is in one window, in its place. -/
theorem flatten_windows (events : List α) : (windows time length events).flatten = events := by
  fun_induction windows time length events with
  | case1 => rfl
  | case2 a events ih =>
      rw [List.flatten_cons, ih, List.cons_append, List.takeWhile_append_dropWhile]

variable {time length} in
/-- The windows depend only on which events come before a window has ended. -/
theorem windows_congr {S : Type w} [Add S] [LinearOrder S] {clock : α → S} {duration : S}
    {events : List α} (h : ∀ a ∈ events, ∀ b ∈ events,
      time b < time a + length ↔ clock b < clock a + duration) :
    windows time length events = windows clock duration events := by
  fun_induction windows time length events with
  | case1 => rw [windows]
  | case2 a events ih =>
      have hsame : ∀ b ∈ events,
          decide (time b < time a + length) = decide (clock b < clock a + duration) :=
        fun b hb => decide_eq_decide.2 (h a List.mem_cons_self b (List.mem_cons_of_mem _ hb))
      have hrest := ih fun b hb c hc => h b
        (List.mem_cons_of_mem _ ((List.dropWhile_sublist _).subset hb)) c
        (List.mem_cons_of_mem _ ((List.dropWhile_sublist _).subset hc))
      rw [windows_cons, hrest, takeWhile_congr hsame, dropWhile_congr hsame]

omit [Add T] in
variable {time} in
/-- In order, what is left of a window once its events are gone comes after it. -/
theorem le_time_of_mem_dropWhile {events : List α} {s : T}
    (hevents : events.Pairwise fun a b => time a ≤ time b) {b : α}
    (hb : b ∈ events.dropWhile fun c => time c < s) : s ≤ time b := by
  induction events with
  | nil => cases hb
  | cons a events ih =>
      obtain ⟨hfirst, hrest⟩ := List.pairwise_cons.1 hevents
      by_cases ha : time a < s
      · rw [List.dropWhile_cons_of_pos (by simpa using ha)] at hb
        exact ih hrest hb
      · rw [List.dropWhile_cons_of_neg (by simpa using ha)] at hb
        rcases List.mem_cons.1 hb with rfl | hb
        · exact not_lt.1 ha
        · exact (not_lt.1 ha).trans (hfirst b hb)

end Windows

/-! ## Admission -/

/-- The events of a window, the first ones admitted, as many as the limit allows. -/
def admitted (limit : ℚ) (events : List α) : List (α × Bool) :=
  events.zipIdx.map fun p => (p.1, decide ((p.2 : ℚ) + 1 ≤ limit))

theorem countP_zipIdx_le (limit : ℚ) (events : List α) (n : ℕ) :
    (events.zipIdx n).countP (fun p => decide ((p.2 : ℚ) + 1 ≤ limit)) ≤ ⌊limit⌋₊ - n := by
  induction events generalizing n with
  | nil => exact Nat.zero_le _
  | cons a events ih =>
      have hrest := ih (n + 1)
      rw [List.zipIdx_cons, List.countP_cons]
      split
      · rename_i h
        have hfloor : n + 1 ≤ ⌊limit⌋₊ := Nat.le_floor (by push_cast; exact of_decide_eq_true h)
        omega
      · omega

/-- A window admits no more than its limit. -/
theorem countP_admitted_le (limit : ℚ) (events : List α) :
    (admitted limit events).countP Prod.snd ≤ ⌊limit⌋₊ := by
  rw [admitted, List.countP_map]
  exact countP_zipIdx_le limit events 0

theorem mem_of_mem_admitted {limit : ℚ} {events : List α} {p : α × Bool}
    (h : p ∈ admitted limit events) : p.1 ∈ events := by
  obtain ⟨q, hq, rfl⟩ := List.mem_map.1 h
  exact List.fst_mem_of_mem_zipIdx hq

section Interval

variable [Add T] [LinearOrder T] {time : α → T} {length : T}

/-- The events with whether they are admitted, window by window. -/
def admissions (time : α → T) (length : T) (limit : ℚ) (events : List α) : List (α × Bool) :=
  (windows time length events).flatMap (admitted limit)

/-- The event is admitted, at a time in the closed interval that begins at `t`. -/
def admittedWithin (time : α → T) (length t : T) (p : α × Bool) : Bool :=
  p.2 && decide (t ≤ time p.1 ∧ time p.1 ≤ t + length)

theorem admissions_cons (limit : ℚ) (a : α) (events : List α) :
    admissions time length limit (a :: events) =
      admitted limit (a :: events.takeWhile fun b => time b < time a + length) ++
        admissions time length limit (events.dropWhile fun b => time b < time a + length) := by
  rw [admissions, windows_cons, List.flatMap_cons, admissions]

theorem mem_of_mem_admissions {limit : ℚ} {events : List α} {p : α × Bool}
    (h : p ∈ admissions time length limit events) : p.1 ∈ events := by
  obtain ⟨w, hw, hp⟩ := List.mem_flatMap.1 h
  rw [← flatten_windows time length events]
  exact List.mem_flatten.2 ⟨w, hw, mem_of_mem_admitted hp⟩

variable {limit : ℚ} {t : T} {events : List α}

theorem countP_admittedWithin_le (w : List α) :
    (admitted limit w).countP (admittedWithin time length t) ≤ ⌊limit⌋₊ := by
  refine (List.countP_mono_left fun p _ h => ?_).trans (countP_admitted_le limit w)
  exact (Bool.and_eq_true_iff.1 h).1

/-- Nothing is admitted after the interval. -/
theorem countP_eq_zero_of_after (h : ∀ a ∈ events, t + length < time a) :
    (admissions time length limit events).countP (admittedWithin time length t) = 0 := by
  refine List.countP_eq_zero.2 fun p hp hwithin => ?_
  have hend := (of_decide_eq_true (Bool.and_eq_true_iff.1 hwithin).2).2
  exact absurd hend (not_le.2 (h _ (mem_of_mem_admissions hp)))

/-- From the event that opens a window until the window has ended, no more are admitted than the
limit allows. -/
theorem countP_opened_le (hlength : ∀ s : T, s < s + length)
    (hevents : events.Pairwise fun a b => time a ≤ time b) {w : List α}
    (hw : w ∈ windows time length events) {a : α} (ha : a ∈ w.head?) :
    (admissions time length limit events).countP
      (fun p => p.2 && decide (time a ≤ time p.1 ∧ time p.1 < time a + length)) ≤ ⌊limit⌋₊ := by
  fun_induction windows time length events with
  | case1 => cases hw
  | case2 b events ih =>
      have hrest := (List.pairwise_cons.1 hevents).2
      have hdrop := hrest.sublist (List.dropWhile_sublist fun c => time c < time b + length)
      rw [admissions_cons, List.countP_append]
      rcases List.mem_cons.1 hw with rfl | hw
      · obtain rfl : b = a := Option.some.inj ha
        have hlast : (admissions time length limit
            (events.dropWhile fun c => time c < time b + length)).countP
              (fun p => p.2 && decide (time b ≤ time p.1 ∧ time p.1 < time b + length)) = 0 := by
          refine List.countP_eq_zero.2 fun p hp hwithin => ?_
          have hend := (of_decide_eq_true (Bool.and_eq_true_iff.1 hwithin).2).2
          exact absurd hend
            (not_lt.2 (le_time_of_mem_dropWhile hrest (mem_of_mem_admissions hp)))
        rw [hlast, Nat.add_zero]
        refine (List.countP_mono_left fun p _ h => ?_).trans (countP_admitted_le limit _)
        exact (Bool.and_eq_true_iff.1 h).1
      · -- The first window has ended when the event comes.
        have hafter : time b + length ≤ time a := by
          refine le_time_of_mem_dropWhile hrest ?_
          rw [← flatten_windows time length (events.dropWhile _)]
          exact List.mem_flatten.2 ⟨w, hw, List.mem_of_mem_head? ha⟩
        have hfirst : (admitted limit (b :: events.takeWhile fun c => time c < time b + length)
            ).countP (fun p => p.2 && decide (time a ≤ time p.1 ∧ time p.1 < time a + length)) =
              0 := by
          refine List.countP_eq_zero.2 fun p hp hwithin => ?_
          have hbegin := (of_decide_eq_true (Bool.and_eq_true_iff.1 hwithin).2).1
          have hend : time p.1 < time b + length := by
            rcases List.mem_cons.1 (mem_of_mem_admitted hp) with heq | hmem
            · exact heq ▸ hlength _
            · simpa using List.mem_takeWhile_imp hmem
          exact absurd (hafter.trans hbegin) (not_le.2 hend)
        rw [hfirst, Nat.zero_add]
        exact ih hdrop hw

/-- A window that opens in the interval is the last one to meet it. -/
theorem countP_le_of_within [AddRightStrictMono T]
    (hevents : events.Pairwise fun a b => time a ≤ time b) (h : ∀ a ∈ events, t < time a) :
    (admissions time length limit events).countP (admittedWithin time length t) ≤ ⌊limit⌋₊ := by
  cases events with
  | nil => simp [admissions, windows]
  | cons a events =>
      have hafter : ∀ b ∈ events.dropWhile fun b => time b < time a + length,
          t + length < time b := fun b hb =>
        (add_lt_add_left (h a List.mem_cons_self) length).trans_le
          (le_time_of_mem_dropWhile (List.pairwise_cons.1 hevents).2 hb)
      rw [admissions_cons, List.countP_append, countP_eq_zero_of_after hafter]
      exact countP_admittedWithin_le _

/-- An interval of the length of a window has at most twice the limit of admitted events. -/
theorem countP_admissions_le [AddRightStrictMono T] (hlength : ∀ s : T, s < s + length)
    (hevents : events.Pairwise fun a b => time a ≤ time b) :
    (admissions time length limit events).countP (admittedWithin time length t) ≤
      2 * ⌊limit⌋₊ := by
  fun_induction windows time length events with
  | case1 => simp [admissions, windows]
  | case2 a events ih =>
      have hrest := (List.pairwise_cons.1 hevents).2
      have hdrop := hrest.sublist (List.dropWhile_sublist fun b => time b < time a + length)
      rw [admissions_cons, List.countP_append]
      by_cases hmeets : ∃ b ∈ a :: events.takeWhile fun b => time b < time a + length, t ≤ time b
      · -- The window meets the interval, and the next one opens in it.
        obtain ⟨b, hb, ht⟩ := hmeets
        have hend : time b < time a + length := by
          rcases List.mem_cons.1 hb with rfl | hb
          · exact hlength _
          · simpa using List.mem_takeWhile_imp hb
        have hlast : (admissions time length limit
            (events.dropWhile fun b => time b < time a + length)).countP
              (admittedWithin time length t) ≤ ⌊limit⌋₊ :=
          countP_le_of_within hdrop fun c hc =>
            (ht.trans_lt hend).trans_le (le_time_of_mem_dropWhile hrest hc)
        rw [two_mul]
        exact Nat.add_le_add (countP_admittedWithin_le _) hlast
      · have hfirst : (admitted limit (a :: events.takeWhile fun b => time b < time a + length)
            ).countP (admittedWithin time length t) = 0 := by
          refine List.countP_eq_zero.2 fun p hp hwithin => hmeets ⟨p.1, mem_of_mem_admitted hp, ?_⟩
          exact (of_decide_eq_true (Bool.and_eq_true_iff.1 hwithin).2).1
        have hlast := ih hdrop
        omega

end Interval

/-! ## Spaced events -/

theorem countP_zipIdx_refused_le (limit : ℚ) (events : List α) (n : ℕ) :
    (events.zipIdx n).countP (fun p => !decide ((p.2 : ℚ) + 1 ≤ limit)) ≤
      events.length - (⌊limit⌋₊ - n) := by
  induction events generalizing n with
  | nil => exact Nat.zero_le _
  | cons a events ih =>
      have hrest := ih (n + 1)
      rw [List.zipIdx_cons, List.countP_cons, List.length_cons]
      by_cases h : (n : ℚ) + 1 ≤ limit
      · have hfloor : n + 1 ≤ ⌊limit⌋₊ := Nat.le_floor (by push_cast; exact h)
        simp only [h, decide_true, Bool.not_true, Bool.false_eq_true, if_false]
        omega
      · have hfloor : ⌊limit⌋₊ < n + 1 := (Nat.floor_lt' n.succ_ne_zero).2 (by push_cast; linarith)
        simp only [h, decide_false, Bool.not_false, if_true]
        omega

/-- A window refuses what it has above its limit. -/
theorem length_refused_le_of_window {limit : ℚ} {events : List α} {refused : List (α × Bool)}
    (h : refused <:+: admitted limit events) (hrefused : ∀ p ∈ refused, p.2 = false) :
    refused.length ≤ events.length - ⌊limit⌋₊ := by
  have hall : refused.countP (fun p => !p.2) = refused.length :=
    List.countP_eq_length.2 fun p hp => by rw [hrefused p hp]; rfl
  have hcount : (admitted limit events).countP (fun p => !p.2) ≤ events.length - ⌊limit⌋₊ := by
    rw [admitted, List.countP_map]
    exact countP_zipIdx_refused_le limit events 0
  rw [← hall]
  exact (List.Sublist.countP_le h.sublist).trans hcount

theorem infix_append_cases {l xs ys : List α} (h : l <:+: xs ++ ys) :
    l <:+: xs ∨ l <:+: ys ∨ ∃ front back, l = front ++ back ∧ back ≠ [] ∧ back <+: ys := by
  obtain ⟨s, t, heq⟩ := h
  rcases List.append_eq_append_iff.1 heq with ⟨rest, hxs, -⟩ | ⟨back, hfront, hys⟩
  · exact Or.inl ⟨s, rest, hxs.symm⟩
  · rcases List.append_eq_append_iff.1 hfront with ⟨front, hxs, hl⟩ | ⟨before, -, hback⟩
    · cases back with
      | nil => exact Or.inl ⟨s, [], by rw [hxs, hl, List.append_nil, List.append_nil]⟩
      | cons b back => exact Or.inr (Or.inr ⟨front, _, hl, List.cons_ne_nil _ _, t, hys.symm⟩)
    · exact Or.inr (Or.inl ⟨before, t, by rw [hys, hback]⟩)

section Spaced

variable [Add T] [LinearOrder T] {time : α → T} {length : T} {limit : ℚ}

/-- When no window has more than `k` events above the limit, no more than `k` events are refused
in a row. -/
theorem length_refused_le {events : List α} {k : ℕ} (hlimit : 1 ≤ limit)
    (hwindows : ∀ w ∈ windows time length events, w.length ≤ ⌊limit⌋₊ + k)
    {refused : List (α × Bool)} (h : refused <:+: admissions time length limit events)
    (hrefused : ∀ p ∈ refused, p.2 = false) : refused.length ≤ k := by
  fun_induction windows time length events with
  | case1 =>
      rw [admissions, windows] at h
      rw [List.infix_nil.1 h]
      exact Nat.zero_le k
  | case2 a events ih =>
      rw [List.forall_mem_cons] at hwindows
      rw [admissions_cons] at h
      rcases infix_append_cases h with h | h | ⟨front, back, rfl, hne, hback⟩
      · have hexcess := length_refused_le_of_window h hrefused
        have hfew := hwindows.1
        omega
      · exact ih hwindows.2 h
      · -- The next window begins with an event that is admitted.
        exfalso
        cases hnext : events.dropWhile fun b => time b < time a + length with
        | nil =>
            rw [hnext, admissions, windows] at hback
            exact hne (List.prefix_nil.1 hback)
        | cons b rest =>
            rw [hnext, admissions_cons, admitted, List.zipIdx_cons, List.map_cons,
              List.cons_append] at hback
            obtain ⟨c, back', rfl⟩ := List.exists_cons_of_ne_nil hne
            obtain ⟨rfl, -⟩ := List.cons_prefix_cons.1 hback
            have hfalse := hrefused _ (List.mem_append_right front List.mem_cons_self)
            simp [hlimit] at hfalse

variable {S : Type w} [AddCommMonoid S] [LinearOrder S] [IsOrderedCancelAddMonoid S]
  {clock : α → S} {gap : S}

/-- Events that come a gap apart are few in a given time. -/
theorem length_le_of_spaced {a : α} {events : List α} {n : ℕ}
    (hspaced : (a :: events).IsChain fun a b => clock a + gap ≤ clock b)
    (hend : ∀ b ∈ events, clock b < clock a + (n + 1) • gap) : events.length ≤ n := by
  induction events generalizing a n with
  | nil => exact Nat.zero_le n
  | cons b events ih =>
      obtain ⟨hgap, hrest⟩ := List.isChain_cons_cons.1 hspaced
      cases n with
      | zero =>
          have hb := hend b List.mem_cons_self
          rw [zero_add, one_nsmul] at hb
          exact absurd hgap (not_le.2 hb)
      | succ n =>
          refine Nat.succ_le_succ (ih hrest fun c hc => ?_)
          calc clock c < clock a + (n + 1 + 1) • gap := hend c (List.mem_cons_of_mem _ hc)
            _ = clock a + gap + (n + 1) • gap := by rw [succ_nsmul', add_assoc]
            _ ≤ clock b + (n + 1) • gap := add_le_add_left hgap _

/-- Events that come a gap apart are few in each window. -/
theorem length_le_of_mem_windows {events : List α} {n : ℕ}
    (hclock : ∀ a b, time b < time a + length → clock b < clock a + (n + 1) • gap)
    (hspaced : events.IsChain fun a b => clock a + gap ≤ clock b) {w : List α}
    (hw : w ∈ windows time length events) : w.length ≤ n + 1 := by
  fun_induction windows time length events with
  | case1 => cases hw
  | case2 a events ih =>
      rcases List.mem_cons.1 hw with rfl | hw
      · have hwindow : (a :: events.takeWhile fun b => time b < time a + length).IsChain
            fun a b => clock a + gap ≤ clock b :=
          List.IsChain.prefix hspaced ((List.prefix_cons_inj a).2 (List.takeWhile_prefix _))
        refine Nat.succ_le_succ (length_le_of_spaced hwindow fun b hb => hclock a b ?_)
        simpa using List.mem_takeWhile_imp hb
      · refine ih ?_ hw
        exact (hspaced.suffix (List.suffix_cons a events)).suffix (List.dropWhile_suffix _)

end Spaced

end Calendar

end EpsDapp
