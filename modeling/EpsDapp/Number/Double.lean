import Mathlib.Algebra.Order.Round
import Mathlib.Data.Int.Log
import Mathlib.Data.Rat.Cast.Order
import Mathlib.Data.Rat.Floor

/-!
# Doubles

A double has 53 binary digits, and an operation gives the double nearest to its exact
result, the even one of two. So the operations keep the order of their results, and are
exact on integers below `2 ^ 53`. The exponent of a double is not bounded here: there are
no infinities, and the numbers near zero lose no digits.
-/

set_option autoImplicit false

namespace EpsDapp

namespace Double

/-! ## The nearest integer -/

/-- What is added to an integer, for a rest below one: at one half, what makes it even. -/
def carry (n : ℤ) (rest : ℚ) : ℤ :=
  if rest < 1 / 2 then 0 else if rest = 1 / 2 then n % 2 else 1

/-- The nearest integer, and the even one of two. -/
def roundEven (q : ℚ) : ℤ :=
  ⌊q⌋ + carry ⌊q⌋ (Int.fract q)

theorem carry_nonneg (n : ℤ) (rest : ℚ) : 0 ≤ carry n rest := by
  rw [carry]
  split_ifs <;> omega

theorem carry_le_one (n : ℤ) (rest : ℚ) : carry n rest ≤ 1 := by
  rw [carry]
  split_ifs <;> omega

theorem carry_mono (n : ℤ) {r s : ℚ} (h : r ≤ s) : carry n r ≤ carry n s := by
  rcases lt_trichotomy s (1 / 2) with hs | rfl | hs
  · rw [carry, if_pos (h.trans_lt hs), carry, if_pos hs]
  · rcases h.lt_or_eq with hr | rfl
    · rw [carry, if_pos hr]
      exact carry_nonneg _ _
    · exact le_rfl
  · rw [carry.eq_1 n s, if_neg hs.not_gt, if_neg hs.ne']
    exact carry_le_one _ _

@[simp] theorem roundEven_intCast (n : ℤ) : roundEven n = n := by
  simp [roundEven, carry]

theorem roundEven_mono {p q : ℚ} (h : p ≤ q) : roundEven p ≤ roundEven q := by
  have hp := carry_le_one ⌊p⌋ (Int.fract p)
  have hq := carry_nonneg ⌊q⌋ (Int.fract q)
  rw [roundEven, roundEven]
  rcases (Int.floor_mono h).lt_or_eq with hfloor | hfloor
  · omega
  · rw [← hfloor, Int.add_le_add_iff_left]
    refine carry_mono _ ?_
    rw [Int.fract, Int.fract, hfloor]
    exact sub_le_sub_right h _

theorem abs_roundEven_sub_le (q : ℚ) : |(roundEven q : ℚ) - q| ≤ 1 / 2 := by
  have herror : (roundEven q : ℚ) - q = carry ⌊q⌋ (Int.fract q) - Int.fract q := by
    rw [roundEven, Int.fract]
    push_cast
    ring
  have hnonneg := Int.fract_nonneg q
  have hlt := Int.fract_lt_one q
  rw [herror, abs_le]
  rcases lt_trichotomy (Int.fract q) (1 / 2) with h | h | h
  · rw [carry, if_pos h, Int.cast_zero]
    constructor <;> linarith
  · have hlow : (0 : ℚ) ≤ carry ⌊q⌋ (Int.fract q) := by exact_mod_cast carry_nonneg _ _
    have hhigh : (carry ⌊q⌋ (Int.fract q) : ℚ) ≤ 1 := by exact_mod_cast carry_le_one _ _
    constructor <;> linarith
  · rw [carry, if_neg h.not_gt, if_neg h.ne', Int.cast_one]
    constructor <;> linarith

/-! ## Magnitudes -/

/-- The weight of the last of 53 digits. -/
def ulp (q : ℚ) : ℚ := 2 ^ (Int.log 2 q - 52)

/-- The nearest double, of a number that is not negative. -/
def magnitude (q : ℚ) : ℚ := roundEven (q / ulp q) * ulp q

theorem ulp_pos (q : ℚ) : 0 < ulp q := zpow_pos two_pos _

@[simp] theorem magnitude_zero : magnitude 0 = 0 := by
  have hzero : roundEven 0 = 0 := by exact_mod_cast roundEven_intCast 0
  rw [magnitude, zero_div, hzero, Int.cast_zero, zero_mul]

theorem abs_magnitude_sub_le (q : ℚ) : |magnitude q - q| ≤ ulp q / 2 := by
  have hulp := ulp_pos q
  have hscaled : magnitude q - q = (roundEven (q / ulp q) - q / ulp q) * ulp q := by
    rw [magnitude, sub_mul, div_mul_cancel₀ _ hulp.ne']
  have herror := mul_le_mul_of_nonneg_right (abs_roundEven_sub_le (q / ulp q)) hulp.le
  rw [hscaled, abs_mul, abs_of_pos hulp]
  linarith

/-- An integer number of digits of one weight is rounded to another one. -/
theorem mul_ulp_le_magnitude {q : ℚ} {n : ℤ} (h : n * ulp q ≤ q) : n * ulp q ≤ magnitude q := by
  have hdigits := roundEven_mono ((le_div_iff₀ (ulp_pos q)).2 h)
  rw [roundEven_intCast] at hdigits
  exact mul_le_mul_of_nonneg_right (Int.cast_le.2 hdigits) (ulp_pos q).le

theorem magnitude_le_mul_ulp {q : ℚ} {n : ℤ} (h : q ≤ n * ulp q) : magnitude q ≤ n * ulp q := by
  have hdigits := roundEven_mono ((div_le_iff₀ (ulp_pos q)).2 h)
  rw [roundEven_intCast] at hdigits
  exact mul_le_mul_of_nonneg_right (Int.cast_le.2 hdigits) (ulp_pos q).le

theorem zpow_log_eq (q : ℚ) : (2 : ℚ) ^ Int.log 2 q = ((2 ^ 52 : ℤ) : ℚ) * ulp q := by
  rw [ulp, zpow_sub₀ two_ne_zero]
  norm_num
  ring

/-- Rounding does not pass a power of two. -/
theorem zpow_log_le_magnitude {q : ℚ} (hq : 0 < q) : 2 ^ Int.log 2 q ≤ magnitude q := by
  have hlog : (2 : ℚ) ^ Int.log 2 q ≤ q := Int.zpow_log_le_self one_lt_two hq
  rw [zpow_log_eq] at hlog ⊢
  exact mul_ulp_le_magnitude hlog

theorem magnitude_le_zpow_log (q : ℚ) : magnitude q ≤ 2 ^ (Int.log 2 q + 1) := by
  have hlog : q < (2 : ℚ) ^ (Int.log 2 q + 1) := Int.lt_zpow_succ_log_self one_lt_two q
  have htwice : (2 : ℚ) ^ (Int.log 2 q + 1) = ((2 ^ 53 : ℤ) : ℚ) * ulp q := by
    rw [zpow_add_one₀ two_ne_zero, zpow_log_eq]
    norm_num
    ring
  rw [htwice] at hlog ⊢
  exact magnitude_le_mul_ulp hlog.le

theorem magnitude_mono {p q : ℚ} (hp : 0 ≤ p) (h : p ≤ q) : magnitude p ≤ magnitude q := by
  rcases hp.eq_or_lt with rfl | hp
  · rw [magnitude_zero]
    rcases h.eq_or_lt with rfl | hq
    · rw [magnitude_zero]
    · exact (zpow_pos two_pos _).le.trans (zpow_log_le_magnitude hq)
  · rcases (Int.log_mono_right (b := 2) hp h).lt_or_eq with hlog | hlog
    · calc magnitude p ≤ 2 ^ (Int.log 2 p + 1) := magnitude_le_zpow_log p
        _ ≤ 2 ^ Int.log 2 q := zpow_le_zpow_right₀ one_le_two hlog
        _ ≤ magnitude q := zpow_log_le_magnitude (hp.trans_le h)
    · have hulp : ulp p = ulp q := by rw [ulp, hlog, ulp]
      rw [magnitude, magnitude, hulp]
      refine mul_le_mul_of_nonneg_right (Int.cast_le.2 (roundEven_mono ?_)) (ulp_pos q).le
      exact div_le_div_of_nonneg_right h (ulp_pos q).le

/-- A number of 53 digits is a double. -/
theorem magnitude_mul_zpow {n : ℕ} (hn : n < 2 ^ 53) (e : ℤ) :
    magnitude (n * 2 ^ e) = n * 2 ^ e := by
  rcases Nat.eq_zero_or_pos n with rfl | hpos
  · rw [Nat.cast_zero, zero_mul, magnitude_zero]
  · have hq : (0 : ℚ) < n * 2 ^ e := mul_pos (Nat.cast_pos.2 hpos) (zpow_pos two_pos _)
    have hlt : (n : ℚ) * 2 ^ e < (2 : ℕ) ^ (53 + e) := by
      rw [Nat.cast_two, zpow_add₀ two_ne_zero]
      refine mul_lt_mul_of_pos_right ?_ (zpow_pos two_pos _)
      exact_mod_cast hn
    have hlog := (Int.lt_zpow_iff_log_lt one_lt_two hq).1 hlt
    obtain ⟨k, hk⟩ := Int.le.dest (show Int.log 2 ((n : ℚ) * 2 ^ e) - 52 ≤ e by omega)
    have hulp : (2 : ℚ) ^ e = ulp (n * 2 ^ e) * 2 ^ k := by
      rw [ulp, ← zpow_natCast, ← zpow_add₀ two_ne_zero, hk]
    have hdigits : (n : ℚ) * 2 ^ e / ulp (n * 2 ^ e) = ((n * 2 ^ k : ℤ) : ℚ) := by
      rw [div_eq_iff (ulp_pos _).ne']
      push_cast
      rw [mul_assoc, mul_comm (2 ^ k : ℚ), ← hulp]
    rw [magnitude, hdigits, roundEven_intCast, ← hdigits, div_mul_cancel₀ _ (ulp_pos _).ne']

theorem magnitude_magnitude {q : ℚ} (hq : 0 ≤ q) : magnitude (magnitude q) = magnitude q := by
  have hdigits : 0 ≤ roundEven (q / ulp q) := by
    have hmono := roundEven_mono (div_nonneg hq (ulp_pos q).le)
    rwa [← Int.cast_zero, roundEven_intCast] at hmono
  obtain ⟨n, hn⟩ := Int.eq_ofNat_of_zero_le hdigits
  have heq : magnitude q = n * 2 ^ (Int.log 2 q - 52) := by
    rw [magnitude, hn, ulp, Int.cast_natCast]
  have hle : (n : ℚ) * 2 ^ (Int.log 2 q - 52) ≤ (2 ^ 53 : ℕ) * 2 ^ (Int.log 2 q - 52) := by
    have htop := magnitude_le_zpow_log q
    rw [heq] at htop
    refine htop.trans_eq ?_
    rw [Nat.cast_pow, Nat.cast_two, ← zpow_natCast, ← zpow_add₀ two_ne_zero]
    congr 1
    push_cast
    ring
  have hn53 : n ≤ 2 ^ 53 := Nat.cast_le.1 (le_of_mul_le_mul_right hle (zpow_pos two_pos _))
  rw [heq]
  rcases hn53.lt_or_eq with hlt | rfl
  · exact magnitude_mul_zpow hlt _
  · -- The next power of two has one digit.
    have hone := magnitude_mul_zpow (n := 1) (by norm_num) (53 + (Int.log 2 q - 52))
    rw [zpow_add₀ two_ne_zero, ← mul_assoc] at hone
    exact_mod_cast hone

/-! ## Doubles -/

/-- The nearest double. -/
def nearest (q : ℚ) : ℚ := if 0 ≤ q then magnitude q else -magnitude (-q)

theorem nearest_of_nonneg {q : ℚ} (h : 0 ≤ q) : nearest q = magnitude q := if_pos h

@[simp] theorem nearest_neg (q : ℚ) : nearest (-q) = -nearest q := by
  rcases lt_trichotomy q 0 with h | rfl | h
  · rw [nearest, if_pos (neg_nonneg.2 h.le), nearest, if_neg h.not_ge, neg_neg]
  · simp [nearest]
  · rw [nearest, if_neg (neg_neg_iff_pos.2 h).not_ge, neg_neg, nearest_of_nonneg h.le]

theorem nearest_nonneg {q : ℚ} (h : 0 ≤ q) : 0 ≤ nearest q := by
  rw [nearest_of_nonneg h, ← magnitude_zero]
  exact magnitude_mono le_rfl h

theorem nearest_mono {p q : ℚ} (h : p ≤ q) : nearest p ≤ nearest q := by
  rcases le_total 0 p with hp | hp
  · rw [nearest_of_nonneg hp, nearest_of_nonneg (hp.trans h)]
    exact magnitude_mono hp h
  · have hneg : nearest p = -nearest (-p) := by rw [nearest_neg, neg_neg]
    have hp' := neg_nonneg.2 hp
    rcases le_total 0 q with hq | hq
    · exact (hneg.trans_le (neg_nonpos.2 (nearest_nonneg hp'))).trans (nearest_nonneg hq)
    · have hq' := neg_nonneg.2 hq
      rw [hneg, ← neg_neg q, nearest_neg (-q), neg_le_neg_iff, nearest_of_nonneg hp',
        nearest_of_nonneg hq']
      exact magnitude_mono hq' (neg_le_neg h)

@[simp] theorem nearest_nearest (q : ℚ) : nearest (nearest q) = nearest q := by
  rcases le_total 0 q with hq | hq
  · rw [nearest_of_nonneg (nearest_nonneg hq), nearest_of_nonneg hq, magnitude_magnitude hq]
  · have hneg : nearest q = -nearest (-q) := by rw [nearest_neg, neg_neg]
    have hq' := neg_nonneg.2 hq
    rw [hneg, nearest_neg, nearest_of_nonneg (nearest_nonneg hq'), nearest_of_nonneg hq',
      magnitude_magnitude hq']

/-- A number of few binary digits before the point has many after it. -/
theorem abs_nearest_sub_le {q : ℚ} (hq : 0 < q) {k : ℤ} (h : q < 2 ^ k) :
    |nearest q - q| ≤ 2 ^ (k - 54) := by
  have hlog : Int.log 2 q < k := (Int.lt_zpow_iff_log_lt one_lt_two hq).1 (by exact_mod_cast h)
  calc |nearest q - q| ≤ ulp q / 2 := by
        rw [nearest_of_nonneg hq.le]
        exact abs_magnitude_sub_le q
    _ = 2 ^ (Int.log 2 q - 53) := by
        rw [ulp, div_eq_mul_inv, ← zpow_sub_one₀ two_ne_zero]
        congr 1
        ring
    _ ≤ 2 ^ (k - 54) := zpow_le_zpow_right₀ one_le_two (by omega)

/-! ## Safe integers -/

/-- Natural numbers are doubles up to `2 ^ 53`. -/
theorem nearest_natCast {n : ℕ} (h : n ≤ 2 ^ 53) : nearest n = n := by
  rcases h.lt_or_eq with h | rfl
  · have hdigits := magnitude_mul_zpow h 0
    rw [zpow_zero, mul_one] at hdigits
    rw [nearest_of_nonneg n.cast_nonneg, hdigits]
  · decide +kernel

/-- `Number.isSafeInteger` -/
def IsSafeInteger (q : ℚ) : Prop := q.isInt = true ∧ |q| < 2 ^ 53

instance (q : ℚ) : Decidable (IsSafeInteger q) := inferInstanceAs (Decidable (_ ∧ _))

theorem isSafeInteger_iff {q : ℚ} : IsSafeInteger q ↔ ∃ n : ℤ, |n| < 2 ^ 53 ∧ q = n := by
  constructor
  · rintro ⟨hint, hlt⟩
    have hq := Rat.eq_num_of_isInt hint
    rw [hq] at hlt
    exact ⟨q.num, by exact_mod_cast hlt, hq⟩
  · rintro ⟨n, hn, rfl⟩
    exact ⟨by simp [Rat.isInt], by exact_mod_cast hn⟩

/-- An operation whose result is a safe integer is exact. -/
theorem nearest_of_isSafeInteger {q : ℚ} (h : IsSafeInteger q) : nearest q = q := by
  obtain ⟨n, hn, rfl⟩ := isSafeInteger_iff.1 h
  have habs : nearest (n.natAbs : ℚ) = n.natAbs := by
    refine nearest_natCast ?_
    rw [Int.abs_eq_natAbs] at hn
    exact_mod_cast hn.le
  rcases Int.natAbs_eq n with hpos | hneg
  · rw [hpos, Int.cast_natCast, habs]
  · rw [hneg, Int.cast_neg, Int.cast_natCast, nearest_neg, habs]

theorem IsSafeInteger.sub {p q : ℚ} (hp : IsSafeInteger p) (hq : IsSafeInteger q)
    (h : |p - q| < 2 ^ 53) : IsSafeInteger (p - q) := by
  obtain ⟨m, -, rfl⟩ := isSafeInteger_iff.1 hp
  obtain ⟨n, -, rfl⟩ := isSafeInteger_iff.1 hq
  rw [← Int.cast_sub] at h ⊢
  exact isSafeInteger_iff.2 ⟨m - n, by exact_mod_cast h, rfl⟩

end Double

/-- A number that is its own nearest double. -/
def Double := {q : ℚ // Double.nearest q = q}

namespace Double

instance : DecidableEq Double := inferInstanceAs (DecidableEq {q : ℚ // nearest q = q})

instance : LinearOrder Double := inferInstanceAs (LinearOrder {q : ℚ // nearest q = q})

/-- The number that a double is. -/
@[coe] def toRat (x : Double) : ℚ := x.1

instance : Coe Double ℚ := ⟨toRat⟩

/-- The double that a result is rounded to. -/
def ofRat (q : ℚ) : Double := ⟨nearest q, nearest_nearest q⟩

instance : Add Double := ⟨fun x y => ofRat (x.toRat + y.toRat)⟩

instance : Sub Double := ⟨fun x y => ofRat (x.toRat - y.toRat)⟩

instance : Div Double := ⟨fun x y => ofRat (x.toRat / y.toRat)⟩

instance (n : ℕ) : OfNat Double n := ⟨ofRat n⟩

/-- `Math.ceil` -/
def ceil (x : Double) : ℤ := ⌈(x : ℚ)⌉

variable {x y z : Double}

@[simp] theorem coe_le_coe : (x : ℚ) ≤ y ↔ x ≤ y := Iff.rfl

@[simp] theorem coe_lt_coe : (x : ℚ) < y ↔ x < y := Iff.rfl

@[simp] theorem nearest_coe (x : Double) : nearest x = x := x.2

theorem coe_add (x y : Double) : ((x + y : Double) : ℚ) = nearest (x + y) := rfl

theorem coe_sub (x y : Double) : ((x - y : Double) : ℚ) = nearest (x - y) := rfl

theorem coe_div (x y : Double) : ((x / y : Double) : ℚ) = nearest (x / y) := rfl

theorem coe_ofNat {n : ℕ} (h : n ≤ 2 ^ 53) : ((OfNat.ofNat n : Double) : ℚ) = n :=
  nearest_natCast h

@[simp] theorem coe_zero : ((0 : Double) : ℚ) = 0 := coe_ofNat (by norm_num)

@[simp] theorem coe_one : ((1 : Double) : ℚ) = 1 := coe_ofNat (by norm_num)

/-- A double below a rounded sum is below the sum. -/
theorem coe_lt_add_of_lt (h : x < y + z) : (x : ℚ) < y + z := by
  by_contra hle
  have hmono := nearest_mono (not_lt.1 hle)
  rw [nearest_coe] at hmono
  exact absurd h (not_lt.2 hmono)

theorem zero_le_sub (h : x ≤ y) : 0 ≤ y - x := by
  rw [← coe_le_coe, coe_zero, coe_sub]
  exact nearest_nonneg (sub_nonneg.2 h)

theorem zero_add_one : (0 : Double) + 1 = 1 := by decide +kernel

/-! ## Counting -/

/-- The double that counting to a number comes to. -/
def counted : ℕ → Double
  | 0 => 0
  | n + 1 => counted n + 1

/-- Counting stops at `2 ^ 53`. -/
theorem coe_counted (n : ℕ) : (counted n : ℚ) = (min n (2 ^ 53) : ℕ) := by
  induction n with
  | zero => exact coe_zero
  | succ n ih =>
      rw [counted, coe_add, ih, coe_one]
      rcases lt_or_ge n (2 ^ 53) with h | h
      · rw [min_eq_left h.le, min_eq_left (Nat.succ_le_of_lt h), ← Nat.cast_add_one]
        exact nearest_natCast h
      · rw [min_eq_right h, min_eq_right (h.trans n.le_succ)]
        decide +kernel

theorem counted_le_iff {limit : Double} (h : (limit : ℚ) < 2 ^ 53) {n : ℕ} :
    counted n ≤ limit ↔ (n : ℚ) ≤ limit := by
  rw [← coe_le_coe, coe_counted, Nat.cast_min, min_le_iff]
  refine or_iff_left (not_le.2 ?_)
  exact_mod_cast h

end Double

end EpsDapp
