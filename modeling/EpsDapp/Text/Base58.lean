import Mathlib.Data.List.TakeWhile
import Mathlib.Data.Nat.Digits.Lemmas

/-!
# Base58

A sequence of digits is read as a number in another base, its leading zeros being kept
one for one. Base58 is this change of base from the bytes to an alphabet of 58
characters, and back.
-/

set_option autoImplicit false

namespace EpsDapp

/-! ## Change of base -/

/-- The digits, the most significant one first, in base `b'` instead of `b`, with as
many leading zeros. -/
def changeBase (b b' : ℕ) (digits : List ℕ) : List ℕ :=
  digits.takeWhile (· == 0) ++ (b'.digits (Nat.ofDigits b (digits.dropWhile (· == 0)).reverse)).reverse

section ChangeBase

variable {b b' : ℕ}

/-- No digits, or a first one that is not zero. -/
def Leads (digits : List ℕ) : Prop := ∀ d ∈ digits.head?, d ≠ 0

theorem leads_dropWhile (digits : List ℕ) : Leads (digits.dropWhile (· == 0)) := by
  intro d hd
  have h := List.head?_dropWhile_not (p := (· == 0)) digits
  rw [Option.mem_def.1 hd] at h
  simpa using h

theorem leads_reverse_digits (n : ℕ) : Leads (b.digits n).reverse := by
  intro d hd
  rw [List.head?_reverse, Option.mem_def] at hd
  have hne : b.digits n ≠ [] := by
    intro hnil
    rw [hnil] at hd
    cases hd
  rw [List.getLast?_eq_some_getLast hne] at hd
  cases hd
  exact Nat.getLast_digit_ne_zero b (Nat.digits_ne_nil_iff_ne_zero.1 hne)

/-- The zeros in front of digits that lead are the leading zeros. -/
theorem span_of_leads {zeros digits : List ℕ} (hzeros : ∀ d ∈ zeros, d = 0) (h : Leads digits) :
    (zeros ++ digits).takeWhile (· == 0) = zeros ∧
      (zeros ++ digits).dropWhile (· == 0) = digits := by
  have hpos : ∀ d ∈ zeros, (d == 0) = true := fun d hd => by simp [hzeros d hd]
  rw [List.takeWhile_append_of_pos hpos, List.dropWhile_append_of_pos hpos]
  cases digits with
  | nil => simp
  | cons d digits =>
      have hd : d ≠ 0 := h d rfl
      simp [hd]

/-- Changing the base back undoes changing it. -/
theorem changeBase_changeBase (hb : 1 < b) (digits : List ℕ) (h : ∀ d ∈ digits, d < b) :
    changeBase b' b (changeBase b b' digits) = digits := by
  let zeros := digits.takeWhile (· == 0)
  let rest := digits.dropWhile (· == 0)
  have hzeros : ∀ d ∈ zeros, d = 0 := fun d hd => by simpa using List.mem_takeWhile_imp hd
  have hrest : ∀ d ∈ rest.reverse, d < b := fun d hd =>
    h d ((List.dropWhile_sublist _).subset (List.mem_reverse.1 hd))
  have hlast : ∀ hne : rest.reverse ≠ [], rest.reverse.getLast hne ≠ 0 := by
    intro hne
    refine leads_dropWhile digits _ ?_
    rw [Option.mem_def, ← List.getLast?_reverse, List.getLast?_eq_some_getLast hne]
  obtain ⟨htake, hdrop⟩ := span_of_leads hzeros
    (leads_reverse_digits (b := b') (Nat.ofDigits b rest.reverse))
  rw [changeBase, changeBase, htake, hdrop, List.reverse_reverse, Nat.ofDigits_digits,
    Nat.digits_ofDigits b hb _ hrest hlast, List.reverse_reverse]
  exact List.takeWhile_append_dropWhile

theorem lt_of_mem_changeBase (hb' : 1 < b') {digits : List ℕ} {d : ℕ}
    (h : d ∈ changeBase b b' digits) : d < b' := by
  rcases List.mem_append.1 h with h | h
  · have hd : d = 0 := by simpa using List.mem_takeWhile_imp h
    omega
  · exact Nat.digits_lt_base hb' (List.mem_reverse.1 h)

end ChangeBase

/-! ## The alphabet -/

/-- The digits of base58: no zero, and no letter that is taken for another. -/
def base58Alphabet : List Char :=
  "123456789ABCDEFGHJKLMNPQRSTUVWXYZabcdefghijkmnopqrstuvwxyz".toList

/-- The character of a digit. -/
def base58Digit (n : ℕ) : Char := base58Alphabet.getD n '1'

/-- The digit of a character; other characters have none. -/
def base58Value (c : Char) : Option ℕ := base58Alphabet.findIdx? (· == c)

/-- `bs58.encode(bytes)` -/
def base58Encode (bytes : List UInt8) : String :=
  String.ofList ((changeBase 256 58 (bytes.map UInt8.toNat)).map base58Digit)

/-- `bs58.decode(text)`, which throws on a character that is no digit. -/
def base58Decode (text : String) : Option (List UInt8) :=
  (text.toList.mapM base58Value).map fun digits => (changeBase 58 256 digits).map UInt8.ofNat

theorem base58Value_base58Digit : ∀ n < 58, base58Value (base58Digit n) = some n := by decide

theorem mapM_base58Value {digits : List ℕ} (h : ∀ d ∈ digits, d < 58) :
    (digits.map base58Digit).mapM base58Value = some digits := by
  induction digits with
  | nil => rfl
  | cons d digits ih =>
      rw [List.map_cons, List.mapM_cons, base58Value_base58Digit d (h d List.mem_cons_self),
        ih fun d' hd' => h d' (List.mem_cons_of_mem _ hd')]
      rfl

/-- Decoding undoes encoding. -/
theorem base58Decode_base58Encode (bytes : List UInt8) :
    base58Decode (base58Encode bytes) = some bytes := by
  have hbytes : ∀ d ∈ bytes.map UInt8.toNat, d < 256 := by
    intro d hd
    obtain ⟨byte, -, rfl⟩ := List.mem_map.1 hd
    exact byte.toNat_lt
  have hdigits : ∀ d ∈ changeBase 256 58 (bytes.map UInt8.toNat), d < 58 := fun d hd =>
    lt_of_mem_changeBase (by decide) hd
  rw [base58Decode, base58Encode, String.toList_ofList, mapM_base58Value hdigits,
    Option.map_some, changeBase_changeBase (by decide) _ hbytes, List.map_map]
  have hmap : UInt8.ofNat ∘ UInt8.toNat = id := funext fun byte => UInt8.ofNat_toNat
  rw [hmap, List.map_id]

end EpsDapp
