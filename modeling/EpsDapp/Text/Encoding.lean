import Mathlib.Algebra.GroupWithZero.Nat
import Mathlib.Data.List.DropRight
import Mathlib.Data.Nat.Notation
import Mathlib.Tactic.Common

/-!
# Bytes and text

Hexadecimal and base64 as Node has them, the UTF-16 units by which ECMAScript counts
and cuts a text, and the string operations that normalise a text before it is
matched: `trim`, and the lowercasing of ASCII letters.
-/

set_option autoImplicit false

namespace EpsDapp

/-! ## Hexadecimal -/

/-- The lowercase hexadecimal digit of a number below 16. -/
def hexDigit (n : ℕ) : Char :=
  if n < 10 then Char.ofNat (48 + n) else Char.ofNat (87 + n)

/-- `[0-9a-f]` -/
def isLowerHex (c : Char) : Bool :=
  (decide ('0' ≤ c) && decide (c ≤ '9')) || (decide ('a' ≤ c) && decide (c ≤ 'f'))

/-- `[0-9a-fA-F]` -/
def isHex (c : Char) : Bool :=
  isLowerHex c || (decide ('A' ≤ c) && decide (c ≤ 'F'))

/-- The value of a hexadecimal digit; other characters have none. -/
def hexValue (c : Char) : Option ℕ :=
  if '0' ≤ c ∧ c ≤ '9' then some (c.toNat - 48)
  else if 'a' ≤ c ∧ c ≤ 'f' then some (c.toNat - 87)
  else if 'A' ≤ c ∧ c ≤ 'F' then some (c.toNat - 55)
  else none

/-- The two digits of a byte. -/
def hexByte (b : UInt8) : List Char := [hexDigit (b.toNat / 16), hexDigit (b.toNat % 16)]

/-- `Buffer.from(bytes).toString("hex")`. -/
def hexEncode (bytes : List UInt8) : String := String.ofList (bytes.flatMap hexByte)

/-- `Buffer.from(text, "hex")`: it stops at the first pair that is no byte. -/
def hexDecode : List Char → List UInt8
  | a :: b :: rest =>
      match hexValue a, hexValue b with
      | some x, some y => UInt8.ofNat (16 * x + y) :: hexDecode rest
      | _, _ => []
  | _ => []

theorem isLowerHex_hexDigit : ∀ n < 16, isLowerHex (hexDigit n) = true := by decide

@[simp] theorem toList_hexEncode (bytes : List UInt8) :
    (hexEncode bytes).toList = bytes.flatMap hexByte :=
  String.toList_ofList

theorem length_hexEncode (bytes : List UInt8) :
    (hexEncode bytes).toList.length = 2 * bytes.length := by
  rw [toList_hexEncode]
  induction bytes with
  | nil => rfl
  | cons b bytes ih =>
      rw [List.flatMap_cons, List.length_append, ih, List.length_cons, hexByte, List.length_cons,
        List.length_singleton]
      omega

theorem hexValue_hexDigit : ∀ n < 16, hexValue (hexDigit n) = some n := by decide

/-- Decoding undoes encoding. -/
theorem hexDecode_hexEncode (bytes : List UInt8) : hexDecode (hexEncode bytes).toList = bytes := by
  rw [toList_hexEncode]
  induction bytes with
  | nil => rfl
  | cons b bytes ih =>
      have hb : b.toNat < 256 := b.toNat_lt
      have hhigh := hexValue_hexDigit (b.toNat / 16) (by omega)
      have hlow := hexValue_hexDigit (b.toNat % 16) (by omega)
      have hbyte : UInt8.ofNat (16 * (b.toNat / 16) + b.toNat % 16) = b := by
        rw [Nat.div_add_mod, UInt8.ofNat_toNat]
      rw [List.flatMap_cons, hexByte, List.cons_append, List.cons_append, List.nil_append,
        hexDecode, hhigh, hlow, ih]
      simp only [hbyte]

theorem isLowerHex_of_mem_hexEncode {bytes : List UInt8} {c : Char}
    (h : c ∈ (hexEncode bytes).toList) : isLowerHex c = true := by
  rw [toList_hexEncode, List.mem_flatMap] at h
  obtain ⟨b, -, hc⟩ := h
  have hb : b.toNat < 256 := b.toNat_lt
  simp only [hexByte, List.mem_cons, List.not_mem_nil, or_false] at hc
  rcases hc with rfl | rfl
  · exact isLowerHex_hexDigit _ (by omega)
  · exact isLowerHex_hexDigit _ (by omega)

/-! ## Base64 -/

/-- The base64 digit of a sextet. -/
def base64Digit (n : ℕ) : Char :=
  if n < 26 then Char.ofNat (65 + n)
  else if n < 52 then Char.ofNat (71 + n)
  else if n < 62 then Char.ofNat (n - 4)
  else if n = 62 then '+' else '/'

/-- The sextet of a base64 digit; other characters have none. -/
def base64Value (c : Char) : Option ℕ :=
  if 'A' ≤ c ∧ c ≤ 'Z' then some (c.toNat - 65)
  else if 'a' ≤ c ∧ c ≤ 'z' then some (c.toNat - 71)
  else if '0' ≤ c ∧ c ≤ '9' then some (c.toNat + 4)
  else if c = '+' ∨ c = '-' then some 62
  else if c = '/' ∨ c = '_' then some 63
  else none

/-- `Buffer.from(bytes).toString("base64")`, as characters. -/
def base64Encode : List UInt8 → List Char
  | a :: b :: c :: rest =>
      base64Digit (a.toNat / 4) :: base64Digit (a.toNat % 4 * 16 + b.toNat / 16) ::
        base64Digit (b.toNat % 16 * 4 + c.toNat / 64) :: base64Digit (c.toNat % 64) ::
        base64Encode rest
  | [a, b] =>
      [base64Digit (a.toNat / 4), base64Digit (a.toNat % 4 * 16 + b.toNat / 16),
        base64Digit (b.toNat % 16 * 4), '=']
  | [a] => [base64Digit (a.toNat / 4), base64Digit (a.toNat % 4 * 16), '=', '=']
  | [] => []

/-- The bytes of a sequence of sextets. -/
def bytesOfSextets : List ℕ → List UInt8
  | w :: x :: y :: z :: rest =>
      UInt8.ofNat (w * 4 + x / 16) :: UInt8.ofNat (x % 16 * 16 + y / 4) ::
        UInt8.ofNat (y % 4 * 64 + z) :: bytesOfSextets rest
  | [w, x, y] => [UInt8.ofNat (w * 4 + x / 16), UInt8.ofNat (x % 16 * 16 + y / 4)]
  | [w, x] => [UInt8.ofNat (w * 4 + x / 16)]
  | _ => []

/-- The sextets of the digits before the first `=`; what is no digit is skipped. -/
def base64Sextets (text : List Char) : List ℕ :=
  (text.takeWhile (· != '=')).filterMap base64Value

/-- `Buffer.from(text, "base64")`. -/
def base64Decode (text : String) : List UInt8 := bytesOfSextets (base64Sextets text.toList)

theorem base64Value_base64Digit : ∀ n < 64, base64Value (base64Digit n) = some n := by decide

theorem base64Digit_bne_pad : ∀ n < 64, (base64Digit n != '=') = true := by decide

theorem base64Sextets_digit {n : ℕ} (h : n < 64) (text : List Char) :
    base64Sextets (base64Digit n :: text) = n :: base64Sextets text := by
  have hne : (base64Digit n != '=') = true := base64Digit_bne_pad n h
  rw [base64Sextets, List.takeWhile_cons, if_pos hne]
  exact List.filterMap_cons_some (base64Value_base64Digit n h)

@[simp] theorem base64Sextets_pad (text : List Char) : base64Sextets ('=' :: text) = [] := by
  simp [base64Sextets]

@[simp] theorem base64Sextets_nil : base64Sextets [] = [] := rfl

/-- Four digits decode to three bytes. -/
theorem base64Decode_digits {w x y z : ℕ} (hw : w < 64) (hx : x < 64) (hy : y < 64) (hz : z < 64)
    (text : List Char) :
    base64Decode (String.ofList (base64Digit w :: base64Digit x :: base64Digit y ::
      base64Digit z :: text)) =
      UInt8.ofNat (w * 4 + x / 16) :: UInt8.ofNat (x % 16 * 16 + y / 4) ::
        UInt8.ofNat (y % 4 * 64 + z) :: base64Decode (String.ofList text) := by
  simp only [base64Decode, String.toList_ofList, base64Sextets_digit hw, base64Sextets_digit hx,
    base64Sextets_digit hy, base64Sextets_digit hz, bytesOfSextets]

theorem ofNat_of_eq_toNat {a : UInt8} {n : ℕ} (h : n = a.toNat) : UInt8.ofNat n = a := by
  rw [h, UInt8.ofNat_toNat]

/-- Decoding undoes encoding, with either padding. -/
theorem base64Decode_base64Encode (bytes : List UInt8) :
    base64Decode (String.ofList (base64Encode bytes)) = bytes := by
  induction bytes using base64Encode.induct with
  | case1 a b c rest ih =>
      have ha : a.toNat < 256 := a.toNat_lt
      have hb : b.toNat < 256 := b.toNat_lt
      have hc : c.toNat < 256 := c.toNat_lt
      rw [base64Encode, base64Decode_digits (by omega) (by omega) (by omega) (by omega), ih,
        ofNat_of_eq_toNat (a := a) (by omega), ofNat_of_eq_toNat (a := b) (by omega),
        ofNat_of_eq_toNat (a := c) (by omega)]
  | case2 a b =>
      have ha : a.toNat < 256 := a.toNat_lt
      have hb : b.toNat < 256 := b.toNat_lt
      have hfirst : UInt8.ofNat (a.toNat / 4 * 4 + (a.toNat % 4 * 16 + b.toNat / 16) / 16) = a :=
        ofNat_of_eq_toNat (by omega)
      have hsecond : UInt8.ofNat ((a.toNat % 4 * 16 + b.toNat / 16) % 16 * 16 +
          b.toNat % 16 * 4 / 4) = b := ofNat_of_eq_toNat (by omega)
      simp only [base64Encode, base64Decode, String.toList_ofList,
        base64Sextets_digit (n := a.toNat / 4) (by omega),
        base64Sextets_digit (n := a.toNat % 4 * 16 + b.toNat / 16) (by omega),
        base64Sextets_digit (n := b.toNat % 16 * 4) (by omega), base64Sextets_pad, bytesOfSextets,
        hfirst, hsecond]
  | case3 a =>
      have ha : a.toNat < 256 := a.toNat_lt
      have hfirst : UInt8.ofNat (a.toNat / 4 * 4 + a.toNat % 4 * 16 / 16) = a :=
        ofNat_of_eq_toNat (by omega)
      simp only [base64Encode, base64Decode, String.toList_ofList,
        base64Sextets_digit (n := a.toNat / 4) (by omega),
        base64Sextets_digit (n := a.toNat % 4 * 16) (by omega), base64Sextets_pad, bytesOfSextets,
        hfirst]
  | case4 => rfl

/-! ## UTF-16 -/

/-- The length of a string, in UTF-16 code units. -/
def utf16Length (s : String) : ℕ :=
  (s.toList.map fun c => if c.val < 0x10000 then 1 else 2).sum

/-- The characters that lie within the first `n` code units. -/
def takeUtf16 : ℕ → List Char → List Char
  | _, [] => []
  | n, c :: cs =>
      let units := if c.val < 0x10000 then 1 else 2
      if units ≤ n then c :: takeUtf16 (n - units) cs else []

/-! ## Normalised text -/

/-- The white space and line terminators of ECMAScript. -/
def isWhiteSpace (c : Char) : Bool :=
  [9, 10, 11, 12, 13, 32, 160, 5760, 8232, 8233, 8239, 8287, 12288, 65279].contains c.toNat ||
    (decide (8192 ≤ c.toNat) && decide (c.toNat ≤ 8202))

/-- `text.trim()`. -/
def trim (text : String) : String :=
  String.ofList
    ((text.toList.dropWhile isWhiteSpace).reverse.dropWhile isWhiteSpace).reverse

/-- `text.toLowerCase()`, as far as its ASCII letters go. -/
def toLowerCase (text : String) : String := String.ofList (text.toList.map Char.toLower)

theorem dropWhile_of_forall_not {α : Type*} {p : α → Bool} {l : List α}
    (h : ∀ a ∈ l, ¬ p a) : l.dropWhile p = l := by
  cases l with
  | nil => rfl
  | cons a l => exact List.dropWhile_cons_of_neg (h a List.mem_cons_self)

theorem trim_of_forall_not {text : String} (h : ∀ c ∈ text.toList, ¬ isWhiteSpace c) :
    trim text = text := by
  have hreverse : ∀ c ∈ text.toList.reverse, ¬ isWhiteSpace c := fun c hc =>
    h c (List.mem_reverse.1 hc)
  rw [trim, dropWhile_of_forall_not h, dropWhile_of_forall_not hreverse, List.reverse_reverse,
    String.ofList_toList]

/-- What is trimmed has nothing left to trim. -/
theorem trim_trim (text : String) : trim (trim text) = trim text := by
  let inner := text.toList.dropWhile isWhiteSpace
  let kept := inner.rdropWhile isWhiteSpace
  have hkept : (trim text).toList = kept := String.toList_ofList
  -- What is left of the right end begins as before, with no white space.
  have hhead : kept.dropWhile isWhiteSpace = kept := by
    refine List.dropWhile_eq_self_iff.2 fun hl => ?_
    have hprefix : kept <+: inner := List.rdropWhile_prefix isWhiteSpace inner
    have hinner : 0 < inner.length := hl.trans_le hprefix.length_le
    have hget : kept[0] = inner[0] := hprefix.getElem hl
    rw [hget]
    exact List.dropWhile_get_zero_not _ _ hinner
  have htail : kept.rdropWhile isWhiteSpace = kept := List.rdropWhile_idempotent _ _
  have htrim : trim (trim text) = String.ofList
      (((trim text).toList.dropWhile isWhiteSpace).rdropWhile isWhiteSpace) := rfl
  rw [htrim, hkept, hhead, htail, ← hkept, String.ofList_toList]

theorem toLowerCase_of_forall {text : String} (h : ∀ c ∈ text.toList, c.toLower = c) :
    toLowerCase text = text := by
  have hmap : text.toList.map Char.toLower = text.toList := by
    conv_rhs => rw [← List.map_id text.toList]
    exact List.map_congr_left h
  rw [toLowerCase, hmap, String.ofList_toList]

/-- The code of a lowercase hexadecimal digit. -/
theorem toNat_of_isLowerHex {c : Char} (h : isLowerHex c = true) :
    (48 ≤ c.toNat ∧ c.toNat ≤ 57) ∨ (97 ≤ c.toNat ∧ c.toNat ≤ 102) := by
  simpa [isLowerHex, Char.le_def, UInt32.le_iff_toNat_le] using h

theorem not_isWhiteSpace_of_isLowerHex {c : Char} (h : isLowerHex c = true) :
    ¬ isWhiteSpace c := by
  have hc := toNat_of_isLowerHex h
  simp only [isWhiteSpace, List.contains_eq_mem, List.mem_cons, List.not_mem_nil, or_false,
    Bool.or_eq_true, decide_eq_true_eq, Bool.and_eq_true]
  omega

theorem toLower_of_isLowerHex {c : Char} (h : isLowerHex c = true) : c.toLower = c := by
  have hc := toNat_of_isLowerHex h
  refine dif_neg fun hupper => ?_
  have hle : c.toNat ≤ 90 := UInt32.le_iff_toNat_le.1 hupper.2
  have hge : 65 ≤ c.toNat := UInt32.le_iff_toNat_le.1 hupper.1
  omega

end EpsDapp
