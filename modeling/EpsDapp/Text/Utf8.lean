import EpsDapp.Text.Alphabet

/-!
# UTF-8

The encoder, and the decoder of `Buffer.toString("utf8")`. The decoder takes one
byte after another. A byte that cannot continue a sequence ends it, with the
replacement character, and is then read as the first byte of the next one. It
never fails, and its answer is the text that was encoded. A zero byte is always
read as a character of its own.
-/

set_option autoImplicit false

namespace EpsDapp

/-- `Buffer.from(text, "utf8")`, and `TextEncoder.encode`. -/
def utf8Encode (text : String) : List UInt8 := text.toList.flatMap String.utf8EncodeChar

/-- Where a decoder stands: how many bytes its sequence still needs, between which
bounds the next one is, and the code point so far. -/
structure Utf8State where
  needed : ℕ
  lower : ℕ
  upper : ℕ
  code : ℕ
  le_lower : 0x80 ≤ lower

namespace Utf8State

/-- Any continuation byte comes next. -/
def continuing (needed code : ℕ) : Utf8State := ⟨needed, 0x80, 0xBF, code, le_rfl⟩

/-- Between two sequences. -/
def boundary : Utf8State := continuing 0 0

end Utf8State

/-- U+FFFD. -/
def replacementChar : Char := Char.ofNat 0xFFFD

/-- The first byte of a sequence. -/
def utf8Lead (b : ℕ) : List Char × Utf8State :=
  if b ≤ 0x7F then ([Char.ofNat b], .boundary)
  else if 0xC2 ≤ b ∧ b ≤ 0xDF then ([], .continuing 1 (b - 0xC0))
  else if b = 0xE0 then ([], ⟨2, 0xA0, 0xBF, 0, by decide⟩)
  else if b = 0xED then ([], ⟨2, 0x80, 0x9F, 0xD, by decide⟩)
  else if 0xE1 ≤ b ∧ b ≤ 0xEF then ([], .continuing 2 (b - 0xE0))
  else if b = 0xF0 then ([], ⟨3, 0x90, 0xBF, 0, by decide⟩)
  else if b = 0xF4 then ([], ⟨3, 0x80, 0x8F, 4, by decide⟩)
  else if 0xF1 ≤ b ∧ b ≤ 0xF3 then ([], .continuing 3 (b - 0xF0))
  else ([replacementChar], .boundary)

/-- One byte: the characters that are finished by it, and where the decoder stands then. -/
def utf8Step (s : Utf8State) (b : ℕ) : List Char × Utf8State :=
  if s.needed = 0 then utf8Lead b
  else if b < s.lower ∨ s.upper < b then
    (replacementChar :: (utf8Lead b).1, (utf8Lead b).2)
  else if s.needed = 1 then ([Char.ofNat (64 * s.code + (b - 0x80))], .boundary)
  else ([], .continuing (s.needed - 1) (64 * s.code + (b - 0x80)))

/-- The characters that are still to come. -/
def utf8Chars : Utf8State → List UInt8 → List Char
  | s, [] => if s.needed = 0 then [] else [replacementChar]
  | s, b :: bytes => (utf8Step s b.toNat).1 ++ utf8Chars (utf8Step s b.toNat).2 bytes

/-- `Buffer.from(bytes).toString("utf8")`. -/
def utf8Decode (bytes : List UInt8) : String := String.ofList (utf8Chars .boundary bytes)

/-! ## Decoding what was encoded -/

theorem utf8Chars_boundary_cons {b : ℕ} (hb : b < 256) (bytes : List UInt8) :
    utf8Chars .boundary (UInt8.ofNat b :: bytes) =
      (utf8Lead b).1 ++ utf8Chars (utf8Lead b).2 bytes := by
  have htoNat : (UInt8.ofNat b).toNat = b := UInt8.toNat_ofNat_of_lt' hb
  have hneeded : Utf8State.boundary.needed = 0 := rfl
  rw [utf8Chars, htoNat, utf8Step, if_pos hneeded]

/-- The next byte of a sequence that needs more after it. -/
theorem utf8Chars_continue {s : Utf8State} {n x : ℕ} (hneeded : s.needed = n + 2) (hx : x < 64)
    (hlower : s.lower ≤ x + 0x80) (hupper : x + 0x80 ≤ s.upper) (bytes : List UInt8) :
    utf8Chars s (UInt8.ofNat (x + 0x80) :: bytes) =
      utf8Chars (.continuing (n + 1) (64 * s.code + x)) bytes := by
  have hbyte : x + 0x80 < 256 := by omega
  have htoNat : (UInt8.ofNat (x + 0x80)).toNat = x + 0x80 := UInt8.toNat_ofNat_of_lt' hbyte
  rw [utf8Chars, htoNat, utf8Step, if_neg (by omega), if_neg (by omega), if_neg (by omega),
    List.nil_append, hneeded, Nat.add_sub_cancel]
  rfl

theorem utf8Chars_continuing {n code x : ℕ} (hx : x < 64) (bytes : List UInt8) :
    utf8Chars (.continuing (n + 2) code) (UInt8.ofNat (x + 0x80) :: bytes) =
      utf8Chars (.continuing (n + 1) (64 * code + x)) bytes :=
  utf8Chars_continue rfl hx (Nat.le_add_left _ _) (Nat.add_le_add_right (Nat.le_of_lt_succ hx) _)
    bytes

/-- The last byte of a sequence. -/
theorem utf8Chars_last {code x : ℕ} (hx : x < 64) (bytes : List UInt8) :
    utf8Chars (.continuing 1 code) (UInt8.ofNat (x + 0x80) :: bytes) =
      Char.ofNat (64 * code + x) :: utf8Chars .boundary bytes := by
  have hbyte : x + 0x80 < 256 := by omega
  have htoNat : (UInt8.ofNat (x + 0x80)).toNat = x + 0x80 := UInt8.toNat_ofNat_of_lt' hbyte
  have hneeded : (Utf8State.continuing 1 code).needed = 1 := rfl
  have hlower : (Utf8State.continuing 1 code).lower = 0x80 := rfl
  have hupper : (Utf8State.continuing 1 code).upper = 0xBF := rfl
  rw [utf8Chars, htoNat, utf8Step, if_neg (by omega), if_neg (by omega), if_pos hneeded,
    List.singleton_append, Nat.add_sub_cancel]
  rfl

/-- The numbers that are code points of characters. -/
theorem toNat_bounds (c : Char) : c.toNat < 0xD800 ∨ 0xDFFF < c.toNat ∧ c.toNat < 0x110000 :=
  c.valid

theorem utf8Lead_two {b : ℕ} (hlower : 0xC2 ≤ b) (hupper : b ≤ 0xDF) :
    utf8Lead b = ([], .continuing 1 (b - 0xC0)) := by
  rw [utf8Lead, if_neg (by omega), if_pos ⟨hlower, hupper⟩]

/-- The first of three bytes admits every second byte but those of an overlong sequence
and of a surrogate. -/
theorem utf8Lead_three (high second : ℕ) (hhigh : high < 16)
    (hsecond : 0x80 ≤ second ∧ second ≤ 0xBF) (hoverlong : high = 0 → 0xA0 ≤ second)
    (hsurrogate : high = 0xD → second ≤ 0x9F) :
    ∃ s : Utf8State, utf8Lead (high + 0xE0) = ([], s) ∧ s.needed = 2 ∧ s.code = high ∧
      s.lower ≤ second ∧ second ≤ s.upper := by
  rw [utf8Lead, if_neg (by omega), if_neg (by omega)]
  by_cases hzero : high = 0
  · subst hzero
    exact ⟨_, if_pos rfl, rfl, rfl, hoverlong rfl, hsecond.2⟩
  by_cases hD : high = 0xD
  · subst hD
    exact ⟨_, rfl, rfl, rfl, hsecond.1, hsurrogate rfl⟩
  · rw [if_neg (by omega), if_neg (by omega), if_pos (by omega)]
    exact ⟨_, rfl, rfl, Nat.add_sub_cancel high 0xE0, hsecond⟩

/-- The first of four bytes admits every second byte but those of an overlong sequence
and of a number beyond the last code point. -/
theorem utf8Lead_four (high second : ℕ) (hhigh : high ≤ 4)
    (hsecond : 0x80 ≤ second ∧ second ≤ 0xBF) (hoverlong : high = 0 → 0x90 ≤ second)
    (hlast : high = 4 → second ≤ 0x8F) :
    ∃ s : Utf8State, utf8Lead (high + 0xF0) = ([], s) ∧ s.needed = 3 ∧ s.code = high ∧
      s.lower ≤ second ∧ second ≤ s.upper := by
  rw [utf8Lead, if_neg (by omega), if_neg (by omega), if_neg (by omega), if_neg (by omega),
    if_neg (by omega)]
  by_cases hzero : high = 0
  · subst hzero
    exact ⟨_, if_pos rfl, rfl, rfl, hoverlong rfl, hsecond.2⟩
  by_cases hfour : high = 4
  · subst hfour
    exact ⟨_, rfl, rfl, rfl, hsecond.1, hlast rfl⟩
  · rw [if_neg (by omega), if_neg (by omega), if_pos (by omega)]
    exact ⟨_, rfl, rfl, Nat.add_sub_cancel high 0xF0, hsecond⟩

/-- The bytes of one character are read as that character. -/
theorem utf8Chars_utf8EncodeChar (c : Char) (bytes : List UInt8) :
    utf8Chars .boundary (String.utf8EncodeChar c ++ bytes) = c :: utf8Chars .boundary bytes := by
  have hc := toNat_bounds c
  have hchar : ∀ n, n = c.toNat → Char.ofNat n = c := fun n hn => by
    rw [hn, Char.ofNat_toNat]
  generalize hv : c.toNat = v at hc hchar
  have hval : c.val.toNat = v := hv
  simp only [String.utf8EncodeChar, hval]
  split_ifs with hone htwo hthree
  · -- one byte
    rw [List.singleton_append, utf8Chars_boundary_cons (by omega), utf8Lead, if_pos hone,
      hchar v rfl, List.singleton_append]
  · -- two bytes
    rw [List.cons_append, List.singleton_append, utf8Chars_boundary_cons (by omega),
      utf8Lead_two (by omega) (by omega), List.nil_append, utf8Chars_last (by omega),
      hchar _ (by omega)]
  · -- three bytes
    obtain ⟨s, hlead, hneeded, hcode, hlower, hupper⟩ := utf8Lead_three (v / 4096 % 16)
      (v / 64 % 64 + 0x80) (by omega) (by omega) (by omega) (by omega)
    rw [List.cons_append, List.cons_append, List.singleton_append,
      utf8Chars_boundary_cons (by omega), hlead, List.nil_append,
      utf8Chars_continue hneeded (by omega) hlower hupper, utf8Chars_last (by omega), hcode,
      hchar _ (by omega)]
  · -- four bytes
    obtain ⟨s, hlead, hneeded, hcode, hlower, hupper⟩ := utf8Lead_four (v / 262144 % 8)
      (v / 4096 % 64 + 0x80) (by omega) (by omega) (by omega) (by omega)
    rw [List.cons_append, List.cons_append, List.cons_append, List.singleton_append,
      utf8Chars_boundary_cons (by omega), hlead, List.nil_append,
      utf8Chars_continue hneeded (by omega) hlower hupper, utf8Chars_continuing (by omega),
      utf8Chars_last (by omega), hcode, hchar _ (by omega)]

/-- Decoding undoes encoding. -/
theorem utf8Decode_utf8Encode (text : String) : utf8Decode (utf8Encode text) = text := by
  have hchars : ∀ cs : List Char, utf8Chars .boundary (cs.flatMap String.utf8EncodeChar) = cs := by
    intro cs
    induction cs with
    | nil => rfl
    | cons c cs ih => rw [List.flatMap_cons, utf8Chars_utf8EncodeChar, ih]
  rw [utf8Decode, utf8Encode, hchars, String.ofList_toList]

/-- An ASCII character is one byte. -/
theorem length_utf8Encode {text : String} (h : Over (·.toNat < 128) text) :
    (utf8Encode text).length = text.toList.length := by
  have hchars : ∀ cs : List Char, (∀ c ∈ cs, c.toNat < 128) →
      (cs.flatMap String.utf8EncodeChar).length = cs.length := by
    intro cs hcs
    induction cs with
    | nil => rfl
    | cons c cs ih =>
        obtain ⟨hc, hrest⟩ := List.forall_mem_cons.1 hcs
        have hone : String.utf8EncodeChar c = [UInt8.ofNat c.toNat] :=
          if_pos (Nat.le_of_lt_succ hc)
        rw [List.flatMap_cons, hone, List.singleton_append, List.length_cons, ih hrest,
          List.length_cons]
  exact hchars _ h

/-! ## Zero bytes -/

/-- A zero byte is the whole of a sequence, whatever comes before it. -/
theorem mem_utf8Step_zero (s : Utf8State) : '\x00' ∈ (utf8Step s 0).1 := by
  have hlead : utf8Lead 0 = (['\x00'], .boundary) := rfl
  have hlower : 0 < s.lower := Nat.lt_of_lt_of_le (by omega) s.le_lower
  rw [utf8Step, hlead]
  split_ifs with hneeded hout
  · exact List.mem_singleton_self _
  · exact List.mem_cons_of_mem _ (List.mem_singleton_self _)
  · exact absurd (Or.inl hlower) hout
  · exact absurd (Or.inl hlower) hout

theorem mem_utf8Chars_of_zero {bytes : List UInt8} (h : 0 ∈ bytes) (s : Utf8State) :
    '\x00' ∈ utf8Chars s bytes := by
  induction bytes generalizing s with
  | nil => simp at h
  | cons b bytes ih =>
      rw [utf8Chars, List.mem_append]
      rcases List.mem_cons.1 h with hb | hbytes
      · subst hb
        exact .inl (mem_utf8Step_zero s)
      · exact .inr (ih hbytes _)

theorem mem_utf8Decode_of_zero {bytes : List UInt8} (h : 0 ∈ bytes) :
    '\x00' ∈ (utf8Decode bytes).toList := by
  rw [utf8Decode, String.toList_ofList]
  exact mem_utf8Chars_of_zero h .boundary

end EpsDapp
