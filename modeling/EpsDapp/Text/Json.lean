import EpsDapp.Text.Alphabet

/-!
# JSON

`JSON.stringify` and `JSON.parse` for objects whose values are strings. The parser
reads the whole syntax of a string, and white space between tokens. What was
written is read back.
-/

set_option autoImplicit false

namespace EpsDapp

/-- A character in a JSON string. -/
def jsonChar (c : Char) : String :=
  if c = '"' then "\\\""
  else if c = '\\' then "\\\\"
  else if c.toNat = 8 then "\\b"
  else if c.toNat = 9 then "\\t"
  else if c.toNat = 10 then "\\n"
  else if c.toNat = 12 then "\\f"
  else if c.toNat = 13 then "\\r"
  else if c.toNat < 32 then "\\u00" ++ String.ofList (hexByte (UInt8.ofNat c.toNat))
  else c.toString

def jsonString (s : String) : String := "\"" ++ String.join (s.toList.map jsonChar) ++ "\""

/-- `JSON.stringify` of an object of strings. -/
def jsonStringify (fields : List (String × String)) : String :=
  "\x7b" ++ String.intercalate "," (fields.map fun p => jsonString p.1 ++ ":" ++ jsonString p.2) ++
    "\x7d"

/-! ## Reading -/

/-- What a character behind a backslash stands for. -/
def jsonEscape (c : Char) : Option ℕ :=
  if c = '"' ∨ c = '\\' ∨ c = '/' then some c.toNat
  else if c = 'b' then some 8
  else if c = 't' then some 9
  else if c = 'n' then some 10
  else if c = 'f' then some 12
  else if c = 'r' then some 13
  else none

/-- Where a parser stands in a string: among its characters, behind a backslash, or
before a digit of `\u` with `left` more after it. -/
inductive JsonMode
  | plain
  | escape
  | digits (left value : ℕ)

/-- The code points of a string and the code units of its escapes, up to the closing
quote, and what comes after it. -/
def jsonUnits : JsonMode → List Char → Option (List ℕ × List Char)
  | _, [] => none
  | .plain, c :: rest =>
      if c = '"' then some ([], rest)
      else if c = '\\' then jsonUnits .escape rest
      else if c.toNat < 32 then none
      else (jsonUnits .plain rest).map (Prod.map (c.toNat :: ·) id)
  | .escape, c :: rest =>
      if c = 'u' then jsonUnits (.digits 3 0) rest
      else (jsonEscape c).bind fun u => (jsonUnits .plain rest).map (Prod.map (u :: ·) id)
  | .digits 0 value, c :: rest =>
      (hexValue c).bind fun x =>
        (jsonUnits .plain rest).map (Prod.map ((16 * value + x) :: ·) id)
  | .digits (left + 1) value, c :: rest =>
      (hexValue c).bind fun x => jsonUnits (.digits left (16 * value + x)) rest

def IsHighSurrogate (u : ℕ) : Prop := 0xD800 ≤ u ∧ u < 0xDC00

def IsLowSurrogate (u : ℕ) : Prop := 0xDC00 ≤ u ∧ u < 0xE000

instance (u : ℕ) : Decidable (IsHighSurrogate u) := inferInstanceAs (Decidable (_ ∧ _))

instance (u : ℕ) : Decidable (IsLowSurrogate u) := inferInstanceAs (Decidable (_ ∧ _))

/-- The characters: surrogates are joined in pairs. One that is alone is no character. -/
def charsOfUnits : List ℕ → Option (List Char)
  | [] => some []
  | [u] => if IsHighSurrogate u ∨ IsLowSurrogate u then none else some [Char.ofNat u]
  | u :: v :: units =>
      if IsHighSurrogate u ∧ IsLowSurrogate v then
        (charsOfUnits units).map
          (Char.ofNat (0x10000 + 0x400 * (u - 0xD800) + (v - 0xDC00)) :: ·)
      else if IsHighSurrogate u ∨ IsLowSurrogate u then none
      else (charsOfUnits (v :: units)).map (Char.ofNat u :: ·)

/-- What comes after white space. -/
def skipSpace (cs : List Char) : List Char := cs.dropWhile fun c => c ∈ [' ', '\t', '\n', '\r']

/-- A string, with what comes after it. -/
def parseJsonString (cs : List Char) : Option (String × List Char) :=
  match skipSpace cs with
  | '"' :: rest => do
      let (units, rest) ← jsonUnits .plain rest
      let chars ← charsOfUnits units
      pure (String.ofList chars, rest)
  | _ => none

/-- A member of an object, with what comes after it. -/
def parseJsonMember (cs : List Char) : Option ((String × String) × List Char) := do
  let (key, rest) ← parseJsonString cs
  match skipSpace rest with
  | ':' :: rest => do
      let (value, rest) ← parseJsonString rest
      pure ((key, value), rest)
  | _ => none

/-- The members of an object up to its closing brace, at most `fuel` of them. -/
def parseJsonMembers : ℕ → List Char → Option (List (String × String) × List Char)
  | 0, _ => none
  | fuel + 1, cs => do
      let (member, rest) ← parseJsonMember cs
      match skipSpace rest with
      | ',' :: rest => do
          let (members, rest) ← parseJsonMembers fuel rest
          pure (member :: members, rest)
      | '\x7d' :: rest => pure ([member], rest)
      | _ => none

/-- What comes behind the opening brace. A member takes at least one character, so there
are fewer members than characters. -/
def parseJsonObject (cs : List Char) : Option (List (String × String) × List Char) :=
  match skipSpace cs with
  | '\x7d' :: rest => some ([], rest)
  | rest => parseJsonMembers rest.length rest

/-- `JSON.parse` of an object of strings; other texts have no value here. -/
def jsonParse (text : String) : Option (List (String × String)) :=
  match skipSpace text.toList with
  | '\x7b' :: rest => do
      let (members, rest) ← parseJsonObject rest
      if skipSpace rest = [] then pure members else none
  | _ => none

/-! ## Reading what was written -/

theorem jsonUnits_plain {c : Char} (hquote : c ≠ '"') (hslash : c ≠ '\\') (hc : ¬ c.toNat < 32)
    (rest : List Char) :
    jsonUnits .plain (c :: rest) = (jsonUnits .plain rest).map (Prod.map (c.toNat :: ·) id) := by
  rw [jsonUnits, if_neg hquote, if_neg hslash, if_neg hc]

/-- Two characters that stand for the code point `u`. -/
theorem jsonUnits_escape {e : Char} {u : ℕ} (he : e ≠ 'u') (hu : jsonEscape e = some u)
    (rest : List Char) :
    jsonUnits .plain ('\\' :: e :: rest) =
      (jsonUnits .plain rest).map (Prod.map (u :: ·) id) := by
  rw [jsonUnits, if_neg (by decide), if_pos rfl, jsonUnits, if_neg he, hu, Option.bind_some]

theorem jsonUnits_digits {left value n : ℕ} (hn : n < 16) (rest : List Char) :
    jsonUnits (.digits (left + 1) value) (hexDigit n :: rest) =
      jsonUnits (.digits left (16 * value + n)) rest := by
  rw [jsonUnits, hexValue_hexDigit n hn, Option.bind_some]

theorem jsonUnits_lastDigit {value n : ℕ} (hn : n < 16) (rest : List Char) :
    jsonUnits (.digits 0 value) (hexDigit n :: rest) =
      (jsonUnits .plain rest).map (Prod.map ((16 * value + n) :: ·) id) := by
  rw [jsonUnits, hexValue_hexDigit n hn, Option.bind_some]

/-- A control character without a short form. -/
theorem jsonUnits_hexByte {n : ℕ} (hn : n < 256) (rest : List Char) :
    jsonUnits .plain ('\\' :: 'u' :: '0' :: '0' :: (hexByte (UInt8.ofNat n) ++ rest)) =
      (jsonUnits .plain rest).map (Prod.map (n :: ·) id) := by
  have htoNat : (UInt8.ofNat n).toNat = n := UInt8.toNat_ofNat_of_lt' hn
  have hvalue : 16 * (16 * (16 * (16 * 0 + 0) + 0) + n / 16) + n % 16 = n := by omega
  have hzero : '0' = hexDigit 0 := rfl
  rw [hzero, jsonUnits, if_neg (by decide), if_pos rfl, jsonUnits, if_pos rfl,
    jsonUnits_digits (by decide), jsonUnits_digits (by decide), hexByte, htoNat,
    List.cons_append, List.singleton_append, jsonUnits_digits (by omega),
    jsonUnits_lastDigit (by omega), hvalue]

/-- A character stands behind a backslash, as four digits, or as itself. -/
theorem jsonChar_cases (c : Char) :
    (∃ e, 32 ≤ e.toNat ∧ e ≠ 'u' ∧ jsonEscape e = some c.toNat ∧ (jsonChar c).toList = ['\\', e]) ∨
      (c.toNat < 32 ∧ jsonChar c = "\\u00" ++ String.ofList (hexByte (UInt8.ofNat c.toNat))) ∨
      (c ≠ '"' ∧ c ≠ '\\' ∧ ¬ c.toNat < 32 ∧ (jsonChar c).toList = [c]) := by
  unfold jsonChar
  by_cases hquote : c = '"'
  · rw [if_pos hquote, hquote]
    exact .inl ⟨'"', by decide⟩
  by_cases hslash : c = '\\'
  · rw [if_neg hquote, if_pos hslash, hslash]
    exact .inl ⟨'\\', by decide⟩
  rw [if_neg hquote, if_neg hslash]
  by_cases h8 : c.toNat = 8
  · rw [if_pos h8, h8]
    exact .inl ⟨'b', by decide⟩
  by_cases h9 : c.toNat = 9
  · rw [if_neg h8, if_pos h9, h9]
    exact .inl ⟨'t', by decide⟩
  by_cases h10 : c.toNat = 10
  · rw [if_neg h8, if_neg h9, if_pos h10, h10]
    exact .inl ⟨'n', by decide⟩
  rw [if_neg h8, if_neg h9, if_neg h10]
  by_cases h12 : c.toNat = 12
  · rw [if_pos h12, h12]
    exact .inl ⟨'f', by decide⟩
  by_cases h13 : c.toNat = 13
  · rw [if_neg h12, if_pos h13, h13]
    exact .inl ⟨'r', by decide⟩
  rw [if_neg h12, if_neg h13]
  by_cases h32 : c.toNat < 32
  · rw [if_pos h32]
    exact .inr (.inl ⟨h32, rfl⟩)
  · rw [if_neg h32]
    exact .inr (.inr ⟨hquote, hslash, h32, by simp⟩)

/-- However a character is written, its code point is read. -/
theorem jsonUnits_jsonChar (c : Char) (rest : List Char) :
    jsonUnits .plain ((jsonChar c).toList ++ rest) =
      (jsonUnits .plain rest).map (Prod.map (c.toNat :: ·) id) := by
  rcases jsonChar_cases c with ⟨e, -, he, hescape, htoList⟩ | ⟨h32, hchar⟩ |
    ⟨hquote, hslash, h32, htoList⟩
  · rw [htoList]
    exact jsonUnits_escape he hescape rest
  · have hbyte : c.toNat < 256 := by omega
    have htoList : "\\u00".toList = ['\\', 'u', '0', '0'] := rfl
    rw [hchar, String.toList_append, htoList, String.toList_ofList]
    exact jsonUnits_hexByte hbyte rest
  · rw [htoList]
    exact jsonUnits_plain hquote hslash h32 rest

theorem jsonUnits_chars (cs rest : List Char) :
    jsonUnits .plain ((cs.flatMap fun c => (jsonChar c).toList) ++ '"' :: rest) =
      some (cs.map Char.toNat, rest) := by
  induction cs with
  | nil => rw [List.flatMap_nil, List.nil_append, jsonUnits, if_pos rfl, List.map_nil]
  | cons c cs ih =>
      rw [List.flatMap_cons, List.append_assoc, jsonUnits_jsonChar, ih]
      rfl

/-- A code point that is no surrogate is a character of its own. -/
theorem charsOfUnits_cons {u : ℕ} (hhigh : ¬ IsHighSurrogate u) (hlow : ¬ IsLowSurrogate u)
    (units : List ℕ) :
    charsOfUnits (u :: units) = (charsOfUnits units).map (Char.ofNat u :: ·) := by
  have hneither : ¬ (IsHighSurrogate u ∨ IsLowSurrogate u) := not_or.2 ⟨hhigh, hlow⟩
  cases units with
  | nil => simp [charsOfUnits, hneither]
  | cons v units => rw [charsOfUnits, if_neg fun h => hhigh h.1, if_neg hneither]

theorem charsOfUnits_map_toNat (cs : List Char) : charsOfUnits (cs.map Char.toNat) = some cs := by
  induction cs with
  | nil => rfl
  | cons c cs ih =>
      have hc : c.toNat < 0xD800 ∨ 0xDFFF < c.toNat ∧ c.toNat < 0x110000 := c.valid
      rw [List.map_cons, charsOfUnits_cons (by unfold IsHighSurrogate; omega)
        (by unfold IsLowSurrogate; omega), ih, Option.map_some, Char.ofNat_toNat]

theorem toList_jsonString (s : String) :
    (jsonString s).toList = '"' :: ((s.toList.flatMap fun c => (jsonChar c).toList) ++ ['"']) := by
  simp [jsonString, String.toList_join, List.flatMap_map]

theorem parseJsonString_jsonString (s : String) (rest : List Char) :
    parseJsonString ((jsonString s).toList ++ rest) = some (s, rest) := by
  have hspace : ∀ cs, skipSpace ('"' :: cs) = '"' :: cs := fun _ => rfl
  rw [toList_jsonString, List.cons_append, parseJsonString, hspace, List.append_assoc]
  simp only [List.singleton_append, jsonUnits_chars, Option.bind_eq_bind, Option.bind_some,
    charsOfUnits_map_toNat, String.ofList_toList]
  rfl

/-- A member as it is written. -/
def jsonMember (p : String × String) : String := jsonString p.1 ++ ":" ++ jsonString p.2

theorem parseJsonMember_jsonMember (p : String × String) (rest : List Char) :
    parseJsonMember ((jsonMember p).toList ++ rest) = some (p, rest) := by
  have hspace : ∀ cs, skipSpace (':' :: cs) = ':' :: cs := fun _ => rfl
  have hcolon : ":".toList = [':'] := rfl
  rw [jsonMember, String.toList_append, String.toList_append, List.append_assoc,
    List.append_assoc, hcolon, List.singleton_append, parseJsonMember,
    parseJsonString_jsonString]
  simp only [Option.bind_eq_bind, Option.bind_some, hspace, parseJsonString_jsonString]
  rfl

theorem parseJsonMembers_brace (p : String × String) (fuel : ℕ) (rest : List Char) :
    parseJsonMembers (fuel + 1) ((jsonMember p).toList ++ '\x7d' :: rest) = some ([p], rest) := by
  have hspace : ∀ cs, skipSpace ('\x7d' :: cs) = '\x7d' :: cs := fun _ => rfl
  rw [parseJsonMembers, parseJsonMember_jsonMember]
  simp only [Option.bind_eq_bind, Option.bind_some, hspace]
  rfl

theorem parseJsonMembers_comma (p : String × String) (fuel : ℕ) (rest : List Char) :
    parseJsonMembers (fuel + 1) ((jsonMember p).toList ++ ',' :: rest) =
      (parseJsonMembers fuel rest).map (Prod.map (p :: ·) id) := by
  have hspace : ∀ cs, skipSpace (',' :: cs) = ',' :: cs := fun _ => rfl
  rw [parseJsonMembers, parseJsonMember_jsonMember]
  simp only [Option.bind_eq_bind, Option.bind_some, hspace]
  cases parseJsonMembers fuel rest <;> rfl

/-- The members between commas, up to the closing brace. -/
theorem parseJsonMembers_jsonMember (p : String × String) (fields : List (String × String))
    {fuel : ℕ} (hfuel : fields.length < fuel) (rest : List Char) :
    parseJsonMembers fuel ((jsonMember p).toList ++
      ((fields.flatMap fun q => ',' :: (jsonMember q).toList) ++ '\x7d' :: rest)) =
      some (p :: fields, rest) := by
  induction fields generalizing p fuel with
  | nil =>
      cases fuel with
      | zero => exact absurd hfuel (Nat.not_lt_zero _)
      | succ fuel => exact parseJsonMembers_brace p fuel rest
  | cons q fields ih =>
      cases fuel with
      | zero => exact absurd hfuel (Nat.not_lt_zero _)
      | succ fuel =>
          have hrest := ih q (Nat.lt_of_succ_lt_succ hfuel)
          rw [List.flatMap_cons, List.cons_append, List.cons_append, List.append_assoc,
            parseJsonMembers_comma, hrest, Option.map_some]
          rfl

theorem toList_intercalate_comma (p : String × String) (fields : List (String × String)) :
    (String.intercalate "," ((p :: fields).map jsonMember)).toList =
      (jsonMember p).toList ++ fields.flatMap fun q => ',' :: (jsonMember q).toList := by
  induction fields generalizing p with
  | nil => simp
  | cons q fields ih =>
      have hcomma : ",".toList = [','] := rfl
      have hrest := ih q
      rw [List.map_cons] at hrest
      rw [List.map_cons, List.map_cons, String.intercalate_cons_cons, String.toList_append,
        String.toList_append, hrest, hcomma, List.flatMap_cons, List.append_assoc,
        List.singleton_append, List.cons_append]

/-- A member begins with its quote. -/
theorem exists_toList_jsonMember (p : String × String) :
    ∃ cs, (jsonMember p).toList = '"' :: cs := by
  rw [jsonMember, String.toList_append, String.toList_append, toList_jsonString]
  exact ⟨_, rfl⟩

theorem length_le_length_flatMap {α β : Type*} (f : α → List β) (l : List α)
    (h : ∀ a ∈ l, 1 ≤ (f a).length) : l.length ≤ (l.flatMap f).length := by
  induction l with
  | nil => rfl
  | cons a l ih =>
      obtain ⟨ha, hl⟩ := List.forall_mem_cons.1 h
      have hrest := ih hl
      rw [List.flatMap_cons, List.length_append, List.length_cons]
      omega

/-- Parsing undoes writing. -/
theorem jsonParse_jsonStringify (fields : List (String × String)) :
    jsonParse (jsonStringify fields) = some fields := by
  cases fields with
  | nil => rfl
  | cons p fields =>
      obtain ⟨cs, hcs⟩ := exists_toList_jsonMember p
      let others := fields.flatMap fun q => ',' :: (jsonMember q).toList
      let members := (jsonMember p).toList ++ (others ++ ['\x7d'])
      have hmembers : members = '"' :: (cs ++ (others ++ ['\x7d'])) :=
        congrArg (· ++ (others ++ ['\x7d'])) hcs
      have htoList : (jsonStringify (p :: fields)).toList = '\x7b' :: members := by
        have hjson : jsonStringify (p :: fields) =
            "\x7b" ++ String.intercalate "," ((p :: fields).map jsonMember) ++ "\x7d" := rfl
        have hopen : "\x7b".toList = ['\x7b'] := rfl
        have hclose : "\x7d".toList = ['\x7d'] := rfl
        rw [hjson, String.toList_append, String.toList_append, toList_intercalate_comma,
          hopen, hclose, List.append_assoc, List.append_assoc, List.singleton_append]
      have hfuel : fields.length < members.length := by
        have hothers : fields.length ≤ others.length :=
          length_le_length_flatMap _ fields fun q _ => Nat.le_add_left 1 _
        simp only [members, List.length_append, List.length_singleton]
        omega
      have hparse : parseJsonMembers members.length members = some (p :: fields, []) :=
        parseJsonMembers_jsonMember p fields hfuel []
      have hobject : parseJsonObject members = some (p :: fields, []) := by
        rw [hmembers] at hparse ⊢
        exact hparse
      have hopen : ∀ cs, skipSpace ('\x7b' :: cs) = '\x7b' :: cs := fun _ => rfl
      rw [jsonParse, htoList, hopen]
      simp only [hobject]
      rfl

/-! ## Control characters -/

/-- A character that is no control character. -/
def IsPrinted (c : Char) : Prop := 32 ≤ c.toNat

instance : DecidablePred IsPrinted := fun c => inferInstanceAs (Decidable (32 ≤ c.toNat))

theorem over_jsonChar (c : Char) : Over IsPrinted (jsonChar c) := by
  rcases jsonChar_cases c with ⟨e, he, -, -, htoList⟩ | ⟨-, hchar⟩ | ⟨-, -, h32, htoList⟩
  · rw [Over, htoList]
    exact List.forall_mem_cons.2 ⟨by decide, List.forall_mem_singleton.2 he⟩
  · rw [hchar]
    refine (Over.append_iff _ _).2 ⟨by decide, fun d hd => ?_⟩
    have hbyte : d ∈ (hexEncode [UInt8.ofNat c.toNat]).toList := by simpa [hexEncode] using hd
    have hhex := toNat_of_isLowerHex (isLowerHex_of_mem_hexEncode hbyte)
    change 32 ≤ d.toNat
    omega
  · rw [Over, htoList]
    exact List.forall_mem_singleton.2 (Nat.le_of_not_lt h32)

theorem over_jsonMember (p : String × String) : Over IsPrinted (jsonMember p) := by
  have hstring : ∀ s, Over IsPrinted (jsonString s) := fun s => by
    intro c hc
    rw [toList_jsonString] at hc
    simp only [List.mem_cons, List.mem_append, List.mem_flatMap, List.not_mem_nil, or_false] at hc
    rcases hc with rfl | ⟨d, -, hc⟩ | rfl
    · decide
    · exact over_jsonChar d c hc
    · decide
  rw [jsonMember, Over.append_iff, Over.append_iff]
  exact ⟨⟨hstring p.1, by decide⟩, hstring p.2⟩

/-- What is written has no control characters. -/
theorem over_jsonStringify (fields : List (String × String)) :
    Over IsPrinted (jsonStringify fields) := by
  have hmembers : Over IsPrinted (String.intercalate "," (fields.map jsonMember)) := by
    cases fields with
    | nil => decide
    | cons p fields =>
        intro c hc
        rw [toList_intercalate_comma, List.mem_append, List.mem_flatMap] at hc
        rcases hc with hc | ⟨q, -, hc⟩
        · exact over_jsonMember p c hc
        · rcases List.mem_cons.1 hc with rfl | hc
          · decide
          · exact over_jsonMember q c hc
  exact (Over.append_iff _ _).2 ⟨(Over.append_iff _ _).2 ⟨by decide, hmembers⟩, by decide⟩

end EpsDapp
