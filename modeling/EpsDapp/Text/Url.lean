import EpsDapp.Text.Utf8
import Mathlib.Data.List.TakeWhile

/-!
# Query strings

`new URL(url).searchParams`, and `encodeURIComponent`. Parameters that are joined
without being escaped are read back as they are, as long as no character of theirs
means something in a query.
-/

set_option autoImplicit false

namespace EpsDapp

/-- The bytes that a text stands for, in which `%` escapes bytes. -/
def percentDecode : List Char → List UInt8
  | [] => []
  | '%' :: a :: b :: rest =>
      match hexValue a, hexValue b with
      | some x, some y => UInt8.ofNat (16 * x + y) :: percentDecode rest
      | _, _ => String.utf8EncodeChar '%' ++ percentDecode (a :: b :: rest)
  | c :: rest => String.utf8EncodeChar c ++ percentDecode rest

/-- A name or a value of a query. -/
def decodeQueryText (cs : List Char) : String :=
  utf8Decode (percentDecode (cs.map fun c => if c = '+' then ' ' else c))

/-- `name=value`; without the sign, the value is empty. -/
def decodeParam (cs : List Char) : String × String :=
  (decodeQueryText (cs.takeWhile (· ≠ '=')), decodeQueryText ((cs.dropWhile (· ≠ '=')).drop 1))

/-- What the URL parser drops: white space and control characters at both ends, and tabs
and line breaks anywhere. -/
def cleanUrl (url : String) : List Char :=
  ((url.toList.dropWhile (·.toNat ≤ 32)).rdropWhile (·.toNat ≤ 32)).filter
    (· ∉ ['\t', '\n', '\r'])

/-- The query of an absolute URL: what is between the first question mark and the fragment. -/
def urlQuery (url : String) : List Char :=
  (((cleanUrl url).takeWhile (· ≠ '#')).dropWhile (· ≠ '?')).drop 1

/-- `new URL(url).searchParams`. -/
def searchParams (url : String) : List (String × String) :=
  (((urlQuery url).splitOn '&').filter (· ≠ [])).map decodeParam

/-- A character that `encodeURIComponent` leaves as it is. -/
def isUnreserved (c : Char) : Bool := c.isAlphanum || "-_.!~*'()".toList.contains c

/-- The two uppercase digits of a byte. -/
def upperHexByte (b : UInt8) : List Char := (hexByte b).map Char.toUpper

/-- `encodeURIComponent(text)`. -/
def encodeURIComponent (text : String) : String :=
  String.ofList (text.toList.flatMap fun c =>
    if isUnreserved c then [c]
    else (String.utf8EncodeChar c).flatMap fun b => '%' :: upperHexByte b)

/-! ## Reading what was joined -/

/-- A character without a meaning of its own in a query. -/
def IsQueryChar (c : Char) : Prop := 32 < c.toNat ∧ c ∉ ['#', '%', '&', '+', '=', '?']

instance : DecidablePred IsQueryChar := fun _ => inferInstanceAs (Decidable (_ ∧ _))

theorem percentDecode_of_plain {cs : List Char} (h : ∀ c ∈ cs, IsQueryChar c) :
    percentDecode cs = cs.flatMap String.utf8EncodeChar := by
  induction cs with
  | nil => rfl
  | cons c cs ih =>
      obtain ⟨hc, hcs⟩ := List.forall_mem_cons.1 h
      have hpercent : c ≠ '%' := fun heq => hc.2 (by simp [heq])
      rw [percentDecode, ih hcs, List.flatMap_cons]
      exact fun _ _ _ heq _ => hpercent heq

theorem decodeQueryText_of_plain {cs : List Char} (h : ∀ c ∈ cs, IsQueryChar c) :
    decodeQueryText cs = String.ofList cs := by
  have hmap : cs.map (fun c => if c = '+' then ' ' else c) = cs := by
    conv_rhs => rw [← List.map_id cs]
    exact List.map_congr_left fun c hc => if_neg fun heq => (h c hc).2 (by simp [heq])
  have hencode : percentDecode cs = utf8Encode (String.ofList cs) := by
    rw [percentDecode_of_plain h, utf8Encode, String.toList_ofList]
  rw [decodeQueryText, hmap, hencode, utf8Decode_utf8Encode]

/-- `name=value`, not escaped. -/
def joinParam (p : String × String) : List Char := p.1.toList ++ '=' :: p.2.toList

theorem decodeParam_joinParam {p : String × String} (hname : Over IsQueryChar p.1)
    (hvalue : Over IsQueryChar p.2) : decodeParam (joinParam p) = p := by
  have hsign : ∀ c ∈ p.1.toList, decide (c ≠ '=') = true := fun c hc =>
    decide_eq_true fun heq => (hname c hc).2 (by simp [heq])
  have htake : (joinParam p).takeWhile (· ≠ '=') = p.1.toList := by
    rw [joinParam, List.takeWhile_append_of_pos hsign]
    simp
  have hdrop : (joinParam p).dropWhile (· ≠ '=') = '=' :: p.2.toList := by
    rw [joinParam, List.dropWhile_append_of_pos hsign]
    simp
  rw [decodeParam, htake, hdrop, List.drop_one, List.tail_cons, decodeQueryText_of_plain hname,
    decodeQueryText_of_plain hvalue, String.ofList_toList, String.ofList_toList]

theorem cleanUrl_of_forall {url : String} (h : ∀ c ∈ url.toList, 32 < c.toNat) :
    cleanUrl url = url.toList := by
  have hspace : ∀ c ∈ url.toList, ¬ decide (c.toNat ≤ 32) = true := fun c hc hle =>
    absurd (h c hc) (Nat.not_lt.2 (of_decide_eq_true hle))
  have hbreak : ∀ c ∈ url.toList, decide (c ∉ ['\t', '\n', '\r']) = true := by
    intro c hc
    refine decide_eq_true fun hmem => ?_
    have hlt := h c hc
    simp only [List.mem_cons, List.not_mem_nil, or_false] at hmem
    rcases hmem with rfl | rfl | rfl <;> exact absurd hlt (by decide)
  have hright : url.toList.rdropWhile (·.toNat ≤ 32) = url.toList := by
    rw [List.rdropWhile, dropWhile_of_forall_not fun c hc => hspace c (List.mem_reverse.1 hc),
      List.reverse_reverse]
  rw [cleanUrl, dropWhile_of_forall_not hspace, hright, List.filter_eq_self.2 hbreak]

/-- The query that names parameters, none of which is escaped. -/
def joinParams (params : List (String × String)) : List Char :=
  ['&'].intercalate (params.map joinParam)

theorem mem_joinParams {params : List (String × String)} {c : Char} (h : c ∈ joinParams params) :
    c = '&' ∨ ∃ p ∈ params, c ∈ joinParam p := by
  induction params with
  | nil => simp [joinParams] at h
  | cons p params ih =>
      cases params with
      | nil =>
          have hc : c ∈ joinParam p := by simpa [joinParams] using h
          exact .inr ⟨p, by simp, hc⟩
      | cons q params =>
          simp only [joinParams, List.map_cons, List.intercalate_cons_cons, List.mem_append,
            List.mem_singleton] at h ih
          rcases h with (hp | hand) | hrest
          · exact .inr ⟨p, by simp, hp⟩
          · exact .inl hand
          · obtain hand | ⟨r, hr, hc⟩ := ih hrest
            · exact .inl hand
            · exact .inr ⟨r, List.mem_cons_of_mem _ hr, hc⟩

/-- Parameters of plain characters are read back. -/
theorem searchParams_joinParams {base url : String} {params : List (String × String)}
    (hparams : params ≠ []) (hbase : Over IsQueryChar base)
    (hplain : ∀ p ∈ params, Over IsQueryChar p.1 ∧ Over IsQueryChar p.2)
    (hurl : url.toList = base.toList ++ '?' :: joinParams params) : searchParams url = params := by
  have hjoin : ∀ p ∈ params, ∀ c ∈ joinParam p, c = '=' ∨ IsQueryChar c := by
    intro p hp c hc
    rcases List.mem_append.1 hc with hname | hc
    · exact .inr ((hplain p hp).1 c hname)
    · rcases List.mem_cons.1 hc with hsign | hvalue
      · exact .inl hsign
      · exact .inr ((hplain p hp).2 c hvalue)
  have hchars : ∀ c ∈ url.toList, 32 < c.toNat ∧ c ≠ '#' := by
    intro c hc
    have hquery : ∀ {c : Char}, IsQueryChar c → 32 < c.toNat ∧ c ≠ '#' := fun h =>
      ⟨h.1, fun heq => h.2 (by simp [heq])⟩
    rw [hurl, List.mem_append, List.mem_cons] at hc
    rcases hc with hc | rfl | hc
    · exact hquery (hbase c hc)
    · decide
    · rcases mem_joinParams hc with rfl | ⟨p, hp, hc⟩
      · decide
      · rcases hjoin p hp c hc with rfl | hc
        · decide
        · exact hquery hc
  have hquery : urlQuery url = joinParams params := by
    have hmark : ∀ c ∈ base.toList, decide (c ≠ '?') = true := fun c hc =>
      decide_eq_true fun heq => (hbase c hc).2 (by simp [heq])
    rw [urlQuery, cleanUrl_of_forall fun c hc => (hchars c hc).1,
      List.takeWhile_eq_self_iff.2 fun c hc => decide_eq_true (hchars c hc).2, hurl,
      List.dropWhile_append_of_pos hmark]
    simp
  have hsplit : (joinParams params).splitOn '&' = params.map joinParam := by
    refine List.splitOn_intercalate '&' (fun cs hcs hmem => ?_) (by simpa using hparams)
    obtain ⟨p, hp, rfl⟩ := List.mem_map.1 hcs
    rcases hjoin p hp '&' hmem with heq | hc
    · exact absurd heq (by decide)
    · exact hc.2 (by simp)
  have hfilter : (params.map joinParam).filter (· ≠ []) = params.map joinParam := by
    refine List.filter_eq_self.2 fun cs hcs => ?_
    obtain ⟨p, -, rfl⟩ := List.mem_map.1 hcs
    exact decide_eq_true (List.append_ne_nil_of_right_ne_nil _ (List.cons_ne_nil _ _))
  rw [searchParams, hquery, hsplit, hfilter, List.map_map]
  conv_rhs => rw [← List.map_id params]
  exact List.map_congr_left fun p hp => decodeParam_joinParam (hplain p hp).1 (hplain p hp).2

/-! ## Reading what was encoded -/

/-- A character that an encoded component has. -/
def IsComponentChar (c : Char) : Prop := 32 < c.toNat ∧ c ∉ ['#', '&', '+', '=']

instance : DecidablePred IsComponentChar := fun _ => inferInstanceAs (Decidable (_ ∧ _))

theorem isComponentChar_upperHexByte (b : UInt8) : ∀ c ∈ upperHexByte b, IsComponentChar c := by
  have hdigit : ∀ n < 16, IsComponentChar (hexDigit n).toUpper := by decide
  have hb := b.toNat_lt
  simp only [upperHexByte, hexByte, List.map_cons, List.map_nil, List.forall_mem_cons]
  exact ⟨hdigit _ (by omega), hdigit _ (by omega), by simp⟩

theorem lt_toNat_of_isAlphanum {c : Char} (h : c.isAlphanum = true) : 32 < c.toNat := by
  have hle : ∀ first : UInt32, 32 < first.toNat → first ≤ c.val → 32 < c.toNat :=
    fun first hfirst hc => hfirst.trans_le (UInt32.le_iff_toNat_le.1 hc)
  rcases Bool.or_eq_true_iff.1 h with halpha | hdigit
  · rcases Bool.or_eq_true_iff.1 halpha with hupper | hlower
    · exact hle 'A'.val (by decide) (of_decide_eq_true hupper).1
    · exact hle 'a'.val (by decide) (of_decide_eq_true (Bool.and_eq_true_iff.1 hlower).1)
  · exact hle '0'.val (by decide) (of_decide_eq_true (Bool.and_eq_true_iff.1 hdigit).1)

theorem isComponentChar_of_isUnreserved {c : Char} (h : isUnreserved c = true) :
    IsComponentChar c := by
  rcases Bool.or_eq_true_iff.1 h with halphanum | hmark
  · refine ⟨lt_toNat_of_isAlphanum halphanum, fun hmem => ?_⟩
    have hreserved : ∀ c ∈ ['#', '&', '+', '='], c.isAlphanum = false := by simp
    rw [hreserved c hmem] at halphanum
    cases halphanum
  · have hmarks : ∀ c ∈ "-_.!~*'()".toList, IsComponentChar c := by
      show Over IsComponentChar "-_.!~*'()"
      decide
    exact hmarks c (List.contains_iff_mem.1 hmark)

theorem over_encodeURIComponent (text : String) :
    Over IsComponentChar (encodeURIComponent text) := by
  intro c hc
  rw [encodeURIComponent, String.toList_ofList, List.mem_flatMap] at hc
  obtain ⟨d, -, hc⟩ := hc
  split at hc
  · rename_i hplain
    obtain rfl := List.mem_singleton.1 hc
    exact isComponentChar_of_isUnreserved hplain
  · obtain ⟨b, -, hc⟩ := List.mem_flatMap.1 hc
    rcases List.mem_cons.1 hc with rfl | hc
    · decide
    · exact isComponentChar_upperHexByte b c hc

theorem hexValue_toUpper : ∀ n < 16, hexValue (hexDigit n).toUpper = some n := by decide

theorem percentDecode_flatMap_upperHexByte (bytes : List UInt8) (rest : List Char) :
    percentDecode (bytes.flatMap (fun b => '%' :: upperHexByte b) ++ rest) =
      bytes ++ percentDecode rest := by
  induction bytes with
  | nil => rfl
  | cons b bytes ih =>
      have hb : b.toNat < 256 := b.toNat_lt
      have hhigh := hexValue_toUpper (b.toNat / 16) (by omega)
      have hlow := hexValue_toUpper (b.toNat % 16) (by omega)
      have hbyte : UInt8.ofNat (16 * (b.toNat / 16) + b.toNat % 16) = b := by
        rw [Nat.div_add_mod, UInt8.ofNat_toNat]
      simp only [List.flatMap_cons, upperHexByte, hexByte, List.map_cons, List.map_nil,
        List.cons_append, List.nil_append, percentDecode, hhigh, hlow, hbyte]
      exact congrArg (b :: ·) ih

theorem percentDecode_encodeURIComponent (text : String) :
    percentDecode (encodeURIComponent text).toList = utf8Encode text := by
  rw [encodeURIComponent, String.toList_ofList, utf8Encode]
  induction text.toList with
  | nil => rfl
  | cons c cs ih =>
      rw [List.flatMap_cons, List.flatMap_cons, ← ih]
      by_cases hc : isUnreserved c = true
      · have hpercent : c ≠ '%' := fun heq => by
          rw [heq] at hc
          cases hc
        rw [if_pos hc, List.singleton_append, percentDecode]
        exact fun _ _ _ heq _ => hpercent heq
      · rw [if_neg hc, percentDecode_flatMap_upperHexByte]

/-- Reading a component undoes its encoding. -/
theorem decodeQueryText_encodeURIComponent (text : String) :
    decodeQueryText (encodeURIComponent text).toList = text := by
  have hplus : (encodeURIComponent text).toList.map (fun c => if c = '+' then ' ' else c) =
      (encodeURIComponent text).toList := by
    conv_rhs => rw [← List.map_id (encodeURIComponent text).toList]
    exact List.map_congr_left fun c hc =>
      if_neg fun heq => (over_encodeURIComponent text c hc).2 (by simp [heq])
  rw [decodeQueryText, hplus, percentDecode_encodeURIComponent, utf8Decode_utf8Encode]

theorem rdropWhile_append {α : Type*} {p : α → Bool} {l : List α} (hl : ∀ a ∈ l, ¬ p a = true)
    (r : List α) : (l ++ r).rdropWhile p = l ++ r.rdropWhile p := by
  induction r using List.reverseRecOn with
  | nil =>
      rw [List.append_nil, List.rdropWhile_nil, List.append_nil]
      exact List.rdropWhile_eq_self_iff.2 fun h => hl _ (List.getLast_mem h)
  | append_singleton r a ih =>
      rw [← List.append_assoc]
      by_cases ha : p a = true
      · rw [List.rdropWhile_concat_pos _ _ _ ha, List.rdropWhile_concat_pos _ _ _ ha, ih]
      · rw [List.rdropWhile_concat_neg _ _ _ ha, List.rdropWhile_concat_neg _ _ _ ha,
          List.append_assoc]

theorem filter_breaks {cs : List Char} (h : ∀ c ∈ cs, 32 < c.toNat) :
    cs.filter (· ∉ ['\t', '\n', '\r']) = cs := by
  refine List.filter_eq_self.2 fun c hc => decide_eq_true fun hmem => ?_
  have hlt := h c hc
  simp only [List.mem_cons, List.not_mem_nil, or_false] at hmem
  rcases hmem with rfl | rfl | rfl <;> exact absurd hlt (by decide)

/-- The front of a URL is kept, whatever comes after. -/
theorem cleanUrl_append {url : String} {front rest : List Char} (hne : front ≠ [])
    (hfront : ∀ c ∈ front, 32 < c.toNat) (hurl : url.toList = front ++ rest) :
    ∃ rest', cleanUrl url = front ++ rest' ∧ ((∀ c ∈ rest, 32 < c.toNat) → rest' = rest) := by
  have hspace : ∀ {cs : List Char}, (∀ c ∈ cs, 32 < c.toNat) →
      ∀ c ∈ cs, ¬ decide (c.toNat ≤ 32) = true := fun h c hc hle =>
    absurd (h c hc) (Nat.not_lt.2 (of_decide_eq_true hle))
  have hstart : (front ++ rest).dropWhile (·.toNat ≤ 32) = front ++ rest := by
    cases hcs : front with
    | nil => exact absurd hcs hne
    | cons c cs =>
        exact List.dropWhile_cons_of_neg (hspace hfront c (by rw [hcs]; exact List.mem_cons_self))
  refine ⟨(rest.rdropWhile (·.toNat ≤ 32)).filter (· ∉ ['\t', '\n', '\r']), ?_, fun hrest => ?_⟩
  · rw [cleanUrl, hurl, hstart, rdropWhile_append (hspace hfront), List.filter_append,
      filter_breaks hfront]
  · rw [List.rdropWhile_eq_self_iff.2 fun h => hspace hrest _ (List.getLast_mem h),
      filter_breaks hrest]

/-- A query begins as the URL does after its first question mark, whatever comes after. -/
theorem urlQuery_append {base url : String} {query rest : List Char} (hbase : Over IsQueryChar base)
    (hquery : ∀ c ∈ query, 32 < c.toNat ∧ c ≠ '#')
    (hurl : url.toList = base.toList ++ '?' :: query ++ rest) :
    ∃ rest', urlQuery url = query ++ rest' ∧
      ((∀ c ∈ rest, 32 < c.toNat ∧ c ≠ '#') → rest' = rest) := by
  let front := base.toList ++ '?' :: query
  have hfront : ∀ c ∈ front, 32 < c.toNat ∧ c ≠ '#' := by
    refine List.forall_mem_append.2 ⟨fun c hc => ?_, List.forall_mem_cons.2 ⟨by decide, hquery⟩⟩
    exact ⟨(hbase c hc).1, fun heq => (hbase c hc).2 (by simp [heq])⟩
  have hmark : ∀ c ∈ base.toList, decide (c ≠ '?') = true := fun c hc =>
    decide_eq_true fun heq => (hbase c hc).2 (by simp [heq])
  have hne : front ≠ [] := List.append_ne_nil_of_right_ne_nil _ (List.cons_ne_nil _ _)
  obtain ⟨rest', hclean, hrest'⟩ := cleanUrl_append hne (fun c hc => (hfront c hc).1) hurl
  refine ⟨rest'.takeWhile (· ≠ '#'), ?_, fun hrest => ?_⟩
  · rw [urlQuery, hclean, List.takeWhile_append_of_pos fun c hc => decide_eq_true (hfront c hc).2,
      List.append_assoc, List.dropWhile_append_of_pos hmark]
    simp
  · rw [hrest' fun c hc => (hrest c hc).1]
    exact List.takeWhile_eq_self_iff.2 fun c hc => decide_eq_true (hrest c hc).2

/-- The first parameter is read back, whatever comes after. -/
theorem exists_searchParams {base url : String} {name value rest : List Char}
    (hbase : Over IsQueryChar base) (hname : ∀ c ∈ name, IsComponentChar c)
    (hvalue : ∀ c ∈ value, IsComponentChar c)
    (hurl : url.toList = base.toList ++ '?' :: (name ++ '=' :: value ++ ['&']) ++ rest) :
    ∃ rest', searchParams url = (decodeQueryText name, decodeQueryText value) ::
        ((rest'.splitOn '&').filter (· ≠ [])).map decodeParam ∧
      ((∀ c ∈ rest, 32 < c.toNat ∧ c ≠ '#') → rest' = rest) := by
  have hchars : ∀ c ∈ name ++ '=' :: value, 32 < c.toNat ∧ c ≠ '#' ∧ c ≠ '&' := by
    have hcomponent : ∀ c, IsComponentChar c → 32 < c.toNat ∧ c ≠ '#' ∧ c ≠ '&' := fun c hc =>
      ⟨hc.1, fun heq => hc.2 (by simp [heq]), fun heq => hc.2 (by simp [heq])⟩
    exact List.forall_mem_append.2 ⟨fun c hc => hcomponent c (hname c hc),
      List.forall_mem_cons.2 ⟨by decide, fun c hc => hcomponent c (hvalue c hc)⟩⟩
  have hquery : ∀ c ∈ name ++ '=' :: value ++ ['&'], 32 < c.toNat ∧ c ≠ '#' :=
    List.forall_mem_append.2 ⟨fun c hc => ⟨(hchars c hc).1, (hchars c hc).2.1⟩,
      List.forall_mem_singleton.2 (by decide)⟩
  obtain ⟨rest', hquery', hrest'⟩ := urlQuery_append hbase hquery hurl
  have hsign : ∀ c ∈ name, decide (c ≠ '=') = true := fun c hc =>
    decide_eq_true fun heq => (hname c hc).2 (by simp [heq])
  have hparam : decodeParam (name ++ '=' :: value) =
      (decodeQueryText name, decodeQueryText value) := by
    rw [decodeParam, List.takeWhile_append_of_pos hsign, List.dropWhile_append_of_pos hsign]
    simp
  have hsplit : (name ++ '=' :: value ++ '&' :: rest').splitOn '&' =
      (name ++ '=' :: value) :: rest'.splitOn '&' :=
    List.splitOn_append_cons_self_of_not_mem (fun hmem => (hchars _ hmem).2.2 rfl) rest'
  have hfilter : ((name ++ '=' :: value) :: rest'.splitOn '&').filter (· ≠ []) =
      (name ++ '=' :: value) :: (rest'.splitOn '&').filter (· ≠ []) :=
    List.filter_cons_of_pos
      (decide_eq_true (List.append_ne_nil_of_right_ne_nil _ (List.cons_ne_nil _ _)))
  refine ⟨rest', ?_, hrest'⟩
  rw [searchParams, hquery', List.append_assoc, List.singleton_append, hsplit, hfilter,
    List.map_cons, hparam]

end EpsDapp
