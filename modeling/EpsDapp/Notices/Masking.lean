import EpsDapp.Effect.Alike
import EpsDapp.Notices.Access

/-!
# Masked addresses

What a first view leaves on the certificate and in the audit trail is the address of the client
with its host part masked: the last octet, or the last group. The address is what a
proxy wrote into a header. When it has a port, `maskIp` masks the port in the place of the
host part, so two clients of one network are told apart exactly if the address comes with
a port.
-/

set_option autoImplicit false

namespace EpsDapp

open Effect NoticeProgram

/-! ## Client addresses -/

/-- The digits of an octet or a port. -/
@[ext] structure Numeral where
  digits : List Char
  ne_nil : digits ≠ []
  isDigit : ∀ c ∈ digits, c.isDigit = true

/-- The last group of an IPv6 address. -/
@[ext] structure LastGroup where
  chars : List Char
  noColon : ':' ∉ chars

/-- The address of a client, as a proxy writes it: `a.b.c.d`, or the text before the last colon
and the last group, each with or without a port. -/
inductive ClientAddress
  | v4 (a b c d : Numeral) (port : Option Numeral)
  | v6 (network : List Char) (group : LastGroup) (port : Option Numeral)

/-- The port. -/
def ClientAddress.port : ClientAddress → Option Numeral
  | v4 _ _ _ _ port => port
  | v6 _ _ port => port

/-- The text of the address: `a.b.c.d`, `a.b.c.d:port`, the bare IPv6 address or
`[addr]:port`. -/
def ClientAddress.text : ClientAddress → String
  | v4 a b c d port =>
      String.ofList (List.intercalate ['.'] [a.digits, b.digits, c.digits, d.digits] ++
        (port.map fun port => ':' :: port.digits).getD [])
  | v6 network group none => String.ofList (network ++ ':' :: group.chars)
  | v6 network group (some port) =>
      String.ofList (('[' :: network ++ ':' :: group.chars ++ [']']) ++ ':' :: port.digits)

/-- The addresses differ only in their host part, if at all. -/
inductive ClientAddress.Neighbors : ClientAddress → ClientAddress → Prop
  | v4 (a b c d d' : Numeral) (port : Option Numeral) : Neighbors (v4 a b c d port) (v4 a b c d' port)
  | v6 (network : List Char) (group group' : LastGroup) (port : Option Numeral) :
      Neighbors (v6 network group port) (v6 network group' port)

theorem Numeral.not_mem (n : Numeral) {c : Char} (hc : c.isDigit = false) : c ∉ n.digits := by
  intro hmem
  rw [n.isDigit c hmem] at hc
  cases hc

/-! ## What is masked -/

section Intercalate

variable {α : Type} {sep : α}

theorem mem_intercalate {ls : List (List α)} {a : α} (h : a ∈ [sep].intercalate ls) :
    a = sep ∨ ∃ l ∈ ls, a ∈ l := by
  induction ls with
  | nil => exact (List.not_mem_nil h).elim
  | cons l ls ih =>
      rcases eq_or_ne ls [] with rfl | hne
      · rw [List.intercalate_singleton] at h
        exact Or.inr ⟨l, List.mem_cons_self, h⟩
      · rw [List.intercalate_cons_of_ne_nil hne, List.mem_append, List.mem_append,
          List.mem_singleton] at h
        rcases h with (h | h) | h
        · exact Or.inr ⟨l, List.mem_cons_self, h⟩
        · exact Or.inl h
        · rcases ih h with h | ⟨l', hl', h⟩
          · exact Or.inl h
          · exact Or.inr ⟨l', List.mem_cons_of_mem _ hl', h⟩

theorem intercalate_concat {ls : List (List α)} (hne : ls ≠ []) (l : List α) :
    [sep].intercalate (ls ++ [l]) = [sep].intercalate ls ++ sep :: l := by
  induction ls with
  | nil => exact absurd rfl hne
  | cons l' ls ih =>
      rcases eq_or_ne ls [] with rfl | hls
      · rw [List.intercalate_singleton, List.singleton_append,
          List.intercalate_cons_of_ne_nil (List.cons_ne_nil _ _), List.intercalate_singleton,
          List.append_assoc, List.singleton_append]
      · have hconcat : ls ++ [l] ≠ [] := List.append_ne_nil_of_right_ne_nil _ (List.cons_ne_nil _ _)
        rw [List.cons_append, List.intercalate_cons_of_ne_nil hconcat, ih hls,
          List.intercalate_cons_of_ne_nil hls]
        simp only [List.append_assoc]

end Intercalate

/-- What comes after the last colon is masked. -/
theorem maskIp_of_colon (front last : List Char) (hlast : ':' ∉ last) :
    maskIp (String.ofList (front ++ ':' :: last)) = String.ofList (front ++ [':', 'x']) := by
  have hmem : ':' ∈ front ++ ':' :: last := List.mem_append_right _ List.mem_cons_self
  -- Of the parts between dots, the one with the colon is no number.
  have hnot : ¬ (((front ++ ':' :: last).splitOn '.').length = 4 ∧
      ((front ++ ':' :: last).splitOn '.').all fun p => !p.isEmpty && p.all Char.isDigit) := by
    rintro ⟨-, hall⟩
    have hcolon := hmem
    have hjoin : ['.'].intercalate ((front ++ ':' :: last).splitOn '.') = front ++ ':' :: last :=
      List.intercalate_splitOn '.'
    rw [← hjoin] at hcolon
    rcases mem_intercalate hcolon with hdot | ⟨part, hpart, hcolon⟩
    · exact absurd hdot (by decide)
    · have hdigits := List.all_eq_true.1 hall part hpart
      rw [Bool.and_eq_true_iff] at hdigits
      exact absurd (List.all_eq_true.1 hdigits.2 _ hcolon) (by decide)
  have hsplit : (front ++ ':' :: last).splitOn ':' = front.splitOn ':' ++ [last] := by
    rw [List.splitOn_append_cons_self, List.splitOn_eq_singleton hlast]
  simp only [maskIp, String.toList_ofList]
  rw [if_neg hnot, if_pos hmem, hsplit, List.dropLast_concat, joinChars,
    intercalate_concat (List.splitOn_ne_nil _ _), List.intercalate_splitOn]

/-- The last octet of a bare address is masked. -/
theorem maskIp_v4 (a b c d : Numeral) :
    maskIp (String.ofList (List.intercalate ['.'] [a.digits, b.digits, c.digits, d.digits])) =
      String.ofList (List.intercalate ['.'] [a.digits, b.digits, c.digits, ['x']]) := by
  have hdot : ∀ part ∈ [a.digits, b.digits, c.digits, d.digits], '.' ∉ part := by
    simp only [List.forall_mem_cons]
    exact ⟨a.not_mem rfl, b.not_mem rfl, c.not_mem rfl, d.not_mem rfl, nofun⟩
  have hdigits : ∀ n : Numeral, (!n.digits.isEmpty && n.digits.all Char.isDigit) = true := by
    intro n
    simp [n.ne_nil, List.all_eq_true.2 n.isDigit]
  have hsplit := List.splitOn_intercalate '.' hdot (List.cons_ne_nil _ _)
  simp only [maskIp, String.toList_ofList]
  rw [hsplit]
  exact if_pos ⟨rfl, by simp only [List.all_cons, List.all_nil, hdigits, Bool.and_self]⟩

/-- The masked addresses of neighbors are equal exactly if they have no port. -/
theorem maskIp_text_eq_iff {addr addr' : ClientAddress} (h : addr.Neighbors addr') :
    maskIp addr.text = maskIp addr'.text ↔ addr.port = none ∨ addr = addr' := by
  cases h with
  | v4 a b c d d' port =>
      cases port with
      | none =>
          have hmask : ∀ n : Numeral, maskIp (ClientAddress.v4 a b c n none).text =
              String.ofList (List.intercalate ['.'] [a.digits, b.digits, c.digits, ['x']]) := by
            intro n
            rw [ClientAddress.text, Option.map_none, Option.getD_none, List.append_nil, maskIp_v4]
          exact iff_of_true ((hmask d).trans (hmask d').symm) (Or.inl rfl)
      | some port =>
          have hmask : ∀ n : Numeral, maskIp (ClientAddress.v4 a b c n (some port)).text =
              String.ofList (List.intercalate ['.'] [a.digits, b.digits, c.digits, n.digits] ++
                [':', 'x']) := by
            intro n
            exact maskIp_of_colon _ _ (port.not_mem rfl)
          rw [hmask, hmask, String.ofList_inj, List.append_cancel_right_eq]
          constructor
          · intro heq
            have hdigits : d.digits = d'.digits := by simpa [List.intercalate] using heq
            exact Or.inr (congrArg (fun n => ClientAddress.v4 a b c n (some port))
              (Numeral.ext hdigits))
          · rintro (hnone | heq)
            · cases hnone
            · cases heq
              rfl
  | v6 network group group' port =>
      cases port with
      | none =>
          have hmask : ∀ g : LastGroup, maskIp (ClientAddress.v6 network g none).text =
              String.ofList (network ++ [':', 'x']) := fun g => maskIp_of_colon _ _ g.noColon
          exact iff_of_true ((hmask group).trans (hmask group').symm) (Or.inl rfl)
      | some port =>
          have hmask : ∀ g : LastGroup, maskIp (ClientAddress.v6 network g (some port)).text =
              String.ofList (('[' :: network ++ ':' :: g.chars ++ [']']) ++ [':', 'x']) :=
            fun g => maskIp_of_colon _ _ (port.not_mem rfl)
          rw [hmask, hmask, String.ofList_inj, List.append_cancel_right_eq,
            List.append_cancel_right_eq, List.append_cancel_left_eq]
          constructor
          · intro heq
            have hchars : group.chars = group'.chars := (List.cons.inj heq).2
            exact Or.inr (congrArg (fun g => ClientAddress.v6 network g (some port))
              (LastGroup.ext hchars))
          · rintro (hnone | heq)
            · cases hnone
            · cases heq
              rfl

/-! ## What a first view discloses -/

/-- A statement of the notice page as the record of the first access is left out: the full address
is in that record only. -/
def withoutIp : Exchange noticeSig Failure → Exchange noticeSig Failure
  | ⟨.noticeAccessCreate t noticeId _ userAgent, r⟩ =>
      ⟨.noticeAccessCreate t noticeId "" userAgent, r⟩
  | exchange => exchange

section Disclosure

variable {noticeId ip ip' userAgent : String}

theorem wp_any {α : Type} {c : NoticeCall} {f : c.Resp → NoticeProgram α}
    {Q : Except Failure α → Prop} {trace : List (Exchange noticeSig Failure)}
    (hok : ∀ a trace, (f a).wp anyAnswers (fun _ _ => True) (fun r _ => Q r) trace)
    (herror : ∀ e, Q (.error e)) :
    (Program.perform (S := noticeSig) c >>= f).wp anyAnswers (fun _ _ => True) (fun r _ => Q r)
      trace := by
  refine (Program.wp_bind _ _ _ _).2 ((Program.wp_perform _ _ _).2 ⟨trivial, ?_⟩)
  intro trace' r _
  cases r with
  | error e => exact herror e
  | ok a => exact hok a trace'

/-- What `recordFirstAccess` returns has the masked address. -/
theorem recordFirstAccess_maskedIp {trace trace' : List (Exchange noticeSig Failure)}
    {result : FirstAccessResult}
    (h : (recordFirstAccess noticeId ip userAgent).Runs anyAnswers trace trace' (.ok result)) :
    result.maskedIp = maskIp ip := by
  let Masked (r : Except Failure FirstAccessResult) : Prop :=
    ∀ result, r = .ok result → result.maskedIp = maskIp ip
  have herror : ∀ e, Masked (.error e) := fun _ _ h => by cases h
  have hpure : ∀ first ownerEmail caseRef accessedAt,
      Masked (.ok ⟨first, ownerEmail, caseRef, maskIp ip, accessedAt⟩) := by
    rintro _ _ _ _ _ ⟨⟩
    rfl
  refine Program.wp_runs _ (Q := fun r _ => Masked r) (wp_any (fun t trace₁ => ?_) herror) h
    result rfl
  refine Program.wp_seq (R := fun r _ => Masked r) ?_ (fun a trace₂ ha => ?_) fun e _ _ => herror e
  · refine Program.wp_catch (R := fun r _ => Masked r) ?_ (fun _ _ ha => ha) fun e trace₂ _ => ?_
    · refine wp_any (fun service trace₂ => ?_) herror
      simp only
      split
      · exact hpure _ _ _ _
      · refine wp_any (fun accessedAt trace₃ => ?_) herror
        refine wp_any (fun _ trace₄ => ?_) herror
        refine wp_any (fun _ trace₅ => ?_) herror
        exact wp_any (fun _ trace₆ => hpure _ _ _ _) herror
    · exact wp_any (fun _ _ => herror e) herror
  · exact wp_any (fun _ _ => ha) herror

/-- First views from two addresses run alike, but for the full address in the record of the
access, exactly if the masked addresses are equal. -/
theorem recordFirstAccess_runsAlike_iff :
    Program.RunsAlike withoutIp (recordFirstAccess noticeId ip userAgent)
        (recordFirstAccess noticeId ip' userAgent) ↔ maskIp ip = maskIp ip' := by
  constructor
  · intro h
    -- A view of a notice that has been viewed before.
    let viewed : AccessView := ⟨"", none, some 0⟩
    have hrun : (recordFirstAccess noticeId ip userAgent).Runs anyAnswers []
        [⟨.beginTransaction, .ok (0 : ℕ)⟩,
          ⟨.serviceRequestFindUnique 0 noticeId, .ok (some viewed)⟩, ⟨.commit 0, .ok ()⟩]
        (.ok ⟨false, none, "", maskIp ip, 0⟩) := by
      have hanswer : ∀ (trace : List (Exchange noticeSig Failure)) (c : NoticeCall)
          (r : Except Failure c.Resp), anyAnswers trace c (trace ++ [⟨c, r⟩]) r :=
        fun _ _ _ => rfl
      refine .call (hanswer _ .beginTransaction (.ok (0 : ℕ))) ?_
      refine .call (hanswer _ (.serviceRequestFindUnique 0 noticeId) (.ok (some viewed))) ?_
      refine .call (hanswer _ (.commit 0) (.ok ())) ?_
      exact ⟨rfl, rfl⟩
    obtain ⟨_, hrun', -⟩ := h _ _ _ hrun
    exact recordFirstAccess_maskedIp hrun'
  · intro h
    rw [recordFirstAccess, recordFirstAccess, h]
    refine Program.Simulated.runsAlike (.bind (.refl _) fun t => .bind ?_ fun _ => .refl _)
    refine .tryCatch (.bind (.refl _) fun service => ?_) fun _ => .refl _
    simp only
    split
    · exact .refl _
    · exact .bind ⟨_, _, rfl, fun r => ⟨r, rfl, rfl⟩⟩ fun _ => .refl _

/-- First views by neighbors disclose the same, but for the full address in the record of the
access, exactly if they are one address or have no port. -/
theorem disclosesAlike_iff {addr addr' : ClientAddress} (h : addr.Neighbors addr')
    {headers headers' : RequestHeaders} (hip : clientIpFromHeaders headers = addr.text)
    (hip' : clientIpFromHeaders headers' = addr'.text) :
    Program.RunsAlike withoutIp
        (recordFirstAccess noticeId (clientIpFromHeaders headers) userAgent)
        (recordFirstAccess noticeId (clientIpFromHeaders headers') userAgent) ↔
      addr.port = none ∨ addr = addr' := by
  rw [hip, hip', recordFirstAccess_runsAlike_iff, maskIp_text_eq_iff h]

end Disclosure

/-! ## Two neighbors -/

section Examples

/-- A numeral, from its text. -/
def numeral (text : String) (h : text.toList ≠ [] ∧ text.toList.all Char.isDigit = true) :
    Numeral := ⟨text.toList, h.1, List.all_eq_true.1 h.2⟩

/-- `203.0.113.` and the last octet, which a proxy has written with or without a port. -/
def exampleAddress (d : Numeral) (port : Option Numeral) : ClientAddress :=
  .v4 (numeral "203" (by decide)) (numeral "0" (by decide)) (numeral "113" (by decide)) d port

/-- The headers of a request through one proxy. -/
def forwardedFor (ip : String) : RequestHeaders := fun name =>
  if name = "x-forwarded-for" then some ip else none

theorem clientIp_forwardedFor {ip : String} (hne : ip ≠ "") (hcomma : ',' ∉ ip.toList)
    (htrim : trim ip = ip) : clientIpFromHeaders (forwardedFor ip) = ip := by
  have htruthy : truthy (some ip) = some ip := by simp [truthy, Option.filter, hne]
  have hfirst : ip.toList.takeWhile (· != ',') = ip.toList :=
    List.takeWhile_eq_self_iff.2 fun c hc => bne_iff_ne.2 fun heq => hcomma (heq ▸ hc)
  simp only [clientIpFromHeaders, forwardedFor, if_true, htruthy, Option.bind_some, hfirst,
    String.ofList_toList, htrim, Option.getD_some]

/-- The last octet is in the masked address when the proxy writes the port. -/
theorem not_disclosesAlike_of_port :
    ¬ ∀ (addr addr' : ClientAddress) (headers headers' : RequestHeaders) noticeId userAgent,
      addr.Neighbors addr' → clientIpFromHeaders headers = addr.text →
      clientIpFromHeaders headers' = addr'.text →
      Program.RunsAlike withoutIp
        (recordFirstAccess noticeId (clientIpFromHeaders headers) userAgent)
        (recordFirstAccess noticeId (clientIpFromHeaders headers') userAgent) := by
  intro h
  let port : Option Numeral := some (numeral "51234" (by decide))
  have hip : clientIpFromHeaders (forwardedFor "203.0.113.42:51234") =
      (exampleAddress (numeral "42" (by decide)) port).text :=
    clientIp_forwardedFor (by decide) (by decide) (by decide)
  have hip' : clientIpFromHeaders (forwardedFor "203.0.113.43:51234") =
      (exampleAddress (numeral "43" (by decide)) port).text :=
    clientIp_forwardedFor (by decide) (by decide) (by decide)
  have halike := h _ _ _ _ "sr-1" "agent" (.v4 _ _ _ _ _ port) hip hip'
  have hmask := recordFirstAccess_runsAlike_iff.1 halike
  rw [hip, hip'] at hmask
  exact absurd hmask (by decide)

/-- The bare addresses of neighbors cannot be told apart. -/
theorem disclosesAlike_of_bare :
    Program.RunsAlike withoutIp
        (recordFirstAccess "sr-1" (clientIpFromHeaders (forwardedFor "203.0.113.42")) "agent")
        (recordFirstAccess "sr-1" (clientIpFromHeaders (forwardedFor "203.0.113.43")) "agent") ↔
      (none : Option Numeral) = none ∨
        exampleAddress (numeral "42" (by decide)) none =
          exampleAddress (numeral "43" (by decide)) none :=
  disclosesAlike_iff (.v4 _ _ _ _ _ none)
    (clientIp_forwardedFor (by decide) (by decide) (by decide))
    (clientIp_forwardedFor (by decide) (by decide) (by decide))

end Examples

end EpsDapp
