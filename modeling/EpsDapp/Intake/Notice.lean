import EpsDapp.Intake.Stage

/-!
# Notice links

`loadNotice` resolves the token of a link. A token that intake has generated is
its own normal form, so that its link resolves to the row that has it, and to no
other, for as long as tokens are unique.
-/

set_option autoImplicit false

namespace EpsDapp

open Calendar

/-- `NoticeView`. -/
structure NoticeView where
  id : String
  caseCaption : String
  plaintiffName : String
  defendantName : String
  recipientWallet : String
  status : ServiceStatus
  txSignature : Option String
  blockTime : Option Instant
  noticeToken : Option String

/-- The selection of a row for the cover sheet. -/
def ServiceRequest.noticeView (r : ServiceRequest) : NoticeView where
  id := r.id
  caseCaption := r.caseCaption
  plaintiffName := r.plaintiffName
  defendantName := r.defendantName
  recipientWallet := r.recipientWallet
  status := r.status
  txSignature := r.txSignature
  blockTime := r.blockTime
  noticeToken := r.noticeToken

/-- `TOKEN_RE`. -/
def tokenRe (token : String) : Bool :=
  decide (token.toList.length = 32) && token.toList.all isLowerHex

/-- `findUnique` by the unique column `noticeToken`. -/
def Db.requestOfToken (db : Db) (token : String) : Option ServiceRequest :=
  db.serviceRequests.rows.find? fun r => r.noticeToken == some token

/-- `loadNotice`. -/
def loadNotice (db : Db) (token : String) : Option NoticeView :=
  let normalized := toLowerCase (trim token)
  if tokenRe normalized then (db.requestOfToken normalized).map ServiceRequest.noticeView
  else none

/-- No two rows have one notice token. -/
def Db.TokensUnique (db : Db) : Prop :=
  ∀ r ∈ db.serviceRequests, ∀ r' ∈ db.serviceRequests, ∀ token,
    r.noticeToken = some token → r'.noticeToken = some token → r = r'

theorem Db.requestOfToken_eq_some {db : Db} (hdb : db.TokensUnique) {r : ServiceRequest}
    {token : String} (hr : r ∈ db.serviceRequests) (htoken : r.noticeToken = some token) :
    db.requestOfToken token = some r := by
  cases h : db.requestOfToken token with
  | none =>
      have hne := List.find?_eq_none.1 h r hr
      simp [htoken] at hne
  | some r' =>
      have htoken' : r'.noticeToken = some token := by simpa using List.find?_some h
      rw [hdb r' (List.mem_of_find?_eq_some h) r hr token htoken' htoken]

/-- The token of 16 random bytes is 32 digits long. -/
theorem tokenRe_hexEncode {bytes : Bytes} (h : bytes.length = 16) :
    tokenRe (hexEncode bytes) = true := by
  have hlength := length_hexEncode bytes
  rw [h] at hlength
  simp only [tokenRe, hlength, decide_true, Bool.true_and, List.all_eq_true]
  exact fun c hc => isLowerHex_of_mem_hexEncode hc

/-- A token that matches is left as it is. -/
theorem normalized_of_tokenRe {token : String} (h : tokenRe token = true) :
    toLowerCase (trim token) = token := by
  simp only [tokenRe, Bool.and_eq_true, List.all_eq_true] at h
  rw [trim_of_forall_not fun c hc => not_isWhiteSpace_of_isLowerHex (h.2 c hc)]
  exact toLowerCase_of_forall fun c hc => toLower_of_isLowerHex (h.2 c hc)

/-- The link of a row resolves to it. -/
theorem loadNotice_noticeToken {db : Db} (hdb : db.TokensUnique) {r : ServiceRequest}
    {token : String} (hr : r ∈ db.serviceRequests) (htoken : r.noticeToken = some token)
    (hre : tokenRe token = true) : loadNotice db token = some r.noticeView := by
  simp only [loadNotice, normalized_of_tokenRe hre, hre, if_true,
    db.requestOfToken_eq_some hdb hr htoken, Option.map_some]

end EpsDapp
