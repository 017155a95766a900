import EpsDapp.Effect.Pool
import EpsDapp.Intake.Notice
import EpsDapp.Server.Session
import EpsDapp.Store.Transactions

/-!
# The first access to a notice

The public page of a notice records its first view and alerts the owner of the
service. `recordFirstAccess` is one interactive transaction: it looks for the access
record, and adds the record, the addendum of the certificate and an audit row when
there is none. It also starts an alert before it returns, which runs by itself; the
page sends another one when the transaction has committed.

The transactions of any number of views are open at one time. They read what is
committed, and each statement may fail, as may a commit.
-/

set_option autoImplicit false

namespace EpsDapp

open Calendar Effect

/-! ## Addresses -/

/-- `parts.join(sep)`. -/
def joinChars (sep : Char) (parts : List (List Char)) : String :=
  String.ofList (List.intercalate [sep] parts)

/-- `maskIp`. -/
def maskIp (ip : String) : String :=
  let v4 := ip.toList.splitOn '.'
  if v4.length = 4 ∧ v4.all fun p => !p.isEmpty && p.all Char.isDigit then
    joinChars '.' (v4.dropLast ++ [['x']])
  else if ':' ∈ ip.toList then
    joinChars ':' ((ip.toList.splitOn ':').dropLast ++ [['x']])
  else ip

/-- The headers of a request. -/
abbrev RequestHeaders := String → Option String

/-- `clientIpFromHeaders`. -/
def clientIpFromHeaders (headers : RequestHeaders) : String :=
  let first := (truthy (headers "x-forwarded-for")).bind fun forwarded =>
    truthy (some (trim (String.ofList (forwarded.toList.takeWhile (· != ',')))))
  first.getD ((truthy ((headers "x-real-ip").map trim)).getD "unknown")

/-- `noticeUrlFrom`. -/
def noticeUrlFrom (headers : RequestHeaders) (token : String) : String :=
  (headers "x-forwarded-proto").getD "https" ++ "://" ++
    ((headers "x-forwarded-host").or (headers "host")).getD "" ++ "/n/" ++ token

/-! ## The calls -/

/-- `FirstAccessResult`. -/
structure FirstAccessResult where
  isFirstAccess : Bool
  ownerEmail : Option String
  caseRef : String
  maskedIp : String
  viewedAt : Instant
  deriving DecidableEq

/-- `FirstViewedAddendum`. -/
structure FirstViewedAddendum where
  noticeId : String
  viewedAt : Instant
  viewerIp : String

/-- `FirstAccessEmail`; its text is made of these fields. -/
structure FirstAccessEmail where
  toEmail : String
  caseRef : String
  maskedIp : String
  viewedAt : Instant
  noticeUrl : String

/-- The arguments of `resend.emails.send`. -/
structure ResendEmail where
  sender : String
  toEmail : String
  subject : String
  text : String

/-- What `recordFirstAccess` selects of a notice. -/
structure AccessView where
  caseCaption : String
  ownerEmail : Option String
  accessedAt : Option Instant

/-- The calls of the notice page, of the transaction of the first access, and of the alert
that it starts. A statement of a transaction carries its number. -/
inductive NoticeCall
  | rateLimit (key : String)
  | noticeFindUnique (noticeToken : String)
  | beginTransaction
  | commit (t : ℕ)
  | rollback (t : ℕ)
  | serviceRequestFindUnique (t : ℕ) (noticeId : String)
  | noticeAccessCreate (t : ℕ) (noticeId ip userAgent : String)
  | certificateAddendumCreate (t : ℕ) (data : FirstViewedAddendum)
  | auditLogCreate (t : ℕ) (data : AuditLog)
  /-- `void sendFirstAccessAlert(noticeId)`. -/
  | startAlert (noticeId : String)
  /-- An alert that was started gets its turn. -/
  | nextAlert
  /-- The caption of the notice and the `ownerEmail` of its organization, outside any
  transaction. -/
  | alertFindUnique (noticeId : String)
  /-- `resend.emails.send`, about the notice. -/
  | emailsSend (noticeId : String) (email : ResendEmail)
  /-- The request to `RESEND_ENDPOINT`, about the notice. -/
  | fetchResend (noticeId apiKey sender : String) (email : FirstAccessEmail)
  /-- The caller of `recordFirstAccess` gets its result. -/
  | reply (noticeId : String) (result : FirstAccessResult)

/-- The answer of each call; an email answers whether it was accepted. -/
@[reducible] def NoticeCall.Resp : NoticeCall → Type
  | rateLimit _ => Bool
  | noticeFindUnique _ => Option NoticeView
  | beginTransaction => ℕ
  | commit _ => Unit
  | rollback _ => Unit
  | serviceRequestFindUnique _ _ => Option AccessView
  | noticeAccessCreate _ _ _ _ => Instant
  | certificateAddendumCreate _ _ => Unit
  | auditLogCreate _ _ => Unit
  | startAlert _ => Unit
  | nextAlert => String
  | alertFindUnique _ => Option (String × Option String)
  | emailsSend _ _ => Bool
  | fetchResend _ _ _ _ => Bool
  | reply _ _ => Unit

abbrev noticeSig : Signature := ⟨NoticeCall, NoticeCall.Resp⟩

abbrev NoticeProgram := Program noticeSig Failure

namespace NoticeProgram

def rateLimit (key : String) : NoticeProgram Bool :=
  Program.perform (S := noticeSig) (.rateLimit key)

def noticeFindUnique (noticeToken : String) : NoticeProgram (Option NoticeView) :=
  Program.perform (S := noticeSig) (.noticeFindUnique noticeToken)

def beginTransaction : NoticeProgram ℕ := Program.perform (S := noticeSig) .beginTransaction

def commit (t : ℕ) : NoticeProgram Unit := Program.perform (S := noticeSig) (.commit t)

def rollback (t : ℕ) : NoticeProgram Unit := Program.perform (S := noticeSig) (.rollback t)

def serviceRequestFindUnique (t : ℕ) (noticeId : String) : NoticeProgram (Option AccessView) :=
  Program.perform (S := noticeSig) (.serviceRequestFindUnique t noticeId)

def noticeAccessCreate (t : ℕ) (noticeId ip userAgent : String) : NoticeProgram Instant :=
  Program.perform (S := noticeSig) (.noticeAccessCreate t noticeId ip userAgent)

def certificateAddendumCreate (t : ℕ) (data : FirstViewedAddendum) : NoticeProgram Unit :=
  Program.perform (S := noticeSig) (.certificateAddendumCreate t data)

def auditLogCreate (t : ℕ) (data : AuditLog) : NoticeProgram Unit :=
  Program.perform (S := noticeSig) (.auditLogCreate t data)

def startAlert (noticeId : String) : NoticeProgram Unit :=
  Program.perform (S := noticeSig) (.startAlert noticeId)

def nextAlert : NoticeProgram String := Program.perform (S := noticeSig) .nextAlert

def alertFindUnique (noticeId : String) : NoticeProgram (Option (String × Option String)) :=
  Program.perform (S := noticeSig) (.alertFindUnique noticeId)

def emailsSend (noticeId : String) (email : ResendEmail) : NoticeProgram Bool :=
  Program.perform (S := noticeSig) (.emailsSend noticeId email)

def fetchResend (noticeId apiKey sender : String) (email : FirstAccessEmail) :
    NoticeProgram Bool :=
  Program.perform (S := noticeSig) (.fetchResend noticeId apiKey sender email)

def reply (noticeId : String) (result : FirstAccessResult) : NoticeProgram Unit :=
  Program.perform (S := noticeSig) (.reply noticeId result)

end NoticeProgram

/-! ## The functions -/

open NoticeProgram

/-- `prisma.$transaction`: commits when `f` returns, and rolls back when it throws. -/
def transaction {α : Type} (f : ℕ → NoticeProgram α) : NoticeProgram α := do
  let t ← beginTransaction
  let a ← tryCatch (f t) fun e => do
    rollback t
    throw e
  commit t
  pure a

/-- `writeFirstViewedAddendum`. -/
def writeFirstViewedAddendum (t : ℕ) (addendum : FirstViewedAddendum) : NoticeProgram Unit :=
  certificateAddendumCreate t addendum

/-- The audit row of a first access. -/
def noticeFirstAccessed (noticeId viewerIp : String) : AuditLog where
  action := "NOTICE_FIRST_ACCESSED"
  actorId := "public"
  targetId := noticeId
  metadata := .firstAccess viewerIp

/-- `recordFirstAccess`. -/
def recordFirstAccess (noticeId ip userAgent : String) : NoticeProgram FirstAccessResult :=
  let maskedIp := maskIp ip
  transaction fun t => do
    let service ← serviceRequestFindUnique t noticeId
    let ownerEmail := service.bind AccessView.ownerEmail
    let caseRef := (service.map AccessView.caseCaption).getD ""
    match service.bind AccessView.accessedAt with
    | some accessedAt => pure ⟨false, ownerEmail, caseRef, maskedIp, accessedAt⟩
    | none => do
        let accessedAt ← noticeAccessCreate t noticeId ip userAgent
        writeFirstViewedAddendum t ⟨noticeId, accessedAt, maskedIp⟩
        auditLogCreate t (noticeFirstAccessed noticeId maskedIp)
        startAlert noticeId
        pure ⟨true, ownerEmail, caseRef, maskedIp, accessedAt⟩

/-- `sendFirstAccessAlert`. -/
def sendFirstAccessAlert (noticeId : String) : NoticeProgram Unit :=
  tryCatch
    (do
      match ← alertFindUnique noticeId with
      | none => pure ()
      | some (caseCaption, ownerEmail) =>
          match truthy ownerEmail with
          | none => pure ()
          | some toEmail => do
              let _ ← emailsSend noticeId {
                sender := "EPS <noreply@eps.app>"
                toEmail := toEmail
                subject := "EPS Notice First Accessed: " ++ caseCaption
                text := "Notice for " ++ caseCaption ++ " was first viewed by the recipient." }
              pure ())
    fun _ => pure ()

/-- The environment variables of `lib/email.ts`. -/
structure EmailEnv where
  resendApiKey : Option String
  resendFrom : Option String

/-- `sendFirstAccessEmail`. -/
def sendFirstAccessEmail (env : EmailEnv) (noticeId : String) (email : FirstAccessEmail) :
    NoticeProgram Bool :=
  match truthy env.resendApiKey with
  | none => pure false
  | some apiKey =>
      fetchResend noticeId apiKey (env.resendFrom.getD "EPS Notices <notices@eps.local>") email

/-- What the notice page shows. -/
inductive NoticePageView
  | rateLimited
  | notFound
  | coverSheet (request : NoticeView)

/-- What the page does before it shows the cover sheet; errors are swallowed. -/
def recordView (env : EmailEnv) (headers : RequestHeaders) (token : String)
    (request : NoticeView) : NoticeProgram Unit :=
  tryCatch
    (do
      let userAgent := (headers "user-agent").getD ""
      let access ← recordFirstAccess request.id (clientIpFromHeaders headers) userAgent
      match access.isFirstAccess, truthy access.ownerEmail with
      | true, some ownerEmail => do
          let _ ← sendFirstAccessEmail env request.id {
            toEmail := ownerEmail
            caseRef := access.caseRef
            maskedIp := access.maskedIp
            viewedAt := access.viewedAt
            noticeUrl := noticeUrlFrom headers token }
          pure ()
      | _, _ => pure ())
    fun _ => pure ()

/-- `loadNotice`, as the page awaits it. -/
@[irreducible] def awaitNotice (token : String) : NoticeProgram (Option NoticeView) :=
  let normalized := toLowerCase (trim token)
  if tokenRe normalized then noticeFindUnique normalized else pure none

/-- `NoticePage`. -/
def noticePage (env : EmailEnv) (headers : RequestHeaders) (token : String) :
    NoticeProgram NoticePageView := do
  let ok ← rateLimit ("notice:" ++ clientIpFromHeaders headers)
  if ok then do
    match ← awaitNotice token with
    | none => pure .notFound
    | some request => do
        recordView env headers token request
        pure (.coverSheet request)
  else pure .rateLimited

/-! ## The world -/

/-- What the transaction of a first access adds. -/
inductive AccessWrite
  | access (row : NoticeAccess)
  | addendum (row : CertificateAddendum)
  | audit (row : AuditLog)

/-- The unique columns it writes. -/
inductive AccessKey
  | access (noticeId : String)
  | addendum (noticeId : String)
  deriving DecidableEq

namespace AccessWrite

/-- The database with the row. -/
def add (db : Db) : AccessWrite → Db
  | access row =>
      if h : db.noticeAccesses.get? row.noticeId = none then
        { db with noticeAccesses := db.noticeAccesses.insert row h }
      else db
  | addendum row =>
      if h : db.certificateAddenda.get? row.noticeId = none then
        { db with certificateAddenda := db.certificateAddenda.insert row h }
      else db
  | audit row => db.audit row

/-- The value of its unique column. -/
def key : AccessWrite → Option AccessKey
  | access row => some (.access row.noticeId)
  | addendum row => some (.addendum row.noticeId)
  | audit _ => none

end AccessWrite

/-- The key is taken. -/
def Db.HasAccessKey (db : Db) : AccessKey → Prop
  | .access noticeId => db.noticeAccesses.get? noticeId ≠ none
  | .addendum noticeId => db.certificateAddenda.get? noticeId ≠ none

/-- A row is there under the key of an insert, and under the keys it was there before. -/
theorem Table.get?_insert_ne_none {ρ κ : Type} {key : ρ → κ} [DecidableEq κ] (t : Table key)
    (r : ρ) (h : t.get? (key r) = none) (k : κ) :
    (t.insert r h).get? k ≠ none ↔ key r = k ∨ t.get? k ≠ none := by
  rw [get?_insert]
  split
  · rename_i hk
    simp [hk]
  · rename_i hk
    simp [Ne.symm hk]

/-- The transactions of the first accesses, with the two unique constraints. -/
def accessInserts : Inserts Db AccessWrite AccessKey where
  add := AccessWrite.add
  key := AccessWrite.key
  Has := Db.HasAccessKey
  has_add db δ k := by
    cases δ with
    | access row =>
        by_cases h : db.noticeAccesses.get? row.noticeId = none
        · cases k with
          | access noticeId =>
              simpa [AccessWrite.add, AccessWrite.key, h, Db.HasAccessKey] using
                db.noticeAccesses.get?_insert_ne_none row h noticeId
          | addendum noticeId => simp [AccessWrite.add, AccessWrite.key, h, Db.HasAccessKey]
        · cases k with
          | access noticeId =>
              simp only [AccessWrite.add, dif_neg h, AccessWrite.key, Option.some.injEq,
                AccessKey.access.injEq, Db.HasAccessKey]
              exact ⟨Or.inr, fun hk => hk.elim (fun heq => heq ▸ h) id⟩
          | addendum noticeId => simp [AccessWrite.add, AccessWrite.key, h, Db.HasAccessKey]
    | addendum row =>
        by_cases h : db.certificateAddenda.get? row.noticeId = none
        · cases k with
          | access noticeId => simp [AccessWrite.add, AccessWrite.key, h, Db.HasAccessKey]
          | addendum noticeId =>
              simpa [AccessWrite.add, AccessWrite.key, h, Db.HasAccessKey] using
                db.certificateAddenda.get?_insert_ne_none row h noticeId
        · cases k with
          | access noticeId => simp [AccessWrite.add, AccessWrite.key, h, Db.HasAccessKey]
          | addendum noticeId =>
              simp only [AccessWrite.add, dif_neg h, AccessWrite.key, Option.some.injEq,
                AccessKey.addendum.injEq, Db.HasAccessKey]
              exact ⟨Or.inr, fun hk => hk.elim (fun heq => heq ▸ h) id⟩
    | audit row => cases k <;> simp [AccessWrite.add, AccessWrite.key, Db.audit, Db.HasAccessKey]

/-- Who sends an alert. -/
inductive AlertSender
  /-- `sendFirstAccessAlert`, which the transaction starts. -/
  | transaction
  /-- `sendFirstAccessEmail`, after it. -/
  | page
  deriving DecidableEq

/-- An alert that was accepted. -/
structure SentAlert where
  noticeId : String
  sender : AlertSender
  toEmail : String
  deriving DecidableEq

/-- A result that a caller of `recordFirstAccess` got. -/
structure Reply where
  noticeId : String
  result : FirstAccessResult
  deriving DecidableEq

/-- The database, the alerts that were started and have not run yet, the alerts that were
sent, and the results that were returned. -/
structure NoticeWorld where
  db : Transactions Db AccessWrite
  started : List String := []
  sent : List SentAlert := []
  replies : List Reply := []

/-- The `ownerEmail` of the organization of a request. -/
def Db.ownerEmailOf (db : Db) (r : ServiceRequest) : Option String :=
  (r.orgId.bind db.organizations.get?).bind Organization.ownerEmail

/-- The selection of `recordFirstAccess`. -/
def Db.accessView (db : Db) (noticeId : String) : Option AccessView :=
  (db.request? noticeId).map fun r =>
    ⟨r.caseCaption, db.ownerEmailOf r,
      (db.noticeAccesses.get? noticeId).map NoticeAccess.accessedAt⟩

/-- The statement `t` adds `δ`, or is refused. -/
def NoticeWorld.Creates {β : Type} (w : NoticeWorld) (t : ℕ) (noticeId : String) (δ : AccessWrite)
    (answer : β) (w' : NoticeWorld) (r : Except Failure β) : Prop :=
  ∃ rows, w.db.opened t = some rows ∧ w.db.Unlocked accessInserts t δ ∧
    ((¬ w.db.Taken accessInserts rows δ ∧ w.db.committed.request? noticeId ≠ none ∧
        w' = { w with db := w.db.write t (rows ++ [δ]) } ∧ r = .ok answer) ∨
      (w.db.Taken accessInserts rows δ ∧ w' = w ∧ r = .error .uniqueConstraint))

/-- What each call does to the world and answers. -/
def NoticeCall.Exec (w : NoticeWorld) :
    (c : NoticeCall) → NoticeWorld → Except Failure c.Resp → Prop
  | rateLimit _, w', r => w' = w ∧ ∃ ok, r = .ok ok
  | noticeFindUnique noticeToken, w', r => w' = w ∧
      r = .ok ((w.db.committed.requestOfToken noticeToken).map ServiceRequest.noticeView)
  | beginTransaction, w', r => w' = { w with db := w.db.start } ∧ r = .ok w.db.next
  | commit t, w', r =>
      (∃ rows, w.db.opened t = some rows ∧
        w' = { w with db := w.db.commit accessInserts t rows } ∧ r = .ok ()) ∨
      (w' = { w with db := w.db.close t } ∧ ∃ message, r = .error (.error message))
  | rollback t, w', r => w' = { w with db := w.db.close t } ∧ r = .ok ()
  | serviceRequestFindUnique t noticeId, w', r =>
      ∃ rows, w.db.opened t = some rows ∧ w' = w ∧
        r = .ok ((w.db.view accessInserts rows).accessView noticeId)
  | noticeAccessCreate t noticeId ip userAgent, w', r => ∃ id accessedAt,
      w.Creates t noticeId (.access ⟨id, noticeId, ip, userAgent, accessedAt⟩) accessedAt w' r
  | certificateAddendumCreate t data, w', r => ∃ id,
      w.Creates t data.noticeId (.addendum ⟨id, data.noticeId, data.viewedAt, data.viewerIp⟩) () w' r
  | auditLogCreate t data, w', r => ∃ rows, w.db.opened t = some rows ∧
      w' = { w with db := w.db.write t (rows ++ [.audit data]) } ∧ r = .ok ()
  | startAlert noticeId, w', r => w' = { w with started := w.started ++ [noticeId] } ∧ r = .ok ()
  | nextAlert, w', r => ∃ noticeId started, w.started.Perm (noticeId :: started) ∧
      w' = { w with started := started } ∧ r = .ok noticeId
  | alertFindUnique noticeId, w', r => w' = w ∧
      r = .ok ((w.db.committed.request? noticeId).map fun row =>
        (row.caseCaption, w.db.committed.ownerEmailOf row))
  | emailsSend noticeId email, w', r =>
      (w' = { w with sent := w.sent ++ [⟨noticeId, .transaction, email.toEmail⟩] } ∧ r = .ok true) ∨
        (w' = w ∧ r = .ok false)
  | fetchResend noticeId _ _ email, w', r =>
      (w' = { w with sent := w.sent ++ [⟨noticeId, .page, email.toEmail⟩] } ∧ r = .ok true) ∨
        (w' = w ∧ r = .ok false)
  | reply noticeId result, w', r =>
      w' = { w with replies := w.replies ++ [⟨noticeId, result⟩] } ∧ r = .ok ()

/-- The answers of the world; any call may also fail, and changes nothing then. -/
def noticeAnswers : Answers noticeSig Failure NoticeWorld := fun w c w' r =>
  c.Exec w w' r ∨ (w' = w ∧ ∃ message, r = .error (.error message))

/-- An email is accepted only of a sender whose emails Resend accepts. -/
def NoticeCall.AcceptedBy (accepts : AlertSender → Prop) :
    (c : NoticeCall) → Except Failure c.Resp → Prop
  | .emailsSend _ _, .ok true => accepts .transaction
  | .fetchResend _ _ _ _, .ok true => accepts .page
  | _, _ => True

/-- The answers of the world when Resend accepts the emails of these senders only. -/
def acceptingAnswers (accepts : AlertSender → Prop) : Answers noticeSig Failure NoticeWorld :=
  fun w c w' r => noticeAnswers w c w' r ∧ c.AcceptedBy accepts r

end EpsDapp
