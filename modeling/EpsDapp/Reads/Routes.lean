import EpsDapp.Effect.Wp
import EpsDapp.Schema.Models
import EpsDapp.Server.Session
import EpsDapp.Text.Encoding

/-!
# The authenticated reads

The two routes and the two pages that show a service request to somebody who is
signed in. A page is read as the data it displays. The rate limiter answers as it
likes, keeping its own counts. The certificate is a function of its data and the time.
-/

set_option autoImplicit false

namespace EpsDapp

open Calendar Effect

/-- `CertificateData`: what the certificate renders. -/
structure CertificateData where
  caseCaption : String
  plaintiffName : String
  defendantName : String
  recipientWallet : String
  documentSha256 : Option String
  txSignature : Option String
  slot : Option ℕ
  blockTime : Option Instant
  noticeToken : Option String
  firstViewedAt : Option Instant
  firstViewerIp : Option String
  hcsTopicId : Option String
  hcsSequenceNumber : Option ℤ
  hcsConsensusTime : Option String
  hcsMirrorUrl : Option String
  htsTokenId : Option String
  htsSerialNumber : Option ℤ
  htsMirrorUrl : Option String

/-- A request with what the reads include of it. -/
structure ServiceView where
  request : ServiceRequest
  access : Option NoticeAccess
  certificatePdf : Option CertificatePdf

/-- The calls of the reads. -/
inductive ReadCall
  | rateLimit (key : String)
  | certificatePdfFindUnique (noticeId : String)
  | certificatePdfCreate (noticeId pdfBase64 : String)
  | noticeFindUnique (id : String)
  | renderCertificatePdf (data : CertificateData)
  /-- `{ id, organization: { clerkOrgId } }` -/
  | serviceFindFirstOfOrg (id clerkOrgId : String)
  /-- `{ id, userId }` -/
  | serviceFindFirstOfUser (id userId : String)
  /-- `{ userId }`, newest first. -/
  | serviceFindManyOfUser (userId : String)

/-- The answer of each call; the rate limiter answers the seconds to wait when it
refuses. -/
@[reducible] def ReadCall.Resp : ReadCall → Type
  | rateLimit _ => Option ℕ
  | certificatePdfFindUnique _ => Option String
  | certificatePdfCreate _ _ => Unit
  | noticeFindUnique _ => Option (ServiceRequest × Option CertificateAddendum)
  | renderCertificatePdf _ => List UInt8
  | serviceFindFirstOfOrg _ _ => Option ServiceView
  | serviceFindFirstOfUser _ _ => Option ServiceView
  | serviceFindManyOfUser _ => List ServiceView

abbrev readSig : Signature := ⟨ReadCall, ReadCall.Resp⟩

abbrev ReadProgram := Program readSig Failure

namespace Db

/-- The request with its access record and its certificate. -/
def view (db : Db) (r : ServiceRequest) : ServiceView where
  request := r
  access := db.noticeAccesses.get? r.id
  certificatePdf := db.certificatePdfs.get? r.id

/-- The Clerk id of the organization of a request. -/
def clerkOrgOf (db : Db) (r : ServiceRequest) : Option String :=
  (r.orgId.bind db.organizations.get?).map Organization.clerkOrgId

/-- `rows` are the requests that match, newest first. -/
def NewestFirst (db : Db) (matching : ServiceRequest → Bool) (rows : List ServiceRequest) :
    Prop :=
  rows.Perm (db.serviceRequests.rows.filter matching) ∧
    rows.Pairwise fun r r' => r'.createdAt ≤ r.createdAt

end Db

/-- What each call does to the database, and what the database answers; what a certificate
shows is the renderer's. -/
def ReadCall.Exec (db : Db) : (c : ReadCall) → Db → Except Failure c.Resp → Prop
  | rateLimit _, db', r => db' = db ∧ ∃ refused, r = .ok refused
  | certificatePdfFindUnique noticeId, db', r =>
      db' = db ∧ r = .ok ((db.certificatePdfs.get? noticeId).map CertificatePdf.pdfBase64)
  | certificatePdfCreate noticeId pdfBase64, db', r =>
      (∃ (id : String) (now : Instant) (h : db.certificatePdfs.get? noticeId = none),
        db' = { db with
          certificatePdfs := db.certificatePdfs.insert ⟨id, noticeId, pdfBase64, now⟩ h } ∧
        r = .ok ()) ∨
      (db' = db ∧ (db.certificatePdfs.get? noticeId).isSome ∧ r = .error .uniqueConstraint)
  | noticeFindUnique id, db', r => db' = db ∧
      r = .ok ((db.request? id).map fun row => (row, db.certificateAddenda.get? id))
  | renderCertificatePdf _, db', _ => db' = db
  | serviceFindFirstOfOrg id clerkOrgId, db', r => db' = db ∧
      r = .ok (((db.request? id).filter fun row => db.clerkOrgOf row == some clerkOrgId).map
        db.view)
  | serviceFindFirstOfUser id userId, db', r => db' = db ∧
      r = .ok (((db.request? id).filter fun row => row.userId == some userId).map db.view)
  | serviceFindManyOfUser userId, db', r => db' = db ∧
      ∃ rows, db.NewestFirst (fun row => row.userId == some userId) rows ∧
        r = .ok (rows.map db.view)

/-- The answers of the database and the services to a read. -/
def readAnswers : Answers readSig Failure Db := ReadCall.Exec

/-- The renderer prints the data and the time, or throws. -/
abbrev CertificateRenderer := CertificateData → Instant → Except Failure (List UInt8)

/-- The certificate is the data as it is rendered at some time. -/
def ReadCall.RenderedBy (render : CertificateRenderer) :
    (c : ReadCall) → Except Failure c.Resp → Prop
  | renderCertificatePdf data, r => ∃ now, r = render data now
  | _, _ => True

/-- The answers to a read, with this renderer. -/
def renderedAnswers (render : CertificateRenderer) : Answers readSig Failure Db :=
  fun db c db' r => readAnswers db c db' r ∧ c.RenderedBy render r

namespace ReadProgram

def rateLimit (key : String) : ReadProgram (Option ℕ) :=
  Program.perform (S := readSig) (.rateLimit key)

def certificatePdfFindUnique (noticeId : String) : ReadProgram (Option String) :=
  Program.perform (S := readSig) (.certificatePdfFindUnique noticeId)

def certificatePdfCreate (noticeId pdfBase64 : String) : ReadProgram Unit :=
  Program.perform (S := readSig) (.certificatePdfCreate noticeId pdfBase64)

def noticeFindUnique (id : String) :
    ReadProgram (Option (ServiceRequest × Option CertificateAddendum)) :=
  Program.perform (S := readSig) (.noticeFindUnique id)

def renderCertificatePdf (data : CertificateData) : ReadProgram (List UInt8) :=
  Program.perform (S := readSig) (.renderCertificatePdf data)

def serviceFindFirstOfOrg (id clerkOrgId : String) : ReadProgram (Option ServiceView) :=
  Program.perform (S := readSig) (.serviceFindFirstOfOrg id clerkOrgId)

def serviceFindFirstOfUser (id userId : String) : ReadProgram (Option ServiceView) :=
  Program.perform (S := readSig) (.serviceFindFirstOfUser id userId)

def serviceFindManyOfUser (userId : String) : ReadProgram (List ServiceView) :=
  Program.perform (S := readSig) (.serviceFindManyOfUser userId)

end ReadProgram

open ReadProgram

/-! ## The certificate -/

/-- What a notice and its addendum put on the certificate. -/
def certificateData (notice : ServiceRequest) (addendum : Option CertificateAddendum) :
    CertificateData where
  caseCaption := notice.caseCaption
  plaintiffName := notice.plaintiffName
  defendantName := notice.defendantName
  recipientWallet := notice.recipientWallet
  documentSha256 := notice.documentSha256
  txSignature := notice.txSignature
  slot := notice.slot
  blockTime := notice.blockTime
  noticeToken := notice.noticeToken
  firstViewedAt := addendum.map CertificateAddendum.viewedAt
  firstViewerIp := addendum.map CertificateAddendum.viewerIp
  hcsTopicId := notice.hedera.hcsTopicId
  hcsSequenceNumber := notice.hedera.hcsSequenceNumber
  hcsConsensusTime := notice.hedera.hcsConsensusTime
  hcsMirrorUrl := notice.hedera.hcsMirrorUrl
  htsTokenId := notice.hedera.htsTokenId
  htsSerialNumber := notice.hedera.htsSerialNumber
  htsMirrorUrl := notice.hedera.htsMirrorUrl

/-- `generateCertificatePdf`. -/
def generateCertificatePdf (noticeId : String) : ReadProgram (List UInt8) := do
  match ← noticeFindUnique noticeId with
  | none => throw (.error ("No notice found for id " ++ noticeId))
  | some (notice, addendum) => renderCertificatePdf (certificateData notice addendum)

/-- `getOrCreateCertificatePdf`. -/
def getOrCreateCertificatePdf (noticeId : String) : ReadProgram (List UInt8) := do
  match ← certificatePdfFindUnique noticeId with
  | some pdfBase64 => pure (base64Decode pdfBase64)
  | none => do
      let bytes ← generateCertificatePdf noticeId
      let pdfBase64 := String.ofList (base64Encode bytes)
      -- A duplicate write falls back to the row the winner stored.
      let row ← tryCatch (certificatePdfCreate noticeId pdfBase64 >>= fun _ => pure none)
        fun _ => certificatePdfFindUnique noticeId
      match row with
      | some pdfBase64 => pure (base64Decode pdfBase64)
      | none => pure bytes

/-- The responses of the routes: an error, one with `Retry-After`, or a body. -/
inductive RouteResponse (β : Type)
  | error (code : ℕ) (message : String)
  | tooMany (message : String) (retryAfter : ℕ)
  | ok (body : β)

/-- `GET /api/certificate/:noticeId`, whose body is the PDF. -/
def getCertificate (ip noticeId : String) (session : Session) :
    ReadProgram (RouteResponse (List UInt8)) := do
  match ← rateLimit ip with
  | some retryAfter => pure (.tooMany "Too many requests" retryAfter)
  | none =>
      match requireAuth session with
      | .error (.unauthorized message) => pure (.error 401 message)
      | .error e => throw e
      | .ok _ =>
          tryCatch (RouteResponse.ok <$> getOrCreateCertificatePdf noticeId)
            fun _ => pure (.error 404 "Notice not found")

/-! ## The request -/

/-- The body of `GET /api/service-requests/:id`: the row with its slot as a string,
its access record, and the id of its certificate. -/
structure ServiceJson where
  request : ServiceRequest
  slot : Option String
  access : Option NoticeAccess
  certificatePdfId : Option String

/-- `GET /api/service-requests/:id`. -/
def getServiceRequest (client id : String) (session : Session) :
    ReadProgram (RouteResponse ServiceJson) := do
  match ← rateLimit ("service-request:" ++ client) with
  | some retryAfter => pure (.tooMany "Rate limit exceeded. Try again shortly." retryAfter)
  | none =>
      match requireAuth session with
      | .error (.unauthorized message) => pure (.error 401 message)
      | .error e => throw e
      | .ok auth => do
          match ← serviceFindFirstOfOrg id auth.orgId with
          | none => pure (.error 404 "Service request not found")
          | some service => pure (.ok {
              request := service.request
              slot := service.request.slot.map toString
              access := service.access
              certificatePdfId := service.certificatePdf.map CertificatePdf.id })

/-! ## The pages -/

/-- What a page comes to: a redirect, a 404, or what it displays. -/
inductive PageResponse (β : Type)
  | redirect (location : String)
  | notFound
  | page (body : β)

/-- A line of the dashboard. -/
structure DashboardRow where
  id : String
  caseCaption : String
  noticeToken : Option String
  status : String
  recipientEnsName : Option String
  certificate : Bool
  deriving DecidableEq

/-- The line of a request: a certificate implies that the notice was accessed. -/
def dashboardRow (service : ServiceView) : DashboardRow where
  id := service.request.id
  caseCaption := service.request.caseCaption
  noticeToken := service.request.noticeToken
  status := if service.certificatePdf.isSome then "Certified"
    else if service.access.isSome then "Accessed" else "Pending"
  recipientEnsName := service.request.recipientEnsName
  certificate := service.certificatePdf.isSome

/-- The query parameters of the dashboard. -/
structure DashboardParams where
  staged : Option String := none
  subscribed : Option String := none
  paid : Option String := none

/-- The success banner. -/
def DashboardParams.banner (params : DashboardParams) : Option String :=
  if params.staged = some "1" then some "Service request staged successfully."
  else if params.subscribed = some "demo" then
    some "Demo subscription activated — no payment was taken."
  else if params.paid = some "demo" then
    some "Demo crypto payment confirmed — no payment was taken."
  else none

/-- `DashboardPage`. -/
def dashboardPage (params : DashboardParams) (session : Session) :
    ReadProgram (PageResponse (Option String × List DashboardRow)) :=
  match truthy session.userId with
  | none => pure (.redirect "/sign-in")
  | some userId => do
      let services ← serviceFindManyOfUser userId
      pure (.page (params.banner, services.map dashboardRow))

/-- What the detail page shows of a request beside its columns. -/
structure ServiceDetail where
  request : ServiceRequest
  hederaLink : Option String
  solanaLink : Option String

/-- The stored mirror URL, or a link from the topic and the sequence number. -/
def hederaLink (r : ServiceRequest) : Option String :=
  match r.hedera.hcsMirrorUrl with
  | some url => some url
  | none => (truthy r.hedera.hcsTopicId).map fun topicId =>
      "https://hashscan.io/testnet/topic/" ++ topicId ++
        match r.hedera.hcsSequenceNumber with
        | some n => "/message/" ++ toString n
        | none => ""

/-- The explorer link of the signature. -/
def solanaLink (r : ServiceRequest) : Option String :=
  (truthy r.txSignature).map fun signature =>
    "https://explorer.solana.com/tx/" ++ signature ++ "?cluster=devnet"

/-- `ServiceDetailPage`. -/
def serviceDetailPage (id : String) (session : Session) :
    ReadProgram (PageResponse ServiceDetail) :=
  match truthy session.userId with
  | none => pure (.redirect "/sign-in")
  | some userId => do
      match ← serviceFindFirstOfUser id userId with
      | none => pure .notFound
      | some service => pure (.page {
          request := service.request
          hederaLink := hederaLink service.request
          solanaLink := solanaLink service.request })

end EpsDapp
