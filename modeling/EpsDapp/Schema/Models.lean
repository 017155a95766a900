import EpsDapp.Calendar.Month
import EpsDapp.Store.Table

/-!
# The data model

The models of `prisma/schema.prisma`, each with its columns, and the database
that holds them. A nullable column is an `Option`. A table is keyed by its
primary key or, for the rows that hang off one notice or one event, by the
unique column the code looks them up by. The Hedera columns of a service
request are grouped, since they are only ever written together.
-/

set_option autoImplicit false

namespace EpsDapp

open Calendar

/-- `SubscriptionStatus`. -/
inductive SubscriptionStatus
  | active
  | canceled
  | pastDue
  deriving DecidableEq, Repr

/-- `ServiceStatus`: the lifecycle of a service request. -/
inductive ServiceStatus
  | staged
  | inProgress
  | confirmed
  | failed
  deriving DecidableEq, Repr

/-- No transition leaves a terminal status. -/
def ServiceStatus.Terminal : ServiceStatus → Prop
  | .confirmed | .failed => True
  | .staged | .inProgress => False

instance : DecidablePred ServiceStatus.Terminal := fun s => by
  cases s <;> unfold ServiceStatus.Terminal <;> infer_instance

/-- A Clerk organization, the billable tenant. -/
structure Organization where
  id : String
  clerkOrgId : String
  name : String
  ownerEmail : Option String
  createdAt : Instant
  deriving DecidableEq

/-- A subscription period; `usageCount` is the quota meter of the period. -/
structure Subscription where
  id : String
  orgId : String
  tierId : String
  status : SubscriptionStatus
  periodStart : Instant
  periodEnd : Instant
  usageCount : ℤ
  deriving DecidableEq

/-- A row of the webhook idempotency ledger. -/
structure WebhookEvent where
  eventId : String
  processedAt : Instant
  deriving DecidableEq

/-- The Hedera columns of a service request. -/
structure HederaColumns where
  hcsTopicId : Option String := none
  hcsSequenceNumber : Option ℤ := none
  hcsConsensusTime : Option String := none
  hcsTxId : Option String := none
  hcsMirrorUrl : Option String := none
  htsTokenId : Option String := none
  htsSerialNumber : Option ℤ := none
  htsTxId : Option String := none
  htsMirrorUrl : Option String := none
  htsNftSerial : Option ℤ := none
  htsTransferTx : Option String := none
  deriving DecidableEq

/-- A single service-of-process request, which is also the notice. -/
structure ServiceRequest where
  id : String
  userId : Option String
  orgId : Option String
  caseCaption : String
  plaintiffName : String
  defendantName : String
  recipientWallet : String
  recipientEnsName : Option String
  courtOrderFlag : Bool
  attestedAt : Instant
  noticeToken : Option String
  documentSha256 : Option String
  status : ServiceStatus
  txSignature : Option String
  slot : Option ℕ
  blockTime : Option Instant
  failureReason : Option String
  createdAt : Instant
  ensDisplayName : Option String
  agentENSName : Option String
  hedera : HederaColumns
  deriving DecidableEq

/-- The first recorded view of a notice. -/
structure NoticeAccess where
  id : String
  noticeId : String
  ip : String
  userAgent : String
  accessedAt : Instant
  deriving DecidableEq

/-- The "First Viewed" addendum of a notice's certificate. -/
structure CertificateAddendum where
  id : String
  noticeId : String
  viewedAt : Instant
  viewerIp : String
  deriving DecidableEq

/-- The stored certificate of a notice, base64-encoded. -/
structure CertificatePdf where
  id : String
  noticeId : String
  pdfBase64 : String
  generatedAt : Instant
  deriving DecidableEq

/-- The action-specific detail of an audit row. -/
inductive AuditMetadata
  | staged (orgId objectKey sha256 : String)
  | failed (orgId : Option String) (reason : String) (quotaRestored : Bool)
      (txSignature : Option String)
  | compGrant (grant tier : String) (months : ℤ) (subscriptionId actorOrgId : String)
  | firstAccess (viewerIp : String)
  deriving DecidableEq

/-- A row of the append-only audit trail. -/
structure AuditLog where
  action : String
  actorId : String
  targetId : String
  metadata : AuditMetadata
  deriving DecidableEq

/-- The database. -/
structure Db where
  organizations : Table Organization.id := Table.empty
  subscriptions : Table Subscription.id := Table.empty
  serviceRequests : Table ServiceRequest.id := Table.empty
  webhookEvents : Table WebhookEvent.eventId := Table.empty
  noticeAccesses : Table NoticeAccess.noticeId := Table.empty
  certificateAddenda : Table CertificateAddendum.noticeId := Table.empty
  certificatePdfs : Table CertificatePdf.noticeId := Table.empty
  auditLogs : List AuditLog := []

/-- The `data` of a write to a subscription row: a column left out keeps its
value, and `usageCount` is the new meter as a function of the old one. -/
structure SubscriptionUpdate where
  tierId : Option String := none
  status : Option SubscriptionStatus := none
  periodStart : Option Instant := none
  periodEnd : Option Instant := none
  usageCount : ℤ → ℤ := id

/-- The row after a write. -/
def SubscriptionUpdate.apply (u : SubscriptionUpdate) (s : Subscription) : Subscription :=
  { s with
    tierId := u.tierId.getD s.tierId
    status := u.status.getD s.status
    periodStart := u.periodStart.getD s.periodStart
    periodEnd := u.periodEnd.getD s.periodEnd
    usageCount := u.usageCount s.usageCount }

/-- The Hedera part of an update: a column left out keeps its value. -/
structure HederaUpdate where
  hcsTopicId : Option String := none
  hcsSequenceNumber : Option ℤ := none
  hcsConsensusTime : Option (Option String) := none
  hcsTxId : Option String := none
  hcsMirrorUrl : Option String := none
  htsTokenId : Option String := none
  htsSerialNumber : Option (Option ℤ) := none
  htsTxId : Option (Option String) := none
  htsMirrorUrl : Option (Option String) := none
  htsNftSerial : Option (Option ℤ) := none
  htsTransferTx : Option (Option String) := none

/-- The Hedera columns after an update. -/
def HederaUpdate.apply (u : HederaUpdate) (c : HederaColumns) : HederaColumns where
  hcsTopicId := u.hcsTopicId.or c.hcsTopicId
  hcsSequenceNumber := u.hcsSequenceNumber.or c.hcsSequenceNumber
  hcsConsensusTime := u.hcsConsensusTime.getD c.hcsConsensusTime
  hcsTxId := u.hcsTxId.or c.hcsTxId
  hcsMirrorUrl := u.hcsMirrorUrl.or c.hcsMirrorUrl
  htsTokenId := u.htsTokenId.or c.htsTokenId
  htsSerialNumber := u.htsSerialNumber.getD c.htsSerialNumber
  htsTxId := u.htsTxId.getD c.htsTxId
  htsMirrorUrl := u.htsMirrorUrl.getD c.htsMirrorUrl
  htsNftSerial := u.htsNftSerial.getD c.htsNftSerial
  htsTransferTx := u.htsTransferTx.getD c.htsTransferTx

/-- The `data` of a `serviceRequest.update`: a column left out keeps its value.
No update of the repository writes a column that intake filled in, other than
`status` and the delivery and Hedera columns. -/
structure ServiceRequestUpdate where
  status : Option ServiceStatus := none
  txSignature : Option String := none
  slot : Option ℕ := none
  blockTime : Option (Option Instant) := none
  failureReason : Option String := none
  hedera : HederaUpdate := {}

/-- The row after an update. -/
def ServiceRequestUpdate.apply (u : ServiceRequestUpdate) (r : ServiceRequest) :
    ServiceRequest :=
  { r with
    status := u.status.getD r.status
    txSignature := u.txSignature.or r.txSignature
    slot := u.slot.or r.slot
    blockTime := u.blockTime.getD r.blockTime
    failureReason := u.failureReason.or r.failureReason
    hedera := u.hedera.apply r.hedera }

section Apply

variable (u : ServiceRequestUpdate) (r : ServiceRequest)

@[simp] theorem apply_id : (u.apply r).id = r.id := rfl

@[simp] theorem apply_orgId : (u.apply r).orgId = r.orgId := rfl

@[simp] theorem apply_noticeToken : (u.apply r).noticeToken = r.noticeToken := rfl

@[simp] theorem apply_documentSha256 :
    (u.apply r).documentSha256 = r.documentSha256 := rfl

@[simp] theorem apply_status : (u.apply r).status = u.status.getD r.status := rfl

@[simp] theorem apply_txSignature :
    (u.apply r).txSignature = u.txSignature.or r.txSignature := rfl

end Apply

namespace Db

/-- The row of a service request. -/
def request? (db : Db) (id : String) : Option ServiceRequest :=
  db.serviceRequests.get? id

/-- `serviceRequest.update` on the row `id`. -/
def updateRequest (db : Db) (id : String) (u : ServiceRequestUpdate) : Db :=
  { db with
    serviceRequests := db.serviceRequests.modify id u.apply fun _ => rfl }

theorem request?_updateRequest (db : Db) (id j : String) (u : ServiceRequestUpdate) :
    (db.updateRequest id u).request? j =
      if j = id then (db.request? id).map u.apply else db.request? j :=
  db.serviceRequests.get?_modify id j u.apply fun _ => rfl

theorem request?_eq_some_iff (db : Db) (id : String) (r : ServiceRequest) :
    db.request? id = some r ↔ r ∈ db.serviceRequests ∧ r.id = id :=
  db.serviceRequests.get?_eq_some_iff id r

theorem request?_id (db : Db) {id : String} {r : ServiceRequest}
    (h : db.request? id = some r) : r.id = id :=
  ((db.request?_eq_some_iff id r).1 h).2

/-- The row of a subscription. -/
def subscription? (db : Db) (id : String) : Option Subscription :=
  db.subscriptions.get? id

/-- `subscription.update` on the row `id`. -/
def updateSubscription (db : Db) (id : String) (u : SubscriptionUpdate) : Db :=
  { db with subscriptions := db.subscriptions.modify id u.apply fun _ => rfl }

theorem subscription?_updateSubscription (db : Db) (id j : String)
    (u : SubscriptionUpdate) :
    (db.updateSubscription id u).subscription? j =
      if j = id then (db.subscription? id).map u.apply else db.subscription? j :=
  db.subscriptions.get?_modify id j u.apply fun _ => rfl

@[simp] theorem request?_updateSubscription (db : Db) (id j : String)
    (u : SubscriptionUpdate) : (db.updateSubscription id u).request? j = db.request? j :=
  rfl

/-- Add a service request under a free id. -/
def insertRequest (db : Db) (r : ServiceRequest) (h : db.request? r.id = none) : Db :=
  { db with serviceRequests := db.serviceRequests.insert r h }

theorem request?_insertRequest (db : Db) (r : ServiceRequest) (h : db.request? r.id = none)
    (j : String) :
    (db.insertRequest r h).request? j = if j = r.id then some r else db.request? j :=
  db.serviceRequests.get?_insert r h j

/-- Add a subscription under a free id. -/
def insertSubscription (db : Db) (s : Subscription) (h : db.subscription? s.id = none) : Db :=
  { db with subscriptions := db.subscriptions.insert s h }

theorem subscription?_insertSubscription (db : Db) (s : Subscription)
    (h : db.subscription? s.id = none) (j : String) :
    (db.insertSubscription s h).subscription? j =
      if j = s.id then some s else db.subscription? j :=
  db.subscriptions.get?_insert s h j

/-- Append an audit row. -/
def audit (db : Db) (a : AuditLog) : Db :=
  { db with auditLogs := db.auditLogs ++ [a] }

end Db

end EpsDapp
