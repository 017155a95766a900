import EpsDapp.Chain.Memo
import EpsDapp.Quota.Meter

/-!
# The calls of the server

What the functions of the server await: a statement of the Prisma client, a draw
from `node:crypto`, a write to the object store, a request to ENS or Hedera, or
the rate limiter.
The functions themselves are programs over these calls (`Intake/Stage.lean`,
`Delivery/Failure.lean`, `Billing/Grants.lean`). The database answers each
statement as one step; the other services answer as they like.
-/

set_option autoImplicit false

namespace EpsDapp

open Calendar Effect

/-- The `data` of `serviceRequest.create`. Both callers write the status
`STAGED`, and a column left out is null. -/
structure ServiceRequestCreate where
  userId : Option String := none
  /-- The `clerkOrgId` of `organization: { connect: { clerkOrgId } }`. -/
  organization : Option String := none
  caseCaption : String
  plaintiffName : String
  defendantName : String
  recipientWallet : String
  recipientEnsName : Option String := none
  courtOrderFlag : Bool
  attestedAt : Instant
  noticeToken : Option String := none
  documentSha256 : Option String := none
  ensDisplayName : Option String := none
  agentENSName : Option String := none

/-- The row that is created. -/
def ServiceRequestCreate.row (d : ServiceRequestCreate) (id : String)
    (orgId : Option String) (createdAt : Instant) : ServiceRequest where
  id := id
  userId := d.userId
  orgId := orgId
  caseCaption := d.caseCaption
  plaintiffName := d.plaintiffName
  defendantName := d.defendantName
  recipientWallet := d.recipientWallet
  recipientEnsName := d.recipientEnsName
  courtOrderFlag := d.courtOrderFlag
  attestedAt := d.attestedAt
  noticeToken := d.noticeToken
  documentSha256 := d.documentSha256
  status := .staged
  txSignature := none
  slot := none
  blockTime := none
  failureReason := none
  createdAt := createdAt
  ensDisplayName := d.ensDisplayName
  agentENSName := d.agentENSName
  hedera := {}

/-- A filing to the system program, for runs on fixed inputs. -/
def exampleFiling : ServiceRequestCreate where
  organization := some "clerk-1"
  caseCaption := "A v. B"
  plaintiffName := "A"
  defendantName := "B"
  recipientWallet := systemProgramAddress
  courtOrderFlag := false
  attestedAt := 0

/-- The `data` of `subscription.create`. Both callers write the status `ACTIVE`
and leave `usageCount` to its default. -/
structure SubscriptionCreate where
  orgId : String
  tierId : String
  periodStart : Instant
  periodEnd : Instant

/-- The row that is created. -/
def SubscriptionCreate.row (d : SubscriptionCreate) (id : String) : Subscription where
  id := id
  orgId := d.orgId
  tierId := d.tierId
  status := .active
  periodStart := d.periodStart
  periodEnd := d.periodEnd
  usageCount := 0

/-- `ENSResolution`, with the fields the intake route reads. -/
structure ENSResolution where
  address : Option String
  displayName : String
  wasENSName : Bool

/-- `HCSResult`. -/
structure HCSResult where
  topicId : String
  sequenceNumber : ℤ
  consensusTimestamp : Option String
  transactionId : String
  mirrorNodeUrl : String

/-- `HTSMintResult`. -/
structure HTSMintResult where
  tokenId : String
  serialNumber : ℤ
  transactionId : String
  mirrorNodeUrl : String

/-- `HederaServiceResult`. -/
structure HederaServiceResult where
  hcs : Option HCSResult
  hts : Option HTSMintResult

/-- The payload of `recordOnHedera`. -/
structure HederaPayload where
  deliveryId : String
  documentHash : String
  caseRef : String
  servedTo : String
  servedBy : String
  deriving DecidableEq

/-- The calls of the server. -/
inductive ServerCall
  | rateLimit (key : String)
  | quota (c : QuotaCall)
  | randomBytes (n : ℕ)
  | randomUUID
  | putObject (key : String) (body : List UInt8)
  | organizationUpsert (clerkOrgId : String)
  | subscriptionCreate (data : SubscriptionCreate)
  /-- `upsert` by id, whose update part is `{ status: "ACTIVE" }`. -/
  | subscriptionUpsert (id : String) (create : SubscriptionCreate)
  | serviceRequestCreate (data : ServiceRequestCreate)
  | serviceRequestUpdate (id : String) (data : ServiceRequestUpdate)
  | auditLogCreate (data : AuditLog)
  | webhookEventCreate (eventId : String)
  | resolveENS (input : String)
  | getAgentENSName
  | recordOnHedera (payload : HederaPayload)

/-- The answer of each call; the rate limiter answers the seconds to wait when it
refuses, and a creation of a service request its id. -/
@[reducible] def ServerCall.Resp : ServerCall → Type
  | rateLimit _ => Option ℕ
  | quota c => c.Resp
  | randomBytes _ => List UInt8
  | randomUUID => String
  | putObject _ _ => Unit
  | organizationUpsert _ => Organization
  | subscriptionCreate _ => Subscription
  | subscriptionUpsert _ _ => Unit
  | serviceRequestCreate _ => String
  | serviceRequestUpdate _ _ => Unit
  | auditLogCreate _ => Unit
  | webhookEventCreate _ => Unit
  | resolveENS _ => ENSResolution
  | getAgentENSName => Option String
  | recordOnHedera _ => HederaServiceResult

abbrev serverSig : Signature := ⟨ServerCall, ServerCall.Resp⟩

abbrev ServerProgram := Program serverSig Failure

namespace Db

/-- `orgId` is the column that `connect` by a Clerk org id fills in. -/
def Connects (db : Db) : Option String → Option String → Prop
  | none, orgId => orgId = none
  | some clerkOrgId, orgId => ∃ org ∈ db.organizations,
      org.clerkOrgId = clerkOrgId ∧ orgId = some org.id

/-- No row has the notice token of `data`, when it has one. -/
def TokenFree (db : Db) (token : Option String) : Prop :=
  token = none ∨ ∀ r ∈ db.serviceRequests, r.noticeToken ≠ token

end Db

/-- What each call does to the database and answers. -/
def ServerCall.Exec (db : Db) : (c : ServerCall) → Db → Except Failure c.Resp → Prop
  | rateLimit _, db', r => db' = db ∧ ∃ refused, r = .ok refused
  | quota c, db', r => c.Exec db db' r
  | randomBytes n, db', r => db' = db ∧ ∃ bytes : List UInt8, bytes.length = n ∧ r = .ok bytes
  | randomUUID, db', r => db' = db ∧ ∃ uuid : String, r = .ok uuid
  | putObject _ _, db', _ => db' = db
  | organizationUpsert clerkOrgId, db', r =>
      (∃ org ∈ db.organizations, org.clerkOrgId = clerkOrgId ∧ db' = db ∧ r = .ok org) ∨
        ((∀ org ∈ db.organizations, org.clerkOrgId ≠ clerkOrgId) ∧
          ∃ id createdAt, ∃ h : db.organizations.get? id = none,
            db' = { db with
              organizations := db.organizations.insert
                ⟨id, clerkOrgId, clerkOrgId, none, createdAt⟩ h } ∧
            r = .ok ⟨id, clerkOrgId, clerkOrgId, none, createdAt⟩)
  | subscriptionCreate data, db', r => ∃ id, ∃ h : db.subscription? id = none,
      db' = db.insertSubscription (data.row id) h ∧ r = .ok (data.row id)
  | subscriptionUpsert id create, db', r => r = .ok () ∧
      ((∃ s, db.subscription? id = some s ∧
          db' = db.updateSubscription id { status := some .active }) ∨
        ∃ h : db.subscription? id = none, db' = db.insertSubscription (create.row id) h)
  | serviceRequestCreate data, db', r =>
      (db.TokenFree data.noticeToken ∧ ∃ id orgId createdAt, ∃ h : db.request? id = none,
          db.Connects data.organization orgId ∧
            db' = db.insertRequest (data.row id orgId createdAt) h ∧ r = .ok id) ∨
        (db' = db ∧ (∀ orgId, ¬ db.Connects data.organization orgId) ∧
          r = .error .recordNotFound) ∨
        (db' = db ∧ ¬ db.TokenFree data.noticeToken ∧ r = .error .uniqueConstraint)
  | serviceRequestUpdate id data, db', r =>
      match db.request? id with
      | some _ => db' = db.updateRequest id data ∧ r = .ok ()
      | none => db' = db ∧ r = .error .recordNotFound
  | auditLogCreate data, db', r => db' = db.audit data ∧ r = .ok ()
  | webhookEventCreate eventId, db', r =>
      (∃ processedAt, ∃ h : db.webhookEvents.get? eventId = none,
          db' = { db with
            webhookEvents := db.webhookEvents.insert ⟨eventId, processedAt⟩ h } ∧
          r = .ok ()) ∨
        (db.webhookEvents.get? eventId ≠ none ∧ db' = db ∧ r = .error .uniqueConstraint)
  | resolveENS _, db', r => db' = db ∧ ∃ resolution, r = .ok resolution
  | getAgentENSName, db', r => db' = db ∧ ∃ name, r = .ok name
  | recordOnHedera _, db', _ => db' = db

/-- The answers of the database, and of the services, to the server. -/
def serverAnswers : Answers serverSig Failure Db := ServerCall.Exec

namespace ServerProgram

/-- A function of `lib/quota.ts`, called with the client at hand. -/
def quota {α : Type} (p : QuotaProgram α) : ServerProgram α :=
  p.lift (T := serverSig) ServerCall.quota fun _ r => r

def rateLimit (key : String) : ServerProgram (Option ℕ) :=
  Program.perform (S := serverSig) (.rateLimit key)

def now : ServerProgram Instant := quota QuotaProgram.now

def subscriptionFindFirst (q : SubscriptionWhere) : ServerProgram (Option Subscription) :=
  quota (QuotaProgram.subscriptionFindFirst q)

def subscriptionUpdate (id : String) (data : SubscriptionUpdate) :
    ServerProgram Subscription :=
  quota (QuotaProgram.subscriptionUpdate id data)

def randomBytes (n : ℕ) : ServerProgram (List UInt8) :=
  Program.perform (S := serverSig) (.randomBytes n)

def randomUUID : ServerProgram String :=
  Program.perform (S := serverSig) .randomUUID

def putObject (key : String) (body : List UInt8) : ServerProgram Unit :=
  Program.perform (S := serverSig) (.putObject key body)

def organizationUpsert (clerkOrgId : String) : ServerProgram Organization :=
  Program.perform (S := serverSig) (.organizationUpsert clerkOrgId)

def subscriptionCreate (data : SubscriptionCreate) : ServerProgram Subscription :=
  Program.perform (S := serverSig) (.subscriptionCreate data)

def subscriptionUpsert (id : String) (create : SubscriptionCreate) : ServerProgram Unit :=
  Program.perform (S := serverSig) (.subscriptionUpsert id create)

def serviceRequestCreate (data : ServiceRequestCreate) : ServerProgram String :=
  Program.perform (S := serverSig) (.serviceRequestCreate data)

def serviceRequestUpdate (id : String) (data : ServiceRequestUpdate) : ServerProgram Unit :=
  Program.perform (S := serverSig) (.serviceRequestUpdate id data)

def auditLogCreate (data : AuditLog) : ServerProgram Unit :=
  Program.perform (S := serverSig) (.auditLogCreate data)

def webhookEventCreate (eventId : String) : ServerProgram Unit :=
  Program.perform (S := serverSig) (.webhookEventCreate eventId)

def resolveENS (input : String) : ServerProgram ENSResolution :=
  Program.perform (S := serverSig) (.resolveENS input)

def getAgentENSName : ServerProgram (Option String) :=
  Program.perform (S := serverSig) .getAgentENSName

def recordOnHedera (payload : HederaPayload) : ServerProgram HederaServiceResult :=
  Program.perform (S := serverSig) (.recordOnHedera payload)

end ServerProgram

/-- A function of `lib/quota.ts` runs inside the server as it does alone. -/
theorem runs_quota {α W : Type} (E : Answers serverSig Failure W) (p : QuotaProgram α)
    (w w' : W) (r : Except Failure α) :
    (ServerProgram.quota p).Runs E w w' r ↔
      p.Runs (S := quotaSig) (fun w c w' r => E w (.quota c) w' r) w w' r := by
  rw [ServerProgram.quota, Program.runs_lift]
  simp only [exists_eq_right]

end EpsDapp
