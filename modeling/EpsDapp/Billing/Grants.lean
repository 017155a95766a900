import EpsDapp.Intake.Post

/-!
# Grants of subscriptions

Two routes create subscriptions: `POST /api/admin/comp-grant`, which grants a
complimentary one or takes over the one that an organization has, and
`POST /api/webhooks/stripe`, which records each event once and activates the
subscription of a completed checkout. The writes of either are one transaction.
-/

set_option autoImplicit false

namespace EpsDapp

open Calendar Effect ServerProgram

/-- A statement may also fail, and leaves the database as it was. -/
def billingAnswers : Answers serverSig Failure Db := fun db c db' r =>
  c.Exec db db' r ∨ (db' = db ∧ ∃ message, r = .error (.error message))

/-! ## Complimentary grants -/

/-- `COMP_GRANT_TIER`. -/
def compGrantTier : String := "tier3"

/-- `COMP_GRANT_MONTHS`. -/
def compGrantMonths : ℤ := 24

/-- `COMP_GRANT_LABEL`. -/
def compGrantLabel : String := "Founders Legacy"

/-- What a grant writes to a subscription that is there. -/
def compGrantUpdate (now : Instant) : SubscriptionUpdate where
  tierId := some compGrantTier
  status := some .active
  periodStart := some now
  periodEnd := some (addMonths now compGrantMonths)
  usageCount := fun _ => 0

/-- The subscription a grant creates when there is none. -/
def compGrantCreate (orgId : String) (now : Instant) : SubscriptionCreate where
  orgId := orgId
  tierId := compGrantTier
  periodStart := now
  periodEnd := addMonths now compGrantMonths

/-- The audit row of a grant. -/
def compGrantAudit (actor : AuthContext) (targetOrgId subscriptionId : String) : AuditLog where
  action := "COMP_GRANT"
  actorId := actor.userId
  targetId := targetOrgId
  metadata := .compGrant compGrantLabel compGrantTier compGrantMonths subscriptionId actor.orgId

/-- The subscription of the organization `orgId`, taken over or created. -/
def grantSubscription (orgId : String) (now : Instant) : ServerProgram Subscription := do
  match ← subscriptionFindFirst (.ofOrg orgId) with
  | some existing => subscriptionUpdate existing.id (compGrantUpdate now)
  | none => subscriptionCreate (compGrantCreate orgId now)

/-- The transaction of `POST /api/admin/comp-grant`. -/
def compGrant (actor : AuthContext) (targetOrgId : String) (now : Instant) :
    ServerProgram Subscription := do
  let org ← organizationUpsert targetOrgId
  let sub ← grantSubscription org.id now
  auditLogCreate (compGrantAudit actor targetOrgId sub.id)
  pure sub

/-- A response of the route. -/
inductive CompGrantResponse
  | error (code : ℕ) (message : String)
  | granted (grant id tierId : String) (status : SubscriptionStatus) (periodEnd : Instant)

/-- `(body as { targetOrgId?: unknown } | null)?.targetOrgId`, if it is a string that is
not empty. -/
def Json.targetOrgId : Json → Option String
  | .object fields =>
      match fields.lookup "targetOrgId" with
      | some (.string s) => truthy (some s)
      | _ => none
  | _ => none

/-- `POST /api/admin/comp-grant`; `body` is absent when it is no JSON. -/
def postCompGrant (session : Session) (body : Option Json) : ServerProgram CompGrantResponse :=
  match requireOrgAdmin session with
  | .error (.forbidden message) => pure (.error 403 message)
  | .error (.unauthorized message) => pure (.error 401 message)
  | .error e => throw e
  | .ok actor =>
      match body with
      | none => pure (.error 400 "Invalid JSON body")
      | some body =>
          match body.targetOrgId with
          | none => pure (.error 400 "Invalid targetOrgId. Expected a non-empty string.")
          | some targetOrgId => do
              let now ← now
              let sub ← compGrant actor targetOrgId now
              pure (.granted compGrantLabel sub.id sub.tierId sub.status sub.periodEnd)

/-! ## The webhook -/

/-- A reference to a Stripe object: its id, or the object itself. -/
inductive Expandable
  | id (id : String)
  | object (id : String)

/-- What is read of the metadata of a checkout session. -/
structure CheckoutMetadata where
  orgId : Option String
  tier : Option String

/-- What is read of a checkout session. -/
structure CheckoutSession where
  clientReferenceId : Option String
  metadata : Option CheckoutMetadata
  subscription : Option Expandable

/-- What is read of a Stripe event. -/
inductive StripeEventData
  | checkoutSessionCompleted (session : CheckoutSession)
  | other (type : String)

structure StripeEvent where
  id : String
  data : StripeEventData

/-- The organization, the tier and the subscription that a session is attributed
to. -/
structure Attribution where
  clerkOrgId : String
  tierId : String
  stripeSubscriptionId : String

/-- The attribution of a session, when it has all three. -/
def CheckoutSession.attribution (session : CheckoutSession) : Option Attribution := do
  let clerkOrgId ← truthy
    (session.clientReferenceId.or (session.metadata.bind CheckoutMetadata.orgId))
  let tierId ← truthy (session.metadata.bind CheckoutMetadata.tier)
  let stripeSubscriptionId ← truthy (session.subscription.map fun
    | .id id => id
    | .object id => id)
  pure ⟨clerkOrgId, tierId, stripeSubscriptionId⟩

/-- The subscription a checkout creates when it is not there. -/
def checkoutCreate (orgId tierId : String) (now : Instant) : SubscriptionCreate where
  orgId := orgId
  tierId := tierId
  periodStart := now
  periodEnd := addMonths now 1

/-- `applyCheckoutCompleted`. -/
def applyCheckoutCompleted (session : CheckoutSession) : ServerProgram Unit :=
  match session.attribution with
  | none => pure ()
  | some a => do
      let org ← organizationUpsert a.clerkOrgId
      let now ← now
      subscriptionUpsert a.stripeSubscriptionId (checkoutCreate org.id a.tierId now)

/-- The transaction of `POST /api/webhooks/stripe`. -/
def processEvent (event : StripeEvent) : ServerProgram Unit := do
  webhookEventCreate event.id
  match event.data with
  | .checkoutSessionCompleted session => applyCheckoutCompleted session
  | .other _ => pure ()

/-- A response of the route. -/
inductive WebhookResponse
  | error (code : ℕ) (message : String)
  | received (deduped : Bool)
  deriving DecidableEq

/-- What the route answers for the result of the transaction; a replay is no
error. -/
def webhookResponse : Except Failure Unit → Except Failure WebhookResponse
  | .ok _ => .ok (.received false)
  | .error .uniqueConstraint => .ok (.received true)
  | .error e => .error e

/-! ## One checkout -/

/-- A checkout of the smallest tier. -/
def exampleCheckout : StripeEvent :=
  ⟨"evt_1", .checkoutSessionCompleted ⟨some "clerk-1", some ⟨none, some "tier1"⟩, some (.id "sub_1")⟩⟩

/-- The database once it is recorded, -/
def checkoutRecorded : Db where
  webhookEvents := Table.empty.insert ⟨"evt_1", 0⟩ rfl

/-- once its organization is there, -/
def checkoutAttributed : Db :=
  { checkoutRecorded with
    organizations := Table.empty.insert ⟨"org-1", "clerk-1", "clerk-1", none, 0⟩ rfl }

/-- and once its subscription is. -/
def oneCheckout : Db where
  organizations := Table.empty.insert ⟨"org-1", "clerk-1", "clerk-1", none, 0⟩ rfl
  subscriptions := Table.empty.insert ((checkoutCreate "org-1" "tier1" 0).row "sub_1") rfl
  webhookEvents := Table.empty.insert ⟨"evt_1", 0⟩ rfl

theorem checkout_records :
    billingAnswers {} (.webhookEventCreate "evt_1") checkoutRecorded (.ok ()) :=
  Or.inl (Or.inl ⟨0, rfl, rfl, rfl⟩)

theorem checkout_attributes : billingAnswers checkoutRecorded (.organizationUpsert "clerk-1")
    checkoutAttributed (.ok ⟨"org-1", "clerk-1", "clerk-1", none, 0⟩) :=
  Or.inl (Or.inr ⟨fun _ h => (List.not_mem_nil h).elim, "org-1", 0, rfl, rfl, rfl⟩)

theorem checkout_now :
    billingAnswers checkoutAttributed (.quota .now) checkoutAttributed (.ok (0 : ℤ)) :=
  Or.inl ⟨rfl, 0, rfl⟩

theorem checkout_activates : billingAnswers checkoutAttributed
    (.subscriptionUpsert "sub_1" (checkoutCreate "org-1" "tier1" 0)) oneCheckout (.ok ()) :=
  Or.inl ⟨rfl, Or.inr ⟨rfl, rfl⟩⟩

end EpsDapp
