import EpsDapp.Billing.Bounds
import EpsDapp.Billing.Webhook

/-!
# Where subscriptions come from

`POST /api/checkout` asks Stripe for a checkout session that bears the organization
of the caller; Stripe completes some of its sessions, and reports what it has
completed to `POST /api/webhooks/stripe`, which creates the subscription. The only
other source of subscriptions is the complimentary grant. Whatever the two routes,
the grant and the quota meter do to one database, each subscription is of an
organization whose member has asked for its tier in a session that was completed, or
that an administrator has named.
-/

set_option autoImplicit false

namespace EpsDapp

open Effect

/-! ## Stripe -/

/-- `Tier`. -/
inductive Tier
  | tier1
  | tier2
  | tier3
  deriving DecidableEq

namespace Tier

/-- The string of a tier. -/
def name : Tier → String
  | tier1 => "tier1"
  | tier2 => "tier2"
  | tier3 => "tier3"

/-- `TIER_PRICE_ENV` -/
def priceEnv : Tier → String
  | tier1 => "STRIPE_TIER1_PRICE_ID"
  | tier2 => "STRIPE_TIER2_PRICE_ID"
  | tier3 => "STRIPE_TIER3_PRICE_ID"

theorem tierQuota_name (tier : Tier) : ∃ limit, tierQuota tier.name = some limit := by
  cases tier with
  | tier1 => exact ⟨1, rfl⟩
  | tier2 => exact ⟨9, rfl⟩
  | tier3 => exact ⟨999, rfl⟩

end Tier

/-- `isTier`: the tier that a value is. -/
def isTier : Option Json → Option Tier
  | some (.string "tier1") => some .tier1
  | some (.string "tier2") => some .tier2
  | some (.string "tier3") => some .tier3
  | _ => none

/-- `process.env` -/
abbrev ProcessEnv := String → Option String

/-- `priceIdForTier` -/
def priceIdForTier (env : ProcessEnv) (tier : Tier) : Except Failure String :=
  match truthy (env tier.priceEnv) with
  | some priceId => .ok priceId
  | none => .error (.error (tier.priceEnv ++ " is not set. Run `pnpm tsx " ++
      "scripts/stripe-bootstrap.ts` and paste the printed price IDs into .env."))

/-- The key moves money. -/
def LiveMode (key : String) : Prop :=
  "sk_live_".toList <+: key.toList ∨ "rk_live_".toList <+: key.toList

instance : DecidablePred LiveMode := fun key => by
  unfold LiveMode
  infer_instance

/-- A Stripe client, whose key is none of live mode. -/
structure StripeClient where
  key : String
  not_liveMode : ¬ LiveMode key

/-- A process: its environment, and the client it has constructed. -/
structure StripeProcess where
  env : ProcessEnv
  stripeClient : Option StripeClient := none

/-- `getStripe` -/
def getStripe (process : StripeProcess) : Except Failure StripeClient :=
  match process.stripeClient with
  | some client => .ok client
  | none =>
      let key := (process.env "STRIPE_SECRET_KEY").getD ""
      if key = "" then
        .error (.error "STRIPE_SECRET_KEY is not set. Use a test-mode key (sk_test_...).")
      else if h : LiveMode key then
        .error (.error ("Refusing to use a LIVE Stripe key. EPS is test-mode only " ++
          "(CLAUDE.md hard rule #7)."))
      else .ok ⟨key, h⟩

/-- The `metadata` of a checkout session. -/
structure SessionMetadata where
  orgId : String
  userId : String
  tier : String
  deriving DecidableEq

/-- The `metadata` of its subscription. -/
structure SubscriptionMetadata where
  orgId : String
  tier : String
  deriving DecidableEq

/-- What a checkout session is created with. -/
structure CheckoutParams where
  mode : String
  allowPromotionCodes : Bool
  /-- The price and the quantity of each item. -/
  lineItems : List (String × ℕ)
  clientReferenceId : String
  metadata : SessionMetadata
  subscriptionMetadata : SubscriptionMetadata
  successUrl : String
  cancelUrl : String
  deriving DecidableEq

/-- The calls of the server, and those of Stripe. -/
inductive BillingCall
  | server (c : ServerCall)
  /-- `stripe.checkout.sessions.create` -/
  | sessionsCreate (client : StripeClient) (params : CheckoutParams)
  /-- `stripe.webhooks.constructEvent` -/
  | constructEvent (client : StripeClient) (payload signature secret : String)

/-- A session is answered with its URL, and an event with itself, or with the message of
the error. -/
@[reducible] def BillingCall.Resp : BillingCall → Type
  | server c => c.Resp
  | sessionsCreate _ _ => Option String
  | constructEvent _ _ _ _ => Except String StripeEvent

abbrev billingSig : Signature := ⟨BillingCall, BillingCall.Resp⟩

abbrev BillingProgram := Program billingSig Failure

namespace BillingProgram

def server {α : Type} (p : ServerProgram α) : BillingProgram α :=
  p.lift (T := billingSig) BillingCall.server fun _ r => r

def sessionsCreate (client : StripeClient) (params : CheckoutParams) :
    BillingProgram (Option String) :=
  Program.perform (S := billingSig) (.sessionsCreate client params)

def constructEvent (client : StripeClient) (payload signature secret : String) :
    BillingProgram (Except String StripeEvent) :=
  Program.perform (S := billingSig) (.constructEvent client payload signature secret)

end BillingProgram

/-! ## The routes -/

/-- A request to `POST /api/checkout`; `body` is absent when it is no JSON. -/
structure CheckoutRequest where
  body : Option Json
  /-- The header `origin`. -/
  origin : Option String
  /-- `new URL(req.url).origin` -/
  urlOrigin : String

/-- `(body as { tier?: unknown } | null)?.tier` -/
def Json.tier : Json → Option Json
  | .object fields => fields.lookup "tier"
  | _ => none

/-- The session that the route asks for. -/
def checkoutParams (auth : AuthContext) (tier : Tier) (priceId origin : String) :
    CheckoutParams where
  mode := "subscription"
  allowPromotionCodes := true
  lineItems := [(priceId, 1)]
  clientReferenceId := auth.orgId
  metadata := ⟨auth.orgId, auth.userId, tier.name⟩
  subscriptionMetadata := ⟨auth.orgId, tier.name⟩
  successUrl := origin ++ "/dashboard?checkout=success&session_id=\x7bCHECKOUT_SESSION_ID\x7d"
  cancelUrl := origin ++ "/pricing?checkout=cancelled"

/-- A response of the route. -/
inductive CheckoutResponse
  | error (code : ℕ) (message : String)
  | url (url : Option String)

/-- `POST /api/checkout` -/
def postCheckout (process : StripeProcess) (session : Session) (req : CheckoutRequest) :
    BillingProgram CheckoutResponse :=
  match requireAuth session with
  | .error (.unauthorized message) => pure (.error 401 message)
  | .error e => throw e
  | .ok auth =>
      match req.body with
      | none => pure (.error 400 "Invalid JSON body")
      | some body =>
          match isTier body.tier with
          | none => pure (.error 400 "Invalid tier. Expected one of: tier1, tier2, tier3.")
          | some tier => do
              let origin := req.origin.getD req.urlOrigin
              let stripe ← Program.done (getStripe process)
              let priceId ← Program.done (priceIdForTier process.env tier)
              let url ← BillingProgram.sessionsCreate stripe
                (checkoutParams auth tier priceId origin)
              pure (.url url)

/-- `POST /api/webhooks/stripe` -/
def postStripeWebhook (process : StripeProcess) (signature : Option String) (payload : String) :
    BillingProgram WebhookResponse :=
  match truthy (process.env "STRIPE_WEBHOOK_SECRET") with
  | none => pure (.error 500 "STRIPE_WEBHOOK_SECRET is not set.")
  | some secret =>
      match truthy signature with
      | none => pure (.error 400 "Missing Stripe-Signature header")
      | some signature => do
          let stripe ← Program.done (getStripe process)
          match ← BillingProgram.constructEvent stripe payload signature secret with
          | .error message =>
              pure (.error 400 ("Signature verification failed: " ++ message))
          | .ok event =>
              tryCatch (do
                BillingProgram.server (processEvent event)
                pure (.received false)) fun
                  | .uniqueConstraint => pure (.received true)
                  | e => throw e

/-! ## What Stripe does -/

/-- The sessions that Stripe has created, and the events that it has signed. -/
structure StripeAccount where
  sessions : List CheckoutParams := []
  events : List StripeEvent := []

/-- The event of a session that is completed. -/
def CheckoutParams.completed (params : CheckoutParams) (eventId subscriptionId : String) :
    StripeEvent :=
  ⟨eventId, .checkoutSessionCompleted ⟨some params.clientReferenceId,
    some ⟨some params.metadata.orgId, some params.metadata.tier⟩, some (.id subscriptionId)⟩⟩

/-- The database, and the account. -/
abbrev Commerce := Db × StripeAccount

/-- The answers of the database and of Stripe. A session may have been created although
the call fails, and every event that is constructed has been signed. -/
def commerceAnswers : Answers billingSig Failure Commerce
  | w, .server c, w', r => billingAnswers w.1 c w'.1 r ∧ w'.2 = w.2
  | w, .sessionsCreate _ params, w', r =>
      w'.1 = w.1 ∧ ((w'.2 = w.2 ∧ ∃ message, r = .error (.error message)) ∨
        w'.2 = { w.2 with sessions := w.2.sessions ++ [params] })
  | w, .constructEvent _ _ _ _, w', r => w' = w ∧
      ((∃ event ∈ w.2.events, r = .ok (.ok event)) ∨ ∃ message, r = .ok (.error message))

/-- The organizations stay, with their Clerk ids. -/
def Db.OrganizationsStay (db db' : Db) : Prop :=
  ∀ id org, db.organizations.get? id = some org → ∃ org', db'.organizations.get? id = some org' ∧
    org'.clerkOrgId = org.clerkOrgId

/-- The moves that no program of ours makes: Stripe completes one of its sessions, or
reports something else, and the rest of the application goes on. -/
inductive Commerce.Moves : Commerce → Commerce → Prop
  | completes {db : Db} {stripe : StripeAccount} {params : CheckoutParams}
      (hparams : params ∈ stripe.sessions) (eventId subscriptionId : String) :
      Moves (db, stripe)
        (db, { stripe with events := stripe.events ++ [params.completed eventId subscriptionId] })
  | reports {db : Db} {stripe : StripeAccount} (eventId type : String) :
      Moves (db, stripe) (db, { stripe with events := stripe.events ++ [⟨eventId, .other type⟩] })
  | others {db db' : Db} {stripe : StripeAccount}
      (hsubscriptions : db'.subscriptions = db.subscriptions)
      (horganizations : db.OrganizationsStay db') : Moves (db, stripe) (db', stripe)

/-- What is asked of two routes, by which session and in which body. -/
structure Asked where
  checkout : Session → Json → Prop
  compGrant : Session → Json → Prop

namespace Asked

variable (asked : Asked)

/-- A member of the organization has asked for the session. -/
def Orders (params : CheckoutParams) : Prop :=
  ∃ session body auth tier, asked.checkout session body ∧ requireAuth session = .ok auth ∧
    isTier body.tier = some tier ∧ params.clientReferenceId = auth.orgId ∧
      params.metadata = ⟨auth.orgId, auth.userId, tier.name⟩

/-- An administrator has named the organization. -/
def Grants (clerkOrgId : String) : Prop :=
  ∃ session body actor, asked.compGrant session body ∧ requireOrgAdmin session = .ok actor ∧
    body.targetOrgId = some clerkOrgId

/-- Stripe has completed a session that a member of the organization has asked for. -/
def Purchases (stripe : StripeAccount) (clerkOrgId tierId subscriptionId : String) : Prop :=
  ∃ params ∈ stripe.sessions, asked.Orders params ∧ params.clientReferenceId = clerkOrgId ∧
    params.metadata.tier = tierId ∧
      ∃ eventId, params.completed eventId subscriptionId ∈ stripe.events

/-- Why the organization has the subscription. -/
def Accounts (w : Commerce) (s : Subscription) : Prop :=
  ∃ org, w.1.organizations.get? s.orgId = some org ∧
    (asked.Purchases w.2 org.clerkOrgId s.tierId s.id ∨
      s.tierId = compGrantTier ∧ asked.Grants org.clerkOrgId)

end Asked

/-- What may run. -/
inductive CommerceEntry (asked : Asked) : BillingProgram Unit → Prop
  | checkAndDecrementQuota (orgId : String) : CommerceEntry asked (BillingProgram.server
      ((fun _ => ()) <$> ServerProgram.quota (EpsDapp.checkAndDecrementQuota orgId)))
  | restoreQuota (orgId : Option String) : CommerceEntry asked (BillingProgram.server
      ((fun _ => ()) <$> ServerProgram.quota (EpsDapp.restoreQuota orgId)))
  | compGrant (session : Session) (body : Option Json)
      (hbody : ∀ json, body = some json → asked.compGrant session json) :
      CommerceEntry asked (BillingProgram.server ((fun _ => ()) <$> postCompGrant session body))
  | checkout (process : StripeProcess) (session : Session) (req : CheckoutRequest)
      (hbody : ∀ json, req.body = some json → asked.checkout session json) :
      CommerceEntry asked ((fun _ => ()) <$> postCheckout process session req)
  | webhook (process : StripeProcess) (signature : Option String) (payload : String) :
      CommerceEntry asked ((fun _ => ()) <$> postStripeWebhook process signature payload)

/-! ## What a program has been told -/

/-- The event that was constructed last, the organization that was found or created last,
and the subscription that was found last, each with what it was asked by. -/
structure Trail where
  event : Option StripeEvent := none
  org : Option (String × Organization) := none
  found : Option (SubscriptionWhere × Subscription) := none

namespace Trail

/-- The mark after a call is answered. -/
def observe (m : Trail) : (c : BillingCall) → Except Failure c.Resp → Trail
  | .constructEvent _ _ _ _, .ok (.ok event) => { m with event := some event }
  | .server (.organizationUpsert clerkOrgId), .ok org => { m with org := some (clerkOrgId, org) }
  | .server (.quota (.subscriptionFindFirst q)), .ok (some s) => { m with found := some (q, s) }
  | _, _ => m

/-- The mark a call and its answer lead to. -/
def Follows : Answers billingSig Failure Trail := fun m c m' r => m' = m.observe c r

/-- The calls that are made. -/
def Allows (asked : Asked) (m : Trail) : BillingCall → Prop
  | .server (.quota (.subscriptionUpdate id data)) => ∃ now, data = rollover now ∨
      data = compGrantUpdate now ∧ ∃ clerkOrgId org s, m.org = some (clerkOrgId, org) ∧
        m.found = some (.ofOrg org.id, s) ∧ s.id = id ∧ asked.Grants clerkOrgId
  | .server (.quota (.subscriptionIncrement id limit)) => ∃ q s, m.found = some (q, s) ∧
      s.id = id ∧ tierQuota s.tierId = some limit
  | .server (.subscriptionCreate data) => data.tierId = compGrantTier ∧
      ∃ clerkOrgId org, m.org = some (clerkOrgId, org) ∧ data.orgId = org.id ∧
        asked.Grants clerkOrgId
  | .server (.subscriptionUpsert id create) => ∃ event a org, m.event = some event ∧
      event.checkout? = some a ∧ m.org = some (a.clerkOrgId, org) ∧ id = a.stripeSubscriptionId ∧
        create.orgId = org.id ∧ create.tierId = a.tierId
  | .sessionsCreate _ params => asked.Orders params
  | _ => True

end Trail

/-- The four routes and the meter on one database, statement by statement. -/
def commerce (asked : Asked) (ι : Type) : Machine billingSig Failure Unit ι Trail Commerce where
  idle := {}
  observe m c _ r := m.observe c r
  answers _ := commerceAnswers
  entry _ := CommerceEntry asked
  environment := Commerce.Moves

/-! ## The programs keep to it -/

namespace Trail

variable {asked : Asked}

/-- The mark that a call of the server and its answer lead to. -/
def Told : Answers serverSig Failure Trail := fun m c m' r => m' = m.observe (.server c) r

/-- The calls of the server that are made. -/
def Permits (asked : Asked) (m : Trail) (c : ServerCall) : Prop := m.Allows asked (.server c)

/-- The programs of the server keep to it on their own. -/
theorem wp_server {α : Type} {p : ServerProgram α} {Q : Except Failure α → Trail → Prop}
    {m : Trail} (h : p.wp Told (Permits asked) Q m) :
    (BillingProgram.server p).wp Follows (Allows asked) Q m := by
  rw [BillingProgram.server, Program.wp_lift]
  refine Program.wp_mono p ?_ (fun _ _ h => h) (fun _ _ h => h) h
  rintro m c m' _ ⟨r, hr, rfl⟩
  exact hr

theorem checkAndDecrementQuota_conforms (orgId : String) (m : Trail) :
    (ServerProgram.quota (EpsDapp.checkAndDecrementQuota orgId)).wp Told (Permits asked)
      (fun _ _ => True) m := by
  rw [ServerProgram.quota, Program.wp_lift, EpsDapp.checkAndDecrementQuota]
  refine (Program.wp_bind _ _ _ _).2 ((Program.wp_perform _ _ _).2 ⟨trivial, ?_⟩)
  rintro _ _ ⟨e | _ | s, rfl, rfl⟩
  · trivial
  · trivial
  simp only
  split
  · trivial
  rename_i limit hlimit
  refine (Program.wp_bind _ _ _ _).2 ((Program.wp_perform _ _ _).2 ⟨trivial, ?_⟩)
  rintro _ _ ⟨e | now, rfl, rfl⟩
  · trivial
  simp only
  split
  · refine (Program.wp_bind _ _ _ _).2 ((Program.wp_perform _ _ _).2 ⟨⟨now, Or.inl rfl⟩, ?_⟩)
    rintro _ _ ⟨e | s', rfl, rfl⟩
    · trivial
    · trivial
  · refine (Program.wp_bind _ _ _ _).2
      ((Program.wp_perform _ _ _).2 ⟨⟨_, s, rfl, rfl, hlimit⟩, ?_⟩)
    rintro _ _ ⟨e | n, rfl, rfl⟩
    · trivial
    · simp only
      split <;> trivial

theorem restoreQuota_conforms (orgId : Option String) (m : Trail) :
    (ServerProgram.quota (EpsDapp.restoreQuota orgId)).wp Told (Permits asked)
      (fun _ _ => True) m := by
  rw [ServerProgram.quota, Program.wp_lift, EpsDapp.restoreQuota]
  refine (Program.wp_bind _ _ _ _).2 ((Program.wp_perform _ _ _).2 ⟨trivial, ?_⟩)
  rintro _ _ ⟨e | _ | s, rfl, rfl⟩
  · trivial
  · trivial
  refine (Program.wp_bind _ _ _ _).2 ((Program.wp_perform _ _ _).2 ⟨trivial, ?_⟩)
  rintro _ _ ⟨e | n, rfl, rfl⟩
  · trivial
  · trivial

/-- A grant writes to the organization it is for. -/
theorem compGrant_conforms (actor : AuthContext) {targetOrgId : String} (now : Calendar.Instant)
    (hasked : asked.Grants targetOrgId) (m : Trail) :
    (compGrant actor targetOrgId now).wp Told (Permits asked) (fun _ _ => True) m := by
  refine (Program.wp_bind _ _ _ _).2 ((Program.wp_perform _ _ _).2 ⟨trivial, ?_⟩)
  rintro _ (e | org) rfl
  · trivial
  refine Program.wp_seq (R := fun _ _ => True) ?_ ?_ fun _ _ _ => trivial
  · refine (Program.wp_bind _ _ _ _).2 ((Program.wp_perform _ _ _).2 ⟨trivial, ?_⟩)
    rintro _ (e | _ | s) rfl
    · trivial
    · exact (Program.wp_perform _ _ _).2
        ⟨⟨rfl, targetOrgId, org, rfl, rfl, hasked⟩, fun _ _ _ => trivial⟩
    · exact (Program.wp_perform _ _ _).2
        ⟨⟨now, Or.inr ⟨rfl, targetOrgId, org, s, rfl, rfl, rfl, hasked⟩⟩, fun _ _ _ => trivial⟩
  · intro sub _ _
    refine (Program.wp_bind _ _ _ _).2 ((Program.wp_perform _ _ _).2 ⟨trivial, ?_⟩)
    rintro _ (e | _) _
    · trivial
    · trivial

theorem postCompGrant_conforms (session : Session) {body : Option Json}
    (hbody : ∀ json, body = some json → asked.compGrant session json) (m : Trail) :
    (postCompGrant session body).wp Told (Permits asked) (fun _ _ => True) m := by
  rw [postCompGrant]
  split
  · trivial
  · trivial
  · trivial
  rename_i actor hactor
  cases body with
  | none => trivial
  | some json =>
      simp only
      split
      · trivial
      rename_i targetOrgId htarget
      refine (Program.wp_bind _ _ _ _).2 ((Program.wp_perform _ _ _).2 ⟨trivial, ?_⟩)
      rintro _ (e | now) rfl
      · trivial
      refine Program.wp_seq (compGrant_conforms actor now
        ⟨session, json, actor, hbody json rfl, hactor, htarget⟩ _) ?_ fun _ _ _ => trivial
      exact fun _ _ _ => trivial

/-- An event writes to the organization that its session bears. -/
theorem processEvent_conforms {event : StripeEvent} {m : Trail} (hm : m.event = some event) :
    (processEvent event).wp Told (Permits asked) (fun _ _ => True) m := by
  refine (Program.wp_bind _ _ _ _).2 ((Program.wp_perform _ _ _).2 ⟨trivial, ?_⟩)
  rintro _ (e | _) rfl
  · trivial
  simp only
  split
  · rename_i session hdata
    rw [applyCheckoutCompleted]
    split
    · trivial
    · rename_i a ha
      have hcheckout : event.checkout? = some a := by rw [StripeEvent.checkout?, hdata, ← ha]
      refine (Program.wp_bind _ _ _ _).2 ((Program.wp_perform _ _ _).2 ⟨trivial, ?_⟩)
      rintro _ (e | org) rfl
      · trivial
      refine (Program.wp_bind _ _ _ _).2 ((Program.wp_perform _ _ _).2 ⟨trivial, ?_⟩)
      rintro _ (e | now) rfl
      · trivial
      exact (Program.wp_perform _ _ _).2
        ⟨⟨event, a, org, hm, hcheckout, rfl, rfl, rfl, rfl⟩, fun _ _ _ => trivial⟩
  · trivial

theorem postCheckout_conforms (process : StripeProcess) (session : Session) {req : CheckoutRequest}
    (hbody : ∀ json, req.body = some json → asked.checkout session json) (m : Trail) :
    (postCheckout process session req).wp Follows (Allows asked) (fun _ _ => True) m := by
  rw [postCheckout]
  split
  · trivial
  · trivial
  rename_i auth hauth
  split
  · trivial
  rename_i json hjson
  split
  · trivial
  rename_i tier htier
  refine Program.wp_seq (R := fun _ _ => True) trivial ?_ fun _ _ _ => trivial
  intro stripe _ _
  refine Program.wp_seq (R := fun _ _ => True) trivial ?_ fun _ _ _ => trivial
  intro priceId _ _
  have horders : asked.Orders
      (checkoutParams auth tier priceId (req.origin.getD req.urlOrigin)) :=
    ⟨session, json, auth, tier, hbody json hjson, hauth, htier, rfl, rfl⟩
  refine (Program.wp_bind _ _ _ _).2 ((Program.wp_perform _ _ _).2 ⟨horders, ?_⟩)
  rintro _ (e | url) _
  · trivial
  · trivial

theorem postStripeWebhook_conforms (process : StripeProcess) (signature : Option String)
    (payload : String) (m : Trail) :
    (postStripeWebhook process signature payload).wp Follows (Allows asked)
      (fun _ _ => True) m := by
  rw [postStripeWebhook]
  split
  · trivial
  split
  · trivial
  refine Program.wp_seq (R := fun _ _ => True) trivial ?_ fun _ _ _ => trivial
  intro stripe m _
  refine (Program.wp_bind _ _ _ _).2 ((Program.wp_perform _ _ _).2 ⟨trivial, ?_⟩)
  rintro _ (e | message | event) rfl
  · trivial
  · trivial
  refine Program.wp_catch (R := fun _ _ => True) ?_ (fun _ _ _ => trivial) ?_
  · refine Program.wp_seq (wp_server (processEvent_conforms rfl)) ?_ fun _ _ _ => trivial
    exact fun _ _ _ => trivial
  · rintro e _ _
    split <;> trivial

end Trail

theorem CommerceEntry.conforms {asked : Asked} {p : BillingProgram Unit}
    (h : CommerceEntry asked p) : Machine.Conforms Trail.Follows (Trail.Allows asked) p {} := by
  cases h with
  | checkAndDecrementQuota orgId =>
      exact Trail.wp_server
        ((Program.wp_map _ _ _ _).2 (Trail.checkAndDecrementQuota_conforms orgId {}))
  | restoreQuota orgId =>
      exact Trail.wp_server ((Program.wp_map _ _ _ _).2 (Trail.restoreQuota_conforms orgId {}))
  | compGrant session body hbody =>
      exact Trail.wp_server
        ((Program.wp_map _ _ _ _).2 (Trail.postCompGrant_conforms session hbody {}))
  | checkout process session req hbody =>
      exact (Program.wp_map _ _ _ _).2 (Trail.postCheckout_conforms process session hbody {})
  | webhook process signature payload =>
      exact (Program.wp_map _ _ _ _).2
        (Trail.postStripeWebhook_conforms process signature payload {})

/-! ## What a step keeps -/

section Keeps

variable {asked : Asked} {w w' : Commerce}

theorem Db.OrganizationsStay.refl (db : Db) : db.OrganizationsStay db :=
  fun _ org h => ⟨org, h, rfl⟩

/-- What accounts for a subscription accounts for it later, and for one of the same
organization, tier and id. -/
theorem Asked.Accounts.mono {s s' : Subscription} (h : asked.Accounts w s)
    (horganizations : w.1.OrganizationsStay w'.1) (hsessions : w.2.sessions ⊆ w'.2.sessions)
    (hevents : w.2.events ⊆ w'.2.events) (horg : s'.orgId = s.orgId) (htier : s'.tierId = s.tierId)
    (hid : s'.id = s.id) : asked.Accounts w' s' := by
  obtain ⟨org, hfound, hcause⟩ := h
  obtain ⟨org', hfound', hclerk⟩ := horganizations _ _ hfound
  refine ⟨org', horg ▸ hfound', ?_⟩
  rw [hclerk, htier, hid]
  refine hcause.imp_left ?_
  rintro ⟨params, hparams, horders, hname, htier, eventId, hevent⟩
  exact ⟨params, hsessions hparams, horders, hname, htier, eventId, hevents hevent⟩

/-- What is to be shown of a step of the database. -/
structure Asked.Keeps (asked : Asked) (stripe : StripeAccount) (db db' : Db) : Prop where
  organizations : db.OrganizationsStay db'
  owners : ∀ id s, db.subscription? id = some s →
    ∃ s', db'.subscription? id = some s' ∧ s'.orgId = s.orgId
  accounted : (∀ s ∈ db.subscriptions, asked.Accounts (db, stripe) s) →
    ∀ s ∈ db'.subscriptions, asked.Accounts (db', stripe) s

namespace Asked

variable {stripe : StripeAccount} {db db' : Db}

theorem Keeps.of_subscriptions (h : db'.subscriptions = db.subscriptions)
    (horganizations : db.OrganizationsStay db') : asked.Keeps stripe db db' where
  organizations := horganizations
  owners id s hs := ⟨s, by rw [Db.subscription?, h, ← Db.subscription?, hs], rfl⟩
  accounted hdb s hs := (hdb s (h ▸ hs)).mono horganizations (List.Subset.refl _)
    (List.Subset.refl _) rfl rfl rfl

theorem Keeps.refl (db : Db) : asked.Keeps stripe db db := .of_subscriptions rfl (.refl db)

/-- A write leaves the owner of its row. -/
theorem Keeps.update {id : String} {u : SubscriptionUpdate}
    (h : ∀ s, db.subscription? id = some s → asked.Accounts (db, stripe) s →
      asked.Accounts (db, stripe) (u.apply s)) :
    asked.Keeps stripe db (db.updateSubscription id u) where
  organizations := .refl db
  owners j s hs := by
    rw [Db.subscription?_updateSubscription]
    by_cases hj : j = id
    · subst hj
      rw [if_pos rfl, hs]
      exact ⟨_, rfl, rfl⟩
    · rw [if_neg hj]
      exact ⟨s, hs, rfl⟩
  accounted hdb s hs := by
    obtain ⟨s₀, hs₀, rfl⟩ := (db.subscriptions.mem_modify_iff id u.apply (fun _ => rfl) s).1 hs
    by_cases hid : s₀.id = id
    · rw [if_pos hid]
      exact h s₀ (hid ▸ db.subscriptions.get?_key_eq hs₀) (hdb s₀ hs₀)
    · rw [if_neg hid]
      exact hdb s₀ hs₀

/-- A write that leaves the tier. -/
theorem Keeps.update_of_tier {id : String} {u : SubscriptionUpdate} (h : u.tierId = none) :
    asked.Keeps stripe db (db.updateSubscription id u) := by
  refine .update fun s _ hs =>
    hs.mono (.refl db) (List.Subset.refl _) (List.Subset.refl _) rfl ?_ rfl
  rw [SubscriptionUpdate.apply, h]
  rfl

theorem Keeps.insert {s : Subscription} (hfree : db.subscription? s.id = none)
    (h : asked.Accounts (db, stripe) s) :
    asked.Keeps stripe db (db.insertSubscription s hfree) where
  organizations := .refl db
  owners id s₀ hs₀ := by
    refine ⟨s₀, ?_, rfl⟩
    rw [Db.subscription?_insertSubscription, if_neg, hs₀]
    rintro rfl
    rw [hfree] at hs₀
    cases hs₀
  accounted hdb s₀ hs₀ := by
    rcases (db.subscriptions.mem_insert_iff s hfree s₀).1 hs₀ with hs₀ | rfl
    · exact hdb s₀ hs₀
    · exact h

theorem Keeps.updateWhere {id : String} {guard : Subscription → Prop} [DecidablePred guard]
    {u : SubscriptionUpdate} (h : u.tierId = none) :
    asked.Keeps stripe db (db.updateSubscriptionWhere id guard u).1 := by
  rw [Db.updateSubscriptionWhere]
  split
  · split
    · exact .update_of_tier h
    · exact .of_subscriptions rfl (.refl db)
  · exact .of_subscriptions rfl (.refl db)

end Asked

/-- What holds of the database and the account. -/
structure Commerce.Inv (asked : Asked) (w : Commerce) : Prop where
  ordered : ∀ params ∈ w.2.sessions, asked.Orders params
  completed : ∀ event ∈ w.2.events, ∀ a, event.checkout? = some a → ∃ params ∈ w.2.sessions,
    params.clientReferenceId = a.clerkOrgId ∧ params.metadata.tier = a.tierId ∧
      params.completed event.id a.stripeSubscriptionId = event
  accounted : ∀ s ∈ w.1.subscriptions, asked.Accounts w s
  bounded : w.1.Bounded

/-- What a program has been told is still so. -/
structure Trail.Valid (m : Trail) (w : Commerce) : Prop where
  event : ∀ event, m.event = some event → event ∈ w.2.events
  org : ∀ clerkOrgId org, m.org = some (clerkOrgId, org) →
    ∃ org', w.1.organizations.get? org.id = some org' ∧ org'.clerkOrgId = clerkOrgId
  found : ∀ q s, m.found = some (q, s) → (∀ orgId, q = .ofOrg orgId → s.orgId = orgId) ∧
    ∃ s', w.1.subscription? s.id = some s' ∧ s'.orgId = s.orgId ∧ TierLE s.tierId s'.tierId

/-- What the bounds of the meters know of a program. -/
def Trail.finding (m : Trail) : Finding := ⟨m.found.map Prod.snd⟩

theorem Trail.Valid.finding {m : Trail} (h : m.Valid w) : m.finding.Valid w.1 := by
  intro s hs
  obtain ⟨⟨q, s'⟩, hfound, rfl⟩ := Option.map_eq_some_iff.1 hs
  obtain ⟨-, s'', hs'', -, htier⟩ := h.found q s' hfound
  exact ⟨s'', hs'', htier⟩

/-- The event of a checkout accounts for what it creates. -/
theorem Commerce.Inv.purchases (h : w.Inv asked) {event : StripeEvent} {a : Attribution}
    (hevent : event ∈ w.2.events) (ha : event.checkout? = some a) :
    asked.Purchases w.2 a.clerkOrgId a.tierId a.stripeSubscriptionId ∧
      ∃ limit, tierQuota a.tierId = some limit := by
  obtain ⟨params, hparams, horg, htier, hcompleted⟩ := h.completed event hevent a ha
  have horders := h.ordered params hparams
  refine ⟨⟨params, hparams, horders, horg, htier, event.id, hcompleted ▸ hevent⟩, ?_⟩
  obtain ⟨session, body, auth, tier, -, -, -, -, hmetadata⟩ := horders
  rw [← htier, hmetadata]
  exact tier.tierQuota_name

theorem Trail.Valid.allows {m : Trail} (hm : m.Valid w) (hw : w.Inv asked) {c : ServerCall}
    (h : m.Allows asked (.server c)) : m.finding.Allows c := by
  cases c with
  | quota c =>
      cases c with
      | subscriptionUpdate id data =>
          obtain ⟨now, hdata⟩ := h
          exact ⟨now, hdata.imp_right And.left⟩
      | subscriptionIncrement id limit =>
          obtain ⟨q, s, hfound, hid, hlimit⟩ := h
          exact ⟨s, by rw [Trail.finding, hfound, Option.map_some], hid, hlimit⟩
      | _ => trivial
  | subscriptionCreate data => exact ⟨999, by rw [h.1]; rfl⟩
  | subscriptionUpsert id create =>
      obtain ⟨event, a, org, hevent, ha, -, -, -, htier⟩ := h
      have hknown := (hw.purchases (hm.event event hevent) ha).2
      rwa [← htier] at hknown
  | _ => trivial

/-- A call of the server that is made keeps the accounts. -/
theorem Asked.keeps_of_answers {m : Trail} {db db' : Db} {stripe : StripeAccount} {c : ServerCall}
    {r : Except Failure c.Resp} (h : billingAnswers db c db' r) (hm : m.Valid (db, stripe))
    (hw : Commerce.Inv asked (db, stripe)) (hc : m.Allows asked (.server c)) :
    asked.Keeps stripe db db' := by
  rcases h with h | ⟨rfl, -⟩
  · cases c with
    | quota c =>
        cases c with
        | now => exact h.1 ▸ .refl _
        | subscriptionFindFirst q => exact h.1 ▸ .refl _
        | subscriptionUpdate id data =>
            simp only [ServerCall.Exec, QuotaCall.Exec] at h
            split at h
            · obtain ⟨rfl, -⟩ := h
              obtain ⟨now, rfl | ⟨rfl, clerkOrgId, org, s, horg, hfound, rfl, hgrants⟩⟩ := hc
              · exact .update_of_tier rfl
              · -- The row is of the organization that the grant is for.
                refine .update fun s₀ hs₀ _ => ?_
                obtain ⟨org', horg', hclerk⟩ := hm.org clerkOrgId org horg
                obtain ⟨howner, s', hs', howner', -⟩ := hm.found _ s hfound
                obtain rfl : s₀ = s' := Option.some.inj (hs₀.symm.trans hs')
                have hid : s₀.orgId = org.id := howner'.trans (howner _ rfl)
                exact ⟨org', hid ▸ horg', Or.inr ⟨rfl, hclerk ▸ hgrants⟩⟩
            · exact h.1 ▸ .refl _
        | subscriptionIncrement id limit =>
            obtain ⟨rfl, -⟩ := Prod.mk.inj h
            exact .updateWhere rfl
        | subscriptionDecrement id =>
            obtain ⟨rfl, -⟩ := Prod.mk.inj h
            exact .updateWhere rfl
    | subscriptionCreate data =>
        obtain ⟨id, hfree, rfl, -⟩ := h
        obtain ⟨htier, clerkOrgId, org, horg, howner, hgrants⟩ := hc
        obtain ⟨org', horg', hclerk⟩ := hm.org clerkOrgId org horg
        have hid : (data.row id).orgId = org.id := howner
        exact .insert hfree ⟨org', hid ▸ horg', Or.inr ⟨htier, hclerk ▸ hgrants⟩⟩
    | subscriptionUpsert id create =>
        obtain ⟨-, ⟨s, -, rfl⟩ | ⟨hfree, rfl⟩⟩ := h
        · exact .update_of_tier rfl
        · obtain ⟨event, a, org, hevent, ha, horg, rfl, howner, htier⟩ := hc
          obtain ⟨org', horg', hclerk⟩ := hm.org _ org horg
          have hpurchases := (hw.purchases (hm.event event hevent) ha).1
          have hid : (create.row a.stripeSubscriptionId).orgId = org.id := howner
          have hname : (create.row a.stripeSubscriptionId).tierId = a.tierId := htier
          refine .insert hfree ⟨org', hid ▸ horg', Or.inl ?_⟩
          rw [hclerk, hname]
          exact hpurchases
    | serviceRequestCreate data =>
        rcases h with ⟨-, id, orgId, createdAt, hfree, -, rfl, -⟩ | ⟨rfl, -⟩ | ⟨rfl, -⟩
        · exact .of_subscriptions rfl (.refl db)
        · exact .refl _
        · exact .refl _
    | serviceRequestUpdate id data =>
        simp only [ServerCall.Exec] at h
        split at h
        · obtain ⟨rfl, -⟩ := h
          exact .of_subscriptions rfl (.refl db)
        · obtain ⟨rfl, -⟩ := h
          exact .refl _
    | organizationUpsert clerkOrgId =>
        rcases h with ⟨org, -, -, rfl, -⟩ | ⟨-, id, createdAt, hfree, rfl, -⟩
        · exact .refl _
        · refine .of_subscriptions rfl fun j org horg => ⟨org, ?_, rfl⟩
          exact db.organizations.get?_insert_of_some _ hfree horg
    | webhookEventCreate eventId =>
        rcases h with ⟨processedAt, hfree, rfl, -⟩ | ⟨-, rfl, -⟩
        · exact .of_subscriptions rfl (.refl db)
        · exact .refl _
    | auditLogCreate data =>
        obtain ⟨rfl, -⟩ := h
        exact .of_subscriptions rfl (.refl db)
    | rateLimit _ | randomBytes _ | randomUUID | resolveENS _ | getAgentENSName =>
        exact h.1 ▸ .refl _
    | putObject _ _ | recordOnHedera _ =>
        obtain rfl : db' = db := h
        exact .refl _
  · exact .refl _

/-- What is there stays. -/
structure Commerce.Grows (w w' : Commerce) : Prop where
  organizations : w.1.OrganizationsStay w'.1
  owners : ∀ id s, w.1.subscription? id = some s →
    ∃ s', w'.1.subscription? id = some s' ∧ s'.orgId = s.orgId
  tiers : w.1.TiersGrow w'.1
  events : w.2.events ⊆ w'.2.events

theorem Trail.Valid.grow {m : Trail} (hm : m.Valid w) (h : w.Grows w') : m.Valid w' where
  event event hevent := h.events (hm.event event hevent)
  org clerkOrgId org horg := by
    obtain ⟨org', horg', hclerk⟩ := hm.org clerkOrgId org horg
    obtain ⟨org'', horg'', hclerk'⟩ := h.organizations _ _ horg'
    exact ⟨org'', horg'', hclerk'.trans hclerk⟩
  found q s hs := by
    obtain ⟨howner, s', hs', howner', htier⟩ := hm.found q s hs
    obtain ⟨s₁, hs₁, howner₁⟩ := h.owners _ _ hs'
    obtain ⟨s₂, hs₂, htier₂⟩ := h.tiers _ _ hs'
    obtain rfl : s₁ = s₂ := Option.some.inj (hs₁.symm.trans hs₂)
    exact ⟨howner, s₁, hs₁, howner₁.trans howner', htier.trans htier₂⟩

/-- What holds of the account holds while it creates sessions and signs the events of its
own. -/
theorem Commerce.Inv.account {db : Db} {stripe stripe' : StripeAccount}
    (h : Commerce.Inv asked (db, stripe)) (hsessions : stripe.sessions ⊆ stripe'.sessions)
    (hevents : stripe.events ⊆ stripe'.events)
    (hordered : ∀ params ∈ stripe'.sessions, asked.Orders params)
    (hcompleted : ∀ event ∈ stripe'.events, event ∉ stripe.events → ∀ a,
      event.checkout? = some a → ∃ params ∈ stripe'.sessions,
        params.clientReferenceId = a.clerkOrgId ∧ params.metadata.tier = a.tierId ∧
          params.completed event.id a.stripeSubscriptionId = event) :
    Commerce.Inv asked (db, stripe') where
  ordered := hordered
  completed event hevent a ha := by
    by_cases hold : event ∈ stripe.events
    · obtain ⟨params, hparams, hsame⟩ := h.completed event hold a ha
      exact ⟨params, hsessions hparams, hsame⟩
    · exact hcompleted event hevent hold a ha
  accounted s hs := (h.accounted s hs).mono (.refl db) hsessions hevents rfl rfl rfl
  bounded := h.bounded

/-- The attribution of a session that the route has asked for. -/
theorem CheckoutParams.checkout?_completed {params : CheckoutParams}
    {eventId subscriptionId : String} {a : Attribution}
    (h : (params.completed eventId subscriptionId).checkout? = some a) :
    params.clientReferenceId = a.clerkOrgId ∧ params.metadata.tier = a.tierId ∧
      subscriptionId = a.stripeSubscriptionId := by
  have htruthy : ∀ {s s' : String}, truthy (some s) = some s' → s = s' := fun hs =>
    (Option.filter_eq_some_iff.1 hs).1 |> Option.some.inj
  simp only [StripeEvent.checkout?, CheckoutParams.completed, CheckoutSession.attribution,
    Option.bind_eq_bind, Option.bind_eq_some_iff] at h
  obtain ⟨clerkOrgId, hclerk, tierId, htier, id, hid, ⟨⟩⟩ := h
  exact ⟨htruthy hclerk, htruthy htier, htruthy hid⟩

/-- The moves of the others keep what holds. -/
theorem Commerce.Moves.keeps (h : Commerce.Moves w w') (hw : w.Inv asked) :
    w.Grows w' ∧ w'.Inv asked := by
  have hsame : ∀ {stripe stripe' : StripeAccount} {db : Db}, stripe.events ⊆ stripe'.events →
      Commerce.Grows (db, stripe) (db, stripe') := fun {_ _ db} hevents =>
    ⟨.refl db, fun _ s hs => ⟨s, hs, rfl⟩, fun _ s hs => ⟨s, hs, TierLE.refl _⟩, hevents⟩
  cases h with
  | completes hparams eventId subscriptionId =>
      refine ⟨hsame (List.subset_append_left _ _), hw.account (List.Subset.refl _)
        (List.subset_append_left _ _) hw.ordered ?_⟩
      intro event hevent hnew a ha
      obtain rfl := List.mem_singleton.1 ((List.mem_append.1 hevent).resolve_left hnew)
      obtain ⟨hclerk, htier, hid⟩ := CheckoutParams.checkout?_completed ha
      exact ⟨_, hparams, hclerk, htier, hid ▸ rfl⟩
  | reports eventId type =>
      refine ⟨hsame (List.subset_append_left _ _), hw.account (List.Subset.refl _)
        (List.subset_append_left _ _) hw.ordered ?_⟩
      intro event hevent hnew a ha
      obtain rfl := List.mem_singleton.1 ((List.mem_append.1 hevent).resolve_left hnew)
      cases ha
  | @others db db' stripe hsubscriptions horganizations =>
      have hkeeps : asked.Keeps stripe db db' := .of_subscriptions hsubscriptions horganizations
      have hbounds : db.Keeps db' := .of_subscriptions hsubscriptions
      exact ⟨⟨horganizations, hkeeps.owners, hbounds.tiers, List.Subset.refl _⟩,
        hw.ordered, hw.completed, hkeeps.accounted hw.accounted, hbounds.bounded hw.bounded⟩

/-- A call that is made keeps what holds. -/
theorem commerce_keeps {m : Trail} {c : BillingCall} {r : Except Failure c.Resp}
    (h : commerceAnswers w c w' r) (hm : m.Valid w) (hw : w.Inv asked) (hc : m.Allows asked c) :
    w.Grows w' ∧ w'.Inv asked := by
  obtain ⟨db, stripe⟩ := w
  obtain ⟨db', stripe'⟩ := w'
  have hsame : ∀ {stripe stripe' : StripeAccount}, stripe.events = stripe'.events →
      Commerce.Grows (db, stripe) (db, stripe') := fun hevents =>
    ⟨.refl db, fun _ s hs => ⟨s, hs, rfl⟩, fun _ s hs => ⟨s, hs, TierLE.refl _⟩,
      fun _ h => hevents ▸ h⟩
  cases c with
  | server c =>
      obtain ⟨hanswer, hstripe⟩ := h
      obtain rfl : stripe' = stripe := hstripe
      have hkeeps := Asked.keeps_of_answers hanswer hm hw hc
      have hbounds := EpsDapp.keeps_of_answers hanswer hm.finding (hm.allows hw hc)
      exact ⟨⟨hkeeps.organizations, hkeeps.owners, hbounds.tiers, List.Subset.refl _⟩,
        hw.ordered, hw.completed, hkeeps.accounted hw.accounted, hbounds.bounded hw.bounded⟩
  | sessionsCreate client params =>
      obtain ⟨hdb, ⟨hstripe, -⟩ | hstripe⟩ := h
      · obtain rfl : db' = db := hdb
        obtain rfl : stripe' = stripe := hstripe
        exact ⟨hsame rfl, hw⟩
      · obtain rfl : db' = db := hdb
        obtain rfl : stripe' = _ := hstripe
        refine ⟨hsame rfl, hw.account (List.subset_append_left _ _) (List.Subset.refl _) ?_ ?_⟩
        · have hnew : asked.Orders params := hc
          exact List.forall_mem_append.2 ⟨hw.ordered, by simpa using hnew⟩
        · exact fun event hevent hnew => absurd hevent hnew
  | constructEvent client payload signature secret =>
      obtain ⟨hsame', -⟩ := h
      obtain ⟨rfl, rfl⟩ := Prod.mk.inj hsame'
      exact ⟨hsame rfl, hw⟩

/-- What a program is told is so. -/
theorem Trail.Valid.observe {m : Trail} {c : BillingCall} {r : Except Failure c.Resp}
    (hm : m.Valid w') (h : commerceAnswers w c w' r) : (m.observe c r).Valid w' := by
  unfold Trail.observe
  split
  · rename_i event
    obtain ⟨rfl, ⟨e, he, hr⟩ | ⟨_, hr⟩⟩ := h
    · cases hr
      exact ⟨fun _ h => Option.some.inj h ▸ he, hm.org, hm.found⟩
    · cases hr
  · rename_i clerkOrgId org
    refine ⟨hm.event, ?_, hm.found⟩
    rintro _ _ ⟨⟩
    obtain ⟨hanswer, -⟩ := h
    rcases hanswer with (⟨org', hmem, hclerk, hdb, hr⟩ | ⟨-, id, createdAt, hfree, hdb, hr⟩) |
      ⟨-, _, hr⟩
    · cases hr
      exact ⟨org, by rw [hdb]; exact w.1.organizations.get?_key_eq hmem, hclerk⟩
    · cases hr
      refine ⟨⟨id, clerkOrgId, clerkOrgId, none, createdAt⟩, ?_, rfl⟩
      rw [hdb, Table.get?_insert, if_pos rfl]
    · cases hr
  · rename_i q s
    refine ⟨hm.event, hm.org, ?_⟩
    rintro _ _ ⟨⟩
    obtain ⟨hanswer, -⟩ := h
    rcases hanswer with ⟨hdb, ⟨-, found, hlatest, hr⟩ | ⟨-, hr⟩⟩ | ⟨-, _, hr⟩
    · cases hr
      refine ⟨?_, s, ?_, rfl, TierLE.refl _⟩
      · rintro orgId rfl
        exact hlatest.2.1
      · rw [hdb]
        exact w.1.subscriptions.get?_key_eq hlatest.1
    · cases hr
    · cases hr
  · exact hm

end Keeps

/-! ## Any interleaving -/

variable {ι : Type} {asked : Asked}

abbrev CommercePool (ι : Type) := Pool billingSig Failure Unit ι Trail Commerce

/-- What holds throughout. -/
structure CommercePool.Inv (asked : Asked) (c : CommercePool ι) : Prop where
  conform : Machine.AllConform Trail.Follows (Trail.Allows asked) c
  valid : ∀ i t, c.thread i = some t → t.mark.Valid c.world
  world : c.world.Inv asked

theorem Trail.valid_idle (w : Commerce) : Trail.Valid {} w where
  event := by simp
  org := by simp
  found := by simp

theorem CommercePool.inv_empty :
    CommercePool.Inv asked (⟨({}, {}), fun _ => none⟩ : CommercePool ι) where
  conform := fun _ _ h => by cases h
  valid := fun _ _ h => by cases h
  world :=
    { ordered := by simp
      completed := by simp
      accounted := fun _ h => (List.not_mem_nil h).elim
      bounded := fun _ h => (List.not_mem_nil h).elim }

section Step

variable [DecidableEq ι]

theorem CommercePool.Inv.step {c c' : CommercePool ι} {l : Label billingSig Failure ι}
    (hc : c.Inv asked) (h : (commerce asked ι).Step c l c') : CommercePool.Inv asked c' := by
  have hconform : Machine.AllConform Trail.Follows (Trail.Allows asked) c' := by
    refine Machine.allConform_step ?_ ?_ hc.conform h
    · intro m w o w' r _
      rfl
    · intro i p hp
      exact CommerceEntry.conforms hp
  refine ⟨hconform, ?_, ?_⟩
  · intro j t ht
    cases h with
    | @act i o k m w r hthread hanswer =>
        have hkeeps := commerce_keeps hanswer (hc.valid i _ hthread) hc.world
          (hc.conform.allowed hthread)
        rcases Machine.thread_of_update ht with ⟨rfl, hnew⟩ | ⟨_, hold⟩
        · cases hnew
          exact ((hc.valid j _ hthread).grow hkeeps.1).observe hanswer
        · exact (hc.valid j t hold).grow hkeeps.1
    | finish hthread _ | crash hthread _ =>
        rcases Machine.thread_of_update ht with ⟨_, hnew⟩ | ⟨_, hold⟩
        · cases hnew
        · exact hc.valid j t hold
    | start hthread _ =>
        rcases Machine.thread_of_update ht with ⟨_, hnew⟩ | ⟨_, hold⟩
        · cases hnew
          exact Trail.valid_idle _
        · exact hc.valid j t hold
    | environment henv => exact (hc.valid j t ht).grow (henv.keeps hc.world).1
  · cases h with
    | act hthread hanswer =>
        exact (commerce_keeps hanswer (hc.valid _ _ hthread) hc.world
          (hc.conform.allowed hthread)).2
    | environment henv => exact (henv.keeps hc.world).2
    | finish _ _ | crash _ _ | start _ _ => exact hc.world

end Step

/-- In every state that any interleaving of the checkout route, the webhook, the
complimentary grant and the quota meter can reach from an empty database, whatever the
services answer: a session is only ever created for the organization of the member who
asks for it; each subscription is of an organization that has bought it, by such a session
in its tier that Stripe has completed, or that an administrator has named; and its meter is
within the quota of its tier. -/
theorem subscriptions_accounted [DecidableEq ι] {c : CommercePool ι}
    (hc : Reaches (commerce asked ι).Step ⟨({}, {}), fun _ => none⟩ c) :
    (∀ params ∈ c.world.2.sessions, asked.Orders params) ∧
      ∀ s ∈ c.world.1.subscriptions, asked.Accounts c.world s ∧ s.Bounded := by
  have hinv : c.Inv asked :=
    hc.invariant (fun _ _ _ h hstep => h.step hstep) CommercePool.inv_empty
  exact ⟨hinv.world.ordered, fun s hs => ⟨hinv.world.accounted s hs, hinv.world.bounded s hs⟩⟩

/-! ## One purchase -/

/-- A process in test mode. -/
def testProcess : StripeProcess where
  env
    | "STRIPE_SECRET_KEY" => some "sk_test_1"
    | "STRIPE_WEBHOOK_SECRET" => some "whsec_1"
    | "STRIPE_TIER1_PRICE_ID" => some "price_1"
    | _ => none

/-- A member asks for the smallest tier. -/
def buyer : Session := ⟨some "user-1", some "clerk-1", false⟩

def buyerRequest : CheckoutRequest :=
  ⟨some (.object [("tier", .string "tier1")]), none, "https://eps.example"⟩

def buyerAsked : Asked where
  checkout session body := session = buyer ∧ buyerRequest.body = some body
  compGrant _ _ := False

/-- The account once the session is created, -/
def buyerParams : CheckoutParams :=
  checkoutParams ⟨"user-1", "clerk-1"⟩ .tier1 "price_1" "https://eps.example"

def oneSession : StripeAccount := ⟨[buyerParams], []⟩

/-- and once it is completed. -/
def oneCompleted : StripeAccount := ⟨[buyerParams], [buyerParams.completed "evt_1" "sub_1"]⟩

theorem buyer_checks_out : ∃ r, ((fun _ => ()) <$> postCheckout testProcess buyer buyerRequest).Runs
    commerceAnswers ({}, {}) ({}, oneSession) r :=
  ⟨.ok (), (({}, oneSession) : Commerce), .ok (some "https://checkout.example"),
    ⟨rfl, Or.inr rfl⟩, rfl, rfl⟩

theorem buyer_is_reported : ∃ r,
    ((fun _ => ()) <$> postStripeWebhook testProcess (some "t=1") "\x7b\x7d").Runs
      commerceAnswers ({}, oneCompleted) (oneCheckout, oneCompleted) r := by
  have hserver : ∀ {db db' : Db} {c : ServerCall} {r : Except Failure c.Resp},
      billingAnswers db c db' r →
        commerceAnswers (db, oneCompleted) (.server c) (db', oneCompleted) r := fun h => ⟨h, rfl⟩
  have hevent : commerceAnswers ({}, oneCompleted)
      (.constructEvent ⟨"sk_test_1", by decide⟩ "\x7b\x7d" "t=1" "whsec_1") ({}, oneCompleted)
      (.ok (.ok (buyerParams.completed "evt_1" "sub_1"))) :=
    ⟨rfl, Or.inl ⟨_, List.mem_singleton_self _, rfl⟩⟩
  exact ⟨.ok (), .call hevent <| .call (hserver checkout_records) <|
    .call (hserver checkout_attributes) <| .call (hserver checkout_now) <|
      .call (hserver checkout_activates) ⟨rfl, rfl⟩⟩

theorem buyer_reaches : Reaches (commerce buyerAsked Unit).Step
    ⟨({}, {}), fun _ => none⟩ ⟨(oneCheckout, oneCompleted), fun _ => none⟩ := by
  obtain ⟨r, hcheckout⟩ := buyer_checks_out
  obtain ⟨r', hreport⟩ := buyer_is_reported
  have hcompletes : (commerce buyerAsked Unit).Step ⟨({}, oneSession), fun _ => none⟩
      .environment ⟨({}, oneCompleted), fun _ => none⟩ :=
    .environment (.completes (List.mem_singleton_self buyerParams) "evt_1" "sub_1")
  have hentry : CommerceEntry buyerAsked
      ((fun _ => ()) <$> postCheckout testProcess buyer buyerRequest) :=
    .checkout testProcess buyer buyerRequest fun json h => ⟨rfl, h⟩
  refine (Machine.reaches_of_program (fun _ _ _ _ _ h => h) (fun _ _ => trivial) hcheckout _
    (i := ()) rfl hentry).trans ?_
  refine Reaches.head hcompletes ?_
  exact Machine.reaches_of_program (fun _ _ _ _ _ h => h) (fun _ _ => trivial) hreport _
    (i := ()) rfl (CommerceEntry.webhook testProcess _ _)

theorem subscriptions_accounted_of_buyer :
    (∀ params ∈ oneCompleted.sessions, buyerAsked.Orders params) ∧
      ∀ s ∈ oneCheckout.subscriptions,
        buyerAsked.Accounts (oneCheckout, oneCompleted) s ∧ s.Bounded :=
  subscriptions_accounted buyer_reaches

end EpsDapp
