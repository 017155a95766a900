import EpsDapp.Delivery.Status
import EpsDapp.Intake.Binding
import EpsDapp.Store.Docket

/-!
# Whose a request is

A request is filed by the route, for the user and the organization of the session. After
that it is written to by its id: by the workers, by the demo routes, and by the recordings
on Hedera, that of the route included. The routes look a row up by its owner before they
write to it, and nothing changes the owner of a row in between. So whatever the users, the
workers and Hedera do to one database, a request stays what it was filed as; only the
workers and its filer move its status, and only the workers write what the chain has said
of it.
-/

set_option autoImplicit false

namespace EpsDapp

open Effect Calendar

/-! ## The docket -/

/-- Who writes to a row: a user in a session, a worker, or what runs in the background. -/
inductive Actor
  | user (session : Session)
  | worker
  | background

/-- The user of a session. -/
def Session.user (session : Session) : Option String :=
  (requireUser session).toOption.map UserAuthContext.userId

/-- The row as it was filed. -/
def ServiceRequest.filing (row : ServiceRequest) : ServiceRequest :=
  { row with
    status := .staged
    txSignature := none
    slot := none
    blockTime := none
    failureReason := none
    hedera := {} }

/-- What a delivery has come to on chain. -/
structure OnChain where
  txSignature : Option String
  slot : Option ℕ
  blockTime : Option Instant
  failureReason : Option String
  deriving DecidableEq

def ServiceRequest.onChain (row : ServiceRequest) : OnChain :=
  ⟨row.txSignature, row.slot, row.blockTime, row.failureReason⟩

/-- A row, with the Clerk organization that its own stands for. -/
structure FiledRequest where
  row : ServiceRequest
  clerkOrgId : Option String

/-- The Clerk organization of a row. -/
def Db.clerkOrgId (db : Db) (row : ServiceRequest) : Option String :=
  row.orgId.bind fun orgId => (db.organizations.get? orgId).map Organization.clerkOrgId

/-- The requests of a database as a docket. -/
def Db.docket (db : Db) : String → Option FiledRequest :=
  fun id => (db.request? id).map fun row => ⟨row, db.clerkOrgId row⟩

/-- The request is filed in the name of the session. -/
def Session.Files (session : Session) (e : FiledRequest) : Prop :=
  ∃ auth, requireUser session = .ok auth ∧ e.row.userId = some auth.userId ∧
    e.clerkOrgId = truthy auth.orgId

/-- Users file in their own name; what is filed in the background has no user. Nobody amends
what has been filed. Of the rest, the background writes the Hedera columns only, a user also
the status of requests of its own, and a worker everything. -/
def custody : Policy Actor FiledRequest where
  files
    | .user session, e => session.Files e ∧ e.row.filing = e.row
    | .worker, _ => False
    | .background, e => e.row.userId = none ∧ e.row.filing = e.row
  amends actor e e' := e'.row.filing = e.row.filing ∧ e'.clerkOrgId = e.clerkOrgId ∧
    match actor with
    | .user session => e.row.userId ≠ none ∧ session.user = e.row.userId ∧
        e'.row.onChain = e.row.onChain ∧
        (e'.row.status = e.row.status ∨ e'.row.status = .inProgress ∨
          e'.row.status = .confirmed)
    | .worker => True
    | .background => e'.row.onChain = e.row.onChain ∧ e'.row.status = e.row.status

/-! ## The system -/

/-- The calls of a user or a worker. -/
inductive TenantCall
  | server (c : ServerCall)
  | delivery (c : DeliveryCall)

@[reducible] def TenantCall.Resp : TenantCall → Type
  | server c => c.Resp
  | delivery c => c.Resp

abbrev tenantSig : Signature := ⟨TenantCall, TenantCall.Resp⟩

abbrev TenantProgram := Program tenantSig Failure

/-- What an actor may run. -/
inductive Actor.Runs (env : SystemEnv) : Actor → TenantProgram Unit → Prop
  | post (session : Session) (clientKey : String) (body : Option Json) :
      Actor.Runs env (.user session) ((fun _ => ()) <$>
        (postServiceRequests env.web3 env.worker.evmAppWalletAddress clientKey session body).lift
          (T := tenantSig) TenantCall.server fun _ r => r)
  | skipPayment (session : Session) (demoMode : Bool) (body : DemoBody) :
      Actor.Runs env (.user session) ((fun _ => ()) <$>
        (EpsDapp.skipPayment demoMode session body).lift
          (T := tenantSig) TenantCall.delivery fun _ r => r)
  | fulfill (session : Session) (demoMode : Bool) (hedera : HederaEnv) (timestamp : String)
      (body : DemoBody) :
      Actor.Runs env (.user session) ((fun _ => ()) <$>
        (EpsDapp.fulfill demoMode hedera timestamp session body).lift
          (T := tenantSig) TenantCall.delivery fun _ r => r)
  | runOnce : Actor.Runs env .worker ((fun _ => ()) <$>
      (EpsDapp.runOnce env.worker env.web3).lift
        (T := tenantSig) TenantCall.delivery fun _ r => r)

/-- The ids of the rows that a thread has created, or has found as those of its user. -/
def TenantCall.own (ids : List String) : (c : TenantCall) → Except Failure c.Resp → List String
  | .server (.serviceRequestCreate _), .ok id => (id : String) :: ids
  | .delivery (.serviceRequestFindOwned _ _), .ok (some row) => (row : ServiceRequest).id :: ids
  | _, _ => ids

/-- The organizations keep their Clerk organizations. -/
def Db.OrgsKept (db db' : Db) : Prop :=
  ∀ id org, db.organizations.get? id = some org →
    ∃ org', db'.organizations.get? id = some org' ∧ org'.clerkOrgId = org.clerkOrgId

/-- What goes on besides: an intake stages a request, a recording lands on the Hedera columns
of a row, or other tables are written. -/
inductive Db.Background (db : Db) : Db → Prop
  | stage (data : ServiceRequestCreate) {id : String} {orgId : Option String}
      {createdAt : Instant} (h : db.request? id = none) (huser : data.userId = none)
      (horg : db.Connects data.organization orgId) :
      Background db (db.insertRequest (data.row id orgId createdAt) h)
  | record (id : String) (u : HederaUpdate) : Background db (db.updateRequest id { hedera := u })
  | other {db' : Db} (hrows : db'.serviceRequests = db.serviceRequests)
      (horgs : db.OrgsKept db') : Background db db'

/-- Users and workers on one database; thread `i` acts as `who i`. -/
def tenants (ι : Type) (who : ι → Actor) (env : SystemEnv) :
    Machine tenantSig Failure Unit ι (List String) Db where
  idle := []
  observe ids c _ r := c.own ids r
  answers _ db c db' r :=
    match c, r with
    | .server c, r => c.Exec db db' r ∨ (db' = db ∧ ∃ e, r = .error e)
    | .delivery c, r => faultyAnswers db c db' r
  entry i := (who i).Runs env
  environment := Db.Background

abbrev TenantPool (ι : Type) := Pool tenantSig Failure Unit ι (List String) Db

/-- No request has been filed, and nobody is running. -/
def TenantPool.initial {ι : Type} (db : Db) : TenantPool ι :=
  ⟨{ db with serviceRequests := Table.empty }, fun _ => none⟩

/-- Who takes a step. -/
def actorOf {ι : Type} (who : ι → Actor) : Label tenantSig Failure ι → Actor
  | .act i _ _ | .finish i | .crash i | .start i => who i
  | .environment => .background

/-! ## What a step does to the docket -/

section Writes

variable {actor : Actor} {db db' : Db}

/-- A row that names an organization names one that exists. -/
def Db.Referenced (db : Db) : Prop :=
  ∀ row ∈ db.serviceRequests, ∀ orgId, row.orgId = some orgId →
    ∃ org, db.organizations.get? orgId = some org

/-- The actor moves the docket as the policy says, and the organizations stay. -/
structure Db.Moved (actor : Actor) (db db' : Db) : Prop where
  orgs : db.OrgsKept db'
  referenced : db.Referenced → db'.Referenced
  docket : db.Referenced → custody.Step actor db.docket db'.docket

theorem Db.OrgsKept.of_eq (h : db'.organizations = db.organizations) : db.OrgsKept db' :=
  fun _ org hid => ⟨org, by rw [h, hid], rfl⟩

/-- The Clerk organization of a row stays. -/
theorem Db.clerkOrgId_of_kept (h : db.Referenced) (hkept : db.OrgsKept db') {id : String}
    {row : ServiceRequest} (hrow : db.request? id = some row) :
    db'.clerkOrgId row = db.clerkOrgId row := by
  rw [Db.clerkOrgId, Db.clerkOrgId]
  cases horg : row.orgId with
  | none => rfl
  | some orgId =>
      obtain ⟨org, hget⟩ := h row ((db.request?_eq_some_iff id row).1 hrow).1 orgId horg
      obtain ⟨org', hget', hclerk⟩ := hkept orgId org hget
      simp only [Option.bind_some, hget, hget', Option.map_some, hclerk]

/-- Other tables are written. -/
theorem Db.Moved.of_rows (hrows : db'.serviceRequests = db.serviceRequests)
    (horgs : db.OrgsKept db') : Db.Moved actor db db' where
  orgs := horgs
  referenced h row hrow orgId horg := by
    rw [hrows] at hrow
    obtain ⟨org, hget⟩ := h row hrow orgId horg
    obtain ⟨org', hget', -⟩ := horgs orgId org hget
    exact ⟨org', hget'⟩
  docket h id := by
    have hsame : db'.docket id = db.docket id := by
      rw [Db.docket, Db.docket, Db.request?, hrows, ← Db.request?]
      cases hrow : db.request? id with
      | none => rfl
      | some row => simp only [Option.map_some, Db.clerkOrgId_of_kept h horgs hrow]
    rw [hsame]
    exact .keep _

/-- A row is updated, as the actor may. -/
theorem Db.Moved.of_update {id : String} {u : ServiceRequestUpdate}
    (hrows : db'.serviceRequests = (db.updateRequest id u).serviceRequests)
    (horgs : db'.organizations = db.organizations)
    (hu : ∀ row, db.request? id = some row →
      custody.amends actor ⟨row, db.clerkOrgId row⟩ ⟨u.apply row, db.clerkOrgId row⟩) :
    Db.Moved actor db db' where
  orgs := .of_eq horgs
  referenced h row hrow orgId horg := by
    rw [horgs]
    have hget : (db.updateRequest id u).request? row.id = some row := by
      refine ((db.updateRequest id u).request?_eq_some_iff row.id row).2 ⟨?_, rfl⟩
      rwa [← hrows]
    rw [Db.request?_updateRequest] at hget
    split at hget
    · obtain ⟨old, hold, rfl⟩ := Option.map_eq_some_iff.1 hget
      exact h old ((db.request?_eq_some_iff id old).1 hold).1 orgId horg
    · exact h row ((db.request?_eq_some_iff row.id row).1 hget).1 orgId horg
  docket h j := by
    have hclerk : db'.clerkOrgId = db.clerkOrgId := by
      funext row
      rw [Db.clerkOrgId, horgs, ← Db.clerkOrgId]
    have hget : db'.request? j =
        if j = id then (db.request? id).map u.apply else db.request? j := by
      rw [← Db.request?_updateRequest, Db.request?, hrows, ← Db.request?]
    rw [Db.docket, Db.docket, hget, hclerk]
    split
    · rename_i hj
      subst hj
      cases hrow : db.request? j with
      | none => exact .keep _
      | some row => exact .amend (hu row hrow)
    · exact .keep _

theorem ServerCall.request?_create (data : ServiceRequestCreate) {id : String}
    {orgId : Option String} {createdAt : Instant} (h : db.request? id = none) (j : String) :
    (db.insertRequest (data.row id orgId createdAt) h).request? j =
      if j = id then some (data.row id orgId createdAt) else db.request? j :=
  Db.request?_insertRequest db (data.row id orgId createdAt) h j

/-- The organization that a filing is connected to is that of its row. -/
theorem Db.clerkOrgId_of_connects {organization orgId : Option String}
    (h : db.Connects organization orgId) {row : ServiceRequest} (hrow : row.orgId = orgId) :
    db.clerkOrgId row = organization ∧
      ∀ o, orgId = some o → ∃ org, db.organizations.get? o = some org := by
  rw [Db.clerkOrgId, hrow]
  cases organization with
  | none =>
      obtain rfl : orgId = none := h
      exact ⟨rfl, fun o ho => by cases ho⟩
  | some clerkOrgId =>
      obtain ⟨org, hmem, rfl, rfl⟩ := h
      have hget := db.organizations.get?_key_eq hmem
      refine ⟨?_, fun o ho => ?_⟩
      · rw [Option.bind_some, hget, Option.map_some]
      · obtain rfl := Option.some.inj ho
        exact ⟨org, hget⟩

/-- A row is filed, as the actor may. -/
theorem Db.Moved.of_insert (data : ServiceRequestCreate) {id : String} {orgId : Option String}
    {createdAt : Instant} (h : db.request? id = none) (horg : db.Connects data.organization orgId)
    (hfiles : custody.files actor ⟨data.row id orgId createdAt, data.organization⟩) :
    Db.Moved actor db (db.insertRequest (data.row id orgId createdAt) h) where
  orgs := .of_eq rfl
  referenced href row hrow o ho := by
    have hget := (Db.request?_eq_some_iff _ row.id row).2 ⟨hrow, rfl⟩
    rw [ServerCall.request?_create] at hget
    split at hget
    · cases hget
      have hrow : (data.row id orgId createdAt).orgId = orgId := rfl
      exact (Db.clerkOrgId_of_connects horg hrow).2 o ho
    · exact href row ((db.request?_eq_some_iff row.id row).1 hget).1 o ho
  docket href j := by
    rw [Db.docket, Db.docket, ServerCall.request?_create]
    split
    · rename_i hj
      subst hj
      rw [h]
      refine .file ?_
      show custody.files actor
        ⟨data.row j orgId createdAt, db.clerkOrgId (data.row j orgId createdAt)⟩
      have hrow : (data.row j orgId createdAt).orgId = orgId := rfl
      rw [(Db.clerkOrgId_of_connects horg hrow).1]
      exact hfiles
    · exact .keep _

end Writes

/-! ## The protocol -/

/-- The calls of the route: it files in the name of the session, and records on Hedera for
what it has filed. -/
def ServerCall.OfFiler (session : Session) (ids : List String) : ServerCall → Prop
  | rateLimit _ | quota _ | resolveENS _ | getAgentENSName | recordOnHedera _ => True
  | serviceRequestCreate data => ∃ auth, requireUser session = .ok auth ∧
      data.userId = some auth.userId ∧ data.organization = truthy auth.orgId
  | serviceRequestUpdate id data => id ∈ ids ∧ ∃ u, data = { hedera := u }
  | _ => False

/-- The calls of a demo route: it looks for rows of the user, and writes to those it has
found. -/
def DeliveryCall.OfOwner (session : Session) (ids : List String) : DeliveryCall → Prop
  | serviceRequestFindOwned _ userId => ∃ auth, requireUser session = .ok auth ∧
      userId = auth.userId
  | serviceRequestUpdate id data => id ∈ ids ∧ ∃ s u, data = { status := some s, hedera := u } ∧
      (s = .inProgress ∨ s = .confirmed)
  | topicMessageSubmit _ | mintAndTransferProofNFT _ => True
  | _ => False

/-- What an actor may call, when the rows `ids` are its own. -/
def Actor.Allows : Actor → List String → TenantCall → Prop
  | user session, ids, .server c => c.OfFiler session ids
  | user session, ids, .delivery c => c.OfOwner session ids
  | worker, _, .delivery _ => True
  | _, _, _ => False

/-- The rows that a call and its answer leave a thread with. -/
def TenantCall.Follows : Answers tenantSig Failure (List String) :=
  fun ids c ids' r => ids' = c.own ids r

section Conform

variable {session : Session}

/-- The calls by which the rows of a thread stay the same. -/
def ServerCall.Steady (session : Session) (c : ServerCall) : Prop :=
  ∀ ids, c.OfFiler session ids ∧ ∀ r, (TenantCall.server c).own ids r = ids

/-- How the rows of a thread follow the calls of the route. -/
abbrev serverOwn : Answers serverSig Failure (List String) :=
  fun ids c ids' r => ids' = (TenantCall.server c).own ids r

theorem ServerCall.Steady.wp {α : Type} {p : ServerProgram α}
    (hp : p.Only (ServerCall.Steady session)) (ids : List String) :
    p.wp serverOwn (fun ids c => c.OfFiler session ids) (fun _ ids' => ids' = ids) ids := by
  refine hp.wp (J := fun ids' => ids' = ids) ?_ (fun ids' c hc _ => (hc ids').1) rfl
  rintro _ c ids' r hc rfl rfl
  exact (hc _).2 r

theorem ServerCall.steady_quota (c : QuotaCall) : (ServerCall.quota c).Steady session :=
  fun _ => ⟨trivial, fun _ => rfl⟩

theorem resolveRecipient_steady (input : ServiceRequestInput) :
    (resolveRecipient input).Only (ServerCall.Steady session) := by
  rw [resolveRecipient]
  split
  · exact Program.only_bind ((Program.only_perform _).2 fun _ => ⟨trivial, fun _ => rfl⟩)
      fun _ => Program.only_pure _
  · exact Program.only_pure _

/-- The route records on Hedera for the request it has created. -/
theorem anchorOnHedera_conforms {id : String} {ids : List String} (hid : id ∈ ids)
    (payload : HederaPayload) :
    (anchorOnHedera id payload).wp serverOwn (fun ids c => c.OfFiler session ids)
      (fun _ _ => True) ids := by
  refine (Program.wp_tryCatch _ _ _ _).2 ((Program.wp_bind _ _ _ _).2
    ((Program.wp_perform _ _ _).2 ⟨trivial, ?_⟩))
  rintro _ r rfl
  cases r with
  | error e => trivial
  | ok result =>
      dsimp only
      split
      · refine (Program.wp_perform _ _ _).2 ⟨⟨hid, _, rfl⟩, ?_⟩
        rintro _ (e | _) _
        · trivial
        · trivial
      · trivial

theorem stage_conforms {auth : UserAuthContext} (hauth : requireUser session = .ok auth)
    (evmAppWalletAddress : Option String) (input : ServiceRequestInput) (recipient : Recipient)
    (agentENSName : Option String) (ids : List String) :
    (stage evmAppWalletAddress input auth recipient agentENSName).wp serverOwn
      (fun ids c => c.OfFiler session ids) (fun _ _ => True) ids := by
  refine Program.wp_seq (ServerCall.Steady.wp (quota_only ServerCall.steady_quota _) ids)
    (fun attestedAt ids' _ => ?_) fun _ _ _ => trivial
  refine (Program.wp_bind _ _ _ _).2 ((Program.wp_perform _ _ _).2 ⟨⟨auth, hauth, rfl, rfl⟩, ?_⟩)
  rintro _ r rfl
  cases r with
  | error e => trivial
  | ok id =>
      exact Program.wp_seq (anchorOnHedera_conforms List.mem_cons_self _)
        (fun _ _ _ => trivial) fun _ _ _ => trivial

theorem serve_conforms {auth : UserAuthContext} (hauth : requireUser session = .ok auth)
    (web3 : Web3) (evmAppWalletAddress : Option String) (input : ServiceRequestInput)
    (ids : List String) :
    (serve web3 evmAppWalletAddress input auth).wp serverOwn
      (fun ids c => c.OfFiler session ids) (fun _ _ => True) ids := by
  refine Program.wp_seq (ServerCall.Steady.wp (resolveRecipient_steady input) ids)
    (fun resolved ids' _ => ?_) fun _ _ _ => trivial
  cases resolved with
  | error response => trivial
  | ok recipient =>
      refine (Program.wp_bind _ _ _ _).2 ((Program.wp_perform _ _ _).2 ⟨trivial, ?_⟩)
      rintro _ r rfl
      cases r with
      | error e => trivial
      | ok agentENSName =>
          dsimp only
          cases refuseWallet web3 recipient.wallet with
          | error e => trivial
          | ok refused =>
              cases refused with
              | some response => trivial
              | none =>
                  show Program.wp _ _ (chargeOrg auth.orgId >>= _) _ _
                  refine Program.wp_seq (ServerCall.Steady.wp
                    (chargeOrg_only ServerCall.steady_quota _) _) (fun charged ids'' _ => ?_)
                    fun _ _ _ => trivial
                  cases charged with
                  | some response => trivial
                  | none => exact stage_conforms hauth _ _ _ _ _

theorem postServiceRequests_conforms (web3 : Web3) (evmAppWalletAddress : Option String)
    (clientKey : String) (session : Session) (body : Option Json) :
    (postServiceRequests web3 evmAppWalletAddress clientKey session body).wp serverOwn
      (fun ids c => c.OfFiler session ids) (fun _ _ => True) [] := by
  refine (Program.wp_bind _ _ _ _).2 ((Program.wp_perform _ _ _).2 ⟨trivial, ?_⟩)
  rintro _ (e | _ | _) rfl
  · trivial
  · dsimp only
    split
    · trivial
    · rename_i auth hauth
      split
      · trivial
      · split
        · trivial
        · exact serve_conforms hauth _ _ _ _
  · trivial

/-- How the rows of a thread follow the calls of a demo route. -/
abbrev deliveryOwn : Answers deliverySig Failure (List String) :=
  fun ids c ids' r => ids' = (TenantCall.delivery c).own ids r

/-- The calls of a demo route by which the rows of a thread stay the same. -/
def DeliveryCall.Steady (session : Session) (ids : List String) (c : DeliveryCall) : Prop :=
  c.OfOwner session ids ∧ ∀ ids' r, (TenantCall.delivery c).own ids' r = ids'

/-- A demo route looks for the row as one of its user. -/
theorem demoRoute_conforms {demoMode : Bool} {body : DemoBody}
    {handler : String → String → DeliveryProgram DemoResponse}
    (h : ∀ auth id, requireUser session = .ok auth →
      (handler id auth.userId).wp deliveryOwn (fun ids c => c.OfOwner session ids)
        (fun _ _ => True) []) :
    (demoRoute demoMode session body handler).wp deliveryOwn (fun ids c => c.OfOwner session ids)
      (fun _ _ => True) [] := by
  rw [demoRoute]
  split
  · split
    · trivial
    · trivial
    · rename_i auth hauth
      split
      · trivial
      · split
        · trivial
        · exact h auth _ hauth
  · trivial

/-- What a demo route does with the row that it has found is done to a row of its own. -/
theorem findOwned_conforms {auth : UserAuthContext} (hauth : requireUser session = .ok auth)
    {id : String} {k : Option ServiceRequest → DeliveryProgram DemoResponse}
    (hnone : (k none).wp deliveryOwn (fun ids c => c.OfOwner session ids) (fun _ _ => True) [])
    (hsome : ∀ row, (k (some row)).wp deliveryOwn (fun ids c => c.OfOwner session ids)
      (fun _ _ => True) [row.id]) :
    (DeliveryProgram.findOwned id auth.userId >>= k).wp deliveryOwn
      (fun ids c => c.OfOwner session ids) (fun _ _ => True) [] := by
  refine (Program.wp_bind _ _ _ _).2 ((Program.wp_perform _ _ _).2 ⟨⟨auth, hauth, rfl⟩, ?_⟩)
  rintro _ (e | _ | row) rfl
  · trivial
  · exact hnone
  · exact hsome row

theorem skipPayment_conforms (demoMode : Bool) (session : Session) (body : DemoBody) :
    (skipPayment demoMode session body).wp deliveryOwn (fun ids c => c.OfOwner session ids)
      (fun _ _ => True) [] := by
  refine demoRoute_conforms fun auth id hauth => findOwned_conforms hauth trivial fun row => ?_
  show Program.wp _ _ (ite _ _ _) _ _
  split
  · trivial
  · refine (Program.wp_bind _ _ _ _).2 ((Program.wp_perform _ _ _).2
      ⟨⟨List.mem_singleton_self _, .inProgress, {}, rfl, Or.inl rfl⟩, ?_⟩)
    rintro _ (e | updated) _
    · trivial
    · trivial

theorem fulfillProof_conforms (env : HederaEnv) (timestamp topicId : String)
    (row : ServiceRequest) :
    (fulfillProof env timestamp topicId row).wp deliveryOwn (fun ids c => c.OfOwner session ids)
      (fun _ _ => True) [row.id] := by
  have hcaught : ∀ {c : DeliveryCall}, c.Steady session [row.id] →
      Program.Only (DeliveryCall.Steady session [row.id])
      (tryCatch (Except.ok <$> Program.perform (S := deliverySig) c)
        fun e => pure (Except.error (ε := Failure) e)) :=
    fun hc => Program.only_tryCatch (Program.only_map _ ((Program.only_perform _).2 hc))
      fun _ => Program.only_pure _
  have honly : (fulfillProof env timestamp topicId row).Only
      (DeliveryCall.Steady session [row.id]) := by
    rw [fulfillProof]
    split
    · exact Program.only_throw _
    · refine Program.only_bind (hcaught (c := .topicMessageSubmit row.id) ⟨trivial, fun _ _ => rfl⟩)
        fun submitted => ?_
      split
      · exact Program.only_pure _
      · refine Program.only_bind (hcaught (c := .mintAndTransferProofNFT row.id)
          ⟨trivial, fun _ _ => rfl⟩) fun minted => ?_
        refine Program.only_bind ((Program.only_perform _).2 ⟨⟨List.mem_singleton_self _,
          .confirmed, _, rfl, Or.inr rfl⟩, fun _ _ => rfl⟩) fun _ => ?_
        exact Program.only_pure _
  refine Program.wp_post _ (fun _ _ _ => trivial)
    (honly.wp (J := fun ids => ids = [row.id]) ?_ ?_ rfl)
  · rintro _ c ids' r hc rfl rfl
    exact hc.2 _ r
  · rintro _ c hc rfl
    exact hc.1

theorem fulfill_conforms (demoMode : Bool) (hedera : HederaEnv) (timestamp : String)
    (session : Session) (body : DemoBody) :
    (fulfill demoMode hedera timestamp session body).wp deliveryOwn
      (fun ids c => c.OfOwner session ids) (fun _ _ => True) [] := by
  refine demoRoute_conforms fun auth id hauth => findOwned_conforms hauth trivial fun row => ?_
  dsimp only
  split
  · trivial
  · trivial
  · split
    · exact fulfillProof_conforms _ _ _ _
    · trivial

/-- Every actor obeys the protocol. -/
theorem Actor.Runs.conforms {env : SystemEnv} {actor : Actor} {p : TenantProgram Unit}
    (h : actor.Runs env p) :
    Machine.Conforms TenantCall.Follows actor.Allows p [] := by
  have hserver : ∀ {session : Session} {α : Type} {p : ServerProgram α},
      p.wp serverOwn (fun ids c => c.OfFiler session ids) (fun _ _ => True) [] →
        Machine.Conforms TenantCall.Follows (Actor.user session).Allows ((fun _ => ()) <$>
          p.lift (T := tenantSig) TenantCall.server fun _ r => r) [] := by
    intro session α p hp
    refine (Program.wp_map _ _ _ _).2 ((Program.wp_lift _ _).2 ?_)
    refine Program.wp_mono _ ?_ (fun _ _ h => h) (fun _ _ _ => trivial) hp
    rintro ids c ids' r ⟨r', h, rfl⟩
    exact h
  have hdelivery : ∀ {session : Session} {α : Type} {p : DeliveryProgram α},
      p.wp deliveryOwn (fun ids c => c.OfOwner session ids) (fun _ _ => True) [] →
        Machine.Conforms TenantCall.Follows (Actor.user session).Allows ((fun _ => ()) <$>
          p.lift (T := tenantSig) TenantCall.delivery fun _ r => r) [] := by
    intro session α p hp
    refine (Program.wp_map _ _ _ _).2 ((Program.wp_lift _ _).2 ?_)
    refine Program.wp_mono _ ?_ (fun _ _ h => h) (fun _ _ _ => trivial) hp
    rintro ids c ids' r ⟨r', h, rfl⟩
    exact h
  cases h with
  | post session clientKey body => exact hserver (postServiceRequests_conforms _ _ _ _ _)
  | skipPayment session demoMode body => exact hdelivery (skipPayment_conforms _ _ _)
  | fulfill session demoMode hedera timestamp body =>
      exact hdelivery (fulfill_conforms _ _ _ _ _)
  | runOnce =>
      refine (Program.wp_map _ _ _ _).2 ?_
      refine Program.wp_post _ (fun _ _ _ => trivial) ((Program.only_lift _).wp
        (J := fun _ => True) (fun _ _ _ _ _ _ _ => trivial) ?_ trivial)
      rintro ids _ ⟨c, rfl⟩ _
      trivial

end Conform

/-! ## What the answers do -/

section Answers

variable {actor : Actor} {session : Session} {ids : List String} {db db' : Db}

/-- The row is there, and its user is that of the session. -/
def Db.FiledBy (db : Db) (session : Session) (id : String) : Prop :=
  ∃ row, db.request? id = some row ∧ row.userId ≠ none ∧ session.user = row.userId

theorem Db.docket_of_some {id : String} {row : ServiceRequest} (h : db.request? id = some row) :
    db.docket id = some ⟨row, db.clerkOrgId row⟩ := by
  rw [Db.docket, h, Option.map_some]

theorem Db.request?_of_docket {id : String} {e : FiledRequest} (h : db.docket id = some e) :
    db.request? id = some e.row ∧ e.clerkOrgId = db.clerkOrgId e.row := by
  obtain ⟨row, hrow, rfl⟩ := Option.map_eq_some_iff.1 h
  exact ⟨hrow, rfl⟩

theorem Db.FiledBy.moved {id : String} (h : db.FiledBy session id) (href : db.Referenced)
    (hmoved : Db.Moved actor db db') : db'.FiledBy session id := by
  obtain ⟨row, hrow, hne, huser⟩ := h
  have hstep := hmoved.docket href id
  rw [Db.docket_of_some hrow] at hstep
  obtain ⟨e, he, hchange⟩ := hstep.of_some
  have hsame : e.row.userId = row.userId := by
    rcases hchange with rfl | hamends
    · rfl
    · have hfiling := congrArg ServiceRequest.userId hamends.1
      exact hfiling
  exact ⟨e.row, (Db.request?_of_docket he).1, hsame ▸ hne, huser.trans hsame.symm⟩

/-- A write of its owner. -/
theorem custody_amends_of_owned {id : String} {u : ServiceRequestUpdate}
    (howned : db.FiledBy session id) {row : ServiceRequest}
    (hrow : db.request? id = some row)
    (hstatus : (u.apply row).status = row.status ∨ (u.apply row).status = .inProgress ∨
      (u.apply row).status = .confirmed)
    (honChain : (u.apply row).onChain = row.onChain) :
    custody.amends (.user session) ⟨row, db.clerkOrgId row⟩ ⟨u.apply row, db.clerkOrgId row⟩ := by
  obtain ⟨row', hrow', hne, huser⟩ := howned
  obtain rfl : row = row' := Option.some.inj (hrow.symm.trans hrow')
  exact ⟨rfl, rfl, hne, huser, honChain, hstatus⟩

theorem Db.moved_of_filer {c : ServerCall} {r : Except Failure c.Resp}
    (hc : c.OfFiler session ids) (howned : ∀ id ∈ ids, db.FiledBy session id)
    (h : c.Exec db db' r) : Db.Moved (.user session) db db' := by
  cases c with
  | rateLimit _ | resolveENS _ | getAgentENSName =>
      obtain ⟨rfl, -⟩ := h
      exact .of_rows rfl (.of_eq rfl)
  | recordOnHedera _ =>
      obtain rfl : db' = db := h
      exact .of_rows rfl (.of_eq rfl)
  | quota c =>
      obtain ⟨subscriptions, rfl⟩ := QuotaCall.Exec.subscriptions h
      exact .of_rows rfl (.of_eq rfl)
  | serviceRequestCreate data =>
      rcases h with ⟨-, id, orgId, createdAt, hfree, horg, rfl, -⟩ | ⟨rfl, -⟩ | ⟨rfl, -⟩
      · obtain ⟨auth, hauth, huser, horganization⟩ := hc
        exact .of_insert data hfree horg ⟨⟨auth, hauth, huser, horganization⟩, rfl⟩
      · exact .of_rows rfl (.of_eq rfl)
      · exact .of_rows rfl (.of_eq rfl)
  | serviceRequestUpdate id data =>
      obtain ⟨hid, u, rfl⟩ := hc
      simp only [ServerCall.Exec] at h
      split at h
      · obtain ⟨rfl, -⟩ := h
        exact .of_update rfl rfl fun row hrow =>
          custody_amends_of_owned (howned id hid) hrow (Or.inl rfl) rfl
      · obtain ⟨rfl, -⟩ := h
        exact .of_rows rfl (.of_eq rfl)
  | _ => exact hc.elim

theorem Db.credit_organizations (db : Db) (sel : Option Subscription) :
    (db.credit sel).1.organizations = db.organizations := by
  cases sel with
  | none => rfl
  | some s =>
      simp only [Db.credit, Db.updateSubscriptionWhere]
      split
      · split
        · rfl
        · rfl
      · rfl

theorem Db.organizations_of_faultyAnswers {c : DeliveryCall} {r : Except Failure c.Resp}
    (h : faultyAnswers db c db' r) : db'.organizations = db.organizations := by
  rcases h with h | ⟨_, rfl, -⟩
  · cases c with
    | failServiceRequest input =>
        rcases failServiceRequest_commits_or_throws h with
          ⟨row, _, sel, _, _, _, _, rfl, rfl⟩ | ⟨rfl, -⟩
        · exact Db.credit_organizations _ sel
        · rfl
    | serviceRequestClaim id =>
        obtain ⟨rfl, -⟩ := h
        rw [Db.claim]
        split
        · split
          · rfl
          · rfl
        · rfl
    | serviceRequestUpdate id data =>
        simp only [DeliveryCall.Exec] at h
        split at h
        · exact h.1 ▸ rfl
        · exact h.1 ▸ rfl
    | serviceRequestFindClaimable | serviceRequestFindOwned _ _ | record _ => exact h.1 ▸ rfl
    | chain _ | topicMessageSubmit _ | mintAndTransferProofNFT _ =>
        obtain rfl : db' = db := h
        rfl
  · rfl

/-- A call of a demo route is a move of its user. -/
theorem Db.moved_of_owner {c : DeliveryCall} {r : Except Failure c.Resp}
    (hc : c.OfOwner session ids) (howned : ∀ id ∈ ids, db.FiledBy session id)
    (h : faultyAnswers db c db' r) : Db.Moved (.user session) db db' := by
  have horgs := Db.organizations_of_faultyAnswers h
  rcases rows_of_faultyAnswers h with ⟨id, u, row, hwrite, -, -, hrows⟩ | ⟨-, hrows⟩
  · refine .of_update hrows horgs fun row hrow => ?_
    cases c with
    | serviceRequestUpdate i data =>
        obtain ⟨hid, s, hedera, rfl, hs⟩ := hc
        rcases r with e | updated
        · cases hwrite
        · cases hwrite
          exact custody_amends_of_owned (howned _ hid) hrow (Or.inr hs) rfl
    | serviceRequestFindOwned i userId => cases hwrite
    | topicMessageSubmit i => cases hwrite
    | mintAndTransferProofNFT i => cases hwrite
    | _ => exact hc.elim
  · exact .of_rows hrows (.of_eq horgs)

/-- Any call of a worker is a move of a worker. -/
theorem Db.moved_of_worker {c : DeliveryCall} {r : Except Failure c.Resp}
    (h : faultyAnswers db c db' r) : Db.Moved .worker db db' := by
  have horgs := Db.organizations_of_faultyAnswers h
  rcases rows_of_faultyAnswers h with ⟨id, u, row, -, -, -, hrows⟩ | ⟨-, hrows⟩
  · exact .of_update hrows horgs fun row hrow => ⟨rfl, rfl, trivial⟩
  · exact .of_rows hrows (.of_eq horgs)

theorem Db.Background.moved (h : db.Background db') : Db.Moved .background db db' := by
  cases h with
  | stage data h huser horg => exact .of_insert data h horg ⟨huser, rfl⟩
  | record id u => exact .of_update rfl rfl fun row hrow => ⟨rfl, rfl, rfl, rfl⟩
  | other hrows horgs => exact .of_rows hrows horgs

/-- What a filing that has returned has created is its own. -/
theorem Db.ownedBy_of_create {auth : UserAuthContext} (hauth : requireUser session = .ok auth)
    {data : ServiceRequestCreate} (huser : data.userId = some auth.userId) {id : String}
    (h : (ServerCall.serviceRequestCreate data).Exec db db' (.ok id)) :
    db'.FiledBy session id := by
  rcases h with ⟨-, i, orgId, createdAt, hfree, -, rfl, hid⟩ | ⟨-, -, hr⟩ | ⟨-, -, hr⟩
  · obtain rfl := Except.ok.inj hid
    refine ⟨data.row id orgId createdAt, ?_, ?_, ?_⟩
    · rw [ServerCall.request?_create, if_pos rfl]
    · show data.userId ≠ none
      rw [huser]
      exact Option.some_ne_none _
    · show session.user = data.userId
      rw [huser, Session.user, hauth]
      rfl
  · cases hr
  · cases hr

/-- A row that a demo route has found is of its user. -/
theorem Db.ownedBy_of_found {auth : UserAuthContext} (hauth : requireUser session = .ok auth)
    {id : String} {row : ServiceRequest}
    (h : faultyAnswers db (.serviceRequestFindOwned id auth.userId) db' (.ok (some row))) :
    db'.FiledBy session row.id := by
  rcases h with ⟨rfl, hrow⟩ | ⟨-, -, e, he⟩
  · obtain ⟨hget, howner⟩ := Option.filter_eq_some_iff.1 (Except.ok.inj hrow).symm
    have huser : row.userId = some auth.userId := beq_iff_eq.1 howner
    refine ⟨row, ?_, huser ▸ Option.some_ne_none _, ?_⟩
    · rwa [db'.request?_id hget]
    · rw [huser, Session.user, hauth]
      rfl
  · cases he

end Answers

/-! ## Any run -/

section Run

variable {ι : Type} {who : ι → Actor} {env : SystemEnv}

/-- What holds of the pool throughout. -/
structure TenantPool.Inv (who : ι → Actor) (c : TenantPool ι) : Prop where
  conform : ∀ i, Machine.Ends TenantCall.Follows (who i).Allows (fun _ _ => True) i c
  owned : ∀ i t session, c.thread i = some t → who i = .user session →
    ∀ id ∈ t.mark, c.world.FiledBy session id
  referenced : c.world.Referenced

theorem TenantPool.inv_initial (who : ι → Actor) (db : Db) :
    (TenantPool.initial db : TenantPool ι).Inv who where
  conform _ _ h := by cases h
  owned _ _ _ h := by cases h
  referenced _ h := by cases h

/-- A call of a user is a move of the user, and leaves the thread with rows of its own. -/
theorem moved_of_user {session : Session} {ids : List String} {db db' : Db} {c : TenantCall}
    {r : Except Failure c.Resp} (hc : (Actor.user session).Allows ids c)
    (howned : ∀ id ∈ ids, db.FiledBy session id)
    (h : (tenants ι who env).answers ids db c db' r) :
    Db.Moved (.user session) db db' ∧
      ∀ id ∈ c.own ids r, id ∈ ids ∨ db'.FiledBy session id := by
  cases c with
  | server c =>
      rcases h with h | ⟨rfl, e, rfl⟩
      · refine ⟨Db.moved_of_filer hc howned h, fun id hid => ?_⟩
        cases c with
        | serviceRequestCreate data =>
            cases r with
            | error e => exact Or.inl hid
            | ok i =>
                rcases List.mem_cons.1 hid with rfl | hid
                · obtain ⟨auth, hauth, huser, -⟩ := hc
                  exact Or.inr (Db.ownedBy_of_create hauth huser h)
                · exact Or.inl hid
        | _ => exact Or.inl hid
      · refine ⟨.of_rows rfl (.of_eq rfl), fun id hid => Or.inl ?_⟩
        cases c <;> exact hid
  | delivery c =>
      refine ⟨Db.moved_of_owner hc howned h, fun id hid => ?_⟩
      cases c with
      | serviceRequestFindOwned i userId =>
          rcases r with e | _ | row
          · exact Or.inl hid
          · exact Or.inl hid
          · rcases List.mem_cons.1 hid with rfl | hid
            · obtain ⟨auth, hauth, rfl⟩ := hc
              exact Or.inr (Db.ownedBy_of_found hauth h)
            · exact Or.inl hid
      | _ => exact Or.inl hid

/-- A call of an actor is a move of it. -/
theorem moved_of_answers {actor : Actor} {ids : List String} {db db' : Db} {c : TenantCall}
    {r : Except Failure c.Resp} (hc : actor.Allows ids c)
    (howned : ∀ session, actor = .user session → ∀ id ∈ ids, db.FiledBy session id)
    (h : (tenants ι who env).answers ids db c db' r) : Db.Moved actor db db' := by
  cases actor with
  | user session => exact (moved_of_user hc (howned session rfl) h).1
  | background => cases c <;> exact hc.elim
  | worker =>
      cases c with
      | server c => exact hc.elim
      | delivery c => exact Db.moved_of_worker h

theorem Db.Moved.refl (actor : Actor) (db : Db) : Db.Moved actor db db := .of_rows rfl (.of_eq rfl)

variable [DecidableEq ι]

theorem TenantPool.Inv.moved {c c' : TenantPool ι} {l : Label tenantSig Failure ι}
    (hc : c.Inv who) (h : (tenants ι who env).Step c l c') :
    Db.Moved (actorOf who l) c.world c'.world := by
  cases h with
  | @act i o k m w r hthread hanswer =>
      exact moved_of_answers (hc.conform i _ hthread).1
        (fun session hwho => hc.owned i _ session hthread hwho) hanswer
  | environment henv => exact henv.moved
  | finish _ _ | crash _ _ | start _ _ => exact .refl _ _

theorem TenantPool.Inv.step {c c' : TenantPool ι} {l : Label tenantSig Failure ι}
    (hc : c.Inv who) (h : (tenants ι who env).Step c l c') : c'.Inv who := by
  have hmoved := hc.moved h
  refine ⟨fun i => ?_, fun j t session ht hwho => ?_, hmoved.referenced hc.referenced⟩
  · refine Machine.ends_step ?_ ?_ (hc.conform i) h
    · intro m w o w' r _
      rfl
    · intro p hp
      exact Actor.Runs.conforms hp
  · have hold : c.thread j = some t → ∀ id ∈ t.mark, c'.world.FiledBy session id :=
      fun ht id hid => (hc.owned j t session ht hwho id hid).moved hc.referenced hmoved
    cases h with
    | @act i o k m w r hthread hanswer =>
        rcases Machine.thread_of_update ht with ⟨rfl, hnew⟩ | ⟨_, hold'⟩
        · cases hnew
          have hallowed := (hc.conform j _ hthread).1
          rw [hwho] at hallowed
          have howned := hc.owned j _ session hthread hwho
          intro id hid
          rcases (moved_of_user hallowed howned hanswer).2 id hid with hid | hnew
          · exact (howned id hid).moved hc.referenced hmoved
          · exact hnew
        · exact hold hold'
    | finish _ _ | crash _ _ =>
        rcases Machine.thread_of_update ht with ⟨_, hnew⟩ | ⟨_, hold'⟩
        · cases hnew
        · exact hold hold'
    | start _ _ =>
        rcases Machine.thread_of_update ht with ⟨_, hnew⟩ | ⟨_, hold'⟩
        · cases hnew
          intro id hid
          cases hid
        · exact hold hold'
    | environment _ => exact hold ht

/-- The pool keeps the docket. -/
theorem tenants_refines (who : ι → Actor) (env : SystemEnv) :
    custody.Refines (tenants ι who env).Step (fun c => c.world.docket) (actorOf who)
      (TenantPool.Inv who) where
  inv _ _ _ hc h := hc.step h
  moves _ _ _ hc h := (hc.moved h).docket hc.referenced

/-- An amendment leaves what has been filed. -/
theorem filing_of_amended {e e' : FiledRequest} (h : custody.Amended e e') :
    e'.row.filing = e.row.filing ∧ e'.clerkOrgId = e.clerkOrgId := by
  let filed (e : FiledRequest) : ServiceRequest × Option String := (e.row.filing, e.clerkOrgId)
  have hfiled : ∀ actor e e', custody.amends actor e e' → filed e' = filed e :=
    fun _ _ _ hamends => Prod.ext hamends.1 hamends.2.1
  exact Prod.ext_iff.1 (h.eq hfiled)

theorem userId_of_amended {e e' : FiledRequest} (h : custody.Amended e e') :
    e'.row.userId = e.row.userId := by
  have huser := congrArg ServiceRequest.userId (filing_of_amended h).1
  exact huser

/-- What the filers of the requests of a state, and their users, may count on. -/
structure TenantPool.InCustody (who : ι → Actor) (env : SystemEnv) (c : TenantPool ι) : Prop where
  /-- A request has no user, or was filed by that user in a session of the organization. -/
  filed : ∀ id row, c.world.request? id = some row → row.userId = none ∨
    ∃ i session auth, who i = .user session ∧ requireUser session = .ok auth ∧
      row.userId = some auth.userId ∧ c.world.clerkOrgId row = truthy auth.orgId
  /-- From the state on, it stays as it was filed; its status changes by a step of a worker or
  of a session of its user, and what the chain has said of it by one of a worker. -/
  kept : ∀ run, IsRun (tenants ι who env).Step c run → ∀ c' ∈ statesOf c run,
    ∀ id row, c.world.request? id = some row → ∃ row', c'.world.request? id = some row' ∧
      row'.filing = row.filing ∧ c'.world.clerkOrgId row' = c.world.clerkOrgId row ∧
      (row'.status ≠ row.status → ∃ p ∈ run, actorOf who p.1 = .worker ∨
        ∃ session, actorOf who p.1 = .user session ∧ row.userId ≠ none ∧
          session.user = row.userId) ∧
      (row'.onChain ≠ row.onChain → ∃ p ∈ run, actorOf who p.1 = .worker)

/-- Whatever the users, the workers and Hedera do, in any interleaving and with crashes, the
requests are in custody. -/
theorem requests_in_custody {db : Db} {c : TenantPool ι}
    (hc : Reaches (tenants ι who env).Step (TenantPool.initial db) c) :
    c.InCustody who env := by
  have hinv : c.Inv who :=
    hc.invariant (fun _ _ _ h hstep => h.step hstep) (TenantPool.inv_initial who db)
  refine ⟨fun id row hrow => ?_, fun run hrun c' hc' id row hrow => ?_⟩
  · obtain ⟨l, e₀, hfiles, hamended⟩ := (tenants_refines who env).exists_filed
      (TenantPool.inv_initial who db) (fun _ => rfl) hc (Db.docket_of_some hrow)
    obtain ⟨hfiling, hclerk⟩ := filing_of_amended hamended
    have huser : row.userId = e₀.row.userId := userId_of_amended hamended
    cases hactor : actorOf who l with
    | worker =>
        rw [hactor] at hfiles
        exact hfiles.elim
    | background =>
        rw [hactor] at hfiles
        exact Or.inl (huser.trans hfiles.1)
    | user session =>
        rw [hactor] at hfiles
        obtain ⟨⟨auth, hauth, hown, horg⟩, -⟩ := hfiles
        obtain ⟨i, hi⟩ : ∃ i, who i = .user session := by
          cases l with
          | environment => cases hactor
          | act i o r => exact ⟨i, hactor⟩
          | finish i => exact ⟨i, hactor⟩
          | crash i => exact ⟨i, hactor⟩
          | start i => exact ⟨i, hactor⟩
        exact Or.inr ⟨i, session, auth, hi, hauth, huser.trans hown, hclerk.trans horg⟩
  · obtain ⟨e', he', hamended, hby⟩ := (tenants_refines who env).exists_amended hinv
      hrun hc' (Db.docket_of_some hrow)
    obtain ⟨hfiling, hclerk⟩ := filing_of_amended hamended
    obtain ⟨hrow', horg⟩ := Db.request?_of_docket he'
    refine ⟨e'.row, hrow', hfiling, horg.symm.trans hclerk, fun hstatus => ?_, fun hchain => ?_⟩
    · obtain ⟨p, hp, e₁, e₂, hold, hamends, hne⟩ := hby _ (fun e => e.row.status) hstatus
      refine ⟨p, hp, ?_⟩
      obtain ⟨-, -, hactor⟩ := hamends
      have huser : e₁.row.userId = row.userId := userId_of_amended hold
      cases ha : actorOf who p.1 with
      | worker => exact Or.inl rfl
      | background =>
          rw [ha] at hactor
          exact absurd hactor.2 hne
      | user session =>
          rw [ha] at hactor
          exact Or.inr ⟨session, rfl, huser ▸ hactor.1, hactor.2.1.trans huser⟩
    · obtain ⟨p, hp, e₁, e₂, -, hamends, hne⟩ := hby _ (fun e => e.row.onChain) hchain
      refine ⟨p, hp, ?_⟩
      obtain ⟨-, -, hactor⟩ := hamends
      cases ha : actorOf who p.1 with
      | worker => rfl
      | background =>
          rw [ha] at hactor
          exact absurd hactor.1 hne
      | user session =>
          rw [ha] at hactor
          exact absurd hactor.2.2.1 hne

end Run

/-! ## One request -/

/-- The user of `exampleSession` is the only one. -/
def onlyUser : Unit → Actor := fun _ => .user exampleSession

theorem tenants_server {c : ServerCall} {db db' : Db} {r : Except Failure c.Resp}
    (h : c.Exec db db' r) (ids : List String) :
    (tenants Unit onlyUser plainEnv).answers ids db (.server c) db' r :=
  Or.inl h

theorem posted_reaches : ∃ c : TenantPool Unit, c.world = onePosted ∧
    Reaches (tenants Unit onlyUser plainEnv).Step (TenantPool.initial {}) c := by
  have hlimit : (ServerCall.rateLimit "service-requests:ip").Exec {} {} (.ok none) :=
    ⟨rfl, none, rfl⟩
  have hagent : ServerCall.getAgentENSName.Exec {} {} (.ok none) := ⟨rfl, none, rfl⟩
  have hnow : (ServerCall.quota .now).Exec {} {} (.ok (0 : ℤ)) := ⟨rfl, 0, rfl⟩
  have hcreate : (ServerCall.serviceRequestCreate postedData).Exec {} onePosted (.ok "sr-1") :=
    Or.inl ⟨Or.inl rfl, "sr-1", none, 0, rfl, rfl, rfl, rfl⟩
  exact ⟨_, rfl,
    .head (.start (i := ()) rfl (.post exampleSession "ip" (some exampleBody))) <|
    .head (.act (i := ()) rfl (tenants_server hlimit _)) <|
    .head (.act (i := ()) rfl (tenants_server hagent _)) <|
    .head (.act (i := ()) rfl (tenants_server hnow _)) <|
    .head (.act (i := ()) rfl (tenants_server hcreate _)) <| .refl _ _⟩

theorem requests_in_custody_of_posted :
    ∃ c : TenantPool Unit, c.world = onePosted ∧ c.InCustody onlyUser plainEnv := by
  obtain ⟨c, hworld, hreach⟩ := posted_reaches
  exact ⟨c, hworld, requests_in_custody hreach⟩

end EpsDapp
