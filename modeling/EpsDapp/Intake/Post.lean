import EpsDapp.Server.Calls
import EpsDapp.Server.Session
import EpsDapp.Text.Encoding

/-!
# `POST /api/service-requests`

The HTTP entry point stages a request in separate steps: it validates the body,
resolves the recipient, consumes a unit of the organization's quota when there is
one, creates the row, and anchors it on Hedera. It stores no document and
generates no notice token.
-/

set_option autoImplicit false

namespace EpsDapp

open Calendar Effect ServerProgram

/-! ## The body -/

/-- A JSON value. What a number is makes no difference here. -/
inductive Json
  | null
  | bool (value : Bool)
  | number
  | string (value : String)
  | array (items : List Json)
  | object (fields : List (String × Json))

/-- An issue of the validator; where the schema gives no message, it is the
validator's own. -/
inductive ZodIssue
  | invalidType (expected : String)
  | tooSmall (minimum : ℕ) (message : Option String)
  | tooBig (maximum : ℕ)
  | invalidValue (message : String)
  deriving DecidableEq

/-- Issues, each under its field. -/
abbrev FieldErrors := List (String × ZodIssue)

/-- Validation collects the issues of every field. -/
def collect {α β : Type} : Except FieldErrors (α → β) → Except FieldErrors α → Except FieldErrors β
  | .ok f, .ok a => .ok (f a)
  | .ok _, .error e => .error e
  | .error e, .ok _ => .error e
  | .error e, .error e' => .error (e ++ e')

/-- `z.string().trim()`, with `.min(1)` and its message, and `.max`. -/
def zodString (field : String) (min : Option (Option String)) (max : Option ℕ) :
    Option Json → Except FieldErrors String
  | some (.string s) =>
      let trimmed := trim s
      if min.isSome ∧ utf16Length trimmed < 1 then .error [(field, .tooSmall 1 min.join)]
      else
        match max with
        | none => .ok trimmed
        | some maximum =>
            if maximum < utf16Length trimmed then .error [(field, .tooBig maximum)]
            else .ok trimmed
  | _ => .error [(field, .invalidType "string")]

/-- `.nullish()` -/
def zodNullish {α : Type} (schema : Option Json → Except FieldErrors α) :
    Option Json → Except FieldErrors (Option α)
  | none | some .null => .ok none
  | v => (schema v).map some

/-- `z.boolean().optional().default(false)` -/
def zodFlag (field : String) : Option Json → Except FieldErrors Bool
  | none => .ok false
  | some (.bool b) => .ok b
  | _ => .error [(field, .invalidType "boolean")]

/-- `z.literal(true, { message })` -/
def zodLiteralTrue (field message : String) : Option Json → Except FieldErrors Unit
  | some (.bool true) => .ok ()
  | _ => .error [(field, .invalidValue message)]

/-- `z.infer<typeof ServiceRequestInput>`, less `attested`, which is `true`. -/
structure ServiceRequestInput where
  caseCaption : String
  plaintiffName : String
  defendantName : String
  recipientWallet : String
  recipientEnsName : Option String
  recipientResolvedAddress : Option String
  courtOrderFlag : Bool
  deriving DecidableEq

/-- `ServiceRequestInput.safeParse`. A body that is no object has no field to
blame. -/
def ServiceRequestInput.safeParse : Json → Except FieldErrors ServiceRequestInput
  | .object fields =>
      let field (name : String) : Option Json := fields.lookup name
      let required (name message : String) (max : Option ℕ) : Except FieldErrors String :=
        zodString name (some (some message)) max (field name)
      let parsed := collect (.ok ServiceRequestInput.mk)
        (required "caseCaption" "Case caption is required." (some 500))
      let parsed := collect parsed
        (required "plaintiffName" "Plaintiff name is required." (some 300))
      let parsed := collect parsed
        (required "defendantName" "Defendant name is required." (some 300))
      let parsed := collect parsed
        (required "recipientWallet" "Recipient wallet is required." none)
      let parsed := collect parsed (zodNullish
        (zodString "recipientEnsName" (some none) (some 255)) (field "recipientEnsName"))
      let parsed := collect parsed (zodNullish
        (zodString "recipientResolvedAddress" none none) (field "recipientResolvedAddress"))
      let parsed := collect parsed (zodFlag "courtOrderFlag" (field "courtOrderFlag"))
      collect (parsed.map fun input _ => input) (zodLiteralTrue "attested"
        "You must attest to the accuracy of the case caption." (field "attested"))
  | _ => .error []

/-! ## The route -/

/-- A response: an error with what its body carries, or the staged request. -/
inductive IntakeResponse
  | error (code : ℕ) (message : String) (issues : FieldErrors := [])
      (reason : Option RecipientReason := none)
  | created (id : String) (status : ServiceStatus)
  deriving DecidableEq

/-- `/^0x[0-9a-fA-F]{40}$/` -/
def isEvmAddress (s : String) : Bool :=
  match s.toList with
  | '0' :: 'x' :: digits => decide (digits.length = 40) && digits.all isHex
  | _ => false

/-- The text contains a dot, and more than digits and dots. -/
def looksLikeEns (s : String) : Bool :=
  s.toList.contains '.' && !(s.toList.all fun c => c.isDigit || c == '.')

/-- The wallet a request is served to, and the name it was resolved from. -/
structure Recipient where
  wallet : String
  ensDisplayName : Option String
  deriving DecidableEq

/-- The address that the form resolved itself, if it is one. -/
def ServiceRequestInput.clientResolved (input : ServiceRequestInput) : Option String :=
  (input.recipientResolvedAddress.map trim).filter isEvmAddress

/-- Step (2a): the recipient, given what the server resolved its name to. -/
def ServiceRequestInput.recipient (input : ServiceRequestInput) (ensResult : ENSResolution) :
    Except IntakeResponse Recipient :=
  match truthy ensResult.address with
  | some address =>
      .ok ⟨address, if ensResult.displayName ≠ address then some ensResult.displayName else none⟩
  | none =>
      match input.clientResolved with
      | some address => .ok ⟨address, some input.recipientWallet⟩
      | none =>
          if ensResult.wasENSName then
            .error (.error 400 ("ENS name \"" ++ input.recipientWallet ++
              "\" does not resolve to a wallet address."))
          else .ok ⟨input.recipientWallet, none⟩

/-- Step (2a), with the lookup. -/
def resolveRecipient (input : ServiceRequestInput) :
    ServerProgram (Except IntakeResponse Recipient) :=
  if looksLikeEns input.recipientWallet then do
    let ensResult ← resolveENS input.recipientWallet
    pure (input.recipient ensResult)
  else pure (.ok ⟨input.recipientWallet, none⟩)

/-- Step (2b): what to answer for a wallet that cannot be served. -/
def refuseWallet (web3 : Web3) (wallet : String) : Except Failure (Option IntakeResponse) :=
  if isEvmAddress wallet then .ok none
  else
    match assertValidRecipient web3 wallet with
    | .ok _ => .ok none
    | .error e =>
        match e with
        | .invalidRecipient _ reason => .ok (some (.error 400 e.message [] (some reason)))
        | _ => .error e

/-- Step (3): consume a unit of the organization's quota, if there is one; a plan
that is missing or used up is an answer. -/
def chargeOrg (orgId : Option String) : ServerProgram (Option IntakeResponse) :=
  match truthy orgId with
  | none => pure none
  | some orgId =>
      tryCatch (do
        let _ ← quota (checkAndDecrementQuota orgId)
        pure none) fun e =>
          match e with
          | .quotaExceeded _ _ => pure (some (.error 403 e.message))
          | .noActiveSubscription _ => pure (some (.error 402 e.message))
          | _ => throw e

/-- The request that step (4) stages. -/
def ServiceRequestInput.data (input : ServiceRequestInput) (auth : UserAuthContext)
    (recipient : Recipient) (agentENSName : Option String) (attestedAt : Instant) :
    ServiceRequestCreate where
  userId := some auth.userId
  organization := truthy auth.orgId
  caseCaption := input.caseCaption
  plaintiffName := input.plaintiffName
  defendantName := input.defendantName
  recipientWallet := recipient.wallet
  recipientEnsName := input.recipientEnsName.or recipient.ensDisplayName
  courtOrderFlag := input.courtOrderFlag
  attestedAt := attestedAt
  ensDisplayName := recipient.ensDisplayName
  agentENSName := agentENSName

/-- The columns that a result of Hedera fills in. -/
def HederaServiceResult.updates (result : HederaServiceResult) : HederaUpdate where
  hcsTopicId := result.hcs.map HCSResult.topicId
  hcsSequenceNumber := result.hcs.map HCSResult.sequenceNumber
  hcsConsensusTime := result.hcs.map HCSResult.consensusTimestamp
  hcsTxId := result.hcs.map HCSResult.transactionId
  hcsMirrorUrl := result.hcs.map HCSResult.mirrorNodeUrl
  htsTokenId := result.hts.map HTSMintResult.tokenId
  htsSerialNumber := result.hts.map fun hts => some hts.serialNumber
  htsTxId := result.hts.map fun hts => some hts.transactionId
  htsMirrorUrl := result.hts.map fun hts => some hts.mirrorNodeUrl

/-- `anchorOnHedera`: its failures are swallowed. -/
def anchorOnHedera (id : String) (payload : HederaPayload) : ServerProgram Unit :=
  tryCatch (do
    let result ← recordOnHedera payload
    if result.hcs.isSome || result.hts.isSome then
      serviceRequestUpdate id { hedera := result.updates }
    else pure ()) fun _ => pure ()

/-- Steps (4) and (5): stage the request and anchor it. -/
def stage (evmAppWalletAddress : Option String) (input : ServiceRequestInput)
    (auth : UserAuthContext) (recipient : Recipient) (agentENSName : Option String) :
    ServerProgram IntakeResponse := do
  let attestedAt ← now
  let id ← serviceRequestCreate (input.data auth recipient agentENSName attestedAt)
  anchorOnHedera id {
    deliveryId := id
    documentHash := ""
    caseRef := input.caseCaption
    servedTo := recipient.wallet
    servedBy := (agentENSName.or evmAppWalletAddress).getD "eps-agent" }
  pure (.created id .staged)

/-- The steps of the route from (2) on. -/
def serve (web3 : Web3) (evmAppWalletAddress : Option String) (input : ServiceRequestInput)
    (auth : UserAuthContext) : ServerProgram IntakeResponse := do
  match ← resolveRecipient input with
  | .error response => pure response
  | .ok recipient => do
      let agentENSName ← getAgentENSName
      match ← Program.done (refuseWallet web3 recipient.wallet) with
      | some response => pure response
      | none => do
          match ← chargeOrg auth.orgId with
          | some response => pure response
          | none => stage evmAppWalletAddress input auth recipient agentENSName

/-- `POST /api/service-requests`; `body` is absent when it is no JSON. -/
def postServiceRequests (web3 : Web3) (evmAppWalletAddress : Option String) (clientKey : String)
    (session : Session) (body : Option Json) : ServerProgram IntakeResponse := do
  match ← rateLimit ("service-requests:" ++ clientKey) with
  | some _ => pure (.error 429 "Rate limit exceeded. Try again shortly.")
  | none =>
      match requireUser session with
      | .error e => pure (.error 401 e.message)
      | .ok auth =>
          match body with
          | none => pure (.error 400 "Invalid JSON body")
          | some body =>
              match ServiceRequestInput.safeParse body with
              | .error issues => pure (.error 400 "Validation failed" issues)
              | .ok input => serve web3 evmAppWalletAddress input auth

/-! ## What the route calls -/

/-- The calls of the route: it creates a request without a token and a digest, and
updates no column but those of Hedera. -/
def ServerCall.OfPost : ServerCall → Prop
  | rateLimit _ | quota _ | resolveENS _ | getAgentENSName | recordOnHedera _ => True
  | serviceRequestCreate data => data.noticeToken = none ∧ data.documentSha256 = none
  | serviceRequestUpdate _ data => ∃ u, data = { hedera := u }
  | _ => False

section Only

variable {A : ServerCall → Prop}

theorem quota_only {α : Type} (hquota : ∀ c, A (.quota c)) (p : QuotaProgram α) :
    (quota p).Only A := by
  refine (Program.only_lift p).mono ?_
  rintro _ ⟨c, rfl⟩
  exact hquota c

theorem chargeOrg_only (hquota : ∀ c, A (.quota c)) (orgId : Option String) :
    (chargeOrg orgId).Only A := by
  rw [chargeOrg]
  split
  · exact Program.only_pure _
  · refine Program.only_tryCatch ?_ fun e => ?_
    · exact Program.only_bind (quota_only hquota _) fun _ => Program.only_pure _
    · split
      · exact Program.only_pure _
      · exact Program.only_pure _
      · exact Program.only_throw _

theorem anchorOnHedera_only (hrecord : ∀ payload, A (.recordOnHedera payload))
    (hupdate : ∀ id u, A (.serviceRequestUpdate id { hedera := u })) (id : String)
    (payload : HederaPayload) : (anchorOnHedera id payload).Only A := by
  refine Program.only_tryCatch ?_ fun e => Program.only_pure _
  refine Program.only_bind ((Program.only_perform _).2 (hrecord payload)) fun result => ?_
  split
  · exact (Program.only_perform _).2 (hupdate id _)
  · exact Program.only_pure _

/-- The steps after the charge create the request that they are given. -/
theorem stage_only {evmAppWalletAddress : Option String} {input : ServiceRequestInput}
    {auth : UserAuthContext} {recipient : Recipient} {agentENSName : Option String}
    (hquota : ∀ c, A (.quota c)) (hrecord : ∀ payload, A (.recordOnHedera payload))
    (hupdate : ∀ id u, A (.serviceRequestUpdate id { hedera := u }))
    (hcreate : ∀ attestedAt,
      A (.serviceRequestCreate (input.data auth recipient agentENSName attestedAt))) :
    (stage evmAppWalletAddress input auth recipient agentENSName).Only A := by
  refine Program.only_bind (quota_only hquota _) fun attestedAt => ?_
  refine Program.only_bind ((Program.only_perform _).2 (hcreate attestedAt)) fun id => ?_
  exact Program.only_bind (anchorOnHedera_only hrecord hupdate _ _) fun _ => Program.only_pure _

end Only

theorem serve_onlyOfPost (web3 : Web3) (evmAppWalletAddress : Option String)
    (input : ServiceRequestInput) (auth : UserAuthContext) :
    (serve web3 evmAppWalletAddress input auth).Only ServerCall.OfPost := by
  refine Program.only_bind ?_ fun resolved => ?_
  · rw [resolveRecipient]
    split
    · exact Program.only_bind ((Program.only_perform _).2 trivial) fun _ => Program.only_pure _
    · exact Program.only_pure _
  · split
    · exact Program.only_pure _
    · refine Program.only_bind ((Program.only_perform _).2 trivial) fun agentENSName => ?_
      refine Program.only_bind (Program.only_done _) fun refused => ?_
      split
      · exact Program.only_pure _
      · refine Program.only_bind (chargeOrg_only (fun _ => trivial) _) fun response => ?_
        split
        · exact Program.only_pure _
        · exact stage_only (fun _ => trivial) (fun _ => trivial) (fun _ _ => ⟨_, rfl⟩)
            fun _ => ⟨rfl, rfl⟩

theorem postServiceRequests_only (web3 : Web3) (evmAppWalletAddress : Option String)
    (clientKey : String) (session : Session) (body : Option Json) :
    (postServiceRequests web3 evmAppWalletAddress clientKey session body).Only
      ServerCall.OfPost := by
  refine Program.only_bind ((Program.only_perform _).2 trivial) fun refused => ?_
  split
  · exact Program.only_pure _
  · split
    · exact Program.only_pure _
    · split
      · exact Program.only_pure _
      · split
        · exact Program.only_pure _
        · exact serve_onlyOfPost _ _ _ _

end EpsDapp
