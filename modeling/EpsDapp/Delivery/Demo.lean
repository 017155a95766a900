import EpsDapp.Delivery.Calls
import EpsDapp.Server.Session

/-!
# The demo routes

`POST /api/demo/skip-payment` and `POST /api/demo/fulfill` advance a request of
the caller without the worker. Both look at the status of the row first and
write to it by its id afterwards.
-/

set_option autoImplicit false

namespace EpsDapp

open Effect DeliveryProgram

/-- The name of a status in the database. -/
def ServiceStatus.name : ServiceStatus → String
  | .staged => "STAGED"
  | .inProgress => "IN_PROGRESS"
  | .confirmed => "CONFIRMED"
  | .failed => "FAILED"

/-- The body of a request: no JSON, or JSON with a string under `id` or none. -/
inductive DemoBody
  | invalid
  | json (id : Option String)

/-- What `fulfill` answers with when it has run. -/
structure Fulfilled where
  id : String
  status : ServiceStatus
  hcsTxId : String
  hcsSequenceNumber : ℤ
  nftSerial : Option ℤ
  nftTransferTx : Option String
  mintError : Option String
  timestamp : String
  hashscan : String

/-- A response, with its status code where it is an error. -/
inductive DemoResponse
  | error (code : ℕ) (message : String)
  | conflict (message id : String) (status : ServiceStatus)
  | submitFailed (detail : String)
  | skipped (id : String) (status : ServiceStatus)
  | fulfilled (body : Fulfilled)

/-- What both routes do first: the demo gate, the session, and the body. -/
def demoRoute (demoMode : Bool) (session : Session) (body : DemoBody)
    (handler : String → String → DeliveryProgram DemoResponse) :
    DeliveryProgram DemoResponse :=
  if demoMode then
    match requireUser session with
    | .error (.unauthorized message) => pure (.error 401 message)
    | .error e => throw e
    | .ok auth =>
        match body with
        | .invalid => pure (.error 400 "Invalid JSON body")
        | .json id =>
            match truthy id with
            | none => pure (.error 400 "Validation failed")
            | some id => handler id auth.userId
  else pure (.error 404 "Not found")

/-- `POST /api/demo/skip-payment`. -/
def skipPayment (demoMode : Bool) (session : Session) (body : DemoBody) :
    DeliveryProgram DemoResponse :=
  demoRoute demoMode session body fun id userId => do
    match ← findOwned id userId with
    | none => pure (.error 404 "Service request not found")
    | some existing =>
        if existing.status ≠ .staged then
          pure (.error 409 ("Cannot skip payment for a request in status " ++
            existing.status.name ++ "."))
        else do
          let updated ← update existing.id { status := some .inProgress }
          pure (.skipped updated.id updated.status)

/-- What `fulfill` reads of the environment; `client` is what building the Hedera
client comes to. -/
structure HederaEnv where
  operatorId : Option String
  operatorKey : Option String
  topicId : Option String
  mainnet : Bool
  client : Except Failure Unit

/-- `https://hashscan.io/${network}`. -/
def HederaEnv.mirrorBase (env : HederaEnv) : String :=
  "https://hashscan.io/" ++ if env.mainnet then "mainnet" else "testnet"

/-- The HTS columns that `fulfill` writes for a minted token. -/
def ProofNFT.columns (nft : ProofNFT) (mirrorBase : String) (u : HederaUpdate) : HederaUpdate :=
  if nft.tokenId = "" then u
  else
    { u with
      htsTokenId := some nft.tokenId
      htsSerialNumber := some (some nft.serial)
      htsTxId := some (some nft.transferTx)
      htsMirrorUrl := some (if nft.serial = 0 then none
        else some (mirrorBase ++ "/token/" ++ nft.tokenId ++ "/" ++ toString nft.serial))
      htsNftSerial := some (some nft.serial)
      htsTransferTx := some (some nft.transferTx) }

/-- The Hedera half of `fulfill`, for a row that is not terminal: the proof, and
the write of `CONFIRMED`. -/
def fulfillProof (env : HederaEnv) (timestamp topicId : String) (existing : ServiceRequest) :
    DeliveryProgram DemoResponse :=
  match env.client with
  | .error e => throw e
  | .ok _ => do
      let submitted ← tryCatch (Except.ok <$> topicMessageSubmit existing.id)
        fun e => pure (Except.error e)
      match submitted with
      | .error e => pure (.submitFailed ("Error: " ++ e.message))
      | .ok (hcsTxId, hcsSequenceNumber) => do
          let minted ← tryCatch (Except.ok <$> mintAndTransferProofNFT existing.id)
            fun e => pure (Except.error e)
          let nft : Option ProofNFT := minted.toOption.join
          let hcs : HederaUpdate :=
            { hcsTopicId := some topicId
              hcsSequenceNumber := some hcsSequenceNumber
              hcsConsensusTime := some (some timestamp)
              hcsTxId := some hcsTxId
              hcsMirrorUrl := some (env.mirrorBase ++ "/topic/" ++ topicId ++ "/messages?seq=" ++
                toString hcsSequenceNumber) }
          let updated ← update existing.id {
            status := some .confirmed
            hedera := match nft with
              | none => hcs
              | some nft => nft.columns env.mirrorBase hcs }
          pure (.fulfilled {
            id := updated.id
            status := updated.status
            hcsTxId := hcsTxId
            hcsSequenceNumber := hcsSequenceNumber
            nftSerial := nft.map ProofNFT.serial
            nftTransferTx := nft.map ProofNFT.transferTx
            mintError := match minted with
              | .error e => some e.message
              | .ok _ => none
            timestamp := timestamp
            hashscan := env.mirrorBase ++ "/topic/" ++ topicId })

/-- `POST /api/demo/fulfill`. -/
def fulfill (demoMode : Bool) (env : HederaEnv) (timestamp : String) (session : Session)
    (body : DemoBody) : DeliveryProgram DemoResponse :=
  demoRoute demoMode session body fun id userId => do
    match ← findOwned id userId with
    | none => pure (.error 404 "Service request not found")
    | some existing =>
        match existing.status with
        | .confirmed => pure (.conflict "Already confirmed" existing.id existing.status)
        | .failed =>
            pure (.conflict "Service request has failed; create a new one." existing.id
              existing.status)
        | _ =>
            match truthy env.operatorId, truthy env.operatorKey, truthy env.topicId with
            | some _, some _, some topicId => fulfillProof env timestamp topicId existing
            | _, _, _ => pure (.error 503 "Hedera not configured")

end EpsDapp
